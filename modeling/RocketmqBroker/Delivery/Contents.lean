import RocketmqBroker.Broker.Footprint
import RocketmqBroker.Delivery.HandOuts
import RocketmqBroker.Durability.References

/-!
Where the contents of messages come from. Whatever is handed out of a queue was sent as it is
by some request, through transactions, the log, compactions and restarts.
-/
namespace RocketmqBroker
open Run.Program

structure SentMessage where
  exchange : String
  routingKey : String
  headers : Bytes
  body : Bytes
  deriving DecidableEq, Repr

def Message.asSent (m : Message) : SentMessage := ⟨m.exchange, m.routingKey, m.headers, m.body⟩

def EnqueueCtx.asSent (ctx : EnqueueCtx) : SentMessage :=
  ⟨ctx.exchange, ctx.routingKey, ctx.propBytes, ctx.bodyBytes⟩

def PendingOp.asSent? : PendingOp → Option SentMessage
  | publish exchange routingKey headers body => some ⟨exchange, routingKey, headers, body⟩
  | ack _ => none

def LogRecord.asSent? : LogRecord → Option SentMessage
  | enqueue _ _ exchange routingKey headers body => some ⟨exchange, routingKey, headers, body⟩
  | _ => none

/-- What a request sends: a client, the management interface or another member of the cluster,
    of which only the body gets here. -/
def Op.sends : Op → Option SentMessage
  | basicPublish _ _ args _ =>
    some ⟨args.exchange, args.routingKey, args.properties.encode, args.body⟩
  | publishMessage exchange routingKey payload => some ⟨exchange, routingKey, [], payload⟩
  | replicatePublish _ _ _ _ body => some ⟨"", "", [], body⟩
  | _ => none

structure Genuine (env : Env) (sent : SentMessage → Prop) (s : BrokerState) : Prop where
  full : ∀ name q m, s.queues.get? name = some q → .full m ∈ q.messages.contents → sent m.asSent
  refs : ∀ name q r, s.queues.get? name = some q → .ref r ∈ q.messages.contents →
    ∃ ctx, Stored env s name r ctx ∧ (r.exchange, r.routingKey) = (ctx.exchange, ctx.routingKey) ∧
      sent ctx.asSent
  held : ∀ name q tag m, s.queues.get? name = some q → q.inflight.get? tag = some m →
    sent m.asSent
  buffered : ∀ p, s.Buffers p → ∀ c ∈ p.asSent?, sent c
  backed : Backed env s
  logged : ∀ r ∈ records env s, ∀ c ∈ r.asSent?, sent c

def Effect.BringsSent (sent : SentMessage → Prop) (s : BrokerState) : Effect → Prop
  | books b => ∀ p, (b.apply s).Buffers p → s.Buffers p ∨ ∀ c ∈ p.asSent?, sent c
  | enqueue _ ctx _ => sent ctx.asSent
  | enqueueFull _ exchange routingKey headers body => sent ⟨exchange, routingKey, headers, body⟩
  | pushFull _ m => sent m.asSent
  | replicatePublish _ _ body => sent ⟨"", "", [], body⟩
  | _ => True

section
variable {env : Env} {sent : SentMessage → Prop} {s : BrokerState} {e : Effect}

theorem back_asSent (m : Message) (counted : Bool) : (m.back counted).asSent = m.asSent := by
  cases counted <;> rfl

theorem Genuine.read (genuine : Genuine env sent s) {name : String} {q : QueueState}
    {qm : QueueMessage} {m : Message} (found : s.queues.get? name = some q)
    (member : qm ∈ q.messages.contents) (read : qm.resolve env.crc32 s.wal = .ok m) :
    sent m.asSent := by
  cases qm with
  | full m' =>
    cases read
    exact genuine.full name q m found member
  | ref r =>
    obtain ⟨ctx, stored, names, was_sent⟩ := genuine.refs name q r found member
    rw [stored_resolves genuine.backed stored] at read
    cases read
    obtain ⟨exchange, routingKey⟩ := Prod.mk.inj names
    change sent ⟨r.exchange, r.routingKey, ctx.propBytes, ctx.bodyBytes⟩
    rw [exchange, routingKey]
    exact was_sent

theorem pushedBy_asSent {queue : String} {ctx : EnqueueCtx} {now : Instant} {m : Message}
    (pushed : pushedBy env s queue ctx now = some (.full m)) : m.asSent = ctx.asSent := by
  obtain ⟨q, -, built⟩ := Option.map_eq_some_iff.mp pushed
  unfold buildQueueMessage at built
  split at built
  · contradiction
  · cases built
    rfl

theorem full_exec (genuine : Genuine env sent s) (brings : e.BringsSent sent s) {name : String}
    {q : QueueState} {m : Message} (found : (exec env s e).queues.get? name = some q)
    (member : .full m ∈ q.messages.contents) : sent m.asSent := by
  generalize qm_eq : QueueMessage.full m = qm at member
  cases arrives_exec found member with
  | inl old =>
    obtain ⟨q, present, inside⟩ := old
    subst qm_eq
    exact genuine.full name q m present inside
  | inr adds =>
    cases adds with
    | enqueue pushed =>
      subst qm_eq
      rw [pushedBy_asSent pushed]
      exact brings
    | enqueueFull known =>
      cases qm_eq
      exact brings
    | pushFull known =>
      cases qm_eq
      exact brings
    | replicated known =>
      cases qm_eq
      exact brings
    | rotated present front fated =>
      cases qm_eq
      exact genuine.read present front.mem front.2
    | requeued present inside =>
      cases qm_eq
      rw [back_asSent]
      exact genuine.held name _ _ _ present inside
    | restored present inside =>
      obtain ⟨msgId, exchange, routingKey, headers, body, logged, rfl⟩ := mem_restart present inside
      rw [recordsFound_eq genuine.backed] at logged
      cases qm_eq
      exact genuine.logged _ logged _ rfl

theorem refs_exec (genuine : Genuine env sent s) (brings : e.BringsSent sent s)
    (anchored : Anchored env s e) {name : String} {q : QueueState} {r : MessageRef}
    (found : (exec env s e).queues.get? name = some q) (member : .ref r ∈ q.messages.contents) :
    ∃ ctx, Stored env (exec env s e) name r ctx ∧
      (r.exchange, r.routingKey) = (ctx.exchange, ctx.routingKey) ∧ sent ctx.asSent := by
  cases restarts : e.restarts with
  | true =>
    cases e with
    | restart now auth cluster => exact absurd member (no_ref_restart found)
    | _ => contradiction
  | false =>
    have grown := (backed_exec genuine.backed anchored.1).2
    rcases kept_exec restarts found member with ⟨q, present, old⟩ | ⟨ctx, now, rfl, pushed⟩
    · obtain ⟨ctx, stored, names, was_sent⟩ := genuine.refs name q r present old
      refine ⟨ctx, ?_, names, was_sent⟩
      cases e with
      | compact =>
        rw [Effect.entriesAfter] at grown
        split at grown
        · exact stored_append stored (grown.trans (List.append_nil _).symm)
        · rename_i goesThrough
          have steady := anchored.2.resolve_left goesThrough r (mem_readyRefs present old)
          exact stored_kept stored steady grown
      | _ => exact stored_append stored grown
    · refine ⟨ctx, stored_pushed genuine.backed anchored.1 pushed, ?_, brings⟩
      obtain ⟨q, -, built⟩ := Option.map_eq_some_iff.mp pushed
      unfold buildQueueMessage at built
      split at built
      · cases built
        rfl
      · contradiction

theorem held_sent (genuine : Genuine env sent s) {name : String} {q : QueueState} {tag : UInt64}
    {m : Message} (found : (exec env s e).queues.get? name = some q)
    (held : q.inflight.get? tag = some m) : sent m.asSent := by
  cases inflight_exec found held with
  | inl old =>
    obtain ⟨q, present, inside⟩ := old
    exact genuine.held name q tag m present inside
  | inr moved =>
    obtain ⟨-, q, first, present, front⟩ := moved
    exact genuine.read present front.mem front.2

theorem buffered_sent (genuine : Genuine env sent s) (brings : e.BringsSent sent s) {p : PendingOp}
    (buffered : (exec env s e).Buffers p) : ∀ c ∈ p.asSent?, sent c := by
  cases e with
  | books change => exact (brings p buffered).elim (genuine.buffered p) id
  | createQueue queue new logs schema =>
    cases logs <;> exact genuine.buffered p buffered
  | restart now auth cluster =>
    obtain ⟨connId, cs, found, -⟩ := buffered
    change (restart env now s.wal.dir auth cluster).connState.get? connId = some cs at found
    rw [restart_replays, (replayRecords_aside _ _ _ _).2] at found
    contradiction
  | _ => exact genuine.buffered p buffered

theorem logged_sent (brings : e.BringsSent sent s) {r : LogRecord} (logged : r ∈ e.logged s) :
    ∀ c ∈ r.asSent?, sent c := by
  intro c here
  cases e with
  | enqueue queue ctx now =>
    simp only [Effect.logged] at logged
    split at logged
    · contradiction
    · split at logged
      · contradiction
      · cases List.mem_singleton.mp logged
        cases here
        exact brings
  | replicatePublish queue msgId body =>
    simp only [Effect.logged] at logged
    split at logged
    · cases List.mem_singleton.mp logged
      cases here
      exact brings
    · contradiction
  | createQueue queue new logs schema =>
    simp only [Effect.logged] at logged
    split at logged
    · cases List.mem_cons.mp logged with
      | inl first =>
        rw [first] at here
        contradiction
      | inr later =>
        obtain ⟨c, -, rfl⟩ := List.mem_map.mp later
        contradiction
    · contradiction
  | createExchange | bind | replicateAck =>
    simp only [Effect.logged] at logged
    split at logged
    · cases List.mem_singleton.mp logged
      contradiction
    · contradiction
  | settle queue tag =>
    simp only [Effect.logged] at logged
    split at logged
    · contradiction
    · split at logged
      · cases List.mem_singleton.mp logged
        contradiction
      · contradiction
  | _ => contradiction

theorem records_sent (genuine : Genuine env sent s) (fits : Fitting s e)
    (brings : e.BringsSent sent s) {r : LogRecord} (member : r ∈ records env (exec env s e)) :
    ∀ c ∈ r.asSent?, sent c := by
  by_cases compacts : e = .compact
  · subst compacts
    cases records_compact genuine.backed with
    | inl same =>
      rw [same] at member
      exact genuine.logged r member
    | inr fewer =>
      rw [fewer] at member
      exact genuine.logged r (List.mem_filter.mp member).1
  · rw [records_exec genuine.backed fits compacts] at member
    cases List.mem_append.mp member with
    | inl old => exact genuine.logged r old
    | inr new => exact logged_sent brings new

theorem Genuine.exec (genuine : Genuine env sent s) (anchored : Anchored env s e)
    (brings : e.BringsSent sent s) : Genuine env sent (exec env s e) where
  full _ _ _ found := full_exec genuine brings found
  refs _ _ _ found := refs_exec genuine brings anchored found
  held _ _ _ _ found := held_sent genuine found
  buffered _ := buffered_sent genuine brings
  backed := (backed_exec genuine.backed anchored.1).1
  logged _ := records_sent genuine anchored.1 brings

theorem Genuine.mono {sent' : SentMessage → Prop} (genuine : Genuine env sent s)
    (more : ∀ c, sent c → sent' c) : Genuine env sent' s where
  full name q m found member := more _ (genuine.full name q m found member)
  refs name q r found member := by
    obtain ⟨ctx, stored, names, was_sent⟩ := genuine.refs name q r found member
    exact ⟨ctx, stored, names, more _ was_sent⟩
  held name q tag m found held := more _ (genuine.held name q tag m found held)
  buffered p waits c here := more c (genuine.buffered p waits c here)
  backed := genuine.backed
  logged r member c here := more c (genuine.logged r member c here)

theorem genuine_install (auth : AuthBackend) (cluster : Option ClusterCoordinator) :
    Genuine env sent (install env auth cluster) where
  full _ _ _ found := by contradiction
  refs _ _ _ found := by contradiction
  held _ _ _ _ found := by contradiction
  buffered := by
    rintro p ⟨connId, cs, found, -⟩
    contradiction
  backed := (backed_install env auth cluster).1
  logged r member := by
    rw [records, (backed_install env auth cluster).2] at member
    contradiction

/-! What each request brings in. -/

def Effect.passes? : Effect → Option SentMessage
  | enqueueFull _ exchange routingKey headers body => some ⟨exchange, routingKey, headers, body⟩
  | replicatePublish _ _ body => some ⟨"", "", [], body⟩
  | _ => none

theorem commit_passes {connId : UInt64} (waits : ∀ p, s.Buffers p → ∀ c ∈ p.asSent?, sent c) :
    ∀ e ∈ (txCommit connId : Act env _).steps s, ∀ c ∈ e.passes?, sent c := by
  intro e member c passed
  unfold txCommit at member
  rw [steps_bind, result_drainTxBuffer] at member
  cases List.mem_append.mp member with
  | inl early =>
    have drained : Takes (fun e : Effect => e.passes? = none) (drainTxBuffer connId : Act env _) :=
      @takes_drainTxBuffer env _ none (fun _ _ => rfl) connId
    rw [drained s e early] at passed
    contradiction
  | inr late =>
    cases found : (s.connState.get? connId).filter (·.txMode) with
    | none =>
      rw [found] at late
      contradiction
    | some cs =>
      rw [found] at late
      have here : s.connState.get? connId = some cs := (Option.filter_eq_some_iff.mp found).1
      have applied : Takes (fun e : Effect => ∀ c ∈ e.passes?, sent c)
          (cs.txBuffer.forM (applyTxOp connId) : Act env PUnit) := by
        refine Takes.forM_mem _ fun p buffered => ?_
        cases p with
        | publish exchange routingKey headers body =>
          exact takes_perform fun c same => waits _ ⟨connId, cs, here, buffered⟩ c same
        | ack msgId =>
          refine (@takes_takeDelivery env _ none (fun _ _ _ => nofun) msgId).bind fun found => ?_
          cases found with
          | none => exact takes_pure _
          | some queue =>
            exact Takes.bind (takes_perform fun _ => nofun) fun _ => takes_perform fun _ => nofun
      refine (?_ : Takes (fun e : Effect => ∀ c ∈ e.passes?, sent c) _) _ e late c passed
      refine (takes_read _).bind fun failure => ?_
      split
      · exact takes_pure _
      · exact applied.bind fun _ => takes_pure _

theorem replicate_passes (term leaderId : UInt64) (queue : String) (msgId : UInt64) (body : Bytes) :
    Takes (fun e : Effect => ∀ c ∈ e.passes?, c = ⟨"", "", [], body⟩)
      (replicatePublish term leaderId queue msgId body : Act env (List Frame)) := by
  refine (@takes_acceptTerm env _ none (fun _ _ _ => nofun) term leaderId).bind fun accepted => ?_
  refine (takes_read _).bind fun known => ?_
  dsimp only
  split
  · refine Takes.bind (takes_perform fun c same => ?_) fun _ => takes_pure _
    exact (Option.mem_some.mp same).symm
  · exact takes_pure _

theorem bringsSent_of_brings {op : Op} (sends : ∀ c ∈ op.sends, sent c) (brings : op.Brings e)
    (passes : ∀ c ∈ e.passes?, sent c) : e.BringsSent sent s := by
  cases e with
  | books b =>
    refine fun p buffered => (brings s p buffered).imp_right fun pending => ?_
    cases op with
    | basicPublish connId channel args now =>
      cases pending
      exact sends
    | _ => contradiction
  | enqueue queue ctx now =>
    obtain ⟨connId, channel, args, now, rfl, rfl⟩ := brings
    exact sends _ rfl
  | pushFull queue m =>
    obtain ⟨exchange, routingKey, payload, id, rfl, rfl⟩ := brings
    exact sends _ rfl
  | enqueueFull | replicatePublish => exact passes _ rfl
  | _ => trivial

/-- Every step of a request brings in what the request sends, or what waited for a commit. -/
theorem brings_sent {op : Op} (sends : ∀ c ∈ op.sends, sent c)
    (waits : ∀ p, s.Buffers p → ∀ c ∈ p.asSent?, sent c) :
    ∀ e ∈ (handle op : Act env (List Frame)).steps s, ∀ t, e.BringsSent sent t := by
  intro e member t
  have both := brings_handle op s e member
  refine bringsSent_of_brings sends both.2 fun c passed => ?_
  cases op with
  | txCommit connId => exact commit_passes waits e member c passed
  | replicatePublish term leaderId queue msgId body =>
    rw [replicate_passes term leaderId queue msgId body s e member c passed]
    exact sends _ rfl
  | _ =>
    have performs := both.1
    cases e <;> contradiction

end

def SentBy (ops : List Op) (c : SentMessage) : Prop := ∃ op ∈ ops, op.sends = some c

structure HandOuts.Authentic (env : Env) (sent : SentMessage → Prop) (h : HandOuts) : Prop where
  genuine : Genuine env sent h.broker
  handed : ∀ p ∈ h.handed, sent p.2.asSent

section
variable {env : Env} {sent : SentMessage → Prop} {h : HandOuts}

theorem HandOuts.Authentic.step {e : Effect} (authentic : h.Authentic env sent) (expires : Bool)
    (anchored : Anchored env h.broker e) (brings : e.BringsSent sent h.broker) :
    (h.step env expires e).Authentic env sent where
  genuine := authentic.genuine.exec anchored brings
  handed := by
    intro p member
    cases List.mem_append.mp member with
    | inl old => exact authentic.handed p old
    | inr new =>
      obtain ⟨name, m⟩ := p
      obtain ⟨fate, -, -, front⟩ := mem_handed new
      obtain ⟨q, first, found, read⟩ := mem_frontAt front
      exact authentic.genuine.read found read.mem read.2

theorem HandOuts.Authentic.serve {op : Op} (authentic : h.Authentic env sent)
    (sends : ∀ c ∈ op.sends, sent c)
    (anchored : Run.Along (exec env) (Anchored env) h.broker
      ((handle op : Act env (List Frame)).steps h.broker)) :
    (h.serve env op).Authentic env sent := by
  have brings := @brings_sent env sent h.broker op sends authentic.genuine.buffered
  have both := (Run.along_congr anchored fun t e fine => (and_iff_right fine).symm).mp
    (Run.along_of_kind (fun t e brought => brought t) brings h.broker)
  have along : Run.Along (HandOuts.step env op.expiresMessages)
      (fun h' e => Anchored env h'.broker e ∧ e.BringsSent sent h'.broker) h
      ((handle op : Act env (List Frame)).steps h.broker) :=
    (Run.along_map (fun _ _ => rfl) h _).mpr both
  exact Run.invariant (fun _ => HandOuts.Authentic env sent) authentic
    (fun _ _ _ allowed before => before.step op.expiresMessages allowed.1 allowed.2) along

/-- In the runs whose records fit the log, and whose compactions drop no entry in front of one
    that a waiting message is read from, every message that is handed out is what some request
    has sent: the same exchange, routing key, headers and body. -/
theorem handed_out_was_sent (env : Env) (auth : AuthBackend) (cluster : Option ClusterCoordinator)
    (ops : List Op) (anchored : Throughout env auth cluster (Anchored env) ops) :
    ∀ p ∈ (HandOuts.after env auth cluster ops).handed, SentBy ops p.2.asSent := by
  have along := (Run.along_map broker_serve (HandOuts.start env auth cluster) ops).mpr
    ((along_serve ops _).mp anchored.along)
  have start : (HandOuts.start env auth cluster).Authentic env (SentBy []) :=
    ⟨genuine_install auth cluster, fun p none_yet => by contradiction⟩
  refine (Run.invariant (fun past => HandOuts.Authentic env (SentBy past)) start ?_ along).handed
  intro past h op allowed before
  have more (c : SentMessage) (earlier : SentBy past c) : SentBy (past ++ [op]) c := by
    obtain ⟨op', member, sends⟩ := earlier
    exact ⟨op', List.mem_append_left _ member, sends⟩
  have authentic : h.Authentic env (SentBy (past ++ [op])) :=
    ⟨before.genuine.mono more, fun p member => more _ (before.handed p member)⟩
  exact authentic.serve
    (fun c sends => ⟨op, List.mem_append_right _ (List.mem_singleton_self op), sends⟩) allowed

end

/-- A persistent message that is recovered, and one that comes in a transaction. -/
def recoveredAndCommitted : List Op :=
  session "q" ++ [publishTo "q" true [7], .restart 5 guestOnly none,
    .connect "127.0.0.1:50001" "guest" "/", .channelOpen 1 1, .txSelect 1, publishTo "q" false [8],
    .txCommit 1, .basicGet 1 "q" true, .basicGet 1 "q" true]

theorem handed_out_was_sent_recovered :
    let h := HandOuts.after (plainEnv 64 1) guestOnly none recoveredAndCommitted
    h.handed.map (fun p => p.2.body) = [[7], [8]] ∧
      ∀ p ∈ h.handed, SentBy recoveredAndCommitted p.2.asSent := by
  refine ⟨by decide +kernel, ?_⟩
  exact handed_out_was_sent (plainEnv 64 1) guestOnly none recoveredAndCommitted (by decide +kernel)

end RocketmqBroker
