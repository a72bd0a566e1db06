import RocketmqBroker.Broker.Footprint
import RocketmqBroker.Durability.Arrivals
import RocketmqBroker.Publishing.Managed
import RocketmqBroker.Publishing.Received

/-!
Names that fit into short strings. A delivery writes the consumer's tag and the names of the
message, and panics on a long one. What clients send was read from short strings, in a
transaction or not, and the log keeps it; only the management interface takes names as they
come.
-/
namespace RocketmqBroker
open Run.Program

structure ShortNames (names : String × String) : Prop where
  exchange : FitsShortstr names.1
  routingKey : FitsShortstr names.2

instance (names : String × String) : Decidable (ShortNames names) :=
  decidable_of_iff (FitsShortstr names.1 ∧ FitsShortstr names.2)
    ⟨fun ⟨e, k⟩ => ⟨e, k⟩, fun ⟨e, k⟩ => ⟨e, k⟩⟩

def Message.names (m : Message) : String × String := (m.exchange, m.routingKey)

def QueueMessage.names : QueueMessage → String × String
  | full m => m.names
  | ref r => (r.exchange, r.routingKey)

def QueueState.Holds (env : Env) (wal : SegmentCoordinator) (q : QueueState) (m : Message) : Prop :=
  (∃ qm ∈ q.messages.contents, qm.resolve env.crc32 wal = .ok m) ∨
    ∃ tag, q.inflight.get? tag = some m

def BrokerState.Registered (s : BrokerState) (tag : String) : Prop :=
  ∃ name q, s.queues.get? name = some q ∧ q.HasTag tag

/-- No message makes a delivery or the answer to Basic.Get panic. -/
structure NoPanic (env : Env) (s : BrokerState) : Prop where
  deliver : ∀ name q m channel tag, s.queues.get? name = some q → q.Holds env s.wal m →
    s.Registered tag → (encodeDeliveryFrames channel tag m).isSome = true
  get : ∀ name q m channel count, s.queues.get? name = some q → q.Holds env s.wal m →
    (sendGetOk channel count m).isSome = true

/-- The texts of the request were read from the arguments of a method. -/
def Op.FromWire : Op → Prop
  | basicPublish _ _ args _ => args.FromWire
  | basicConsume _ _ args => ∃ bs, args.consumerTag = (shortstrOrDefault bs).1
  | _ => True

/-- What the management interface publishes into a queue has short names. -/
def Op.NamesFit (s : BrokerState) : Op → Prop
  | publishMessage exchange routingKey payload =>
    (∃ queue ∈ PublishRequest.targets s exchange ⟨routingKey, payload, none, none⟩,
      s.queues.contains queue = true) → ShortNames (exchange, routingKey)
  | _ => True

instance (s : BrokerState) : (op : Op) → Decidable (op.NamesFit s)
  | .publishMessage exchange routingKey payload =>
    decidable_of_iff ((PublishRequest.targets s exchange ⟨routingKey, payload, none, none⟩).any
      (s.queues.contains ·) = true → ShortNames (exchange, routingKey)) (by
        simp only [Op.NamesFit, List.any_eq_true])
  | .connect .. | .disconnect .. | .channelOpen .. | .channelClose .. | .channelFlow ..
  | .exchangeDeclare .. | .exchangeDelete .. | .exchangeBind .. | .exchangeUnbind ..
  | .queueDeclare .. | .queueDelete .. | .queuePurge .. | .queueBind .. | .queueUnbind ..
  | .basicPublish .. | .basicConsume .. | .basicCancel .. | .basicAck .. | .basicReject ..
  | .basicNack .. | .basicGet .. | .basicQos .. | .basicRecover | .txSelect .. | .txCommit ..
  | .txRollback .. | .confirmSelect .. | .deliverRound .. | .createQueueVhost .. | .deleteQueue ..
  | .purgeQueue .. | .getMessages .. | .createExchangeVhost .. | .deleteExchangeVhost ..
  | .createBindingEq .. | .deleteBindingEq .. | .closeConnection .. | .clusterDeclareQueue ..
  | .clusterDeleteQueue .. | .clusterPurgeQueue .. | .clusterDeclareExchange ..
  | .clusterBindQueue .. | .replicatePublish .. | .replicateAck .. | .queueTtlTask ..
  | .messageTtlTask .. | .walCompactTask | .restart .. => isTrue trivial

section
variable {env : Env} {s : BrokerState} {m : Message} {channel : UInt16}

theorem properties_writable (m : Message) : m.properties.Writable := by
  unfold Message.properties
  split
  · exact BasicProperties.writable_default
  · cases decoded : BasicProperties.decode m.headers with
    | none => exact BasicProperties.writable_default
    | some read => exact (BasicProperties.decode_writable decoded).1

theorem encodeDeliveryFrames_isSome {tag : String} (short_tag : FitsShortstr tag)
    (short : ShortNames m.names) : (encodeDeliveryFrames channel tag m).isSome = true := by
  have built := @buildDeliverArgs_ok tag m.id m.redelivered _ _ short_tag short.exchange
    short.routingKey
  obtain ⟨frames, content⟩ := contentFrames_writable (properties_writable m) channel m.body
  unfold encodeDeliveryFrames
  rw [show (buildDeliverArgs tag m.id m.redelivered m.exchange m.routingKey).unwrap = some _ from
    Written.unwrap_ok (congrArg Prod.snd built), content]
  rfl

theorem andThen_snd {w w' : Written} : (w.andThen w').2 = (w.2 && w'.2) := by
  unfold Written.andThen
  split <;> simp_all

theorem sendGetOk_isSome_iff {count : Nat} :
    (sendGetOk channel count m).isSome = true ↔ ShortNames m.names := by
  obtain ⟨frames, content⟩ :=
    contentFrames_writable BasicProperties.writable_default channel m.body
  have written : (buildGetOkArgs count m).2 = true ↔ ShortNames m.names := by
    unfold buildGetOkArgs
    rw [andThen_snd, andThen_snd, andThen_snd, Bool.true_and, Bool.and_true, Bool.and_eq_true,
      writeShortstr_ok_iff, writeShortstr_ok_iff]
    exact ⟨fun ⟨e, k⟩ => ⟨e, k⟩, fun ⟨e, k⟩ => ⟨e, k⟩⟩
  rw [← written]
  unfold sendGetOk
  rw [content, ← Written.unwrap_isSome]
  cases (buildGetOkArgs count m).unwrap <;> rfl

end

def PendingOp.names? : PendingOp → Option (String × String)
  | publish exchange routingKey _ _ => some (exchange, routingKey)
  | ack _ => none

def LogRecord.names? : LogRecord → Option (String × String)
  | enqueue _ _ exchange routingKey _ _ => some (exchange, routingKey)
  | _ => none

structure AllShort (env : Env) (s : BrokerState) : Prop where
  ready : ∀ name q, s.queues.get? name = some q → ∀ qm ∈ q.messages.contents, ShortNames qm.names
  held : ∀ name q tag m, s.queues.get? name = some q → q.inflight.get? tag = some m →
    ShortNames m.names
  tags : ∀ tag, s.Registered tag → FitsShortstr tag
  buffered : ∀ p, s.Buffers p → ∀ names ∈ p.names?, ShortNames names
  backed : Backed env s
  logged : ∀ r ∈ records env s, ∀ names ∈ r.names?, ShortNames names

def Effect.BringsShort (s : BrokerState) : Effect → Prop
  | books b => ∀ p, (b.apply s).Buffers p → s.Buffers p ∨ ∀ names ∈ p.names?, ShortNames names
  | tune _ t => ∀ q tag, (t.apply q).HasTag tag → q.HasTag tag ∨ FitsShortstr tag
  | tuneAll t => ∀ q tag, (t.apply q).HasTag tag → q.HasTag tag ∨ FitsShortstr tag
  | createQueue _ q _ _ => ∀ tag, ¬ q.state.HasTag tag
  | enqueue _ ctx _ => ShortNames (ctx.exchange, ctx.routingKey)
  | enqueueFull _ exchange routingKey _ _ => ShortNames (exchange, routingKey)
  | pushFull queue m => s.queues.contains queue = true → ShortNames m.names
  | _ => True

def Effect.names? : Effect → Option (String × String)
  | enqueueFull _ exchange routingKey _ _ => some (exchange, routingKey)
  | pushFull _ m => some m.names
  | _ => none

section
variable {env : Env} {s : BrokerState} {e : Effect}

theorem resolve_names {crc32 : Bytes → UInt32} {wal : SegmentCoordinator} {qm : QueueMessage}
    {m : Message} (read : qm.resolve crc32 wal = .ok m) : m.names = qm.names := by
  cases qm with
  | full m' =>
    cases read
    rfl
  | ref r =>
    obtain ⟨payload, _, rest⟩ := Fallible.bind_eq_ok.mp read
    cases rest
    rfl

theorem back_names (m : Message) (counted : Bool) : (m.back counted).names = m.names := by
  cases counted <;> rfl

theorem no_names : ShortNames ("", "") := by decide

theorem pushedBy_names {queue : String} {ctx : EnqueueCtx} {now : Instant} {qm : QueueMessage}
    (pushed : pushedBy env s queue ctx now = some qm) :
    qm.names = (ctx.exchange, ctx.routingKey) := by
  obtain ⟨q, -, rfl⟩ := Option.map_eq_some_iff.mp pushed
  unfold buildQueueMessage
  split <;> rfl

theorem readyShort_exec (short : AllShort env s) (brings : e.BringsShort s) {name : String}
    {q : QueueState} (found : (exec env s e).queues.get? name = some q) {qm : QueueMessage}
    (member : qm ∈ q.messages.contents) : ShortNames qm.names := by
  cases arrives_exec found member with
  | inl old =>
    obtain ⟨q, present, inside⟩ := old
    exact short.ready name q present qm inside
  | inr adds =>
    cases adds with
    | enqueue pushed =>
      rw [pushedBy_names pushed]
      exact brings
    | enqueueFull known => exact brings
    | pushFull known => exact brings known
    | replicated known => exact no_names
    | rotated present front fated =>
      have same : Message.names _ = _ := resolve_names front.2
      rw [show (QueueMessage.full _).names = _ from same]
      exact short.ready name _ present _ front.mem
    | requeued present inside =>
      rw [show (QueueMessage.full (Message.back _ _)).names = _ from back_names _ _]
      exact short.held name _ _ _ present inside
    | restored present inside =>
      obtain ⟨msgId, exchange, routingKey, headers, body, logged, rfl⟩ := mem_restart present inside
      rw [recordsFound_eq short.backed] at logged
      exact short.logged _ logged _ rfl

theorem heldShort_exec (short : AllShort env s) {name : String} {q : QueueState}
    (found : (exec env s e).queues.get? name = some q) {tag : UInt64} {m : Message}
    (held : q.inflight.get? tag = some m) : ShortNames m.names := by
  cases inflight_exec found held with
  | inl old =>
    obtain ⟨q, present, inside⟩ := old
    exact short.held name q tag m present inside
  | inr moved =>
    obtain ⟨-, q, first, present, front⟩ := moved
    rw [resolve_names front.2]
    exact short.ready name q present first front.mem

theorem tags_modifyQueue {queue tag : String} {f : QueueState → QueueState}
    (tagged : ∀ q, (f q).HasTag tag → q.HasTag tag ∨ FitsShortstr tag)
    (registered : (s.modifyQueue queue f).Registered tag) :
    s.Registered tag ∨ FitsShortstr tag := by
  obtain ⟨name, q', found, has⟩ := registered
  rw [get?_modifyQueue] at found
  split at found
  · obtain ⟨q, present, rfl⟩ := Option.map_eq_some_iff.mp found
    exact (tagged q has).imp_left fun old => ⟨name, q, present, old⟩
  · exact .inl ⟨name, q', found, has⟩

theorem popTo_consumers (q : QueueState) (wal : SegmentCoordinator) (fate : Fate) :
    (q.popTo env wal fate).consumerTags = q.consumerTags ∧
      (q.popTo env wal fate).activeConsumers = q.activeConsumers := by
  unfold QueueState.popTo
  cases q.messages.popFront with
  | none => exact ⟨rfl, rfl⟩
  | some front =>
    dsimp only
    split <;> exact ⟨rfl, rfl⟩

theorem restart_tags {now : Instant} {auth : AuthBackend} {cluster : Option ClusterCoordinator}
    {name tag : String} {q : QueueState}
    (found : (restart env now s.wal.dir auth cluster).queues.get? name = some q) :
    ¬ q.HasTag tag := by
  have none : q.consumerTags = ∅ ∧ q.activeConsumers = [] :=
    restart_rule (P := fun q => q.consumerTags = ∅ ∧ q.activeConsumers = []) ⟨rfl, rfl⟩
      (fun _ _ none => none) (fun _ _ _ _ _ none => none) found
  exact not_hasTag none.1 none.2 tag

theorem tags_exec (brings : e.BringsShort s) {tag : String}
    (registered : (exec env s e).Registered tag) : s.Registered tag ∨ FitsShortstr tag := by
  obtain ⟨name, q', found, has⟩ := registered
  rw [(exec_memory env s e).1] at found
  cases e with
  | books change =>
    rw [Effect.inMemory, change.queues] at found
    exact .inl ⟨name, q', found, has⟩
  | tune queue change => exact tags_modifyQueue (fun q => brings q tag) ⟨name, q', found, has⟩
  | tuneAll change =>
    rw [Effect.inMemory, FinMap.get?_mapVals] at found
    obtain ⟨q, present, rfl⟩ := Option.map_eq_some_iff.mp found
    exact (brings q tag has).imp_left fun old => ⟨name, q, present, old⟩
  | createQueue queue new logs schema =>
    rw [createQueue_queues, FinMap.get?_orInsert] at found
    split at found
    · cases old : s.queues.get? queue with
      | some q =>
        rw [old] at found
        cases found
        exact .inl ⟨queue, q, old, has⟩
      | none =>
        rw [old] at found
        cases found
        exact absurd has (brings tag)
    · exact .inl ⟨name, q', found, has⟩
  | removeQueue queue =>
    rw [Effect.inMemory, FinMap.get?_erase] at found
    split at found
    · contradiction
    · exact .inl ⟨name, q', found, has⟩
  | pop queue fate =>
    refine tags_modifyQueue (fun q has => .inl ?_) ⟨name, q', found, has⟩
    unfold QueueState.HasTag at has ⊢
    rwa [(popTo_consumers q s.wal fate).1, (popTo_consumers q s.wal fate).2] at has
  | popOldest queue =>
    refine tags_modifyQueue (fun q has => .inl ?_) ⟨name, q', found, has⟩
    unfold QueueState.dropOldest at has
    split at has <;> exact has
  | requeue queue gone counted =>
    refine tags_modifyQueue (fun q has => .inl ?_) ⟨name, q', found, has⟩
    unfold QueueState.putBack at has
    split at has <;> exact has
  | restart now auth cluster => exact absurd has (restart_tags found)
  | enqueue | enqueueFull | pushFull | replicatePublish | replicateAck | purge | settle
  | discard =>
    refine tags_modifyQueue (fun q has => .inl ?_) ⟨name, q', found, has⟩
    exact has
  | alloc | createExchange | removeExchange | bind | appendBinding | unbind | compact =>
    exact .inl ⟨name, q', found, has⟩

theorem buffers_exec (brings : e.BringsShort s) {p : PendingOp}
    (buffered : (exec env s e).Buffers p) :
    s.Buffers p ∨ ∀ names ∈ p.names?, ShortNames names := by
  cases e with
  | books change => exact brings p buffered
  | createQueue queue new logs schema =>
    cases logs <;> exact .inl buffered
  | restart now auth cluster =>
    obtain ⟨connId, cs, found, -⟩ := buffered
    change (restart env now s.wal.dir auth cluster).connState.get? connId = some cs at found
    rw [restart_replays, (replayRecords_aside _ _ _ _).2] at found
    contradiction
  | _ => exact .inl buffered

theorem logged_short (brings : e.BringsShort s) {r : LogRecord} (logged : r ∈ e.logged s) :
    ∀ names ∈ r.names?, ShortNames names := by
  intro names named
  cases e with
  | enqueue queue ctx now =>
    simp only [Effect.logged] at logged
    split at logged
    · contradiction
    · split at logged
      · contradiction
      · cases List.mem_singleton.mp logged
        cases named
        exact brings
  | replicatePublish queue msgId body =>
    simp only [Effect.logged] at logged
    split at logged
    · cases List.mem_singleton.mp logged
      cases named
      exact no_names
    · contradiction
  | createQueue queue new logs schema =>
    simp only [Effect.logged] at logged
    split at logged
    · cases List.mem_cons.mp logged with
      | inl first =>
        rw [first] at named
        contradiction
      | inr later =>
        obtain ⟨c, -, rfl⟩ := List.mem_map.mp later
        contradiction
    · contradiction
  | createExchange | bind | replicateAck =>
    simp only [Effect.logged] at logged
    split at logged
    · cases List.mem_singleton.mp logged
      contradiction
    · contradiction
  | settle queue tag =>
    simp only [Effect.logged] at logged
    split at logged
    · contradiction
    · split at logged
      · cases List.mem_singleton.mp logged
        contradiction
      · contradiction
  | _ => contradiction

theorem logged_exec (short : AllShort env s) (fits : Fitting s e) (brings : e.BringsShort s)
    {r : LogRecord} (member : r ∈ records env (exec env s e)) :
    ∀ names ∈ r.names?, ShortNames names := by
  by_cases compacts : e = .compact
  · subst compacts
    cases records_compact short.backed with
    | inl same =>
      rw [same] at member
      exact short.logged r member
    | inr fewer =>
      rw [fewer] at member
      exact short.logged r (List.mem_filter.mp member).1
  · rw [records_exec short.backed fits compacts] at member
    cases List.mem_append.mp member with
    | inl old => exact short.logged r old
    | inr new => exact logged_short brings new

theorem allShort_exec (short : AllShort env s) (fits : Fitting s e) (brings : e.BringsShort s) :
    AllShort env (exec env s e) where
  ready _ _ found _ := readyShort_exec short brings found
  held _ _ _ _ found := heldShort_exec short found
  tags tag registered := (tags_exec brings registered).elim (short.tags tag) id
  buffered p buffered := (buffers_exec brings buffered).elim (short.buffered p) id
  backed := (backed_exec short.backed fits).1
  logged _ := logged_exec short fits brings

theorem allShort_install (env : Env) (auth : AuthBackend) (cluster : Option ClusterCoordinator) :
    AllShort env (install env auth cluster) where
  ready _ _ found := by contradiction
  held _ _ _ _ found := by contradiction
  tags := by
    rintro tag ⟨name, q, found, -⟩
    contradiction
  buffered := by
    rintro p ⟨connId, cs, found, -⟩
    contradiction
  backed := (backed_install env auth cluster).1
  logged := by
    rw [records, (backed_install env auth cluster).2]
    intro r member
    exact absurd member List.not_mem_nil

theorem noPanic_of_allShort (short : AllShort env s) : NoPanic env s := by
  have named {name : String} {q : QueueState} {m : Message}
      (found : s.queues.get? name = some q) (holds : q.Holds env s.wal m) :
      ShortNames m.names := by
    cases holds with
    | inl waits =>
      obtain ⟨qm, member, read⟩ := waits
      rw [resolve_names read]
      exact short.ready name q found qm member
    | inr inflight =>
      obtain ⟨tag, held⟩ := inflight
      exact short.held name q tag m found held
  constructor
  · intro name q m channel tag found holds registered
    exact encodeDeliveryFrames_isSome (short.tags tag registered) (named found holds)
  · intro name q m channel count found holds
    exact sendGetOk_isSome_iff.mpr (named found holds)

end

/-! What a request brings in. -/

theorem strBytes_length_append (a b : String) :
    (strBytes (a ++ b)).length = (strBytes a).length + (strBytes b).length := by
  unfold strBytes
  rw [String.toByteArray_append]
  simp

theorem strBytes_length_le (text : String) : (strBytes text).length ≤ 4 * text.length := by
  unfold strBytes
  rw [← String.ofList_toList (s := text), String.toByteArray_ofList, String.length_ofList]
  unfold List.utf8Encode
  rw [List.data_toByteArray, List.toList_toArray]
  induction text.toList with
  | nil => exact Nat.zero_le _
  | cons c cs ih =>
    rw [List.flatMap_cons, List.length_append, List.length_cons, String.length_utf8EncodeChar]
    have one := c.utf8Size_le_four
    omega

theorem decimal_length (n : UInt64) : (strBytes (toString n)).length ≤ 80 := by
  have digits : (toString n).length ≤ 20 := by
    change n.toNat.repr.length ≤ 20
    rw [Nat.length_repr_le_iff (by decide)]
    exact n.toNat_lt.trans (by decide)
  have bytes := strBytes_length_le (toString n)
  omega

theorem generatedTag_fits (connId seq : UInt64) :
    FitsShortstr ("ctag-" ++ toString connId ++ "-" ++ toString seq) := by
  have conn := decimal_length connId
  have number := decimal_length seq
  have front : (strBytes "ctag-").length = 5 := by decide
  have dash : (strBytes "-").length = 1 := by decide
  unfold FitsShortstr
  rw [strBytes_length_append, strBytes_length_append, strBytes_length_append]
  omega

section
variable {env : Env} {s : BrokerState} {e : Effect} {op : Op}

theorem chosen_fits (wire : op.FromWire) {tag : String} (chosen : op.ChoosesTag tag) :
    FitsShortstr tag := by
  cases op with
  | basicConsume connId channel args =>
    cases chosen with
    | inl asked =>
      obtain ⟨bs, read⟩ := wire
      rw [asked, read]
      exact shortstrOrDefault_short bs
    | inr made =>
      obtain ⟨seq, rfl⟩ := made
      exact generatedTag_fits connId seq
  | _ => contradiction

theorem PublishArgs.FromWire.shortNames {args : PublishArgs} (wire : args.FromWire) :
    ShortNames (args.exchange, args.routingKey) := ⟨wire.short.1, wire.short.2⟩

theorem pending_short (wire : op.FromWire) {p : PendingOp} (pending : op.pending? = some p) :
    ∀ names ∈ p.names?, ShortNames names := by
  cases op with
  | basicPublish connId channel args now =>
    cases pending
    intro names named
    cases named
    exact PublishArgs.FromWire.shortNames wire
  | _ => contradiction

theorem bringsShort_of_brings (wire : op.FromWire) (brings : op.Brings e)
    (own : e.names? = none) : e.BringsShort s := by
  cases e with
  | books b =>
    exact fun p buffered => (brings s p buffered).imp_right fun pending =>
      pending_short wire pending
  | tune queue t => exact fun q tag has => (brings q tag has).imp_right (chosen_fits wire)
  | tuneAll t => exact fun q tag has => (brings q tag has).imp_right (chosen_fits wire)
  | createQueue => exact brings
  | enqueue queue ctx now =>
    obtain ⟨connId, channel, args, now, rfl, rfl⟩ := brings
    exact PublishArgs.FromWire.shortNames wire
  | enqueueFull | pushFull => contradiction
  | _ => trivial

theorem bringsShort_of_names {names : String × String} (own : e.names? = some names)
    (short : ShortNames names) : e.BringsShort s := by
  cases e with
  | enqueueFull =>
    cases own
    exact short
  | pushFull =>
    cases own
    exact fun _ => short
  | _ => contradiction

theorem commit_enqueues {connId : UInt64} (member : e ∈ (txCommit connId : Act env _).steps s)
    {names : String × String} (own : e.names? = some names) :
    ∃ p, s.Buffers p ∧ p.names? = some names := by
  unfold txCommit at member
  rw [steps_bind, result_drainTxBuffer] at member
  cases List.mem_append.mp member with
  | inl early =>
    have drained : Takes (fun e : Effect => e.names? = none) (drainTxBuffer connId : Act env _) :=
      @takes_drainTxBuffer env _ none (fun _ _ => rfl) connId
    rw [drained s e early] at own
    contradiction
  | inr late =>
    cases found : (s.connState.get? connId).filter (·.txMode) with
    | none =>
      rw [found] at late
      contradiction
    | some cs =>
      rw [found] at late
      have here : s.connState.get? connId = some cs := (Option.filter_eq_some_iff.mp found).1
      have applied : Takes (fun e : Effect => ∀ names, e.names? = some names →
          ∃ p ∈ cs.txBuffer, p.names? = some names)
          (cs.txBuffer.forM (applyTxOp connId) : Act env PUnit) := by
        refine Takes.forM_mem _ fun p waits => ?_
        cases p with
        | publish exchange routingKey headers body =>
          exact takes_perform fun names same => ⟨_, waits, same⟩
        | ack msgId =>
          refine (@takes_takeDelivery env _ none (fun _ _ _ => nofun) msgId).bind fun found => ?_
          cases found with
          | none => exact takes_pure _
          | some queue =>
            exact Takes.bind (takes_perform fun _ => nofun) fun _ => takes_perform fun _ => nofun
      obtain ⟨p, waits, same⟩ : ∃ p ∈ cs.txBuffer, p.names? = some names := by
        refine (?_ : Takes (fun e : Effect => ∀ names, e.names? = some names →
          ∃ p ∈ cs.txBuffer, p.names? = some names) _) _ e late names own
        refine (takes_read _).bind fun failure => ?_
        split
        · exact takes_pure _
        · exact applied.bind fun _ => takes_pure _
      exact ⟨p, ⟨connId, cs, here, waits⟩, same⟩

theorem pushes_short {m : Message} {targets : List String}
    (named : ∀ queue ∈ targets, s.queues.contains queue = true → ShortNames m.names) :
    Run.Along (exec env) (fun t e => e.BringsShort t) s
      ((targets.forM fun queue => perform (.pushFull queue m) : Act env PUnit).steps s) := by
  induction targets generalizing s with
  | nil => trivial
  | cons queue targets ih =>
    change Run.Along _ _ s (steps (perform (.pushFull queue m) >>= fun _ =>
      targets.forM fun queue => perform (.pushFull queue m) : Act env PUnit) s)
    rw [steps_bind, Run.along_append]
    refine ⟨⟨named queue List.mem_cons_self, trivial⟩, ih fun other member known => ?_⟩
    refine named other (List.mem_cons_of_mem _ member) ?_
    change ((exec env s (.pushFull queue m)).queues.get? other).isSome = true at known
    rw [get?_pushFull] at known
    split at known
    · rwa [Option.isSome_map] at known
    · exact known

theorem publishMessage_short {exchange routingKey : String} {payload : Bytes}
    (fits : (Op.publishMessage exchange routingKey payload).NamesFit s) :
    Run.Along (exec env) (fun t e => e.BringsShort t) s
      ((publishMessage exchange routingKey payload : Act env (List Frame)).steps s) := by
  unfold publishMessage
  rw [steps_bind, Run.along_append]
  refine ⟨trivial, ?_⟩
  rw [steps_bind, Run.along_append]
  refine ⟨⟨trivial, trivial⟩, ?_⟩
  rw [steps_bind, Run.along_append]
  refine ⟨trivial, ?_⟩
  simp only [result_look, final_look, final_performed]
  cases found : (exec env s .alloc).exchanges.get? (resolveExchangeName exchange) with
  | none => trivial
  | some ex =>
    dsimp only
    rw [steps_bind, Run.along_append]
    refine ⟨pushes_short fun queue target known => fits ⟨queue, ?_, known⟩, trivial⟩
    unfold PublishRequest.targets
    rw [show s.exchanges.get? (resolveExchangeName exchange) = some ex from found]
    exact target

/-- Every step of a request brings in short names, if those of a management publish are. -/
theorem bringsShort_handle (short : AllShort env s) (wire : op.FromWire) (fits : op.NamesFit s) :
    Run.Along (exec env) (fun t e => e.BringsShort t) s
      ((handle op : Act env (List Frame)).steps s) := by
  have free : (∀ e, op.performs e = true → e.names? = none) →
      Run.Along (exec env) (fun t e => e.BringsShort t) s
        ((handle op : Act env (List Frame)).steps s) := fun own =>
    (brings_handle op).meets (fun t e both => bringsShort_of_brings wire both.2 (own e both.1)) s
  cases op with
  | publishMessage exchange routingKey payload => exact publishMessage_short fits
  | txCommit connId =>
    refine Run.along_of_kind (fun t e member => ?_) (fun e member => member) s
    cases own : e.names? with
    | none => exact bringsShort_of_brings wire (brings_handle _ s e member).2 own
    | some names =>
      obtain ⟨p, waits, same⟩ := commit_enqueues member own
      exact bringsShort_of_names own (short.buffered p waits names same)
  | _ => exact free fun e performs => by cases e <;> first | rfl | contradiction

theorem allShort_served (short : AllShort env s) (wire : op.FromWire) (names : op.NamesFit s)
    (fits : Run.Along (exec env) Fitting s ((handle op : Act env (List Frame)).steps s)) :
    AllShort env (served env s op) := by
  have both := (Run.along_congr fits fun t e fit => (and_iff_right fit).symm).mp
    (bringsShort_handle short wire names)
  exact Run.invariant (fun _ => AllShort env) short
    (fun _ _ _ allowed before => allShort_exec before allowed.1 allowed.2) both

theorem mem_pushMany {q : QueueState} {m : Message} {k : Nat} (some_left : 0 < k) :
    .full m ∈ (q.pushMany m k).messages.contents := by
  obtain ⟨k, rfl⟩ := Nat.exists_eq_add_of_lt some_left
  rw [Nat.zero_add, QueueState.pushMany_succ]
  exact (PriorityQueue.contents_pushBack _ _).symm ▸ Multiset.mem_cons_self _ _

theorem namesFit_of_noPanic (after : NoPanic env (served env s op)) : op.NamesFit s := by
  cases op with
  | publishMessage exchange routingKey payload =>
    rintro ⟨queue, target, known⟩
    obtain ⟨q, found⟩ := Option.isSome_iff_exists.mp known
    have pushed := @publishMessage_pushes env s exchange ⟨routingKey, payload, none, none⟩ queue
    rw [found, Option.map_some] at pushed
    refine sendGetOk_isSome_iff.mp (after.get queue _ _ 0 0 pushed (.inl ⟨_, mem_pushMany ?_, rfl⟩))
    exact List.count_pos_iff.mpr target
  | _ => trivial

end

/-- In the runs whose publishes through the management interface have short names where they
    reach a queue, and only in those, no message makes a delivery or an answer panic in any
    state on the way. -/
theorem noPanic_throughout_iff (env : Env) (auth : AuthBackend)
    (cluster : Option ClusterCoordinator) (ops : List Op) (wire : ∀ op ∈ ops, op.FromWire)
    (fits : Throughout env auth cluster Fitting ops) :
    (∀ before after, ops = before ++ after → NoPanic env (reached env auth cluster before)) ↔
      Run.Along (served env) (fun s op => op.NamesFit s) (install env auth cluster) ops := by
  have logged := (along_serve ops _).mp fits.along
  have facts : Run.Along (served env) (fun s op => op.FromWire ∧ Run.Along (exec env) Fitting s
      ((handle op : Act env (List Frame)).steps s)) (install env auth cluster) ops := by
    refine (Run.along_congr logged fun s op fit => ?_).mp
      (Run.along_of_kind (fun _ _ wire => wire) wire _)
    exact (and_iff_left fit).symm
  simp only [reached_eq_run]
  exact Run.throughout_iff_kept (AllShort env) (allShort_install env auth cluster)
    (fun _ => noPanic_of_allShort)
    (fun _ _ fact names short => allShort_served short fact.1 names fact.2)
    (fun _ _ _ _ after => namesFit_of_noPanic after) facts

/-- A consumer under a tag of its own choice, and a message from each side. -/
def bothSides (exchange routingKey : String) : List Op :=
  session "q" ++ [.basicConsume 1 1 ⟨"q", "ctag", false, false, false, []⟩,
    .createExchangeVhost "f" "fanout" true, .queueBind "q" "f" "" false,
    .basicPublish 1 1 textArgs 0, .publishMessage exchange routingKey [8]]

theorem bothSides_fromWire (exchange routingKey : String) :
    ∀ op ∈ bothSides exchange routingKey, op.FromWire := by
  intro op member
  simp only [bothSides, session, List.cons_append, List.nil_append, List.mem_cons,
    List.not_mem_nil, or_false] at member
  rcases member with rfl | rfl | rfl | rfl | rfl | rfl | rfl | rfl
  case inr.inr.inr.inl => exact ⟨[4, 99, 116, 97, 103], by decide +kernel⟩
  case inr.inr.inr.inr.inr.inr.inl => exact textArgs_fromWire
  all_goals trivial

theorem noPanic_short_names :
    (∀ before after, bothSides "f" "key" = before ++ after →
      NoPanic (plainEnv 64 1) (reached (plainEnv 64 1) guestOnly none before)) ∧
    ((reached (plainEnv 64 1) guestOnly none (bothSides "f" "key")).queues.get? "q").map
      (·.messages.len) = some 2 := by
  refine ⟨?_, by decide +kernel⟩
  refine (noPanic_throughout_iff (plainEnv 64 1) guestOnly none (bothSides "f" "key")
    (bothSides_fromWire "f" "key") ?_).mpr ?_
  · decide +kernel
  · decide +kernel

def longKey : String := String.ofList (List.replicate 256 'k')

/-- A fanout exchange takes the long key to a queue that has a consumer. -/
theorem long_key_panics :
    let s := reached (plainEnv 64 1) guestOnly none (bothSides "f" longKey)
    (∃ q m, s.queues.get? "q" = some q ∧ .full m ∈ q.messages.ready ∧ q.HasTag "ctag" ∧
      encodeDeliveryFrames 1 "ctag" m = none ∧ sendGetOk 1 0 m = none) ∧
      ¬ NoPanic (plainEnv 64 1) s := by
  intro s
  let m := Message.newRouted 2 [] [8] "f" longKey
  have there : (s.queues.get? "q").any (fun q =>
      decide (.full m ∈ q.messages.ready) && (q.consumerTags.get? "ctag").isSome) = true := by
    decide +kernel
  obtain ⟨q, found, here⟩ := (Option.any_eq_true _ _).mp there
  rw [Bool.and_eq_true, decide_eq_true_iff] at here
  have unwritten : sendGetOk 1 0 m = none := by
    rw [← Option.not_isSome_iff_eq_none, sendGetOk_isSome_iff]
    decide +kernel
  have undelivered : (encodeDeliveryFrames 1 "ctag" m).isNone = true := by decide +kernel
  refine ⟨⟨q, m, found, here.1, .inl here.2, Option.isNone_iff_eq_none.mp undelivered,
    unwritten⟩, fun noPanic => ?_⟩
  have waits : .full m ∈ q.messages.contents := by
    rw [PriorityQueue.contents_eq_ready]
    exact here.1
  have written := noPanic.get "q" q m 1 0 found (.inl ⟨.full m, waits, rfl⟩)
  rw [unwritten] at written
  exact Bool.false_ne_true written

end RocketmqBroker
