import RocketmqBroker.Cluster.AckedRemoval
import RocketmqBroker.Cluster.Replicas
import RocketmqBroker.Delivery.HandOuts
import RocketmqBroker.Delivery.Turns
import RocketmqBroker.Lib.WaitingLine

/-!
The order in which a queue hands out its messages for the first time, whoever takes them and
whatever comes back in between. Every step of a run makes one change to the line of a queue.
-/
namespace RocketmqBroker
open WaitingLine

/-- What becomes of the message at the front. One that cannot be read any more is lost. -/
def Fate.change (expires : Bool) (first : Option Message) (fate : Fate) : Change QueueMessage :=
  match first, fate with
  | none, _ => .leave none
  | some m, .drop => .leave (if expires then none else some (.full m))
  | some m, .hold => .leave (some (.full m))
  | some m, .front => .renew (.full m)
  | some m, .back => .rotate (.full m)

def Effect.changeHere (env : Env) (expires : Bool) (name : String) (s : BrokerState)
    (q : QueueState) : Effect → Change QueueMessage
  | enqueue _ ctx now => (pushedBy env s name ctx now).elim .stay .arrive
  | enqueueFull _ exchange routingKey headers body =>
    .arrive (.full (.newRouted s.nextMsgId headers body exchange routingKey))
  | pushFull _ m => .arrive (.full m)
  | replicatePublish _ msgId body => .arrive (.full (.newRouted msgId [] body "" ""))
  | replicateAck _ msgId => .remove (·.id == msgId)
  | pop _ fate => fate.change expires (frontAt env s name).head?
  | popOldest _ => .evict
  | purge _ => .clear
  | requeue _ tag counted =>
    (q.inflight.get? tag).elim .stay fun m => .comeBack (.full (m.back counted))
  | removeQueue _ => .clear
  | _ => .stay

def Effect.line? : Effect → Option String
  | enqueue queue _ _ => some queue
  | enqueueFull queue _ _ _ _ => some queue
  | pushFull queue _ => some queue
  | replicatePublish queue _ _ => some queue
  | replicateAck queue _ => some queue
  | pop queue _ => some queue
  | popOldest queue => some queue
  | purge queue => some queue
  | requeue queue _ _ => some queue
  | removeQueue queue => some queue
  | _ => none

/-- What a step does to the line of messages of a queue. -/
def Effect.change (env : Env) (expires : Bool) (name : String) (s : BrokerState) (e : Effect) :
    Change QueueMessage :=
  if e.restarts then .refill ((exec env s e).ready name)
  else if e.line? = some name then
    (s.queues.get? name).elim .stay fun q => e.changeHere env expires name s q
  else .stay

/-- A run with the ids that came into a queue, its messages as they wait and those that it
    handed out. -/
structure QueueLine where
  outs : HandOuts
  arrived : List UInt64
  waiting : List (Ticketed QueueMessage)
  taken : List (Ticketed QueueMessage)

namespace QueueLine

def step (env : Env) (name : String) (expires : Bool) (l : QueueLine) (e : Effect) : QueueLine where
  outs := l.outs.step env expires e
  arrived := l.arrived ++ idsOf name (e.arrived l.outs.broker)
  waiting := (e.change env expires name l.outs.broker).apply rank l.arrived.length l.waiting
  taken := l.taken ++ (e.change env expires name l.outs.broker).serves l.waiting

def serve (env : Env) (name : String) (l : QueueLine) (op : Op) : QueueLine :=
  Run.run (step env name op.expiresMessages) l
    ((handle op : Act env (List Frame)).steps l.outs.broker)

def after (env : Env) (auth : AuthBackend) (cluster : Option ClusterCoordinator) (name : String)
    (ops : List Op) : QueueLine :=
  Run.run (serve env name) ⟨HandOuts.start env auth cluster, [], [], []⟩ ops

end QueueLine

section
variable {env : Env} {s : BrokerState} {e : Effect} {expires : Bool} {name : String}

theorem ready_changed {queue : String} {f : QueueState → QueueState}
    {c : QueueState → Change QueueMessage}
    (changes : queue = name → ∀ q, s.queues.get? name = some q →
      (f q).messages.ready = (c q).plain rank q.messages.ready) :
    (s.modifyQueue queue f).ready name =
      (if some queue = some name then (s.queues.get? name).elim .stay c else .stay).plain rank
        (s.ready name) := by
  rw [ready_modifyQueue]
  by_cases here : queue = name
  · subst here
    rw [if_pos rfl, if_pos rfl, BrokerState.ready]
    cases found : s.queues.get? queue with
    | none => rfl
    | some q => exact changes rfl q found
  · rw [if_neg (Ne.symm here), if_neg (fun same => here (Option.some.inj same))]
    rfl

theorem ready_popTo {q : QueueState} (found : s.queues.get? name = some q) (fate : Fate) :
    (q.popTo env s.wal fate).messages.ready =
      (fate.change expires (frontAt env s name).head?).plain rank q.messages.ready := by
  cases popped : q.messages.popFront with
  | none =>
    have none_left : frontAt env s name = [] := by
      unfold frontAt
      rw [found]
      dsimp only
      rw [popped]
    have empty : q.messages.ready = [] :=
      PriorityQueue.ready_eq_nil (PriorityQueue.popFront_none popped)
    rw [none_left, QueueState.popTo, popped]
    dsimp only
    rw [empty]
    rfl
  | some front =>
    obtain ⟨first, rest⟩ := front
    have ready := PriorityQueue.ready_popFront popped
    rw [frontAt_of found popped, ready]
    unfold QueueState.popTo
    rw [popped]
    dsimp only
    cases read : first.resolve env.crc32 s.wal with
    | error err => cases fate <;> rfl
    | ok m =>
      have same := (QueueMessage.resolve_standing read).1
      cases fate with
      | drop | hold => rfl
      | front => exact ready_pushFront_popped popped same
      | back => exact rest.ready_pushBack_eq (.full m)

theorem ready_dropOldest (q : QueueState) :
    q.dropOldest.messages.ready =
      (Change.evict : Change QueueMessage).plain rank q.messages.ready := by
  unfold QueueState.dropOldest
  rw [Change.plain]
  cases popped : q.messages.popOldest with
  | none =>
    rw [PriorityQueue.ready_eq_nil (PriorityQueue.popOldest_none popped)]
    rfl
  | some oldest =>
    obtain ⟨m, rest⟩ := oldest
    rw [PriorityQueue.takeLowest_popOldest popped]
    rfl

theorem ready_putBack (q : QueueState) (tag : UInt64) (counted : Bool) :
    (q.putBack tag counted).messages.ready =
      ((q.inflight.get? tag).elim .stay fun m => .comeBack (.full (m.back counted)) :
        Change QueueMessage).plain rank q.messages.ready := by
  unfold QueueState.putBack
  cases q.inflight.get? tag with
  | none => rfl
  | some m => exact q.messages.ready_pushFront_eq (.full (m.back counted))

/-- Every step does to the messages of a queue what its change does to the line. -/
theorem ready_exec_change : (exec env s e).ready name =
    (e.change env expires name s).plain rank (s.ready name) := by
  have idle (kept : e.keepsReady = true) (stays : e.change env expires name s = .stay) :
      (exec env s e).ready name = (e.change env expires name s).plain rank (s.ready name) := by
    rw [stays, ready_kept kept]
    rfl
  cases e with
  | books | tune | tuneAll | alloc | createQueue | createExchange | removeExchange | bind
  | appendBinding | unbind | settle | discard | compact => exact idle rfl rfl
  | restart now auth cluster => rfl
  | enqueue queue ctx now =>
    rw [ready_exec]
    refine @ready_changed s.allocMsgId.2 name queue _
      (fun q => Effect.changeHere env expires name s q (.enqueue queue ctx now))
      fun here q found => ?_
    have found : s.queues.get? name = some q := found
    subst here
    rw [Effect.changeHere, pushedBy, found]
    exact q.messages.ready_pushBack_eq _
  | enqueueFull queue exchange routingKey headers body =>
    rw [ready_exec]
    exact @ready_changed s.allocMsgId.2 name queue _ _ fun _ q _ => q.messages.ready_pushBack_eq _
  | pushFull queue m =>
    rw [ready_exec]
    exact ready_changed fun _ q _ => q.messages.ready_pushBack_eq _
  | replicatePublish queue msgId body =>
    rw [ready_exec]
    exact ready_changed fun _ q _ => q.messages.ready_pushBack_eq _
  | replicateAck queue msgId =>
    rw [ready_exec]
    exact ready_changed fun _ q _ => ready_withoutId msgId q.messages
  | pop queue fate =>
    rw [ready_exec]
    exact ready_changed fun _ q found => ready_popTo found fate
  | popOldest queue =>
    rw [ready_exec]
    exact ready_changed fun _ q _ => ready_dropOldest q
  | purge queue =>
    rw [ready_exec]
    exact ready_changed fun _ q _ => rfl
  | requeue queue tag counted =>
    rw [ready_exec]
    exact ready_changed fun _ q _ => ready_putBack q tag counted
  | removeQueue queue =>
    rw [ready_exec, BrokerState.ready]
    change ((s.queues.erase queue).get? name |>.map _).getD [] =
      (if some queue = some name then _ else Change.stay).plain rank _
    rw [FinMap.get?_erase]
    by_cases here : queue = name
    · rw [if_pos here.symm, if_pos (congrArg some here), BrokerState.ready]
      cases s.queues.get? name <;> rfl
    · rw [if_neg (Ne.symm here), if_neg fun same => here (Option.some.inj same)]
      rfl

section
variable {line : List (Ticketed QueueMessage)}

theorem head_of_frontAt {m : Message} (waiting : line.map Prod.snd = s.ready name)
    (front : (frontAt env s name).head? = some m) :
    ∃ first ∈ line.head?, first.2.resolve env.crc32 s.wal = .ok m := by
  obtain ⟨q, first, found, popped, read⟩ := mem_frontAt (List.mem_of_head? front)
  have ready : s.ready name = q.messages.ready := by
    unfold BrokerState.ready
    rw [found]
    rfl
  have head : (line.map Prod.snd).head? = some first := by
    rw [waiting, ready, ← PriorityQueue.peekFront_ready]
    exact popped
  rw [List.head?_map] at head
  obtain ⟨ticketed, ahead, rfl⟩ := Option.map_eq_some_iff.mp head
  exact ⟨ticketed, ahead, read⟩

theorem change_still (kept : ∀ queue fate, e ≠ .pop queue fate) :
    (e.change env expires name s).still = true := by
  unfold Effect.change
  split
  · rfl
  · split
    · cases s.queues.get? name with
      | none => rfl
      | some q =>
        cases e with
        | pop queue fate => exact absurd rfl (kept queue fate)
        | enqueue queue ctx now =>
          change ((pushedBy env s name ctx now).elim .stay .arrive : Change QueueMessage).still = _
          cases pushedBy env s name ctx now <;> rfl
        | requeue queue tag counted =>
          change ((q.inflight.get? tag).elim .stay fun m =>
            .comeBack (.full (m.back counted)) : Change QueueMessage).still = _
          cases q.inflight.get? tag <;> rfl
        | _ => rfl
    · rfl

theorem fate_fits {ι : Type} {tag : QueueMessage → ι}
    (same : ∀ qm m, qm.resolve env.crc32 s.wal = .ok m → tag qm = tag (.full m))
    (waiting : line.map Prod.snd = s.ready name) (fate : Fate) :
    (fate.change expires (frontAt env s name).head?).Fits tag line := by
  cases front : (frontAt env s name).head? with
  | none => trivial
  | some m =>
    obtain ⟨first, ahead, read⟩ := head_of_frontAt waiting front
    have fits : ∀ first ∈ line.head?, tag first.2 = tag (.full m) := by
      intro other other_ahead
      rw [Option.mem_unique other_ahead ahead]
      exact same _ _ read
    cases fate with
    | drop =>
      cases expires with
      | true => trivial
      | false => exact fits
    | hold | front | back => exact fits

theorem fate_serves (waiting : line.map Prod.snd = s.ready name) (fate : Fate) :
    ((fate.change expires (frontAt env s name).head?).serves line).map Prod.snd =
      if fate = .front ∨ fate = .drop ∧ expires = true then []
      else (frontAt env s name).map .full := by
  have short : (frontAt env s name).length ≤ 1 := frontAt_length
  cases front : frontAt env s name with
  | nil => cases fate <;> cases expires <;> rfl
  | cons m others =>
    rw [front] at short
    have alone : others = [] := List.eq_nil_of_length_eq_zero (by
      rw [List.length_cons] at short
      omega)
    subst alone
    obtain ⟨first, ahead, -⟩ := head_of_frontAt waiting (congrArg List.head? front)
    have ahead : line.head? = some first := ahead
    cases fate <;> cases expires <;> simp [Fate.change, Change.serves, ahead]

theorem change_pop (queue : String) (fate : Fate) :
    ((Effect.pop queue fate).change env expires name s =
        fate.change expires (frontAt env s name).head? ∧ queue = name) ∨
      (Effect.pop queue fate).change env expires name s = .stay ∧
        (queue = name → frontAt env s name = []) := by
  have change : (Effect.pop queue fate).change env expires name s =
      if some queue = some name then (s.queues.get? name).elim .stay fun _ =>
        fate.change expires (frontAt env s name).head? else .stay := rfl
  rw [change]
  by_cases here : queue = name
  · rw [if_pos (congrArg some here)]
    cases found : s.queues.get? name with
    | none => exact .inr ⟨rfl, fun _ => by rw [frontAt, found]⟩
    | some q => exact .inl ⟨rfl, here⟩
  · rw [if_neg fun same => here (Option.some.inj same)]
    exact .inr ⟨rfl, fun same => absurd same here⟩

theorem change_fits {ι : Type} {tag : QueueMessage → ι}
    (same : ∀ qm m, qm.resolve env.crc32 s.wal = .ok m → tag qm = tag (.full m))
    (waiting : line.map Prod.snd = s.ready name) :
    (e.change env expires name s).Fits tag line := by
  cases e with
  | pop queue fate =>
    rcases @change_pop env s expires name queue fate with ⟨made, -⟩ | ⟨stays, -⟩
    · rw [made]
      exact fate_fits same waiting fate
    · rw [stays]
      trivial
  | _ => exact Change.still_fits (change_still fun _ _ other => by cases other)

theorem handed_of (queue : String) (ms : List Message) :
    ((ms.map (queue, ·)).filter (·.1 = name)).map (fun given => QueueMessage.full given.2) =
      if queue = name then ms.map .full else [] := by
  rw [List.filter_map]
  split
  · rename_i same
    have all : ms.filter ((fun given : String × Message => decide (given.1 = name)) ∘
        (queue, ·)) = ms := List.filter_eq_self.mpr fun _ _ => decide_eq_true same
    rw [all, List.map_map]
    rfl
  · rename_i other
    have none : ms.filter ((fun given : String × Message => decide (given.1 = name)) ∘
        (queue, ·)) = [] :=
      List.filter_eq_nil_iff.mpr fun _ _ => by simpa using other
    rw [none]
    rfl

theorem serves_handed (waiting : line.map Prod.snd = s.ready name) :
    ((e.change env expires name s).serves line).map Prod.snd =
      ((e.handed env expires s).filter (·.1 = name)).map fun given => .full given.2 := by
  cases e with
  | pop queue fate =>
    rcases @change_pop env s expires name queue fate with ⟨made, rfl⟩ | ⟨stays, empty⟩
    · rw [made, fate_serves waiting, Effect.handed]
      split
      · rfl
      · rw [handed_of, if_pos rfl]
    · rw [stays, Effect.handed]
      split
      · rfl
      · rw [handed_of]
        split
        · rename_i same
          rw [same, empty same]
          rfl
        · rfl
  | _ =>
    rw [Change.still_serves (change_still fun _ _ other => by cases other)]
    rfl

end

theorem arrives_ids :
    (e.change env expires name s).arrives.map QueueMessage.id = idsOf name (e.arrived s) := by
  have comes {queue : String} {c : QueueState → Change QueueMessage} {ids : List UInt64}
      (made : ∀ q, s.queues.get? name = some q → queue = name →
        (c q).arrives.map QueueMessage.id = ids) :
      (if some queue = some name then (s.queues.get? name).elim .stay c else .stay).arrives.map
        QueueMessage.id = idsOf name (idsAt s queue fun _ => ids) := by
    rw [idsOf_idsAt]
    by_cases here : queue = name
    · subst here
      rw [if_pos rfl, if_pos rfl]
      cases found : s.queues.get? queue with
      | none => rfl
      | some q => exact made q found rfl
    · rw [if_neg fun same => here (Option.some.inj same), if_neg (Ne.symm here)]
      rfl
  have stays {queue : String} {c : QueueState → Change QueueMessage}
      (made : ∀ q, (c q).arrives = []) :
      (if some queue = some name then (s.queues.get? name).elim .stay c else .stay).arrives.map
        QueueMessage.id = [] := by
    rw [comes fun q _ _ => congrArg (List.map _) (made q), idsOf_idsAt]
    split
    · cases s.queues.get? queue <;> rfl
    · rfl
  cases e with
  | enqueue queue ctx now =>
    refine comes fun q found here => ?_
    rw [Effect.changeHere, pushedBy, found]
    exact congrArg ([·]) (buildQueueMessage_id _ _ _ _ _)
  | enqueueFull | pushFull | replicatePublish => exact comes fun _ _ _ => rfl
  | replicateAck | popOldest | purge | removeQueue => exact stays fun _ => rfl
  | pop queue fate =>
    refine stays fun q => ?_
    rw [Effect.changeHere]
    cases (frontAt env s name).head? <;> cases fate <;> rfl
  | requeue queue tag counted =>
    refine stays fun q => ?_
    rw [Effect.changeHere]
    cases q.inflight.get? tag <;> rfl
  | _ => rfl

end

/-- What holds of the line of a queue all along a run. -/
structure QueueLine.InOrder (name : String) (l : QueueLine) : Prop where
  waiting : l.waiting.map Prod.snd = l.outs.broker.ready name
  taken : l.taken.map Prod.snd =
    (l.outs.handed.filter (·.1 = name)).map fun given => .full given.2
  orderly : WaitingLine.Orderly rank l.arrived.length l.taken l.waiting
  bears : Bears QueueMessage.id l.arrived (l.taken ++ l.waiting)

section
variable {env : Env} {name : String}

theorem ready_descending (s : BrokerState) (name : String) :
    StableList.Descending rank (s.ready name) := by
  unfold BrokerState.ready
  cases s.queues.get? name with
  | none => exact List.Pairwise.nil
  | some q => exact q.messages.ready_descending

theorem QueueLine.InOrder.step {l : QueueLine} (h : l.InOrder name) (expires : Bool) (e : Effect) :
    (l.step env name expires e).InOrder name := by
  have sorted : StableList.Descending (fun x : Ticketed QueueMessage => rank x.2) l.waiting := by
    have ready := ready_descending l.outs.broker name
    rw [← h.waiting] at ready
    exact List.pairwise_map.mp ready
  have arrived : (l.step env name expires e).arrived =
      l.arrived ++ (e.change env expires name l.outs.broker).arrives.map QueueMessage.id := by
    rw [arrives_ids]
    rfl
  constructor
  · change (Change.apply rank _ _ _).map Prod.snd = (exec env l.outs.broker e).ready name
    rw [map_apply, h.waiting]
    exact ready_exec_change.symm
  · change (l.taken ++ Change.serves _ _).map Prod.snd = _
    rw [List.map_append, h.taken, serves_handed h.waiting, ← List.map_append, ← List.filter_append]
    rfl
  · rw [arrived, List.length_append, List.length_map]
    refine h.orderly.change sorted (e.change env expires name l.outs.broker)
      (change_fits (fun qm m read => ?_) h.waiting)
    exact congrArg UInt8.toNat (QueueMessage.resolve_standing read).1.symm
  · rw [arrived]
    refine h.bears.change (change_fits (fun qm m read => ?_) h.waiting)
    exact (QueueMessage.resolve_id read).symm

theorem QueueLine.InOrder.serve {l : QueueLine} (h : l.InOrder name) (op : Op) :
    (l.serve env name op).InOrder name :=
  Run.keeps (fun _ e (_ : True) before => before.step op.expiresMessages e) (fun _ _ => trivial) h

theorem QueueLine.outs_serve (l : QueueLine) (op : Op) :
    (l.serve env name op).outs = l.outs.serve env op :=
  Run.run_map (fun _ _ => rfl) l _

/-- In every run a queue hands out the messages of each priority for the first time in the order
    in which they came, and those that still wait are in this order behind them. -/
theorem first_handouts_in_order (env : Env) (auth : AuthBackend)
    (cluster : Option ClusterCoordinator) (name : String) (ops : List Op) :
    (QueueLine.after env auth cluster name ops).outs = HandOuts.after env auth cluster ops ∧
      (QueueLine.after env auth cluster name ops).InOrder name := by
  constructor
  · exact Run.run_map QueueLine.outs_serve _ ops
  · refine Run.keeps (fun l op (_ : True) before => before.serve op) (fun _ _ => trivial)
      ⟨rfl, rfl, ⟨fun _ => List.Pairwise.nil, ?_⟩, ?_⟩
    · intro k t member
      contradiction
    · intro t x member
      contradiction

end

end RocketmqBroker
