import RocketmqBroker.Durability.References
import RocketmqBroker.Server.Timeless

/-!
Where the messages of a queue are, counted by id. A message that was enqueued is
ready, in flight or finished: acked, rejected for good or delivered where no
acknowledgement is asked for. The books close as long as no message leaves the
front of its queue unread, and none goes in flight in the place of another.
Taking a message for Basic.Get and entering it among those in flight is one step
here; `handle_get` waits for its answer to be written between the two.
-/
namespace RocketmqBroker
open Run.Program

/-- The messages that a step delivers without waiting for an acknowledgement:
    a message that can be read is dropped from the front for nothing else, on a
    queue without time limit. -/
def Effect.delivered (env : Env) (s : BrokerState) : Effect → List (String × UInt64)
  | pop queue .drop => idsAt s queue fun q =>
    match q.messages.popFront with
    | none => []
    | some (qm, _) => if (qm.resolve env.crc32 s.wal).isOk then [qm.id] else []
  | _ => []

def Effect.rejected (s : BrokerState) : Effect → List (String × UInt64)
  | discard queue tag => idsAt s queue fun q => if tag ∈ q.inflight.keys then [tag] else []
  | _ => []

def Effect.finished (env : Env) (s : BrokerState) (e : Effect) : List (String × UInt64) :=
  e.settled s ++ e.rejected s ++ e.delivered env s

/-- A run with all that was enqueued and finished in it. -/
structure Ledger where
  broker : BrokerState
  enqueued : List (String × UInt64)
  finished : List (String × UInt64)

namespace Ledger

def step (env : Env) (l : Ledger) (e : Effect) : Ledger where
  broker := exec env l.broker e
  enqueued := l.enqueued ++ e.arrived l.broker
  finished := l.finished ++ e.finished env l.broker

/-- Every message enqueued is in exactly one place: ready or in flight (`heldAt`),
    or finished. -/
def Conserved (name : String) (l : Ledger) : Prop :=
  heldAt l.broker name + (idsOf name l.finished : Multiset UInt64) =
    (idsOf name l.enqueued : Multiset UInt64)

end Ledger

/-- The front message can be read, and its id is not in flight when it goes there. -/
def QueueState.Poppable (env : Env) (wal : SegmentCoordinator) (fate : Fate) (q : QueueState) :
    Prop :=
  ∀ front ∈ q.messages.popFront, (front.1.resolve env.crc32 wal).isOk = true ∧
    (fate = .hold → front.1.id ∉ q.inflight.keys)

instance (env : Env) (wal : SegmentCoordinator) (fate : Fate) (q : QueueState) :
    Decidable (q.Poppable env wal fate) := Option.decidableForallMem q.messages.popFront

/-- What takes a message from the front of the queue can read it, and overwrites
    nothing in flight. -/
def Lossless (env : Env) (name : String) (s : BrokerState) : Effect → Prop
  | .pop queue fate => queue = name → ∀ q ∈ s.queues.get? name, q.Poppable env s.wal fate
  | _ => True

instance (env : Env) (name : String) (s : BrokerState) (e : Effect) :
    Decidable (Lossless env name s e) := by
  apply Effect.casesOn (motive := fun e => Decidable (Lossless env name s e)) e <;> intros <;>
    dsimp only [Lossless] <;> infer_instance

/-- Whether a step leaves a queue in place and cuts nothing off its messages. -/
def Effect.spares (name : String) : Effect → Bool
  | removeQueue queue => queue != name
  | popOldest queue => queue != name
  | purge queue => queue != name
  | restart _ _ _ => false
  | _ => true

/-- A delivery that fails: the payload cannot be read, or the connection does not
    take it. -/
def FailedDelivery (env : Env) (s : BrokerState) (name : String) (fate : Fate) : Prop :=
  fate = .front ∨ ∃ q front, s.queues.get? name = some q ∧ q.messages.popFront = some front ∧
    (front.1.resolve env.crc32 s.wal).isOk = false

def readyIdsAt (s : BrokerState) (name : String) : Multiset UInt64 :=
  match s.queues.get? name with
  | some q => (q.readyIds : Multiset UInt64)
  | none => 0

namespace QueueState
variable {env : Env} {wal : SegmentCoordinator}

def popLoses (env : Env) (wal : SegmentCoordinator) (fate : Fate) (q : QueueState) :
    List UInt64 :=
  match q.messages.popFront with
  | none => []
  | some (qm, _) =>
    match fate, qm.resolve env.crc32 wal with
    | _, .error _ => [qm.id]
    | .hold, .ok m => if m.id ∈ q.inflight.keys then [m.id] else []
    | _, .ok _ => []

theorem popLoses_iff (fate : Fate) (q : QueueState) :
    q.popLoses env wal fate = [] ↔ q.Poppable env wal fate := by
  unfold popLoses Poppable
  cases popped : q.messages.popFront with
  | none => simp
  | some front =>
    obtain ⟨qm, rest⟩ := front
    cases resolved : qm.resolve env.crc32 wal with
    | error err => simp [resolved, Except.isOk, Except.toBool]
    | ok m =>
      have same := QueueMessage.resolve_id resolved
      cases fate <;> simp [resolved, Except.isOk, Except.toBool, same]

/-- What leaves with the front message: it is delivered or lost. -/
theorem popDrops_eq (fate : Fate) (q : QueueState) :
    q.popDrops env wal fate = (if fate = .drop then match q.messages.popFront with
      | none => []
      | some (qm, _) => if (qm.resolve env.crc32 wal).isOk then [qm.id] else []
      else []) ++ q.popLoses env wal fate := by
  unfold popDrops popLoses
  cases popped : q.messages.popFront with
  | none => simp
  | some front =>
    obtain ⟨qm, rest⟩ := front
    cases resolved : qm.resolve env.crc32 wal with
    | error err => cases fate <;> simp [resolved, Except.isOk, Except.toBool]
    | ok m => cases fate <;> simp [resolved, Except.isOk, Except.toBool]

theorem readyIds_popTo_front (q : QueueState) (poppable : q.Poppable env wal .front) :
    ((q.popTo env wal .front).readyIds : Multiset UInt64) = q.readyIds := by
  rw [readyIds_eq, readyIds_eq]
  unfold popTo
  cases popped : q.messages.popFront with
  | none => rfl
  | some front =>
    obtain ⟨qm, rest⟩ := front
    have contents := PriorityQueue.contents_popFront popped
    have readable := (poppable (qm, rest) popped).1
    cases resolved : qm.resolve env.crc32 wal with
    | error err =>
      rw [resolved] at readable
      contradiction
    | ok m =>
      have same : (QueueMessage.full m).id = qm.id := QueueMessage.resolve_id resolved
      simp [resolved, contents, same]

end QueueState

/-- The messages that leave the front of a queue although nobody got them. -/
def Effect.lost (env : Env) (s : BrokerState) : Effect → List (String × UInt64)
  | pop queue fate => idsAt s queue (·.popLoses env s.wal fate)
  | _ => []

section
variable {env : Env} {s : BrokerState} {e : Effect} {name : String} {l : Ledger}

theorem idsOf_append (name : String) (xs ys : List (String × UInt64)) :
    idsOf name (xs ++ ys) = idsOf name xs ++ idsOf name ys := by
  simp [idsOf]

theorem idsOf_elsewhere {queue : String} (elsewhere : queue ≠ name)
    (ids : QueueState → List UInt64) : idsOf name (idsAt s queue ids) = [] := by
  rw [idsOf_idsAt, if_neg (Ne.symm elsewhere)]

/-- Whatever leaves a spared queue is finished or lost. -/
theorem leaves_eq (spared : e.spares name = true) :
    idsOf name (e.dropped env s ++ e.settled s) =
      idsOf name (e.finished env s) ++ idsOf name (e.lost env s) := by
  unfold Effect.finished
  cases e with
  | removeQueue queue =>
    have elsewhere : queue ≠ name := by simpa [Effect.spares] using spared
    simp only [Effect.dropped, idsOf_append, idsOf_elsewhere elsewhere]
    rfl
  | popOldest queue =>
    have elsewhere : queue ≠ name := by simpa [Effect.spares] using spared
    simp only [Effect.dropped, idsOf_append, idsOf_elsewhere elsewhere]
    rfl
  | purge queue =>
    have elsewhere : queue ≠ name := by simpa [Effect.spares] using spared
    simp only [Effect.dropped, idsOf_append, idsOf_elsewhere elsewhere]
    rfl
  | pop queue fate =>
    have settled : Effect.settled s (.pop queue fate) = [] := rfl
    have rejected : Effect.rejected s (.pop queue fate) = [] := rfl
    rw [settled, rejected, List.append_nil, List.nil_append, List.nil_append]
    simp only [Effect.dropped, Effect.lost, idsOf_idsAt]
    by_cases same : name = queue
    · cases found : s.queues.get? queue with
      | none => cases fate <;> simp [Effect.delivered, idsAt, found, idsOf]
      | some q =>
        rw [if_pos same, if_pos same, Option.map_some, Option.getD_some,
          QueueState.popDrops_eq, Option.map_some, Option.getD_some]
        congr 1
        cases fate with
        | drop =>
          rw [if_pos rfl, Effect.delivered, idsOf_idsAt, if_pos same, found]
          rfl
        | hold | front | back => rfl
    · rw [if_neg same, if_neg same]
      cases fate with
      | drop => rw [Effect.delivered, idsOf_elsewhere (Ne.symm same), List.append_nil]
      | hold | front | back => rfl
  | settle | replicateAck | discard =>
    simp [Effect.dropped, Effect.settled, Effect.rejected, Effect.delivered, Effect.lost, idsOf]
  | books | tune | tuneAll | alloc | createQueue | createExchange | removeExchange | bind
  | appendBinding | unbind | enqueue | enqueueFull | pushFull | replicatePublish | requeue
  | compact | restart => rfl

theorem lost_iff : idsOf name (e.lost env s) = [] ↔ Lossless env name s e := by
  cases e with
  | pop queue fate =>
    simp only [Effect.lost, idsOf_idsAt, Lossless]
    by_cases same : name = queue
    · subst same
      cases found : s.queues.get? name with
      | none => simp
      | some q => simpa using QueueState.popLoses_iff fate q
    · simp [same, Ne.symm same]
  | _ => exact iff_of_true rfl trivial

theorem books_close {held held' done done' missing given given' : Multiset UInt64}
    (before : held + done = given) (books : held' + (done' + missing) = held + given') :
    held' + (done + done') = given + given' ↔ missing = 0 := by
  have whole : held' + (done + done') + missing = given + given' := by
    calc held' + (done + done') + missing = held' + (done' + missing) + done := by ac_rfl
      _ = held + given' + done := by rw [books]
      _ = held + done + given' := by ac_rfl
      _ = given + given' := by rw [before]
  rw [← whole, left_eq_add]

theorem conserved_step (tagged : Tagged l.broker) (spared : e.spares name = true)
    (before : l.Conserved name) :
    (l.step env e).Conserved name ↔ Lossless env name l.broker e := by
  have goesOn : ∀ now auth cluster, e ≠ .restart now auth cluster := by
    rintro now auth cluster rfl
    contradiction
  have books := held_exec env tagged goesOn name
  rw [leaves_eq spared, ← Multiset.coe_add] at books
  rw [← lost_iff, Ledger.Conserved, Ledger.step]
  simp only [idsOf_append, ← Multiset.coe_add]
  rw [books_close before books, Multiset.coe_eq_zero]

theorem readyIds_failed {fate : Fate} (failed : FailedDelivery env s name fate)
    (lossless : Lossless env name s (.pop name fate)) :
    readyIdsAt (exec env s (.pop name fate)) name = readyIdsAt s name := by
  have queues : (exec env s (.pop name fate)).queues =
      (s.modifyQueue name (·.popTo env s.wal fate)).queues := (exec_memory env s _).1
  rw [readyIdsAt, readyIdsAt, queues, get?_modifyQueue, if_pos rfl]
  cases found : s.queues.get? name with
  | none => rfl
  | some q =>
    have poppable := lossless rfl q found
    rcases failed with rfl | ⟨q', front, found', popped, unreadable⟩
    · exact q.readyIds_popTo_front poppable
    · rw [found] at found'
      cases found'
      rw [(poppable front popped).1] at unreadable
      contradiction

end

def firstLedger (env : Env) (auth : AuthBackend) (cluster : Option ClusterCoordinator) : Ledger :=
  ⟨install env auth cluster, [], []⟩

/-- The queue is not deleted, purged, cut to a length or limited in time, and neither are its
    messages. -/
structure SparedRun (env : Env) (auth : AuthBackend) (cluster : Option ClusterCoordinator)
    (name : String) (ops : List Op) : Prop where
  steps : ∀ e ∈ history env auth cluster ops, e.spares name = true
  limitless : ∀ e ∈ history env auth cluster ops, e.limitless name = true

/-- At every moment of a run every message is in one place, deliveries that fail leave theirs
    where it was, and the sweeps of the run leave the queue alone. -/
structure NothingLost (env : Env) (auth : AuthBackend) (cluster : Option ClusterCoordinator)
    (name : String) (ops : List Op) : Prop where
  conserved : ∀ before after, history env auth cluster ops = before ++ after →
    (Run.run (Ledger.step env) (firstLedger env auth cluster) before).Conserved name
  failed : ∀ before fate after,
    history env auth cluster ops = before ++ .pop name fate :: after →
      let s := Run.run (exec env) (install env auth cluster) before
      FailedDelivery env s name fate →
        readyIdsAt (exec env s (.pop name fate)) name = readyIdsAt s name
  swept : ∀ before now after, ops = before ++ .messageTtlTask now :: after →
    let s := reached env auth cluster before
    (∀ fate, .pop name fate ∉ (handle (.messageTtlTask now) : Act env (List Frame)).steps s) ∧
      (served env s (.messageTtlTask now)).queues.get? name = s.queues.get? name

theorem SparedRun.timeless {env : Env} {auth : AuthBackend} {cluster : Option ClusterCoordinator}
    {name : String} {before after : List Op}
    (spared : SparedRun env auth cluster name (before ++ after)) :
    (reached env auth cluster before).TimelessAt name := by
  have start : (install env auth cluster).TimelessAt name := fun q found => by cases found
  refine timeless_run (fun e member => spared.limitless e ?_) start
  change e ∈ (serve (before ++ after) : Act env (List (List Frame))).steps
    (install env auth cluster)
  rw [steps_serve_append]
  exact List.mem_append_left _ member

def settledRun : List Op :=
  session "q" ++ [publishTo "q" true [1], publishTo "q" true [2], publishTo "q" false [3],
    .messageTtlTask 10, .basicGet 1 "q" false, .basicGet 1 "q" false, .basicAck 1 1 1,
    .disconnect 1, .messageTtlTask 20]

/-- The message whose position a compaction has made useless is asked for. -/
def unreadableRun : List Op := strandingRun ++ [.basicGet 1 "q" false]

end RocketmqBroker
