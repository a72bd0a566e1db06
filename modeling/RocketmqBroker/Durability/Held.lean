import Mathlib.Algebra.Order.Group.Multiset
import RocketmqBroker.Durability.LogView

/-!
What a queue holds, counted by message id. Every step adds the ids it enqueues
and takes away the ids it settles or drops; nothing else leaves a queue.
-/
namespace RocketmqBroker

def heldAt (s : BrokerState) (name : String) : Multiset UInt64 :=
  match s.queues.get? name with
  | some q => q.held
  | none => 0

def QueueState.Tagged (q : QueueState) : Prop :=
  ∀ tag m, q.inflight.get? tag = some m → m.id = tag

def Tagged (s : BrokerState) : Prop := ∀ name q, s.queues.get? name = some q → q.Tagged

/-- The ids that leave with the front message of a queue: all its copies when it
    is dropped or cannot be read, and the older one of two in-flight messages
    with the same id. -/
def QueueState.popDrops (env : Env) (wal : SegmentCoordinator) (fate : Fate) (q : QueueState) :
    List UInt64 :=
  match q.messages.popFront with
  | none => []
  | some (qm, _) =>
    match fate, qm.resolve env.crc32 wal with
    | .drop, _ => [qm.id]
    | _, .error _ => [qm.id]
    | .hold, .ok m => if m.id ∈ q.inflight.keys then [m.id] else []
    | _, .ok _ => []

def QueueState.oldest (q : QueueState) : List UInt64 :=
  match q.messages.popOldest with
  | none => []
  | some (qm, _) => [qm.id]

def QueueState.readyIds (q : QueueState) : List UInt64 := q.messages.ready.map QueueMessage.id

def idsAt (s : BrokerState) (queue : String) (ids : QueueState → List UInt64) :
    List (String × UInt64) :=
  match s.queues.get? queue with
  | none => []
  | some q => (ids q).map (queue, ·)

def Effect.dropped (env : Env) (s : BrokerState) : Effect → List (String × UInt64)
  | removeQueue queue => idsAt s queue fun q => q.readyIds ++ q.inflight.keys
  | pop queue fate => idsAt s queue (·.popDrops env s.wal fate)
  | popOldest queue => idsAt s queue (·.oldest)
  | purge queue => idsAt s queue (·.readyIds)
  | discard queue tag => idsAt s queue fun q => if tag ∈ q.inflight.keys then [tag] else []
  | _ => []

def Effect.settled (s : BrokerState) : Effect → List (String × UInt64)
  | settle queue tag => idsAt s queue fun q => if tag ∈ q.inflight.keys then [tag] else []
  | replicateAck queue msgId => idsAt s queue fun q => q.readyIds.filter (· = msgId)
  | _ => []

/-- The messages that a step puts into a queue. -/
def Effect.arrived (s : BrokerState) : Effect → List (String × UInt64)
  | enqueue queue _ _ => idsAt s queue fun _ => [s.nextMsgId]
  | enqueueFull queue _ _ _ _ => idsAt s queue fun _ => [s.nextMsgId]
  | pushFull queue m => idsAt s queue fun _ => [m.id]
  | replicatePublish queue msgId _ => idsAt s queue fun _ => [msgId]
  | _ => []

def idsOf (name : String) (pairs : List (String × UInt64)) : List UInt64 :=
  (pairs.filter fun p => p.1 = name).map Prod.snd

def arrivals (rs : List LogRecord) (name : String) : List UInt64 :=
  (rs.filterMap (LogRecord.restored [] name)).map Message.id

namespace QueueState
variable {env : Env} {wal : SegmentCoordinator}

theorem held_pushBack (q : QueueState) (m : QueueMessage) :
    (q.pushBack m).held = m.id ::ₘ q.held := by
  simp [held, pushBack]

theorem readyIds_eq (q : QueueState) :
    (q.readyIds : Multiset UInt64) = q.messages.contents.map QueueMessage.id := by
  rw [PriorityQueue.contents_eq_ready, readyIds, Multiset.map_coe]

theorem held_eq_ids (q : QueueState) :
    q.held = ((q.readyIds ++ q.inflight.keys : List UInt64) : Multiset UInt64) := by
  rw [held, ← readyIds_eq, Multiset.coe_add]

theorem keys_insert_count (inflight : FinMap UInt64 Message) (m : Message) :
    ((inflight.insert m.id m).keys : Multiset UInt64) +
      ((if m.id ∈ inflight.keys then [m.id] else [] : List UInt64) : Multiset UInt64) =
      m.id ::ₘ (inflight.keys : Multiset UInt64) := by
  rw [FinMap.keys_insert]
  split
  · rename_i member
    rw [Multiset.coe_add, Multiset.cons_coe, Multiset.coe_eq_coe]
    have back : inflight.keys.Perm (m.id :: inflight.keys.erase m.id) := List.perm_cons_erase member
    exact (List.perm_append_singleton m.id _).trans (back.symm.cons m.id)
  · rename_i fresh
    rw [List.erase_of_not_mem fresh]
    simp

theorem held_popTo (q : QueueState) (fate : Fate) :
    (q.popTo env wal fate).held + (q.popDrops env wal fate : Multiset UInt64) = q.held := by
  unfold popTo popDrops
  cases popped : q.messages.popFront with
  | none => simp
  | some front =>
    obtain ⟨qm, rest⟩ := front
    have contents := PriorityQueue.contents_popFront popped
    have gone : rest.contents.map QueueMessage.id + (q.inflight.keys : Multiset UInt64) +
        {qm.id} = q.held := by
      rw [held, contents, Multiset.map_cons, Multiset.cons_add, ← Multiset.singleton_add, add_comm]
    cases resolved : qm.resolve env.crc32 wal with
    | error err =>
      simp only [resolved]
      cases fate <;> exact gone
    | ok m =>
      simp only [resolved]
      have same : (QueueMessage.full m).id = qm.id := QueueMessage.resolve_id resolved
      cases fate with
      | drop => exact gone
      | hold =>
        simp only [held]
        rw [add_assoc, keys_insert_count, contents, Multiset.map_cons, ← same, Multiset.cons_add,
          Multiset.add_cons]
        rfl
      | front => simp [held, contents, same]
      | back => simp [held, contents, same]

theorem held_dropOldest (q : QueueState) :
    q.dropOldest.held + (q.oldest : Multiset UInt64) = q.held := by
  unfold dropOldest oldest
  cases popped : q.messages.popOldest with
  | none => simp
  | some front =>
    have contents := PriorityQueue.contents_popOldest popped
    simp only [held, contents, Multiset.map_cons, Multiset.cons_add]
    rw [add_comm]
    rfl

theorem held_clear (q : QueueState) :
    { q with messages := q.messages.clear : QueueState }.held + (q.readyIds : Multiset UInt64) =
      q.held := by
  rw [readyIds_eq, held, held, add_comm]
  simp

theorem held_release (q : QueueState) (tag : UInt64) :
    (q.release tag).held +
      ((if tag ∈ q.inflight.keys then [tag] else [] : List UInt64) : Multiset UInt64) =
      q.held := by
  simp only [held, release, FinMap.keys_erase]
  split
  · rename_i member
    rw [add_assoc, Multiset.coe_add, add_right_inj, Multiset.coe_eq_coe]
    exact (List.perm_append_singleton tag _).trans (List.perm_cons_erase member).symm
  · rename_i fresh
    rw [List.erase_of_not_mem fresh]
    simp

theorem held_putBack {q : QueueState} (tagged : q.Tagged) (tag : UInt64) (counted : Bool) :
    (q.putBack tag counted).held = q.held := by
  unfold putBack
  split
  · rfl
  · rename_i m found
    have member : tag ∈ q.inflight.keys := FinMap.mem_keys_iff.mpr ⟨m, found⟩
    have released := q.held_release tag
    rw [if_pos member] at released
    rw [← released]
    have id : (QueueMessage.full (if counted then { m with
        redelivered := true
        deliveryCount := m.deliveryCount + 1 } else m)).id = tag := by
      rw [← tagged tag m found]
      cases counted <;> rfl
    simp only [held, release, PriorityQueue.contents_pushFront, Multiset.map_cons, id,
      Multiset.cons_add]
    rw [add_comm _ ((↑[tag] : Multiset UInt64))]
    rfl

end QueueState

theorem contents_foldl_pushBack (ms : List QueueMessage) (q : PriorityQueue) :
    (ms.foldl PriorityQueue.pushBack q).contents = q.contents + (ms : Multiset QueueMessage) := by
  induction ms generalizing q with
  | nil => simp
  | cons m ms ih =>
    rw [List.foldl_cons, ih, PriorityQueue.contents_pushBack, ← Multiset.cons_coe,
      Multiset.cons_add, Multiset.add_cons]

theorem contents_withoutId (msgId : UInt64) (messages : PriorityQueue) :
    (withoutId msgId messages).contents = messages.contents.filter fun m => m.id ≠ msgId := by
  rw [withoutId, contents_foldl_pushBack, PriorityQueue.contents_new, zero_add,
    PriorityQueue.contents_eq_ready, Multiset.filter_coe]
  congr 2
  funext m
  by_cases same : m.id = msgId <;> simp [same]

theorem held_withoutId (q : QueueState) (msgId : UInt64) :
    { q with messages := withoutId msgId q.messages : QueueState }.held +
      (q.readyIds.filter (· = msgId) : Multiset UInt64) = q.held := by
  have split := Multiset.filter_add_not (fun id => id = msgId)
    (q.messages.contents.map QueueMessage.id)
  have others : (withoutId msgId q.messages).contents.map QueueMessage.id =
      (q.messages.contents.map QueueMessage.id).filter fun id => ¬ id = msgId := by
    rw [contents_withoutId, Multiset.filter_map]
    rfl
  rw [← Multiset.filter_coe, QueueState.readyIds_eq]
  change (withoutId msgId q.messages).contents.map QueueMessage.id +
    (q.inflight.keys : Multiset UInt64) + _ = _
  rw [others, add_right_comm, add_comm (Multiset.filter _ _), split]
  rfl

section
variable {s : BrokerState}

theorem mem_idsOf {name : String} {id : UInt64} {pairs : List (String × UInt64)} :
    id ∈ idsOf name pairs ↔ (name, id) ∈ pairs := by
  simp [idsOf]

theorem idsOf_idsAt (s : BrokerState) (queue name : String) (ids : QueueState → List UInt64) :
    idsOf name (idsAt s queue ids) =
      if name = queue then ((s.queues.get? queue).map ids).getD [] else [] := by
  unfold idsAt idsOf
  cases s.queues.get? queue with
  | none => simp
  | some q =>
    by_cases same : name = queue
    · simp [same, List.filter_map, Function.comp_def]
    · simp [same, Ne.symm same, List.filter_map, Function.comp_def]

theorem heldAt_of_queues {t : BrokerState} (same : t.queues = s.queues) (name : String) :
    heldAt t name = heldAt s name := by
  rw [heldAt, heldAt, same]

theorem held_modifyQueue {queue : String} {f : QueueState → QueueState}
    {outs ins : QueueState → List UInt64}
    (moves : ∀ q, s.queues.get? queue = some q →
      (f q).held + (outs q : Multiset UInt64) = q.held + (ins q : Multiset UInt64))
    (name : String) :
    heldAt (s.modifyQueue queue f) name + (idsOf name (idsAt s queue outs) : Multiset UInt64) =
      heldAt s name + (idsOf name (idsAt s queue ins) : Multiset UInt64) := by
  rw [idsOf_idsAt, idsOf_idsAt, heldAt, heldAt, get?_modifyQueue]
  by_cases same : name = queue
  · subst same
    cases found : s.queues.get? name with
    | none => simp
    | some q => simpa using moves q found
  · simp [same]

theorem idsAt_nil (s : BrokerState) (queue : String) : idsAt s queue (fun _ => []) = [] := by
  rw [idsAt]
  split <;> rfl

theorem held_arrives {queue : String} {f : QueueState → QueueState}
    {ins : QueueState → List UInt64}
    (moves : ∀ q, s.queues.get? queue = some q → (f q).held = q.held + (ins q : Multiset UInt64))
    (name : String) :
    heldAt (s.modifyQueue queue f) name + (idsOf name [] : Multiset UInt64) =
      heldAt s name + (idsOf name (idsAt s queue ins) : Multiset UInt64) := by
  rw [← idsAt_nil s queue]
  exact held_modifyQueue (fun q found => by simpa using moves q found) name

theorem held_departs {queue : String} {f : QueueState → QueueState}
    {outs : QueueState → List UInt64}
    (moves : ∀ q, s.queues.get? queue = some q → (f q).held + (outs q : Multiset UInt64) = q.held)
    (name : String) :
    heldAt (s.modifyQueue queue f) name + (idsOf name (idsAt s queue outs) : Multiset UInt64) =
      heldAt s name + (idsOf name [] : Multiset UInt64) := by
  rw [← idsAt_nil s queue]
  exact held_modifyQueue (fun q found => by simpa using moves q found) name

theorem held_stays {queue : String} {f : QueueState → QueueState}
    (moves : ∀ q, s.queues.get? queue = some q → (f q).held = q.held) (name : String) :
    heldAt (s.modifyQueue queue f) name + (idsOf name [] : Multiset UInt64) =
      heldAt s name + (idsOf name [] : Multiset UInt64) := by
  rw [← idsAt_nil s queue]
  exact held_modifyQueue (fun q found => by simpa using moves q found) name

theorem buildQueueMessage_id (msgId : UInt64) (priority : UInt8) (expiration : Option Instant)
    (diskRef : Option (Nat × Nat × Nat)) (ctx : EnqueueCtx) :
    (buildQueueMessage msgId priority expiration diskRef ctx).id = msgId := by
  cases diskRef <;> rfl

theorem held_pushed (q : QueueState) {q' : QueueState} {m : QueueMessage} {id : UInt64}
    (same : m.id = id) (messages : q'.messages = q.messages.pushBack m)
    (inflight : q'.inflight = q.inflight) : q'.held = q.held + ([id] : List UInt64) := by
  have pushed : q'.held = (q.pushBack m).held := by
    rw [QueueState.held, messages, inflight]
    rfl
  rw [pushed, QueueState.held_pushBack, same, add_comm]
  rfl

theorem held_tuned (change : Tuning) (q : QueueState) : (change.apply q).held = q.held := by
  rw [QueueState.held, change.messages, change.inflight]
  rfl

theorem held_new (q : NewQueue) : q.state.held = 0 := by
  rw [QueueState.held, q.messages, q.inflight]
  rfl

theorem heldAt_tuneAll (s : BrokerState) (change : Tuning) (name : String) :
    heldAt { s with queues := s.queues.mapVals fun _ q => change.apply q } name =
      heldAt s name := by
  simp only [heldAt, FinMap.get?_mapVals]
  cases s.queues.get? name with
  | none => rfl
  | some q => exact held_tuned change q

theorem heldAt_createQueue (s : BrokerState) (queue name : String) (q : NewQueue) :
    heldAt { s with queues := s.queues.orInsert queue q.state } name = heldAt s name := by
  simp only [heldAt, FinMap.get?_orInsert]
  by_cases same : name = queue
  · subst same
    cases s.queues.get? name with
    | none => simpa using held_new q
    | some found => simp
  · simp [same]

theorem heldAt_removeQueue (s : BrokerState) (queue name : String) :
    heldAt { s with queues := s.queues.erase queue } name +
      (idsOf name (idsAt s queue fun q => q.readyIds ++ q.inflight.keys) : Multiset UInt64) =
      heldAt s name := by
  rw [idsOf_idsAt]
  simp only [heldAt, FinMap.get?_erase]
  by_cases same : name = queue
  · subst same
    cases s.queues.get? name with
    | none => simp
    | some q => simp [QueueState.held_eq_ids]
  · simp [same]

/-- The books of every step but a restart. -/
theorem held_exec (env : Env) {e : Effect} (tagged : Tagged s)
    (goesOn : ∀ now auth cluster, e ≠ .restart now auth cluster) (name : String) :
    heldAt (exec env s e) name +
      (idsOf name (e.dropped env s ++ e.settled s) : Multiset UInt64) =
      heldAt s name + (idsOf name (e.arrived s) : Multiset UInt64) := by
  rw [heldAt_of_queues (exec_memory env s e).1]
  have still : ∀ {t : BrokerState}, heldAt t name = heldAt s name →
      heldAt t name + (idsOf name [] : Multiset UInt64) =
        heldAt s name + (idsOf name [] : Multiset UInt64) := by
    intro t same
    rw [same]
  cases e with
  | books change => exact still (heldAt_of_queues (change.queues s) name)
  | tune queue change => exact held_stays (fun q _ => held_tuned change q) name
  | tuneAll change => exact still (heldAt_tuneAll s change name)
  | createQueue queue q logs schema =>
    refine still ?_
    rw [← heldAt_createQueue s queue name q]
    exact heldAt_of_queues (createQueue_queues env s queue q logs schema) name
  | removeQueue queue =>
    simp only [Effect.dropped, Effect.settled, Effect.arrived, List.append_nil]
    rw [Effect.inMemory, heldAt_removeQueue]
    simp [idsOf]
  | enqueue queue ctx now =>
    refine held_arrives (s := s) (fun q _ => ?_) name
    exact held_pushed q (buildQueueMessage_id _ _ _ _ _) rfl rfl
  | enqueueFull queue exchange routingKey headers body =>
    refine held_arrives (s := s) (fun q _ => ?_) name
    exact held_pushed q (show QueueMessage.id (.full _) = _ from rfl) rfl rfl
  | pushFull queue m =>
    refine held_arrives (fun q _ => ?_) name
    exact held_pushed q (show QueueMessage.id (.full m) = _ from rfl) rfl rfl
  | replicatePublish queue msgId body =>
    refine held_arrives (fun q _ => ?_) name
    exact held_pushed q (show QueueMessage.id (.full _) = _ from rfl) rfl rfl
  | replicateAck queue msgId => exact held_departs (fun q _ => held_withoutId q msgId) name
  | pop queue fate =>
    simp only [Effect.dropped, Effect.settled, Effect.arrived, List.append_nil]
    exact held_departs (fun q _ => q.held_popTo fate) name
  | popOldest queue =>
    simp only [Effect.dropped, Effect.settled, Effect.arrived, List.append_nil]
    exact held_departs (fun q _ => q.held_dropOldest) name
  | purge queue =>
    simp only [Effect.dropped, Effect.settled, Effect.arrived, List.append_nil]
    exact held_departs (fun q _ => q.held_clear) name
  | settle queue tag => exact held_departs (fun q _ => q.held_release tag) name
  | discard queue tag =>
    simp only [Effect.dropped, Effect.settled, Effect.arrived, List.append_nil]
    exact held_departs (fun q _ => q.held_release tag) name
  | requeue queue tag counted =>
    exact held_stays
      (fun q found => QueueState.held_putBack (tagged queue q found) tag counted) name
  | restart now auth cluster => exact absurd rfl (goesOn now auth cluster)
  | alloc | createExchange | removeExchange | bind | appendBinding | unbind | compact =>
    exact still rfl

theorem tagged_insert {q : QueueState} (tagged : q.Tagged) (m : Message) {tag : UInt64}
    {found : Message} (present : (q.inflight.insert m.id m).get? tag = some found) :
    found.id = tag := by
  rw [FinMap.get?_insert] at present
  split at present
  · rename_i same
    cases present
    exact same.symm
  · exact tagged tag found present

theorem tagged_erase {q : QueueState} (tagged : q.Tagged) (gone : UInt64) {tag : UInt64}
    {found : Message} (present : (q.inflight.erase gone).get? tag = some found) :
    found.id = tag := by
  rw [FinMap.get?_erase] at present
  split at present
  · contradiction
  · exact tagged tag found present

theorem tagged_popTo {q : QueueState} (tagged : q.Tagged) (env : Env) (wal : SegmentCoordinator)
    (fate : Fate) : (q.popTo env wal fate).Tagged := by
  unfold QueueState.popTo
  cases q.messages.popFront with
  | none => exact tagged
  | some front =>
    simp only
    split
    · exact tagged
    · exact tagged
    · exact fun tag found present => tagged_insert tagged _ present
    · exact tagged
    · exact tagged

theorem tagged_putBack {q : QueueState} (tagged : q.Tagged) (tag : UInt64) (counted : Bool) :
    (q.putBack tag counted).Tagged := by
  unfold QueueState.putBack
  split
  · exact tagged
  · exact fun other found present => tagged_erase tagged tag present

theorem tagged_dropOldest {q : QueueState} (tagged : q.Tagged) : q.dropOldest.Tagged := by
  unfold QueueState.dropOldest
  split <;> exact tagged

theorem restoreQueue_rule {P : QueueState → Prop} {env : Env} {now : Instant}
    {acked : List UInt64} {name : String} (declared : P (declaredQueue now name))
    (refilled : ∀ q messages, P q → P { q with messages })
    (described : ∀ (q : QueueState) compiled schema schemaType schemaMessage, P q → P { q with
      schema := compiled
      options := { q.options with schema, schemaType, schemaMessage } })
    (rs : List LogRecord) {found : Option QueueState} (before : ∀ q ∈ found, P q) :
    ∀ q ∈ rs.foldl (restoreQueue env now acked name) found, P q := by
  induction rs generalizing found with
  | nil => exact before
  | cons r rs ih =>
    refine ih ?_
    intro q member
    cases r with
    | declareQueue queue durable =>
      simp only [restoreQueue] at member
      split at member
      · rename_i here
        obtain rfl := here.2
        cases found with
        | none =>
          cases member
          exact declared
        | some old => exact before q member
      · exact before q member
    | enqueue queue msgId exchange routingKey headers body =>
      simp only [restoreQueue] at member
      split at member
      · obtain ⟨old, present, rfl⟩ := Option.map_eq_some_iff.mp member
        exact refilled old _ (before old present)
      · exact before q member
    | setQueueSchema schemaId queue rawProto descriptorSetBytes messageName =>
      simp only [restoreQueue] at member
      split at member
      · split at member
        · obtain ⟨old, present, rfl⟩ := Option.map_eq_some_iff.mp member
          exact described old _ _ _ _ (before old present)
        · exact before q member
      · exact before q member
    | ack | declareExchange | bind | raft => exact before q member

theorem restart_rule {P : QueueState → Prop} {env : Env} {now : Instant} {auth : AuthBackend}
    {cluster : Option ClusterCoordinator} {name : String}
    (declared : P (declaredQueue now name))
    (refilled : ∀ q messages, P q → P { q with messages })
    (described : ∀ (q : QueueState) compiled schema schemaType schemaMessage, P q → P { q with
      schema := compiled
      options := { q.options with schema, schemaType, schemaMessage } })
    {q : QueueState}
    (present : (restart env now s.wal.dir auth cluster).queues.get? name = some q) : P q := by
  rw [restart_replays, replayRecords, get?_queues_foldl] at present
  exact restoreQueue_rule declared refilled described (recordsFound env s)
    (by simp [BrokerState.new]) q present

theorem restart_inflight {env : Env} (now : Instant) (auth : AuthBackend)
    (cluster : Option ClusterCoordinator) {name : String} {q : QueueState}
    (present : (restart env now s.wal.dir auth cluster).queues.get? name = some q) :
    q.inflight = ∅ :=
  restart_rule (P := fun q => q.inflight = ∅) rfl (fun _ _ idle => idle)
    (fun _ _ _ _ _ idle => idle) present

theorem tagged_goesOn {env : Env} {e : Effect} (tagged : Tagged s)
    (goesOn : ∀ now auth cluster, e ≠ .restart now auth cluster) : Tagged (exec env s e) := by
  unfold Tagged
  rw [(exec_memory env s e).1]
  cases e with
  | books change =>
    rw [Effect.inMemory, change.queues]
    exact tagged
  | tune queue change =>
    refine forall_modifyQueue tagged fun q _ old => ?_
    unfold QueueState.Tagged
    rw [change.inflight]
    exact old
  | tuneAll change =>
    intro name q present
    obtain ⟨old, found, rfl⟩ := Option.map_eq_some_iff.mp
      ((FinMap.get?_mapVals _ _ _).symm.trans present)
    unfold QueueState.Tagged
    rw [change.inflight]
    exact tagged name old found
  | createQueue queue new logs schema =>
    intro name q present
    rw [createQueue_queues, FinMap.get?_orInsert] at present
    split at present
    · cases found : s.queues.get? queue with
      | none =>
        rw [found] at present
        cases present
        intro tag m member
        rw [Option.getD_none, new.inflight] at member
        contradiction
      | some old =>
        rw [found] at present
        cases present
        exact tagged queue old found
    · exact tagged name q present
  | removeQueue queue =>
    intro name q present
    rw [Effect.inMemory, FinMap.get?_erase] at present
    split at present
    · contradiction
    · exact tagged name q present
  | enqueue queue ctx now =>
    exact forall_modifyQueue (s := s.allocMsgId.2) tagged fun q _ old => old
  | enqueueFull queue exchange routingKey headers body =>
    exact forall_modifyQueue (s := s.allocMsgId.2) tagged fun q _ old => old
  | pushFull queue m => exact forall_modifyQueue tagged fun q _ old => old
  | replicatePublish queue msgId body => exact forall_modifyQueue tagged fun q _ old => old
  | replicateAck queue msgId => exact forall_modifyQueue tagged fun q _ old => old
  | pop queue fate => exact forall_modifyQueue tagged fun q _ old => tagged_popTo old env s.wal fate
  | popOldest queue => exact forall_modifyQueue tagged fun q _ old => tagged_dropOldest old
  | purge queue => exact forall_modifyQueue tagged fun q _ old => old
  | settle queue tag =>
    exact forall_modifyQueue tagged fun q _ old other m present => tagged_erase old tag present
  | discard queue tag =>
    exact forall_modifyQueue tagged fun q _ old other m present => tagged_erase old tag present
  | requeue queue tag counted =>
    exact forall_modifyQueue tagged fun q _ old => tagged_putBack old tag counted
  | restart now auth cluster => exact absurd rfl (goesOn now auth cluster)
  | alloc | createExchange | removeExchange | bind | appendBinding | unbind | compact =>
    exact tagged

theorem tagged_exec {env : Env} {e : Effect} (tagged : Tagged s) :
    Tagged (exec env s e) := by
  cases restarts : e.restarts with
  | false =>
    refine tagged_goesOn tagged ?_
    rintro now auth cluster rfl
    contradiction
  | true =>
    cases e with
    | restart now auth cluster =>
      intro name q present tag m member
      rw [(exec_memory env s _).1] at present
      rw [restart_inflight now auth cluster present] at member
      contradiction
    | _ => contradiction

end

end RocketmqBroker
