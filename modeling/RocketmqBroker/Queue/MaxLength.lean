import RocketmqBroker.Broker.Footprint
import RocketmqBroker.Durability.Held

/-!
The maximum length of a queue. Basic.Publish evicts before it pushes, and that makes room
whenever a maximum leaves any. No other path that adds a message looks at the maximum:
they keep to it exactly when the queue is not full.
-/
namespace RocketmqBroker
open Run.Program

def QueueState.Bounded (q : QueueState) : Prop := ∀ n ∈ q.options.maxLength, q.messages.len ≤ n

def QueueState.HasRoom (q : QueueState) : Prop := ∀ n ∈ q.options.maxLength, q.messages.len < n

def BrokerState.Bounded (s : BrokerState) : Prop :=
  ∀ name q, s.queues.get? name = some q → q.Bounded

def BrokerState.RoomIn (s : BrokerState) (queue : String) : Prop :=
  ∀ q ∈ s.queues.get? queue, q.HasRoom

def RoomBefore (s : BrokerState) : Effect → Prop
  | .enqueue queue _ _ => s.RoomIn queue
  | .enqueueFull queue _ _ _ _ => s.RoomIn queue
  | .pushFull queue _ => s.RoomIn queue
  | .replicatePublish queue _ _ => s.RoomIn queue
  | .requeue queue tag _ =>
    ∀ q ∈ s.queues.get? queue, q.inflight.contains tag = true → q.HasRoom
  | _ => True

/-- Messages of Basic.Publish go to queues that may have any, all others to queues with
    room. -/
def RespectsMaxLength (s : BrokerState) (e : Effect) : Prop :=
  match e with
  | .enqueue queue _ _ => ∀ q ∈ s.queues.get? queue, q.options.maxLength ≠ some 0
  | _ => RoomBefore s e

def Evicted (s : BrokerState) (e : Effect) : Prop :=
  match e with
  | .enqueue queue _ _ => ∀ q ∈ s.queues.get? queue, q.options.maxLength ≠ some 0 → q.HasRoom
  | _ => True

namespace PriorityQueue

theorem len_pushBack (q : PriorityQueue) (m : QueueMessage) : (q.pushBack m).len = q.len + 1 := rfl

theorem len_pushFront (q : PriorityQueue) (m : QueueMessage) :
    (q.pushFront m).len = q.len + 1 := rfl

theorem len_popFront {q rest : PriorityQueue} {m : QueueMessage}
    (popped : q.popFront = some (m, rest)) : q.len = rest.len + 1 := by
  rw [len_eq_card, len_eq_card, contents_popFront popped, Multiset.card_cons]

theorem len_popOldest {q rest : PriorityQueue} {m : QueueMessage}
    (popped : q.popOldest = some (m, rest)) : q.len = rest.len + 1 := by
  rw [len_eq_card, len_eq_card, contents_popOldest popped, Multiset.card_cons]

theorem isEmpty_iff_len (q : PriorityQueue) : q.isEmpty = true ↔ q.len = 0 := beq_iff_eq

end PriorityQueue

theorem len_withoutId (msgId : UInt64) (messages : PriorityQueue) :
    (withoutId msgId messages).len ≤ messages.len := by
  rw [PriorityQueue.len_eq_card, PriorityQueue.len_eq_card, contents_withoutId,
    PriorityQueue.contents_eq_ready]
  exact Multiset.card_le_card (Multiset.filter_le _ _)

section
variable {env : Env} {s : BrokerState} {queue : String}

theorem bounded_of_fewer {q q' : QueueState} (options : q'.options = q.options)
    (fewer : q'.messages.len ≤ q.messages.len) (bounded : q.Bounded) : q'.Bounded := by
  intro n here
  rw [options] at here
  exact fewer.trans (bounded n here)

theorem bounded_pushed {q q' : QueueState} (options : q'.options = q.options)
    (more : q'.messages.len = q.messages.len + 1) : q'.Bounded ↔ q.HasRoom := by
  unfold QueueState.Bounded QueueState.HasRoom
  rw [options, more]
  exact forall_congr' fun n => imp_congr_right fun _ => Nat.succ_le_iff

theorem bounded_popTo (wal : SegmentCoordinator) (fate : Fate) {q : QueueState}
    (bounded : q.Bounded) : (q.popTo env wal fate).Bounded := by
  unfold QueueState.popTo
  cases popped : q.messages.popFront with
  | none => exact bounded
  | some front =>
    obtain ⟨qm, rest⟩ := front
    have less := PriorityQueue.len_popFront popped
    have shorter {q' : QueueState} (options : q'.options = q.options)
        (fewer : q'.messages.len ≤ rest.len + 1) : q'.Bounded :=
      bounded_of_fewer options (less ▸ fewer) bounded
    dsimp only
    split
    · exact shorter rfl (Nat.le_succ _)
    · exact shorter rfl (Nat.le_succ _)
    · exact shorter rfl (Nat.le_succ _)
    · exact shorter rfl (PriorityQueue.len_pushFront _ _).le
    · exact shorter rfl (PriorityQueue.len_pushBack _ _).le

theorem bounded_dropOldest {q : QueueState} (bounded : q.Bounded) : q.dropOldest.Bounded := by
  unfold QueueState.dropOldest
  split
  · exact bounded
  · rename_i m rest popped
    have less := PriorityQueue.len_popOldest popped
    exact bounded_of_fewer (q := q) rfl (less ▸ Nat.le_succ _) bounded

theorem bounded_putBack {q : QueueState} (bounded : q.Bounded) (tag : UInt64) (counted : Bool) :
    (q.putBack tag counted).Bounded ↔ (q.inflight.contains tag = true → q.HasRoom) := by
  unfold QueueState.putBack FinMap.contains
  cases q.inflight.get? tag with
  | none => exact iff_of_true bounded fun absent => by cases absent
  | some m =>
    refine Iff.trans ?_ (imp_iff_right rfl).symm
    exact bounded_pushed rfl (PriorityQueue.len_pushFront _ _)

theorem bounded_modifyQueue {f : QueueState → QueueState} (bounded : s.Bounded) :
    (s.modifyQueue queue f).Bounded ↔ ∀ q ∈ s.queues.get? queue, (f q).Bounded := by
  constructor
  · intro after q found
    exact after queue (f q) (get?_modifyQueue_of found f)
  · intro here
    exact forall_modifyQueue (P := fun _ q => q.Bounded) bounded fun q found _ => here q found

theorem bounded_pushes {f : QueueState → QueueState} (bounded : s.Bounded)
    (options : ∀ q, (f q).options = q.options)
    (more : ∀ q, (f q).messages.len = q.messages.len + 1) :
    (s.modifyQueue queue f).Bounded ↔ s.RoomIn queue :=
  (bounded_modifyQueue bounded).trans
    (forall_congr' fun q => imp_congr_right fun _ => bounded_pushed (options q) (more q))

theorem bounded_keeps {f : QueueState → QueueState} (bounded : s.Bounded)
    (keeps : ∀ q, q.Bounded → (f q).Bounded) : (s.modifyQueue queue f).Bounded :=
  (bounded_modifyQueue bounded).mpr fun q found => keeps q (bounded queue q found)

theorem bounded_restart (now : Instant) (auth : AuthBackend)
    (cluster : Option ClusterCoordinator) : (restart env now s.wal.dir auth cluster).Bounded := by
  intro name q found n here
  have unlimited : q.options.maxLength = none :=
    restart_rule (P := fun q => q.options.maxLength = none) rfl (fun _ _ none => none)
      (fun _ _ _ _ _ none => none) found
  rw [unlimited] at here
  cases here

theorem bounded_createQueue (name : String) (q : NewQueue) (logs : Bool)
    (schema : Option CompiledSchema) (bounded : s.Bounded) :
    (exec env s (.createQueue name q logs schema)).Bounded := by
  intro other found present
  rw [(exec_memory env s _).1, createQueue_queues, FinMap.get?_orInsert] at present
  split at present
  · cases old : s.queues.get? name with
    | none =>
      rw [old] at present
      obtain rfl := Option.some.inj present
      intro n _
      change q.state.messages.len ≤ n
      rw [q.messages]
      exact Nat.zero_le n
    | some known =>
      rw [old] at present
      obtain rfl := Option.some.inj present
      exact bounded name known old
  · exact bounded other found present

theorem bounded_step (e : Effect) (bounded : s.Bounded) :
    (exec env s e).Bounded ↔ RoomBefore s e := by
  have memory : (exec env s e).Bounded ↔ (e.inMemory env s).Bounded := by
    unfold BrokerState.Bounded
    rw [(exec_memory env s e).1]
  cases e with
  | enqueue queue ctx now =>
    exact memory.trans (bounded_pushes (s := s.allocMsgId.2) bounded (fun _ => rfl) fun _ => rfl)
  | enqueueFull queue exchange routingKey headers body =>
    exact memory.trans (bounded_pushes (s := s.allocMsgId.2) bounded (fun _ => rfl) fun _ => rfl)
  | pushFull queue m => exact memory.trans (bounded_pushes bounded (fun _ => rfl) fun _ => rfl)
  | replicatePublish queue msgId body =>
    exact memory.trans (bounded_pushes bounded (fun _ => rfl) fun _ => rfl)
  | requeue queue tag counted =>
    refine memory.trans ((bounded_modifyQueue bounded).trans ?_)
    exact forall_congr' fun q => forall_congr' fun found =>
      bounded_putBack (bounded queue q found) tag counted
  | books change =>
    refine iff_of_true (memory.mpr ?_) trivial
    unfold BrokerState.Bounded Effect.inMemory
    rw [change.queues]
    exact bounded
  | tune queue change =>
    refine iff_of_true (memory.mpr (bounded_keeps bounded fun q within => ?_)) trivial
    exact bounded_of_fewer (change.options q) (by rw [change.messages]) within
  | tuneAll change =>
    refine iff_of_true (memory.mpr fun name q present => ?_) trivial
    obtain ⟨old, found, rfl⟩ := Option.map_eq_some_iff.mp
      ((FinMap.get?_mapVals _ _ _).symm.trans present)
    exact bounded_of_fewer (change.options old) (by rw [change.messages]) (bounded name old found)
  | createQueue name q logs schema =>
    exact iff_of_true (bounded_createQueue name q logs schema bounded) trivial
  | removeQueue name =>
    refine iff_of_true (memory.mpr fun other q present => ?_) trivial
    change (s.queues.erase name).get? other = some q at present
    rw [FinMap.get?_erase] at present
    split at present
    · cases present
    · exact bounded other q present
  | replicateAck queue msgId =>
    refine iff_of_true (memory.mpr (bounded_keeps bounded fun q within => ?_)) trivial
    exact bounded_of_fewer (q := q) rfl (len_withoutId msgId q.messages) within
  | pop queue fate =>
    refine iff_of_true (memory.mpr (bounded_keeps bounded fun q within => ?_)) trivial
    exact bounded_popTo s.wal fate within
  | popOldest queue =>
    exact iff_of_true (memory.mpr (bounded_keeps bounded fun q => bounded_dropOldest)) trivial
  | purge queue =>
    refine iff_of_true (memory.mpr (bounded_keeps bounded fun q within => ?_)) trivial
    exact bounded_of_fewer (q := q) rfl (Nat.zero_le _) within
  | settle queue tag | discard queue tag =>
    exact iff_of_true (memory.mpr (bounded_keeps bounded fun q within => within)) trivial
  | restart now auth cluster =>
    exact iff_of_true (bounded_restart now auth cluster) trivial
  | alloc | createExchange | removeExchange | bind | appendBinding | unbind | compact =>
    exact iff_of_true (memory.mpr bounded) trivial

/-! Eviction. -/

/-- With enough turns the loop leaves fewer messages than the maximum, if that is
    possible. -/
theorem evictOverflow_evicts (env : Env) (maxLen fuel : Nat) {q : QueueState}
    (found : s.queues.get? queue = some q) (enough : q.messages.len ≤ fuel) :
    ∃ q', ((evictOverflow queue maxLen fuel : Act env Unit).final s).queues.get? queue = some q' ∧
      q'.options = q.options ∧ (maxLen ≠ 0 → q'.messages.len < maxLen) := by
  induction fuel generalizing s q with
  | zero => exact ⟨q, found, rfl, by omega⟩
  | succ fuel ih =>
    unfold evictOverflow
    rw [final_bind]
    change ∃ q', (final (if (s.queues.get? queue).any fun q =>
      q.messages.len ≥ maxLen && !q.messages.isEmpty then _ else _) s).queues.get? queue =
        some q' ∧ _
    rw [found, Option.any_some]
    split
    · rename_i tooLong
      obtain ⟨long, filled⟩ := Bool.and_eq_true_iff.mp tooLong
      have popped : (exec env s (.popOldest queue)).queues.get? queue = some q.dropOldest := by
        rw [(exec_memory env s _).1]
        exact get?_modifyQueue_of found _
      have options : q.dropOldest.options = q.options := by
        unfold QueueState.dropOldest
        split <;> rfl
      have shorter : q.dropOldest.messages.len ≤ fuel := by
        unfold QueueState.dropOldest
        cases oldest : q.messages.popOldest with
        | none =>
          have empty : q.messages.len = 0 := by
            rw [PriorityQueue.len_eq_card, PriorityQueue.popOldest_none oldest, Multiset.card_zero]
          rw [(PriorityQueue.isEmpty_iff_len _).mpr empty] at filled
          cases filled
        | some front =>
          have less := PriorityQueue.len_popOldest oldest
          change front.2.len ≤ fuel
          omega
      obtain ⟨q', there, same, room⟩ := ih popped shorter
      rw [final_bind]
      exact ⟨q', there, same.trans options, room⟩
    · rename_i enoughRoom
      refine ⟨q, found, rfl, fun positive => ?_⟩
      by_contra long
      have filled : q.messages.isEmpty = false := by
        rw [← Bool.not_eq_true, PriorityQueue.isEmpty_iff_len]
        omega
      rw [filled, Bool.not_false, Bool.and_true] at enoughRoom
      exact enoughRoom (decide_eq_true (not_lt.mp long))

/-- Eviction is followed by its message, with nothing in between. -/
theorem evicted_enqueueSingle (queue : String) (ctx : EnqueueCtx) (now : Instant) :
    Meets Evicted (enqueueSingle queue ctx now : Act env Unit) := by
  intro s
  unfold enqueueSingle
  rw [steps_bind, result_look, final_look, steps_look, List.nil_append]
  cases found : s.queues.get? queue with
  | none =>
    refine ⟨fun q present => ?_, trivial⟩
    rw [found] at present
    cases present
  | some q =>
    dsimp only
    cases limit : q.options.maxLength with
    | none =>
      refine ⟨fun q' present _ n here => ?_, trivial⟩
      obtain rfl := Option.some.inj (found.symm.trans present)
      rw [limit] at here
      cases here
    | some maxLen =>
      have turns : Takes (fun e => .popOldest queue = e)
          (evictOverflow queue maxLen q.messages.len : Act env Unit) :=
        takes_evictOverflow rfl maxLen _
      have free : Meets Evicted (evictOverflow queue maxLen q.messages.len : Act env Unit) :=
        turns.meets fun s e oldest => by
          subst oldest
          trivial
      rw [steps_bind, Run.along_append]
      refine ⟨free s, fun q' present positive n here => ?_, trivial⟩
      obtain ⟨last, there, same, room⟩ := evictOverflow_evicts env maxLen
        q.messages.len found (Nat.le_refl _)
      obtain rfl := Option.some.inj (there.symm.trans present)
      rw [same, limit] at here positive
      obtain rfl := Option.some.inj here
      exact room fun zero => positive (congrArg some zero)

theorem evicted_basicPublish (connId : UInt64) (channel : UInt16) (args : PublishArgs)
    (now : Instant) :
    Meets Evicted (basicPublish connId channel args now : Act env (List Frame)) := by
  have free {α : Type} {p : Act env α} (quiet : Takes (fun e => ∃ b, e = .books b) p) :
      Meets Evicted p :=
    quiet.meets fun s e books => by
      obtain ⟨b, rfl⟩ := books
      trivial
  refine (free (takes_read _)).bind fun refused => ?_
  split
  · exact meets_pure _
  · refine (free (@takes_allocConfirmTag _ _ none (fun b _ => ⟨b, rfl⟩) _ _)).bind fun tag => ?_
    refine (free (takes_bufferTxPublish (fun b _ => ⟨b, rfl⟩) connId args rfl)).bind
      fun buffered => ?_
    split
    · exact meets_pure _
    · refine (free (takes_read _)).bind fun found => ?_
      split
      · exact meets_pure _
      · dsimp only
        split
        · exact meets_pure _
        · refine (free (takes_read _)).bind fun failure => ?_
          split
          · exact Meets.bind (meets_pure _) fun _ => meets_pure _
          · refine (Meets.forM _ fun queue => ?_).bind fun _ => meets_pure _
            exact evicted_enqueueSingle queue args.ctx now

theorem evicted_handle (op : Op) : Meets Evicted (handle op : Act env (List Frame)) := by
  have others (publishes : ∀ queue ctx now, op.performs (.enqueue queue ctx now) = false) :
      Meets Evicted (handle op : Act env (List Frame)) := by
    refine (takes_handle op).meets fun s e may => ?_
    cases e with
    | enqueue queue ctx now =>
      rw [publishes] at may
      cases may
    | _ => trivial
  cases op with
  | basicPublish connId channel args now => exact evicted_basicPublish connId channel args now
  | _ => exact others fun _ _ _ => rfl

theorem evicted_serve (ops : List Op) :
    Meets Evicted (serve ops : Act env (List (List Frame))) := by
  induction ops with
  | nil => exact meets_pure _
  | cons op ops ih => exact (evicted_handle op).bind fun _ => ih.bind fun _ => meets_pure _

theorem roomBefore_iff (s : BrokerState) (e : Effect) (evicted : Evicted s e) :
    RoomBefore s e ↔ RespectsMaxLength s e := by
  cases e with
  | enqueue queue ctx now =>
    constructor
    · intro room q found zero
      exact Nat.not_lt_zero _ (room q found 0 zero)
    · intro positive q found
      exact evicted q found (positive q found)
  | _ => exact Iff.rfl

/-- Every queue keeps to its maximum in all states of exactly the runs in which
    Basic.Publish meets no maximum of zero, and all other paths meet no full queue. -/
theorem max_length_kept_iff (env : Env) (auth : AuthBackend) (cluster : Option ClusterCoordinator)
    (ops : List Op) :
    (∀ before after, history env auth cluster ops = before ++ after →
      (Run.run (exec env) (install env auth cluster) before).Bounded) ↔
      Throughout env auth cluster RespectsMaxLength ops := by
  have start : (install env auth cluster).Bounded := fun _ _ found => by cases found
  have evicted : Run.Along (exec env) Evicted (install env auth cluster)
      (history env auth cluster ops) := evicted_serve ops _
  calc _ ↔ Run.Along (exec env) RoomBefore (install env auth cluster)
        (history env auth cluster ops) :=
      Run.throughout_iff_along (fun _ => True) start trivial (fun _ _ _ _ => trivial)
        fun s e _ _ bounded => bounded_step e bounded
    _ ↔ Run.Along (exec env) RespectsMaxLength (install env auth cluster)
        (history env auth cluster ops) := Run.along_congr evicted roomBefore_iff
    _ ↔ _ := ⟨.mk, Throughout.along⟩

end

def limited (maxLength : Int32) : List Op :=
  [.connect "127.0.0.1:50000" "guest" "/", .channelOpen 1 1,
    .queueDeclare 1
      ⟨"q", false, true, false, false, false, [("x-max-length", .longInt maxLength)]⟩ 0]

/-- The management interface adds a second message to a queue for one. -/
theorem managed_publish_overflows : ¬ ∀ ops : List Op,
    (reached (plainEnv 64 1) guestOnly none ops).Bounded := by
  intro bounded
  let ops := limited 1 ++ [.publishMessage "" "q" [1], .publishMessage "" "q" [2]]
  have both : ((reached (plainEnv 64 1) guestOnly none ops).queues.get? "q").map (fun q =>
      (q.options.maxLength, q.messages.len)) = some (some 1, 2) := by decide +kernel
  obtain ⟨q, found, lengths⟩ := Option.map_eq_some_iff.mp both
  obtain ⟨limit, two⟩ := Prod.mk.inj lengths
  have within := bounded ops "q" q found 1 limit
  rw [two] at within
  exact absurd within (by decide)

end RocketmqBroker
