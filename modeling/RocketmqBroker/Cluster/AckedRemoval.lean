import RocketmqBroker.Cluster.Frames
import RocketmqBroker.Delivery.Requests
import RocketmqBroker.Queue.PriorityOrder
import RocketmqBroker.Storage.Recovered

/-!
What a replicated ack takes out of a queue (cluster/network.rs). All messages are taken from
the front and the others are put back in that order, which is the order they had.
-/
namespace RocketmqBroker
open Run.Program StableList

/-- The first loop: if the id was found, the others, and what is left of the queue. -/
def drainAcked (msgId : UInt64) : Nat → PriorityQueue → Bool → List QueueMessage →
    Bool × List QueueMessage × PriorityQueue
  | 0, messages, found, temp => (found, temp, messages)
  | fuel + 1, messages, found, temp =>
    match messages.popFront with
    | none => (found, temp, messages)
    | some (m, rest) =>
      if m.id == msgId then drainAcked msgId fuel rest true temp
      else drainAcked msgId fuel rest found (temp ++ [m])

/-- Both loops; the first one has as many turns as there are messages. -/
def removeAcked (msgId : UInt64) (messages : PriorityQueue) : Bool × PriorityQueue :=
  let drained := drainAcked msgId messages.len messages false []
  (drained.1, drained.2.1.foldl PriorityQueue.pushBack drained.2.2)

variable {messages : PriorityQueue} {msgId : UInt64}

theorem PriorityQueue.eq_new_of_none (none_left : messages.popFront = none) :
    messages = .new := by
  obtain ⟨buckets, totalLen, wellFormed, cached, keyed⟩ := messages
  have empty : buckets = [] := by
    unfold popFront at none_left
    split at none_left
    · rename_i popped
      exact Buckets.popHighest_none wellFormed.nonempty popped
    · cases none_left
  subst empty
  subst cached
  rfl

theorem drained_empty (none_left : messages.popFront = none) (found : Bool)
    (temp : List QueueMessage) : (found, temp, messages) =
      (found || messages.ready.any (·.id == msgId),
        temp ++ messages.ready.filter (·.id != msgId), PriorityQueue.new) := by
  rw [PriorityQueue.eq_new_of_none none_left, PriorityQueue.ready_new, List.any_nil,
    Bool.or_false, List.filter_nil, List.append_nil]

/-- With as many turns as messages the queue is empty in the end. -/
theorem drainAcked_eq {fuel : Nat} (enough : messages.len ≤ fuel) (found : Bool)
    (temp : List QueueMessage) : drainAcked msgId fuel messages found temp =
      (found || messages.ready.any (·.id == msgId),
        temp ++ messages.ready.filter (·.id != msgId), .new) := by
  induction fuel generalizing messages found temp with
  | zero =>
    refine drained_empty (Option.eq_none_iff_forall_ne_some.mpr fun front popped => ?_) _ _
    have one := PriorityQueue.ready_popFront popped
    rw [PriorityQueue.len_eq_length, one, List.length_cons] at enough
    omega
  | succ fuel ih =>
    unfold drainAcked
    cases popped : messages.popFront with
    | none => exact drained_empty popped found temp
    | some front =>
      obtain ⟨m, rest⟩ := front
      have one := PriorityQueue.ready_popFront popped
      rw [PriorityQueue.len_eq_length, one, List.length_cons] at enough
      have fewer : rest.len ≤ fuel := by
        rw [PriorityQueue.len_eq_length]
        omega
      dsimp only
      rw [one, List.any_cons, ih fewer, ih fewer]
      by_cases same : m.id = msgId
      · have acked : (m.id == msgId) = true := beq_iff_eq.mpr same
        have dropped : (m :: rest.ready).filter (·.id != msgId) =
            rest.ready.filter (·.id != msgId) := List.filter_cons_of_neg (by simp [same])
        rw [if_pos acked, acked, dropped, Bool.true_or, Bool.or_true]
      · have other : (m.id == msgId) = false := beq_eq_false_iff_ne.mpr same
        have kept : (m :: rest.ready).filter (·.id != msgId) =
            m :: rest.ready.filter (·.id != msgId) := List.filter_cons_of_pos (by simp [same])
        rw [if_neg (by simp [same]), other, kept, Bool.false_or, List.append_assoc,
          List.singleton_append]

theorem ready_foldl_pushBack (ms : List QueueMessage) (messages : PriorityQueue) :
    (ms.foldl PriorityQueue.pushBack messages).ready =
      ms.foldl (fun xs m => insertBack rank m xs) messages.ready := by
  induction ms generalizing messages with
  | nil => rfl
  | cons m ms ih => rw [List.foldl_cons, List.foldl_cons, ih, PriorityQueue.ready_pushBack_eq]

theorem removeAcked_eq (msgId : UInt64) (messages : PriorityQueue) :
    removeAcked msgId messages =
      (messages.ready.any (·.id == msgId), withoutId msgId messages) := by
  unfold removeAcked withoutId
  rw [drainAcked_eq (Nat.le_refl _), Bool.false_or, List.nil_append]

theorem ready_withoutId (msgId : UInt64) (messages : PriorityQueue) :
    (withoutId msgId messages).ready = messages.ready.filter (·.id != msgId) := by
  have sorted : Descending rank ([] ++ messages.ready.filter (·.id != msgId)) :=
    messages.ready_descending.filter _
  unfold withoutId
  rw [ready_foldl_pushBack, PriorityQueue.ready_new, foldl_insertBack sorted, List.nil_append]

section
variable {env : Env} {s : BrokerState} {queue : String} {q : QueueState}
  {c : ClusterCoordinator} {term leaderId : UInt64}

theorem acceptTerm_current (member : s.cluster = some c) (current : c.currentTerm ≤ term) :
    (acceptTerm term leaderId : Act env Bool).result s = true ∧
      ((acceptTerm term leaderId : Act env Bool).final s).queues = s.queues := by
  have not_old : ¬ term < c.currentTerm := UInt64.not_lt.mpr current
  unfold acceptTerm
  rw [result_bind, final_bind, result_look, final_look, member]
  dsimp only
  rw [if_neg not_old]
  by_cases newer : term > c.currentTerm
  · rw [if_pos newer]
    exact ⟨rfl, rfl⟩
  · rw [if_neg newer]
    exact ⟨rfl, rfl⟩

/-- An ack of a current term takes exactly the messages with its id out of the queue, reports
    if there was one, and leaves all others as they are and in order. -/
theorem replicate_ack_removes (here : s.queues.get? queue = some q)
    (member : s.cluster = some c) (current : c.currentTerm ≤ term) (msgId : UInt64) :
    ∃ success left, removeAcked msgId q.messages = (success, left) ∧
      answer env s (.replicateAck term leaderId queue msgId) =
        [.replicateResponse term msgId success] ∧
      (served env s (.replicateAck term leaderId queue msgId)).queues.get? queue =
        some { q with messages := left } ∧
      (success = true ↔ ∃ m ∈ q.messages.ready, m.id = msgId) ∧
      left.ready = q.messages.ready.filter fun m => decide (m.id ≠ msgId) := by
  obtain ⟨accepted, unchanged⟩ := @acceptTerm_current env s c term leaderId member current
  have still : ((acceptTerm term leaderId : Act env Bool).final s).queues.get? queue = some q := by
    rw [unchanged, here]
  refine ⟨_, _, removeAcked_eq msgId q.messages, ?_, ?_, ?_, ?_⟩
  · unfold answer handle replicateAck
    rw [result_bind, accepted, if_pos rfl, result_bind, result_look, final_look, still]
    rfl
  · unfold served handle replicateAck
    rw [final_bind, accepted, if_pos rfl, final_bind, result_look, final_look, still]
    exact get?_modifyQueue_of still _
  · rw [List.any_eq_true]
    simp only [beq_iff_eq]
  · rw [ready_withoutId]
    refine List.filter_congr fun m _ => ?_
    by_cases same : m.id = msgId <;> simp [same]

end

/-- A member of a cluster in term 3, with two messages. -/
def memberTwoReady : BrokerState := reached (plainEnv 64 1) guestOnly (some ⟨1, 3, 2⟩)
  (session "q" ++ [publishTo "q" false [1], publishTo "q" false [2]])

theorem replicate_ack_removes_first : ∃ q, memberTwoReady.queues.get? "q" = some q ∧
    ∃ success left, removeAcked 1 q.messages = (success, left) ∧
      answer (plainEnv 64 1) memberTwoReady (.replicateAck 3 2 "q" 1) =
        [.replicateResponse 3 1 success] ∧
      (served (plainEnv 64 1) memberTwoReady (.replicateAck 3 2 "q" 1)).queues.get? "q" =
        some { q with messages := left } ∧
      (success = true ↔ ∃ m ∈ q.messages.ready, m.id = 1) ∧
      left.ready = q.messages.ready.filter fun m => decide (m.id ≠ 1) := by
  have declared : (memberTwoReady.queues.get? "q").isSome = true := by decide +kernel
  obtain ⟨q, here⟩ := Option.isSome_iff_exists.mp declared
  have member : memberTwoReady.cluster = some ⟨1, 3, 2⟩ := by decide +kernel
  exact ⟨q, here, replicate_ack_removes here member (by decide) 1⟩

end RocketmqBroker
