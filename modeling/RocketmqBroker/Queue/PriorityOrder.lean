import RocketmqBroker.Lib.Demux
import RocketmqBroker.Lib.StableList
import RocketmqBroker.Queue.PriorityQueue

/-!
The priority queue, whatever is done to it, is a list in descending order of priority where
the messages of one priority stay in order (queue/priority.rs).
-/
namespace RocketmqBroker
open Run Demux StableList

inductive PriorityCall where
  | pushBack (m : QueueMessage)
  | pushFront (m : QueueMessage)
  | popFront
  | popOldest
  | clear

def rank (m : QueueMessage) : Nat := m.priority.toNat

def PriorityQueue.step (q : PriorityQueue) :
    PriorityCall → PriorityQueue × List (Option QueueMessage)
  | .pushBack m => (q.pushBack m, [])
  | .pushFront m => (q.pushFront m, [])
  | .popFront =>
    match q.popFront with
    | none => (q, [none])
    | some (m, rest) => (rest, [some m])
  | .popOldest =>
    match q.popOldest with
    | none => (q, [none])
    | some (m, rest) => (rest, [some m])
  | .clear => (q.clear, [])

def listStep (xs : List QueueMessage) :
    PriorityCall → List QueueMessage × List (Option QueueMessage)
  | .pushBack m => (insertBack rank m xs, [])
  | .pushFront m => (insertFront rank m xs, [])
  | .popFront => (xs.tail, [xs.head?])
  | .popOldest =>
    match takeLowest rank xs with
    | none => (xs, [none])
    | some (m, rest) => (rest, [some m])
  | .clear => ([], [])

namespace PriorityQueue
variable {q rest : PriorityQueue} {m : QueueMessage}

theorem ready_pushBack_eq (q : PriorityQueue) (m : QueueMessage) :
    (q.pushBack m).ready = insertBack rank m q.ready := by
  obtain ⟨front, back, before, after, high, low⟩ := Buckets.descending_upsert_back (x := m)
    (k := rank m) q.wellFormed.sorted q.keyed
  rw [show q.ready = front ++ back from before, insertBack_split high low]
  exact after

theorem ready_pushFront_eq (q : PriorityQueue) (m : QueueMessage) :
    (q.pushFront m).ready = insertFront rank m q.ready := by
  obtain ⟨front, back, before, after, high, low⟩ := Buckets.descending_upsert_front (x := m)
    (k := rank m) q.wellFormed.sorted q.keyed
  rw [show q.ready = front ++ back from before, insertFront_split high low]
  exact after

theorem ready_pushFront_first {q : PriorityQueue} {m : QueueMessage}
    (low : ∀ m' ∈ q.ready, rank m' ≤ rank m) : (q.pushFront m).ready = m :: q.ready :=
  (ready_pushFront_eq q m).trans (insertFront_first low)

theorem takeLowest_popOldest (popped : q.popOldest = some (m, rest)) :
    takeLowest rank q.ready = some (m, rest.ready) := by
  unfold popOldest at popped
  split at popped
  · contradiction
  · rename_i m' rest' h
    obtain ⟨rfl, rfl⟩ := Prod.mk.inj (Option.some.inj popped)
    obtain ⟨front, back, before, after, high, own⟩ :=
      Buckets.descending_popLowest_split q.wellFormed.sorted q.keyed h
    have taken : takeLowest rank (front ++ m' :: back) = some (m', front ++ back) :=
      takeLowest_split high own
    rw [show q.ready = front ++ m' :: back from before, taken]
    exact congrArg (fun xs => some (m', xs)) after.symm

theorem ready_eq_nil (empty : q.contents = 0) : q.ready = [] := by
  rw [contents_eq_ready] at empty
  exact Multiset.coe_eq_zero _ |>.mp empty

theorem len_eq_length (q : PriorityQueue) : q.len = q.ready.length := by
  rw [len_eq_card, contents_eq_ready, Multiset.coe_card]

theorem ready_descending (q : PriorityQueue) : Descending rank q.ready :=
  Buckets.descending_ordered q.wellFormed.sorted q.keyed

theorem peekFront_ready (q : PriorityQueue) : q.peekFront = q.ready.head? := by
  unfold peekFront
  cases popped : q.popFront with
  | none => rw [ready_eq_nil (popFront_none popped)]; rfl
  | some front =>
    obtain ⟨m, rest⟩ := front
    rw [ready_popFront popped]
    rfl

/-- One call does to the queue what it does to the list. -/
theorem step_ready (q : PriorityQueue) (call : PriorityCall) :
    (q.step call).1.ready = (listStep q.ready call).1 ∧
      (q.step call).2 = (listStep q.ready call).2 := by
  cases call with
  | pushBack m => exact ⟨ready_pushBack_eq q m, rfl⟩
  | pushFront m => exact ⟨ready_pushFront_eq q m, rfl⟩
  | popFront =>
    simp only [step, listStep]
    cases popped : q.popFront with
    | none => simp [ready_eq_nil (popFront_none popped)]
    | some front =>
      obtain ⟨m, rest⟩ := front
      simp [ready_popFront popped]
  | popOldest =>
    simp only [step, listStep]
    cases popped : q.popOldest with
    | none =>
      have empty := ready_eq_nil (popOldest_none popped)
      simp [empty, takeLowest]
    | some front =>
      obtain ⟨m, rest⟩ := front
      simp [takeLowest_popOldest popped]
  | clear => exact ⟨rfl, rfl⟩

end PriorityQueue

/-- What shows that a queue holds a list of messages. -/
structure PriorityQueue.IsList (q : PriorityQueue) (xs : List QueueMessage) : Prop where
  ready : q.ready = xs
  descending : Descending rank xs
  peeked : q.peekFront = xs.head?
  counted : q.len = xs.length
  empty : q.isEmpty = true ↔ xs = []
  filled : ∀ b ∈ q.buckets, b.2 ≠ []
  behind : ∀ m k, (q.pushBack m).ready.filter (rank · = k) =
    xs.filter (rank · = k) ++ [m].filter (rank · = k)
  ahead : ∀ m k, (q.pushFront m).ready.filter (rank · = k) =
    [m].filter (rank · = k) ++ xs.filter (rank · = k)

theorem PriorityQueue.isList_ready (q : PriorityQueue) : q.IsList q.ready where
  ready := rfl
  descending := q.ready_descending
  peeked := q.peekFront_ready
  counted := q.len_eq_length
  empty := by
    have length : q.totalLen = q.ready.length := q.len_eq_length
    rw [isEmpty, beq_iff_eq, length, List.length_eq_zero_iff]
  filled := q.wellFormed.nonempty
  behind m k := by
    rw [q.ready_pushBack_eq]
    exact insertBack_stable m q.ready_descending k
  ahead m k := by
    rw [q.ready_pushFront_eq]
    exact insertFront_stable m q.ready_descending k

/-- Whatever is called, the queue returns what the list returns, and holds the list. -/
theorem priority_queue_is_list (calls : List PriorityCall) :
    outputs PriorityQueue.step .new calls = outputs listStep [] calls ∧
      (run (next PriorityQueue.step) .new calls).IsList (run (next listStep) [] calls) := by
  constructor
  · have same (q : PriorityQueue) : outputs PriorityQueue.step q calls =
        outputs listStep q.ready calls := by
      induction calls generalizing q with
      | nil => rfl
      | cons call calls ih =>
        obtain ⟨ready, returned⟩ := q.step_ready call
        rw [outputs, outputs, ih, ready, returned]
    exact same .new
  · have list : (run (next PriorityQueue.step) .new calls).ready = run (next listStep) [] calls :=
      run_map (fun (q : PriorityQueue) call => (q.step_ready call).1) PriorityQueue.new calls
    rw [← list]
    exact PriorityQueue.isList_ready _

end RocketmqBroker
