import RocketmqBroker.Lib.Buckets
import RocketmqBroker.Queue.Message
import Mathlib.Data.Multiset.MapFold

/-!
The multi-level message store of a queue (queue/priority.rs): one bucket for
each priority in use, and a cached count. The record carries what keeps the
cache and the buckets consistent.
-/
namespace RocketmqBroker
open Buckets

structure PriorityQueue where
  buckets : List (Nat × List QueueMessage)
  totalLen : Nat
  wellFormed : WellFormed buckets
  cached : totalLen = (items buckets).length
  keyed : Keyed (fun m : QueueMessage => m.priority.toNat) buckets

namespace PriorityQueue

def new : PriorityQueue := ⟨[], 0, ⟨by simp, by simp⟩, rfl, by simp [Keyed]⟩

def pushBack (q : PriorityQueue) (m : QueueMessage) : PriorityQueue :=
  ⟨upsert m.priority.toNat (· ++ [m]) q.buckets, q.totalLen + 1,
    upsert_wellFormed (by simp) q.wellFormed, by
      rw [(items_upsert (x := m) (fun _ => by simp) _).length_eq,
        List.length_cons, q.cached],
    upsert_keyed (x := m) (fun xs y member => by simpa [or_comm] using member) rfl q.keyed⟩

def pushFront (q : PriorityQueue) (m : QueueMessage) : PriorityQueue :=
  ⟨upsert m.priority.toNat (m :: ·) q.buckets, q.totalLen + 1,
    upsert_wellFormed (by simp) q.wellFormed, by
      rw [(items_upsert (x := m) (fun _ => List.Perm.refl _) _).length_eq, List.length_cons,
        q.cached],
    upsert_keyed (x := m) (fun xs y member => List.mem_cons.mp member) rfl q.keyed⟩

def popFront (q : PriorityQueue) : Option (QueueMessage × PriorityQueue) :=
  match h : popHighest q.buckets with
  | none => none
  | some (m, rest) => some (m, ⟨rest, q.totalLen - 1, popHighest_wellFormed q.wellFormed h, by
      rw [q.cached, (items_popHighest h).length_eq, List.length_cons, Nat.add_sub_cancel],
    popHighest_keyed q.keyed h⟩)

def popOldest (q : PriorityQueue) : Option (QueueMessage × PriorityQueue) :=
  match h : popLowest q.buckets with
  | none => none
  | some (m, rest) => some (m, ⟨rest, q.totalLen - 1, popLowest_wellFormed q.wellFormed h, by
      rw [q.cached, items_popLowest h, List.length_cons, Nat.add_sub_cancel],
    popLowest_keyed q.keyed h⟩)

def len (q : PriorityQueue) : Nat := q.totalLen

def peekFront (q : PriorityQueue) : Option QueueMessage := q.popFront.map Prod.fst

def isEmpty (q : PriorityQueue) : Bool := q.totalLen == 0

def clear (_ : PriorityQueue) : PriorityQueue := new

def contents (q : PriorityQueue) : Multiset QueueMessage := items q.buckets

/-- What the queue holds, in the order `popFront` hands it out. -/
def ready (q : PriorityQueue) : List QueueMessage := descending q.buckets

@[simp] theorem contents_new : new.contents = 0 := rfl

@[simp] theorem contents_clear (q : PriorityQueue) : q.clear.contents = 0 := rfl

@[simp] theorem contents_pushBack (q : PriorityQueue) (m : QueueMessage) :
    (q.pushBack m).contents = m ::ₘ q.contents :=
  Multiset.coe_eq_coe.mpr
    (items_upsert (fun _ => by simp) q.buckets)

@[simp] theorem contents_pushFront (q : PriorityQueue) (m : QueueMessage) :
    (q.pushFront m).contents = m ::ₘ q.contents :=
  Multiset.coe_eq_coe.mpr (items_upsert (fun _ => List.Perm.refl _) q.buckets)

theorem contents_popFront {q rest : PriorityQueue} {m : QueueMessage}
    (popped : q.popFront = some (m, rest)) : q.contents = m ::ₘ rest.contents := by
  unfold popFront at popped
  split at popped
  · contradiction
  · rename_i m' rest' h
    obtain ⟨rfl, rfl⟩ := Prod.mk.inj (Option.some.inj popped)
    exact Multiset.coe_eq_coe.mpr (items_popHighest h)

theorem contents_popOldest {q rest : PriorityQueue} {m : QueueMessage}
    (popped : q.popOldest = some (m, rest)) : q.contents = m ::ₘ rest.contents := by
  unfold popOldest at popped
  split at popped
  · contradiction
  · rename_i m' rest' h
    obtain ⟨rfl, rfl⟩ := Prod.mk.inj (Option.some.inj popped)
    exact Multiset.coe_eq_coe.mpr (List.Perm.of_eq (items_popLowest h))

theorem popFront_none {q : PriorityQueue} (h : q.popFront = none) : q.contents = 0 := by
  unfold popFront at h
  split at h
  · rename_i none_left
    simp [contents, popHighest_none q.wellFormed.nonempty none_left]
  · contradiction

theorem popOldest_none {q : PriorityQueue} (h : q.popOldest = none) : q.contents = 0 := by
  unfold popOldest at h
  split at h
  · rename_i none_left
    simp [contents, popLowest_none q.wellFormed.nonempty none_left]
  · contradiction

theorem len_eq_card (q : PriorityQueue) : q.len = q.contents.card := q.cached

@[simp] theorem ready_new : new.ready = [] := rfl

theorem ready_popFront {q rest : PriorityQueue} {m : QueueMessage}
    (popped : q.popFront = some (m, rest)) : q.ready = m :: rest.ready := by
  unfold popFront at popped
  split at popped
  · contradiction
  · rename_i m' rest' h
    obtain ⟨rfl, rfl⟩ := Prod.mk.inj (Option.some.inj popped)
    exact descending_popHighest h

theorem ready_pushBack {q : PriorityQueue} {m : QueueMessage} (lowest : m.priority = 0) :
    (q.pushBack m).ready = q.ready ++ [m] := by
  have key : m.priority.toNat = 0 := by rw [lowest]; rfl
  exact descending_upsert_lowest fun b _ => by rw [key]; exact Nat.zero_le b.1

theorem ready_popOldest {q rest : PriorityQueue} {m : QueueMessage}
    (popped : q.popOldest = some (m, rest)) : rest.ready.Sublist q.ready := by
  unfold popOldest at popped
  split at popped
  · contradiction
  · rename_i m' rest' h
    obtain ⟨rfl, rfl⟩ := Prod.mk.inj (Option.some.inj popped)
    exact descending_popLowest h

theorem ready_pushBack_between (q : PriorityQueue) (m : QueueMessage) :
    ∃ front back, q.ready = front ++ back ∧ (q.pushBack m).ready = front ++ m :: back := by
  obtain ⟨front, back, before, after, _⟩ := descending_upsert_back (x := m)
    (k := m.priority.toNat) q.wellFormed.sorted q.keyed
  exact ⟨front, back, before, after⟩

theorem ready_pushFront (q : PriorityQueue) (m : QueueMessage) :
    ∃ front back, q.ready = front ++ back ∧ (q.pushFront m).ready = front ++ m :: back ∧
      ∀ other ∈ front, m.priority.toNat < other.priority.toNat := by
  obtain ⟨front, back, before, after, higher, _⟩ := descending_upsert_front (x := m)
    (k := m.priority.toNat) q.wellFormed.sorted q.keyed
  exact ⟨front, back, before, after, higher⟩

theorem contents_eq_ready (q : PriorityQueue) : q.contents = (q.ready : Multiset QueueMessage) :=
  Multiset.coe_eq_coe.mpr ((List.reverse_perm q.buckets).flatMap_right _).symm

end PriorityQueue
end RocketmqBroker
