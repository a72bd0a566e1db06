import RocketmqBroker.Lib.OrderedMap
import RocketmqBroker.Lib.Run
import RocketmqBroker.Queue.Message
import Mathlib.Data.List.Induction
import Mathlib.Data.Prod.Lex

/-!
Messages that wait for their time (queue/delay.rs): keyed by the instant they are due at and
a number that tells equal instants apart. A drain takes everything below the greatest
number of its own instant.
-/
namespace RocketmqBroker

structure DelayedMessage where
  deliverAt : Instant
  queueName : String
  message : Message
  deriving DecidableEq, Repr

abbrev DelayKey := Instant ×ₗ Nat

structure DelayQueue where
  inner : OrderedMap DelayKey DelayedMessage
  nextId : UInt64

namespace DelayQueue

def new : DelayQueue := ⟨.empty, 1⟩

def schedule (dq : DelayQueue) (queueName : String) (message : Message) (delay now : Nat) :
    DelayQueue :=
  let deliverAt := now + delay
  ⟨dq.inner.insert (toLex (deliverAt, dq.nextId.toNat)) ⟨deliverAt, queueName, message⟩,
    dq.nextId + 1⟩

def drainReady (dq : DelayQueue) (now : Instant) : List DelayedMessage × DelayQueue :=
  let (ready, remaining) := dq.inner.splitOff (toLex (now, 2 ^ 64 - 1))
  (ready.values, { dq with inner := remaining })

def len (dq : DelayQueue) : Nat := dq.inner.size

end DelayQueue

inductive DelayCall where
  | schedule (queueName : String) (message : Message) (delay now : Nat)
  | drainReady (now : Instant)

namespace DelayCall

def scheduled? : DelayCall → Option DelayedMessage
  | schedule queueName message delay now => some ⟨now + delay, queueName, message⟩
  | drainReady _ => none

def drains (instant : Instant) : DelayCall → Bool
  | schedule .. => false
  | drainReady now => instant ≤ now

def count (calls : List DelayCall) : Nat := (calls.filterMap scheduled?).length

end DelayCall

namespace DelayQueue

def step (dq : DelayQueue) : DelayCall → DelayQueue
  | .schedule queueName message delay now => dq.schedule queueName message delay now
  | .drainReady now => (dq.drainReady now).2

def after (calls : List DelayCall) : DelayQueue := Run.run step new calls

/-- The messages scheduled that no later call has drained, in the order of scheduling. -/
def waiting : List DelayCall → List DelayedMessage
  | [] => []
  | call :: later =>
    (call.scheduled?.filter fun d => !later.any (·.drains d.deliverAt)).toList ++ waiting later

/-- The messages for which a drain at this instant is the first one at or after they are due. -/
def due (calls : List DelayCall) (now : Instant) : List DelayedMessage :=
  (waiting calls).filter (·.deliverAt ≤ now)

end DelayQueue

namespace DelayCall

theorem count_append (calls later : List DelayCall) :
    count (calls ++ later) = count calls + count later := by
  simp [count]

end DelayCall

namespace DelayQueue

theorem waiting_append (calls : List DelayCall) (call : DelayCall) :
    waiting (calls ++ [call]) =
      (waiting calls).filter (fun d => !call.drains d.deliverAt) ++ call.scheduled?.toList := by
  induction calls with
  | nil => cases call <;> simp [waiting, DelayCall.scheduled?]
  | cons first calls ih =>
    have head : (first.scheduled?.filter fun d => !(calls ++ [call]).any (·.drains d.deliverAt)) =
        (first.scheduled?.filter fun d => !calls.any (·.drains d.deliverAt)).filter
          fun d => !call.drains d.deliverAt := by
      cases first.scheduled? with
      | none => rfl
      | some d => cases calls.any (·.drains d.deliverAt) <;> simp
    rw [List.cons_append, waiting, ih, waiting, List.filter_append, ← List.append_assoc, head]
    congr 2
    cases first.scheduled?.filter fun d => !calls.any (·.drains d.deliverAt) with
    | none => rfl
    | some d => cases drained : call.drains d.deliverAt <;> simp [drained]

def entry (e : Nat × DelayedMessage) : DelayKey × DelayedMessage :=
  (toLex (e.2.deliverAt, e.1), e.2)

structure Holds (dq : DelayQueue) (numbered : List (Nat × DelayedMessage)) : Prop where
  entries : dq.inner.entries.Perm (numbered.map entry)
  ascending : numbered.Pairwise (fun a b => a.1 < b.1)
  below : ∀ e ∈ numbered, e.1 < dq.nextId.toNat

theorem entry_below (e : Nat × DelayedMessage) (now : Instant) (small : e.1 < 2 ^ 64 - 1) :
    (entry e).1 < toLex (now, 2 ^ 64 - 1) ↔ e.2.deliverAt ≤ now := by
  change toLex (e.2.deliverAt, e.1) < toLex (now, 2 ^ 64 - 1) ↔ _
  rw [Prod.Lex.toLex_lt_toLex]
  constructor
  · rintro (before | ⟨same, -⟩)
    · exact before.le
    · exact same.le
  · intro reached
    rcases lt_or_eq_of_le reached with before | same
    · exact .inl before
    · exact .inr ⟨same, small⟩

variable {dq : DelayQueue} {numbered : List (Nat × DelayedMessage)}

theorem holds_schedule (holds : dq.Holds numbered) (room : dq.nextId.toNat < 2 ^ 64 - 1)
    (queueName : String) (message : Message) (delay now : Nat) :
    (dq.schedule queueName message delay now).Holds
      (numbered ++ [(dq.nextId.toNat, ⟨now + delay, queueName, message⟩)]) := by
  have next : (dq.nextId + 1).toNat = dq.nextId.toNat + 1 := by
    rw [UInt64.toNat_add, UInt64.toNat_one]
    omega
  refine ⟨?_, ?_, ?_⟩
  · have fresh : ∀ e ∈ dq.inner.entries, e.1 ≠ toLex (now + delay, dq.nextId.toNat) := by
      intro e member same
      obtain ⟨e', old, rfl⟩ := List.mem_map.mp (holds.entries.mem_iff.mp member)
      have number : e'.1 = dq.nextId.toNat := congrArg (fun k => (ofLex k).2) same
      have := holds.below e' old
      omega
    have added := OrderedMap.insertEntry_perm ⟨now + delay, queueName, message⟩ fresh
    rw [List.map_append]
    exact (added.trans (holds.entries.cons _)).trans (List.perm_append_singleton _ _).symm
  · rw [List.pairwise_append]
    refine ⟨holds.ascending, List.pairwise_singleton _ _, ?_⟩
    intro e old e' new
    obtain rfl := List.mem_singleton.mp new
    exact holds.below e old
  · intro e member
    change e.1 < (dq.nextId + 1).toNat
    rcases List.mem_append.mp member with old | new
    · have := holds.below e old
      omega
    · obtain rfl := List.mem_singleton.mp new
      omega

/-- What a drain takes, and what it leaves. -/
theorem holds_drain (holds : dq.Holds numbered) (room : dq.nextId.toNat ≤ 2 ^ 64 - 1)
    (now : Instant) :
    (dq.inner.splitOff (toLex (now, 2 ^ 64 - 1))).1.entries.Perm
        ((numbered.filter fun e => e.2.deliverAt ≤ now).map entry) ∧
      (dq.drainReady now).2.Holds (numbered.filter fun e => !(e.2.deliverAt ≤ now : Bool)) := by
  have small (e : Nat × DelayedMessage) (member : e ∈ numbered) : e.1 < 2 ^ 64 - 1 := by
    have := holds.below e member
    omega
  refine ⟨?_, ?_, ?_, ?_⟩
  · refine (holds.entries.filter _).trans (List.Perm.of_eq ?_)
    rw [List.filter_map]
    refine congrArg (List.map entry) (List.filter_congr fun e member => ?_)
    exact decide_eq_decide.mpr (entry_below e now (small e member))
  · refine (holds.entries.filter _).trans (List.Perm.of_eq ?_)
    rw [List.filter_map]
    refine congrArg (List.map entry) (List.filter_congr fun e member => ?_)
    have boundary := entry_below e now (small e member)
    rw [← decide_not]
    exact decide_eq_decide.mpr (not_lt.symm.trans (not_congr boundary))
  · exact holds.ascending.filter _
  · exact fun e member => holds.below e (List.mem_of_mem_filter member)

theorem holds_after (calls : List DelayCall) (few : DelayCall.count calls < 2 ^ 64 - 1) :
    (after calls).nextId.toNat = DelayCall.count calls + 1 ∧
      ∃ numbered, (after calls).Holds numbered ∧ numbered.map Prod.snd = waiting calls := by
  induction calls using List.reverseRecOn with
  | nil => exact ⟨rfl, [], ⟨List.Perm.refl _, .nil, nofun⟩, rfl⟩
  | append_singleton calls call ih =>
    rw [DelayCall.count_append] at few ⊢
    obtain ⟨next, numbered, holds, messages⟩ := ih (by omega)
    have run : after (calls ++ [call]) = (after calls).step call := Run.run_append _ _ _
    rw [run, waiting_append, ← messages, List.filter_map]
    cases call with
    | schedule queueName message delay now =>
      have one : DelayCall.count [.schedule queueName message delay now] = 1 := rfl
      rw [one] at few ⊢
      refine ⟨?_, _, holds_schedule holds (by omega) queueName message delay now, ?_⟩
      · change ((after calls).nextId + 1).toNat = _
        rw [UInt64.toNat_add, UInt64.toNat_one]
        omega
      · have kept : numbered.filter ((fun d => !(DelayCall.schedule queueName message delay
            now).drains d.deliverAt) ∘ Prod.snd) = numbered :=
          List.filter_eq_self.mpr fun _ _ => rfl
        rw [kept, List.map_append]
        rfl
    | drainReady now =>
      refine ⟨next, _, (holds_drain holds (by omega) now).2, ?_⟩
      exact (List.append_nil _).symm

theorem instant_in_order {taken : List (DelayKey × DelayedMessage)}
    (sorted : taken.Pairwise (fun a b => a.1 < b.1)) (ascending : numbered.Pairwise
      (fun a b => a.1 < b.1)) (same : taken.Perm (numbered.map entry)) (instant : Instant) :
    (taken.map Prod.snd).filter (·.deliverAt = instant) =
      (numbered.map Prod.snd).filter (·.deliverAt = instant) := by
  have numbers : (taken.filter (·.2.deliverAt = instant)).Perm
      ((numbered.filter (·.2.deliverAt = instant)).map entry) := by
    have filtered := same.filter (·.2.deliverAt = instant)
    rw [List.filter_map] at filtered
    exact filtered
  have ordered : ((numbered.filter (·.2.deliverAt = instant)).map entry).Pairwise
      (fun a b => a.1 < b.1) := by
    refine List.pairwise_map.mpr ?_
    refine List.Pairwise.imp_of_mem ?_ (ascending.filter _)
    intro a b first second less
    have here : a.2.deliverAt = instant := by simpa using (List.mem_filter.mp first).2
    have there : b.2.deliverAt = instant := by simpa using (List.mem_filter.mp second).2
    change toLex (a.2.deliverAt, a.1) < toLex (b.2.deliverAt, b.1)
    rw [here, there, Prod.Lex.toLex_lt_toLex]
    exact .inr ⟨rfl, less⟩
  have equal := numbers.eq_of_pairwise (fun a b _ _ less more => absurd less more.asymm)
    (sorted.filter _) ordered
  have messages := congrArg (List.map Prod.snd) equal
  rw [List.map_map] at messages
  rw [List.filter_map, List.filter_map]
  exact messages

end DelayQueue

open DelayQueue

/-- A drain hands out exactly the messages for which it is the first one at or after they are
    due: ordered by the instant they are due at, and within an instant as they were scheduled. -/
theorem drain_exact (calls : List DelayCall) (now : Instant)
    (few : DelayCall.count calls < 2 ^ 64 - 1) :
    ((after calls).drainReady now).1.Perm (due calls now) ∧
      ((after calls).drainReady now).1.Pairwise (fun a b => a.deliverAt ≤ b.deliverAt) ∧
      ∀ instant, ((after calls).drainReady now).1.filter (·.deliverAt = instant) =
        (due calls now).filter (·.deliverAt = instant) := by
  obtain ⟨next, numbered, holds, messages⟩ := holds_after calls few
  have taken := (holds_drain holds (by omega) now).1
  have sorted := ((after calls).inner.splitOff (toLex (now, 2 ^ 64 - 1))).1.sorted
  have ready : due calls now = (numbered.filter fun e => e.2.deliverAt ≤ now).map Prod.snd := by
    rw [due, ← messages, List.filter_map]
    rfl
  rw [ready]
  refine ⟨?_, ?_, instant_in_order sorted (holds.ascending.filter _) taken⟩
  · have all := taken.map Prod.snd
    rw [List.map_map] at all
    exact all
  · refine List.pairwise_map.mpr ?_
    refine List.Pairwise.imp_of_mem ?_ sorted
    intro a b first second less
    obtain ⟨e, -, rfl⟩ := List.mem_map.mp (taken.mem_iff.mp first)
    obtain ⟨e', -, rfl⟩ := List.mem_map.mp (taken.mem_iff.mp second)
    rcases Prod.Lex.toLex_lt_toLex.mp less with before | ⟨same, -⟩
    · exact before.le
    · exact same.le

/-- Two messages due at one instant, and a drain just before it. -/
def twoDelayed : List DelayCall :=
  [.schedule "a" (.newRouted 1 [] [7] "" "a") 5 0, .schedule "b" (.newRouted 2 [] [8] "" "b") 3 2,
    .drainReady 4]

theorem drain_exact_boundary : ((after twoDelayed).drainReady 5).1.Perm
    [⟨5, "a", .newRouted 1 [] [7] "" "a"⟩, ⟨5, "b", .newRouted 2 [] [8] "" "b"⟩] :=
  (drain_exact twoDelayed 5 (by decide)).1

end RocketmqBroker
