import RocketmqBroker.Consumers.Leaving
import RocketmqBroker.Durability.Held
import RocketmqBroker.Queue.PriorityOrder

/-!
The order of a queue behind a connection. Its deliveries go back to the front one by one, in the
order in which they were made, so that each of them ends up ahead of those made before it.
-/
namespace RocketmqBroker
open Run.Program

/-- The deliveries of a queue that the connection still has to settle, in their order. -/
def BrokerState.unsettled (s : BrokerState) (connId : UInt64) (name : String) (q : QueueState) :
    List UInt64 := (s.listedTags connId name).filter fun tag => q.inflight.contains tag

def QueueState.Out (q : QueueState) (priority : UInt8) (tag : UInt64) : Prop :=
  ∃ m, q.inflight.get? tag = some m ∧ m.id = tag ∧ m.priority = priority

section
variable {q : QueueState} {priority : UInt8} {tag : UInt64}

instance : Decidable (q.Out priority tag) :=
  decidable_of_iff ((q.inflight.get? tag).any fun m => m.id == tag && m.priority == priority)
    (by simp only [Option.any_eq_true, Bool.and_eq_true, beq_iff_eq, QueueState.Out])

theorem putBack_stale (stale : q.inflight.contains tag = false) : q.putBack tag false = q := by
  have absent : q.inflight.get? tag = none :=
    Option.isNone_iff_eq_none.mp (Option.isSome_eq_false_iff.mp stale)
  unfold QueueState.putBack
  rw [absent]

theorem putBack_out (out : q.Out priority tag)
    (level : ∀ m ∈ q.messages.ready, m.priority = priority) :
    (q.putBack tag false).readyIds = tag :: q.readyIds ∧
      ∀ m ∈ (q.putBack tag false).messages.ready, m.priority = priority := by
  obtain ⟨m, found, named, same⟩ := out
  have ready : (q.putBack tag false).messages.ready = .full m :: q.messages.ready := by
    unfold QueueState.putBack
    rw [found]
    refine PriorityQueue.ready_pushFront_first fun m' member => Nat.le_of_eq ?_
    exact congrArg UInt8.toNat ((level m' member).trans same.symm)
  constructor
  · rw [QueueState.readyIds, ready, List.map_cons]
    exact congrArg (· :: q.readyIds) named
  · rw [ready]
    intro m' member
    cases List.mem_cons.mp member with
    | inl first =>
      rw [first]
      exact same
    | inr rest => exact level m' rest

theorem readyIds_putBackAll (tags : List UInt64)
    (once : (tags.filter fun tag => q.inflight.contains tag).Nodup)
    (out : ∀ tag ∈ tags, q.inflight.contains tag = true → q.Out priority tag)
    (level : ∀ m ∈ q.messages.ready, m.priority = priority) :
    (q.putBackAll tags).readyIds =
      (tags.filter fun tag => q.inflight.contains tag).reverse ++ q.readyIds := by
  induction tags generalizing q with
  | nil => rfl
  | cons tag tags ih =>
    change ((q.putBack tag false).putBackAll tags).readyIds = _
    cases held : q.inflight.contains tag with
    | false =>
      rw [List.filter_cons, held] at once ⊢
      rw [putBack_stale held]
      exact ih once (fun t member => out t (List.mem_cons_of_mem _ member)) level
    | true =>
      rw [List.filter_cons, held, if_pos rfl] at once ⊢
      obtain ⟨fresh, once⟩ := List.nodup_cons.mp once
      obtain ⟨ids, level'⟩ := putBack_out (out tag List.mem_cons_self held) level
      have others : ∀ t ∈ tags, (q.putBack tag false).inflight.contains t =
          q.inflight.contains t := by
        intro t member
        unfold FinMap.contains
        rw [QueueState.inflight_putBack]
        split
        · rename_i same
          subst same
          exact absurd (List.mem_filter.mpr ⟨member, held⟩) fresh
        · rfl
      have same := List.filter_congr others
      have later := ih (q := q.putBack tag false) (by rw [same]; exact once) ?_ level'
      · rw [later, same, ids, List.reverse_cons, List.append_assoc]
        rfl
      · intro t member live
        rw [others t member] at live
        obtain ⟨m, found, rest⟩ := out t (List.mem_cons_of_mem _ member) live
        refine ⟨m, ?_, rest⟩
        rw [QueueState.inflight_putBack, if_neg]
        · exact found
        · rintro rfl
          exact fresh (List.mem_filter.mpr ⟨member, held⟩)

end

/-- Of a queue with messages of one priority, the first k have been delivered to the connection,
    which has settled none of them. -/
structure PrefixOut (s : BrokerState) (connId : UInt64) (name : String) (q : QueueState)
    (priority : UInt8) (ids : List UInt64) (k : Nat) : Prop where
  distinct : ids.Nodup
  waiting : q.readyIds = ids.drop k
  level : ∀ m ∈ q.messages.ready, m.priority = priority
  out : ∀ tag ∈ ids.take k, q.Out priority tag
  listed : (s.unsettled connId name q).Perm (ids.take k)

theorem reverse_eq_self_iff {α : Type} {xs : List α} (once : xs.Nodup) :
    xs = xs.reverse ↔ xs.length ≤ 1 := by
  constructor
  · intro same
    cases xs with
    | nil => exact Nat.zero_le 1
    | cons x rest =>
      cases rest using List.reverseRecOn with
      | nil => exact Nat.le_refl 1
      | append_singleton front last =>
        rw [List.reverse_cons, List.reverse_append] at same
        obtain ⟨rfl, -⟩ := List.cons.inj same
        exact absurd (List.mem_append_right _ List.mem_cons_self) (List.nodup_cons.mp once).1
  · intro short
    match xs, short with
    | [], _ => rfl
    | [x], _ => rfl

/-- The order comes back exactly when the deliveries are listed against it. -/
theorem order_restored_iff (env : Env) (s : BrokerState) (connId : UInt64) (name : String)
    (q : QueueState) (priority : UInt8) (ids : List UInt64) (k : Nat)
    (found : s.queues.get? name = some q) (outlives : s.outlives connId name q = true)
    (delivered : PrefixOut s connId name q priority ids k) :
    ∃ q', (served env s (.disconnect connId)).queues.get? name = some q' ∧
      (q'.readyIds = ids ↔ s.unsettled connId name q = (ids.take k).reverse) ∧
      (s.unsettled connId name q = ids.take k → (q'.readyIds = ids ↔ (ids.take k).length ≤ 1)) := by
  obtain ⟨distinct, waiting, level, out, listed⟩ := delivered
  have once : (ids.take k).Nodup := distinct.sublist (List.take_sublist k ids)
  have ready : (s.left connId name q).readyIds =
      (s.unsettled connId name q).reverse ++ ids.drop k := by
    have back := readyIds_putBackAll (s.listedTags connId name) (listed.nodup_iff.mpr once)
      (fun tag member live => out tag (listed.mem_iff.mp (List.mem_filter.mpr ⟨member, live⟩)))
      level
    exact back.trans (congrArg (_ ++ ·) waiting)
  have restored : (s.left connId name q).readyIds = ids ↔
      s.unsettled connId name q = (ids.take k).reverse := by
    have whole : ids = ids.take k ++ ids.drop k := (List.take_append_drop k ids).symm
    constructor
    · intro same
      rw [ready] at same
      have front := List.append_cancel_right (same.trans whole)
      rw [← front, List.reverse_reverse]
    · intro against
      rw [ready, against, List.reverse_reverse]
      exact whole.symm
  refine ⟨s.left connId name q, stays_after found outlives, restored, ?_⟩
  intro inOrder
  rw [restored, inOrder]
  exact reverse_eq_self_iff once

/-- A consumer that has three messages waiting for it, of which it gets so many. -/
def consumedFirst (answers : List Bool) : BrokerState := reached (plainEnv 64 1) guestOnly none
  (session "q" ++ [publishTo "q" false [7], publishTo "q" false [8], publishTo "q" false [9],
    .basicConsume 1 1 ⟨"q", "t", false, false, false, []⟩, .deliverRound "q" answers 0])

theorem consumedFirst_out (answers : List Bool) (q : QueueState)
    (known : answers = [true] ∨ answers = [true, true])
    (found : (consumedFirst answers).queues.get? "q" = some q) :
    PrefixOut (consumedFirst answers) 1 "q" q 0 [1, 2, 3] answers.length := by
  have here : ((consumedFirst answers).queues.get? "q").all (fun q =>
      q.readyIds = [1, 2, 3].drop answers.length ∧
      (∀ m ∈ q.messages.ready, m.priority = 0) ∧
      ([1, 2, 3].take answers.length).all (q.Out 0 ·) = true ∧
      (consumedFirst answers).unsettled 1 "q" q = [1, 2, 3].take answers.length) = true := by
    rcases known with rfl | rfl
    · decide +kernel
    · decide +kernel
  rw [found, Option.all_some, decide_eq_true_eq] at here
  obtain ⟨waiting, level, out, inOrder⟩ := here
  rw [List.all_eq_true] at out
  exact ⟨by decide, waiting, level, fun tag member => of_decide_eq_true (out tag member),
    .of_eq inOrder⟩

theorem order_restored_one :
    ((served (plainEnv 64 1) (consumedFirst [true]) (.disconnect 1)).queues.get? "q").map
      (·.readyIds) = some [1, 2, 3] := by
  have present : ((consumedFirst [true]).queues.get? "q").any
      ((consumedFirst [true]).outlives 1 "q" ·) = true := by decide +kernel
  obtain ⟨q, found, outlives⟩ := (Option.any_eq_true _ _).mp present
  have delivered := consumedFirst_out [true] q (.inl rfl) found
  obtain ⟨q', after, -, restored⟩ := order_restored_iff (plainEnv 64 1) (consumedFirst [true]) 1
    "q" q 0 [1, 2, 3] 1 found outlives delivered
  have inOrder : (consumedFirst [true]).unsettled 1 "q" q = [1, 2, 3].take 1 :=
    List.perm_singleton.mp delivered.listed
  rw [after, Option.map_some, (restored inOrder).mpr (by decide)]

/-- With two they come back in the wrong order. -/
theorem order_reversed :
    let after := served (plainEnv 64 1) (consumedFirst [true, true]) (.disconnect 1)
    (after.queues.get? "q").map (·.readyIds) = some [2, 1, 3] ∧
    ¬ ∀ q ids k, (consumedFirst [true, true]).queues.get? "q" = some q →
      PrefixOut (consumedFirst [true, true]) 1 "q" q 0 ids k →
      (after.queues.get? "q").map (·.readyIds) = some ids := by
  intro after
  have reversed : (after.queues.get? "q").map (·.readyIds) = some [2, 1, 3] := by decide +kernel
  refine ⟨reversed, fun restored => ?_⟩
  have present : ((consumedFirst [true, true]).queues.get? "q").isSome = true := by decide +kernel
  obtain ⟨q, found⟩ := Option.isSome_iff_exists.mp present
  have kept := restored q [1, 2, 3] 2 found (consumedFirst_out [true, true] q (.inr rfl) found)
  rw [reversed] at kept
  exact absurd (Option.some.inj kept) (by decide)

end RocketmqBroker
