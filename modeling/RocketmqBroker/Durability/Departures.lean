import Mathlib.Data.List.TakeWhile
import RocketmqBroker.Durability.Held

/-!
What comes back after a crash. Replay restores a message as long as the log has
its Enqueue entry and no Ack entry, so a message that leaves its queue in any
other way comes back, unless it was never logged.
-/
namespace RocketmqBroker

def restoredIds (rs : List LogRecord) (name : String) : List UInt64 :=
  (restoredMessages rs name).map Message.id

/-- The log has an Enqueue entry of this message behind the declaration of the
    queue, and no Ack entry. -/
def Outstanding (env : Env) (s : BrokerState) (queue : String) (id : UInt64) : Prop :=
  id ∈ restoredIds (records env s) queue

/-- A step that takes no message out of its queue behind the log's back. -/
def Accounted (env : Env) (s : BrokerState) (e : Effect) : Prop :=
  Fitting s e ∧ ∀ p ∈ e.dropped env s, ¬ Outstanding env s p.1 p.2

instance (env : Env) (s : BrokerState) (queue : String) (id : UInt64) :
    Decidable (Outstanding env s queue id) := inferInstanceAs (Decidable (_ ∈ _))

instance (env : Env) (s : BrokerState) (e : Effect) : Decidable (Accounted env s e) :=
  inferInstanceAs (Decidable (_ ∧ _))

section
variable {rs ts : List LogRecord} {name : String}

theorem restored_of_append {acked more : List UInt64} {r : LogRecord} {m : Message}
    (h : r.restored (acked ++ more) name = some m) : r.restored acked name = some m := by
  cases r with
  | enqueue queue msgId exchange routingKey headers body =>
    simp only [LogRecord.restored, List.mem_append, not_or] at h ⊢
    split at h
    · rename_i both
      rw [if_pos ⟨both.1.1, both.2⟩]
      exact h
    · contradiction
  | _ => contradiction

theorem filterMap_restored_sublist (acked more : List UInt64) (rs : List LogRecord) :
    (rs.filterMap (LogRecord.restored (acked ++ more) name)).Sublist
      (rs.filterMap (LogRecord.restored acked name)) := by
  induction rs with
  | nil => exact List.Sublist.slnil
  | cons r rs ih =>
    cases restored : r.restored (acked ++ more) name with
    | none =>
      rw [List.filterMap_cons_none restored]
      exact ih.trans ((List.sublist_cons_self r rs).filterMap _)
    | some m =>
      rw [List.filterMap_cons_some restored,
        List.filterMap_cons_some (restored_of_append restored)]
      exact ih.cons_cons m

theorem restoredIds_append (rs ts : List LogRecord) (name : String) :
    (restoredIds (rs ++ ts) name).Sublist (restoredIds rs name ++ arrivals ts name) := by
  have front : ((rs ++ ts).dropWhile fun r => !r.declares name).Sublist
      ((rs.dropWhile fun r => !r.declares name) ++ ts) := by
    rw [List.dropWhile_append]
    split
    · exact (List.dropWhile_sublist _).trans (List.sublist_append_right _ _)
    · exact List.Sublist.refl _
  unfold restoredIds arrivals restoredMessages
  rw [← List.map_append, ackedOf_append]
  refine List.Sublist.map _ ((front.filterMap _).trans ?_)
  rw [List.filterMap_append]
  refine List.Sublist.append (filterMap_restored_sublist _ _ _) ?_
  exact filterMap_restored_sublist [] _ ts

theorem restored_unacked {acked : List UInt64} {r : LogRecord} {m : Message}
    (h : r.restored acked name = some m) : m.id ∉ acked := by
  cases r with
  | enqueue queue msgId exchange routingKey headers body =>
    simp only [LogRecord.restored] at h
    split at h
    · rename_i both
      cases h
      exact both.1
    · contradiction
  | _ => contradiction

theorem restoredIds_unacked {id : UInt64} (member : id ∈ restoredIds rs name) :
    id ∉ ackedOf rs := by
  obtain ⟨m, restored, rfl⟩ := List.mem_map.mp member
  obtain ⟨r, _, here⟩ := List.mem_filterMap.mp restored
  exact restored_unacked here

theorem restoredMessages_declared (h : rs.any (LogRecord.declares name) = false) :
    restoredMessages rs name = [] := by
  have none : (rs.dropWhile fun r => !r.declares name) = [] := by
    rw [List.dropWhile_eq_nil_iff]
    intro r member
    simp [List.any_eq_false.mp h r member]
  rw [restoredMessages, none]
  rfl

theorem heldAt_found (env : Env) (s : BrokerState) (now : Instant) (auth : AuthBackend)
    (cluster : Option ClusterCoordinator) (name : String) :
    heldAt (restart env now s.wal.dir auth cluster) name =
      (restoredIds (recordsFound env s) name : Multiset UInt64) := by
  have ready := readyAt_found env s now auth cluster name
  rw [heldAt]
  cases found : (restart env now s.wal.dir auth cluster).queues.get? name with
  | none =>
    rw [found] at ready
    split at ready
    · contradiction
    · rename_i undeclared
      rw [restoredIds, restoredMessages_declared (Bool.eq_false_iff.mpr undeclared)]
      rfl
  | some q =>
    rw [found] at ready
    split at ready
    · have messages : q.messages.ready = (restoredMessages (recordsFound env s) name).map .full :=
        Option.some.inj ready
      have idle := restart_inflight now auth cluster found
      simp only
      rw [QueueState.held_eq_ids, QueueState.readyIds, messages, idle, restoredIds, List.map_map]
      change ((_ ++ [] : List UInt64) : Multiset UInt64) = _
      rw [List.append_nil]
      rfl
    · contradiction

theorem heldAt_restart {env : Env} {s : BrokerState} (backed : Backed env s) (now : Instant)
    (auth : AuthBackend) (cluster : Option ClusterCoordinator) (name : String) :
    heldAt (restart env now s.wal.dir auth cluster) name =
      (restoredIds (records env s) name : Multiset UInt64) := by
  rw [heldAt_found, recordsFound_eq backed]

theorem restoredMessages_keptRecords (rs : List LogRecord) (name : String) :
    restoredMessages (keptRecords rs) name = restoredMessages rs name := by
  -- replay cannot tell the two logs apart, so neither can what it restores
  have fresh : (BrokerState.new (.new ∅ 0) ∅ none).queues.get? name = none := rfl
  have before := readyAt_replayRecords (plainEnv 0 0) 0 fresh rs
  have after := readyAt_replayRecords (plainEnv 0 0) 0 fresh (keptRecords rs)
  rw [replayRecords_keptRecords, before] at after
  split at after
  · split at after
    · have same := Option.some.inj after
      exact (List.map_injective_iff.mpr (fun a b h => QueueMessage.full.inj h) same).symm
    · contradiction
  · rename_i undeclared
    split at after
    · contradiction
    · rename_i undeclared'
      rw [restoredMessages_declared (Bool.eq_false_iff.mpr undeclared),
        restoredMessages_declared (Bool.eq_false_iff.mpr undeclared')]

end

section
variable {env : Env} {s : BrokerState} {e : Effect}

theorem arrivals_logged (s : BrokerState) (e : Effect) (name : String) :
    (arrivals (e.logged s) name).Sublist (idsOf name (e.arrived s)) := by
  cases e with
  | createQueue queue q logs schema =>
    cases logs <;> cases schema <;> exact List.Sublist.slnil
  | createExchange exchange kind durable logs => cases logs <;> exact List.Sublist.slnil
  | bind exchange b logs => cases logs <;> exact List.Sublist.slnil
  | enqueue queue ctx now =>
    simp only [Effect.logged, Effect.arrived, idsOf_idsAt]
    cases s.queues.get? queue with
    | none => exact List.nil_sublist _
    | some q =>
      simp only
      split
      · exact List.nil_sublist _
      · by_cases same : name = queue
        · simp [arrivals, LogRecord.restored, same, recoveredMessage, Message.newRouted]
        · simp [arrivals, LogRecord.restored, same]
  | replicatePublish queue msgId body =>
    simp only [Effect.logged, Effect.arrived, idsOf_idsAt]
    split
    · rename_i contains
      obtain ⟨q, found⟩ := Option.isSome_iff_exists.mp contains
      by_cases same : name = queue
      · simp [arrivals, LogRecord.restored, same, found, recoveredMessage, Message.newRouted]
      · simp [arrivals, LogRecord.restored, same]
    · exact List.nil_sublist _
  | replicateAck queue msgId =>
    simp only [Effect.logged]
    split <;> exact List.nil_sublist _
  | settle queue tag =>
    simp only [Effect.logged]
    split
    · exact List.nil_sublist _
    · split <;> exact List.nil_sublist _
  | _ => exact List.nil_sublist _

theorem acked_of_settled {name : String} {id : UInt64} (member : (name, id) ∈ e.settled s) :
    id ∈ ackedOf (e.logged s) := by
  cases e with
  | settle queue tag =>
    simp only [Effect.settled, idsAt] at member
    cases found : s.queues.get? queue with
    | none =>
      rw [found] at member
      contradiction
    | some q =>
      rw [found] at member
      simp only [List.mem_map, Prod.mk.injEq] at member
      obtain ⟨other, inside, _, rfl⟩ := member
      split at inside
      · rename_i present
        have contains := FinMap.contains_iff_mem_keys.mpr present
        simpa [Effect.logged, found, contains, ackedOf, LogRecord.ackId] using inside
      · contradiction
  | replicateAck queue msgId =>
    simp only [Effect.settled, idsAt] at member
    cases found : s.queues.get? queue with
    | none =>
      rw [found] at member
      contradiction
    | some q =>
      rw [found] at member
      simp only [List.mem_map, List.mem_filter, decide_eq_true_eq, Prod.mk.injEq] at member
      obtain ⟨_, ⟨_, rfl⟩, _, rfl⟩ := member
      simp [Effect.logged, FinMap.contains, found, ackedOf, LogRecord.ackId]
  | _ => contradiction

theorem logged_of_dropped {p : String × UInt64} (member : p ∈ e.dropped env s) :
    e.logged s = [] := by
  cases e <;> first | rfl | exact absurd member (by simp [Effect.dropped])

structure Covered (env : Env) (s : BrokerState) : Prop where
  backed : Backed env s
  tagged : Tagged s
  held : ∀ name, (restoredIds (records env s) name : Multiset UInt64) ≤ heldAt s name

theorem covered_append (h : Covered env s) (accounted : Accounted env s e)
    (goesOn : ∀ now auth cluster, e ≠ .restart now auth cluster) (name : String) :
    (restoredIds (records env s ++ e.logged s) name : Multiset UInt64) ≤
      heldAt (exec env s e) name := by
  rw [Multiset.le_iff_count]
  intro id
  rw [Multiset.coe_count]
  by_cases restored : id ∈ restoredIds (records env s ++ e.logged s) name
  · have grown := (restoredIds_append (records env s) (e.logged s) name).count_le id
    rw [List.count_append] at grown
    have covered := Multiset.le_iff_count.mp (h.held name) id
    rw [Multiset.coe_count] at covered
    have enqueued := (arrivals_logged s e name).count_le id
    have books := congrArg (Multiset.count id) (held_exec env h.tagged goesOn name)
    rw [Multiset.count_add, Multiset.count_add, Multiset.coe_count, Multiset.coe_count] at books
    have unsettled : (name, id) ∉ e.settled s := by
      intro settled
      refine restoredIds_unacked restored ?_
      rw [ackedOf_append]
      exact List.mem_append_right _ (acked_of_settled settled)
    have undropped : (name, id) ∉ e.dropped env s := by
      intro dropped
      refine accounted.2 _ dropped ?_
      rw [logged_of_dropped dropped, List.append_nil] at restored
      exact restored
    have stays : (idsOf name (e.dropped env s ++ e.settled s)).count id = 0 := by
      rw [List.count_eq_zero, mem_idsOf, List.mem_append]
      exact fun gone => gone.elim undropped unsettled
    omega
  · rw [List.count_eq_zero_of_not_mem restored]
    exact Nat.zero_le _

theorem covered_exec (h : Covered env s) (accounted : Accounted env s e) :
    Covered env (exec env s e) := by
  refine ⟨(backed_exec h.backed accounted.1).1, tagged_exec h.tagged, ?_⟩
  intro name
  by_cases compacts : e = .compact
  · subst compacts
    have same : heldAt (exec env s .compact) name = heldAt s name := rfl
    rw [same]
    rcases records_compact h.backed with records | records
    · rw [records]
      exact h.held name
    · rw [records, restoredIds, restoredMessages_keptRecords]
      exact h.held name
  · rw [records_exec h.backed accounted.1 compacts]
    cases e with
    | restart now auth cluster =>
      change _ ≤ heldAt (restart env now s.wal.dir auth cluster) name
      have nothing : Effect.logged s (.restart now auth cluster) = [] := rfl
      rw [heldAt_restart h.backed, nothing, List.append_nil]
    | _ => exact covered_append h accounted (by intros; simp) name

theorem covered_install (env : Env) (auth : AuthBackend) (cluster : Option ClusterCoordinator) :
    Covered env (install env auth cluster) := by
  refine ⟨(backed_install env auth cluster).1, ?_, ?_⟩
  · intro name q present
    contradiction
  · intro name
    rw [records, (backed_install env auth cluster).2]
    exact Multiset.zero_le _

end

/-- Every message in a queue of the second state was in that queue, ready or in
    flight, in the first one. -/
structure NothingNew (s t : BrokerState) : Prop where
  held : ∀ name, heldAt t name ≤ heldAt s name

/-- A crash after a run that took no outstanding message out of its queue: what
    recovery puts into a queue was in that queue, ready or in flight. -/
theorem recovered_was_held (env : Env) (auth : AuthBackend) (cluster : Option ClusterCoordinator)
    (ops : List Op) (accounted : Throughout env auth cluster (Accounted env) ops)
    (now : Instant) (auth' : AuthBackend) (cluster' : Option ClusterCoordinator) :
    NothingNew (reached env auth cluster ops)
      (restart env now (reached env auth cluster ops).wal.dir auth' cluster') := by
  have covered := accounted.invariant (fun _ s => Covered env s) (covered_install env auth cluster)
    fun _ _ _ allowed h => covered_exec h allowed
  constructor
  intro name
  rw [heldAt_restart covered.backed]
  exact covered.held name

/-- A transient message delivered without ack, a persistent one acked, another
    one still there. -/
def ackedRun : List Op :=
  session "q" ++ [publishTo "q" false [1], publishTo "q" true [2], publishTo "q" true [3],
    .basicGet 1 "q" true, .basicGet 1 "q" false, .basicAck 1 1 2]

theorem recovered_was_held_after_ack :
    let s := reached (plainEnv 64 1) guestOnly none ackedRun
    let t := restart (plainEnv 64 1) 0 s.wal.dir guestOnly none
    heldAt t "q" = {3} ∧ NothingNew s t := by
  refine ⟨by decide +kernel, ?_⟩
  exact recovered_was_held (plainEnv 64 1) guestOnly none ackedRun (by decide +kernel) 0 guestOnly
    none

theorem NothingNew.empty {s t : BrokerState} (h : NothingNew s t) {name : String}
    (gone : heldAt s name = 0) : heldAt t name = 0 := by
  have below := h.held name
  rw [gone] at below
  exact Multiset.le_zero.mp below

/-- A message rejected without requeue is gone, and back after a crash. -/
theorem rejected_comes_back :
    let s := reached (plainEnv 64 1) guestOnly none (session "q" ++ [publishTo "q" true [1],
      .basicGet 1 "q" false, .basicNack 1 1 1 false])
    let t := restart (plainEnv 64 1) 0 s.wal.dir guestOnly none
    heldAt s "q" = 0 ∧ heldAt t "q" = {1} ∧ ¬ NothingNew s t := by
  intro s t
  have gone : heldAt s "q" = 0 := by decide +kernel
  have back : heldAt t "q" = {1} := by decide +kernel
  refine ⟨gone, back, ?_⟩
  intro new
  have empty := new.empty gone
  rw [back] at empty
  exact absurd empty (by decide)

end RocketmqBroker
