import RocketmqBroker.Durability.Departures
import RocketmqBroker.Durability.Objects

/-!
Message ids over the lives of a broker. The counter starts at 1 with every
process and the log remembers the ids of all of them, so ids are safe as long as
no process counts up to an id that was in the log when it started.
-/
namespace RocketmqBroker

def LogRecord.msgId : LogRecord → Option UInt64
  | enqueue _ msgId _ _ _ _ => some msgId
  | ack msgId => some msgId
  | _ => none

def loggedIds (rs : List LogRecord) : List UInt64 := rs.filterMap LogRecord.msgId

/-- A broker with the ids that its log had when the process started, and the
    persistent messages that went to a durable queue and were never acked. -/
structure Life where
  broker : BrokerState
  started : List UInt64
  owed : List (String × Message)

def Effect.persisted (s : BrokerState) : Effect → List (String × Message)
  | enqueue queue ctx _ =>
    match s.queues.get? queue with
    | none => []
    | some q =>
      if q.options.durable && ctx.isPersistent then
        [(queue, recoveredMessage s.nextMsgId ctx.exchange ctx.routingKey ctx.propBytes
          ctx.bodyBytes)]
      else []
  | _ => []

def Life.step (env : Env) (l : Life) (e : Effect) : Life where
  broker := exec env l.broker e
  started := if e.restarts then loggedIds (records env l.broker) else l.started
  owed := (l.owed.filter fun p => p.2.id ∉ ackedOf (e.logged l.broker)) ++ e.persisted l.broker

/-- The next id was not in the log when the process started, and is not the last
    one. -/
def Life.Fresh (l : Life) : Prop :=
  l.broker.nextMsgId ∉ l.started ∧ l.broker.nextMsgId.toNat + 1 < 2 ^ 64

/-- Allocations are fresh, persistent messages go to queues with a declaration in
    the log, and no message comes in under an id that was given before. -/
def Effect.Identified (env : Env) (l : Life) : Effect → Prop
  | alloc => l.Fresh
  | enqueue queue ctx now => l.Fresh ∧
      (Effect.persisted l.broker (.enqueue queue ctx now) ≠ [] →
        logsQueue (records env l.broker) queue = true)
  | enqueueFull _ _ _ _ _ => l.Fresh
  | pushFull queue m => l.broker.queues.contains queue = true →
      m.id.toNat < l.broker.nextMsgId.toNat ∧
        ∀ name ∈ l.broker.queues.keys, m.id ∉ heldAt l.broker name
  | replicatePublish queue _ _ => l.broker.queues.contains queue = false
  | replicateAck queue _ => l.broker.queues.contains queue = false
  | _ => True

instance (l : Life) : Decidable l.Fresh := inferInstanceAs (Decidable (_ ∧ _))

instance (env : Env) (l : Life) (e : Effect) : Decidable (e.Identified env l) := by
  apply Effect.casesOn (motive := fun e => Decidable (e.Identified env l)) e <;> intros <;>
    dsimp only [Effect.Identified] <;> infer_instance

def Identified (env : Env) (l : Life) (e : Effect) : Prop :=
  Fitting l.broker e ∧ e.Identified env l

instance (env : Env) (l : Life) (e : Effect) : Decidable (Identified env l e) :=
  inferInstanceAs (Decidable (_ ∧ _))

def Life.Knows (l : Life) (id : UInt64) : Prop :=
  id ∈ l.started ∨ id.toNat < l.broker.nextMsgId.toNat

def Effect.allocates : Effect → Bool
  | alloc => true
  | enqueue _ _ _ => true
  | enqueueFull _ _ _ _ _ => true
  | _ => false

/-- No two messages in the queues have the same id. -/
structure LiveDistinct (s : BrokerState) : Prop where
  within : ∀ name, (heldAt s name).Nodup
  across : ∀ a b id, id ∈ heldAt s a → id ∈ heldAt s b → a = b

section
variable {env : Env} {s : BrokerState} {l : Life} {e : Effect} {name : String} {id : UInt64}

theorem fresh_of_identified (h : e.Identified env l) (allocates : e.allocates = true) :
    l.Fresh := by
  cases e with
  | alloc => exact h
  | enqueue queue ctx now => exact h.1
  | enqueueFull queue exchange routingKey headers body => exact h
  | _ => contradiction

theorem exec_nextMsgId (goesOn : e.restarts = false) :
    (exec env s e).nextMsgId = if e.allocates then s.nextMsgId + 1 else s.nextMsgId := by
  rw [(exec_memory env s e).2.2]
  cases e with
  | books change => exact change.nextMsgId s
  | createQueue name q logs schema => cases logs <;> rfl
  | restart now auth cluster => contradiction
  | _ => rfl

theorem succ_toNat {n : UInt64} (small : n.toNat + 1 < 2 ^ 64) : (n + 1).toNat = n.toNat + 1 := by
  rw [UInt64.toNat_add]
  exact Nat.mod_eq_of_lt small

theorem counter_grows (h : e.Identified env l) (goesOn : e.restarts = false) :
    l.broker.nextMsgId.toNat ≤ (exec env l.broker e).nextMsgId.toNat := by
  rw [exec_nextMsgId goesOn]
  split
  · rename_i allocates
    rw [succ_toNat (fresh_of_identified h allocates).2]
    omega
  · exact Nat.le_refl _

theorem knows_step (h : e.Identified env l) (goesOn : e.restarts = false) (known : l.Knows id) :
    (l.step env e).Knows id := by
  rcases known with first | given
  · exact .inl (by rw [Life.step, goesOn]; exact first)
  · exact .inr (Nat.lt_of_lt_of_le given (counter_grows h goesOn))

theorem knows_given (h : e.Identified env l) (allocates : e.allocates = true) :
    (l.step env e).Knows l.broker.nextMsgId := by
  have goesOn : e.restarts = false := by cases e <;> first | rfl | contradiction
  refine .inr ?_
  change _ < (exec env l.broker e).nextMsgId.toNat
  rw [exec_nextMsgId goesOn, allocates, if_pos rfl,
    succ_toNat (fresh_of_identified h allocates).2]
  omega

theorem not_knows_next (fresh : l.Fresh) : ¬ l.Knows l.broker.nextMsgId := by
  rintro (first | given)
  · exact fresh.1 first
  · omega

theorem goesOn_of_restarts (goesOn : e.restarts = false) :
    ∀ now auth cluster, e ≠ .restart now auth cluster := by
  rintro now auth cluster rfl
  contradiction

theorem mem_idsAt {queue : String} {ids : QueueState → List UInt64}
    (member : (name, id) ∈ idsAt s queue ids) :
    name = queue ∧ ∃ q, s.queues.get? queue = some q ∧ id ∈ ids q := by
  have inside := mem_idsOf.mpr member
  rw [idsOf_idsAt] at inside
  split at inside
  · rename_i same
    refine ⟨same, ?_⟩
    cases found : s.queues.get? queue with
    | none =>
      rw [found] at inside
      contradiction
    | some q =>
      rw [found] at inside
      exact ⟨q, rfl, inside⟩
  · contradiction

theorem idsAt_missing {queue : String} (missing : s.queues.contains queue = false)
    (ids : QueueState → List UInt64) : idsAt s queue ids = [] := by
  rw [idsAt]
  split
  · rfl
  · rename_i q found
    rw [FinMap.contains, found] at missing
    contradiction

theorem heldAt_le_exec (tagged : Tagged s) (goesOn : e.restarts = false) (name : String) :
    heldAt (exec env s e) name ≤ heldAt s name + (idsOf name (e.arrived s) : Multiset UInt64) := by
  rw [← held_exec env tagged (goesOn_of_restarts goesOn) name]
  exact Multiset.le_add_right _ _

theorem mem_heldAt_exec (tagged : Tagged s) (goesOn : e.restarts = false)
    (member : id ∈ heldAt (exec env s e) name) :
    id ∈ heldAt s name ∨ (name, id) ∈ e.arrived s := by
  have inside := Multiset.mem_of_le (heldAt_le_exec tagged goesOn name) member
  rcases Multiset.mem_add.mp inside with old | new
  · exact .inl old
  · exact .inr (mem_idsOf.mp new)

theorem heldAt_missing (missing : name ∉ s.queues.keys) : heldAt s name = 0 := by
  rw [heldAt]
  split
  · rename_i q found
    exact absurd (FinMap.mem_keys_iff.mpr ⟨q, found⟩) missing
  · rfl

theorem mem_idsAt_single {queue : String} {x : UInt64}
    (member : (name, id) ∈ idsAt s queue fun _ => [x]) : name = queue ∧ id = x := by
  obtain ⟨same, _, _, here⟩ := mem_idsAt member
  exact ⟨same, List.mem_singleton.mp here⟩

theorem arrived_single {a b : String} {x y : UInt64} (first : (a, x) ∈ e.arrived s)
    (second : (b, y) ∈ e.arrived s) : a = b ∧ x = y := by
  cases e with
  | enqueue | enqueueFull | pushFull | replicatePublish =>
    obtain ⟨rfl, rfl⟩ := mem_idsAt_single first
    obtain ⟨rfl, rfl⟩ := mem_idsAt_single second
    exact ⟨rfl, rfl⟩
  | _ => contradiction

theorem idsOf_single_nodup (s : BrokerState) (queue name : String) (x : UInt64) :
    (idsOf name (idsAt s queue fun _ => [x])).Nodup := by
  rw [idsOf_idsAt]
  split
  · cases s.queues.get? queue <;> simp
  · exact List.nodup_nil

theorem arrived_nodup (s : BrokerState) (e : Effect) (name : String) :
    (idsOf name (e.arrived s)).Nodup := by
  cases e with
  | enqueue | enqueueFull | pushFull | replicatePublish => exact idsOf_single_nodup _ _ _ _
  | _ => exact List.nodup_nil

theorem arrived_unheld (identified : e.Identified env l)
    (heldKnown : ∀ name id, id ∈ heldAt l.broker name → l.Knows id)
    (member : (name, id) ∈ e.arrived l.broker) :
    (∀ other, id ∉ heldAt l.broker other) ∧ (l.step env e).Knows id := by
  have given : e.allocates = true → id = l.broker.nextMsgId →
      (∀ other, id ∉ heldAt l.broker other) ∧ (l.step env e).Knows id := by
    rintro allocates rfl
    refine ⟨?_, knows_given identified allocates⟩
    intro other held
    exact not_knows_next (fresh_of_identified identified allocates) (heldKnown other _ held)
  cases e with
  | enqueue | enqueueFull => exact given rfl (mem_idsAt_single member).2
  | pushFull queue m =>
    obtain ⟨rfl, q, found, here⟩ := mem_idsAt member
    obtain rfl := List.mem_singleton.mp here
    have contained : l.broker.queues.contains name = true := by
      rw [FinMap.contains, found]
      rfl
    obtain ⟨given, unheld⟩ := identified contained
    refine ⟨?_, knows_step identified rfl (.inr given)⟩
    intro other held
    by_cases present : other ∈ l.broker.queues.keys
    · exact unheld other present held
    · rw [heldAt_missing present] at held
      contradiction
  | replicatePublish queue msgId body =>
    rw [Effect.arrived, idsAt_missing identified] at member
    contradiction
  | _ => contradiction

/-- Ids stay distinct when no message comes in under an id that some queue holds. -/
theorem liveDistinct_arrived (goesOn : e.restarts = false) (tagged : Tagged s)
    (unheld : ∀ name id, (name, id) ∈ e.arrived s → ∀ other, id ∉ heldAt s other)
    (live : LiveDistinct s) : LiveDistinct (exec env s e) := by
  constructor
  · intro name
    refine Multiset.nodup_of_le (heldAt_le_exec tagged goesOn name) ?_
    rw [Multiset.nodup_add]
    refine ⟨live.within name, ?_, ?_⟩
    · rw [Multiset.coe_nodup]
      exact arrived_nodup s e name
    · rw [Multiset.disjoint_left]
      intro id held new
      exact unheld name id (mem_idsOf.mp new) name held
  · intro a b id first second
    rcases mem_heldAt_exec tagged goesOn first with old | new
    · rcases mem_heldAt_exec tagged goesOn second with old' | new'
      · exact live.across a b id old old'
      · exact absurd old (unheld b id new' a)
    · rcases mem_heldAt_exec tagged goesOn second with old' | new'
      · exact absurd old' (unheld a id new b)
      · exact (arrived_single new new').1

theorem liveDistinct_exec (identified : e.Identified env l) (goesOn : e.restarts = false)
    (tagged : Tagged l.broker)
    (heldKnown : ∀ name id, id ∈ heldAt l.broker name → l.Knows id)
    (live : LiveDistinct l.broker) : LiveDistinct (exec env l.broker e) :=
  liveDistinct_arrived goesOn tagged
    (fun _ _ member => (arrived_unheld identified heldKnown member).1) live

/-- What a step logs is about the id it gives out or about a message it settles. -/
theorem logged_ids (identified : e.Identified env l)
    (member : id ∈ loggedIds (e.logged l.broker)) :
    (e.allocates = true ∧ id = l.broker.nextMsgId) ∨ ∃ name, id ∈ heldAt l.broker name := by
  obtain ⟨r, logged, same⟩ := List.mem_filterMap.mp member
  cases e with
  | createQueue queue q logs schema =>
    cases logs with
    | false => contradiction
    | true =>
      cases schema with
      | none =>
        obtain rfl := List.mem_singleton.mp logged
        contradiction
      | some c =>
        rcases List.mem_cons.mp logged with rfl | rest
        · contradiction
        · obtain rfl := List.mem_singleton.mp rest
          contradiction
  | createExchange exchange kind durable logs =>
    cases logs with
    | false => contradiction
    | true =>
      obtain rfl := List.mem_singleton.mp logged
      contradiction
  | bind exchange b logs =>
    cases logs with
    | false => contradiction
    | true =>
      obtain rfl := List.mem_singleton.mp logged
      contradiction
  | enqueue queue ctx now =>
    simp only [Effect.logged] at logged
    split at logged
    · contradiction
    · split at logged
      · contradiction
      · obtain rfl := List.mem_singleton.mp logged
        exact .inl ⟨rfl, (Option.some.inj same).symm⟩
  | replicatePublish queue msgId body =>
    have missing : l.broker.queues.contains queue = false := identified
    simp [Effect.logged, missing] at logged
  | replicateAck queue msgId =>
    have missing : l.broker.queues.contains queue = false := identified
    simp [Effect.logged, missing] at logged
  | settle queue tag =>
    simp only [Effect.logged] at logged
    split at logged
    · contradiction
    · rename_i q found
      split at logged
      · rename_i inFlight
        obtain rfl := List.mem_singleton.mp logged
        obtain rfl := Option.some.inj same
        refine .inr ⟨queue, ?_⟩
        rw [heldAt, found]
        exact Multiset.mem_add.mpr (.inr (FinMap.contains_iff_mem_keys.mp inFlight))
      · contradiction
  | _ => contradiction

theorem restored_append {acked more : List UInt64} {r : LogRecord} {m : Message}
    (h : r.restored acked name = some m) (unacked : m.id ∉ more) :
    r.restored (acked ++ more) name = some m := by
  cases r with
  | enqueue queue msgId exchange routingKey headers body =>
    simp only [LogRecord.restored] at h ⊢
    split at h
    · rename_i both
      cases h
      refine if_pos ⟨?_, both.2⟩
      rw [List.mem_append, not_or]
      exact ⟨both.1, unacked⟩
    · contradiction
  | _ => contradiction

theorem dropWhile_declared {rs : List LogRecord} (declared : logsQueue rs name = true)
    (ts : List LogRecord) :
    ((rs ++ ts).dropWhile fun r => !r.declares name) =
      (rs.dropWhile fun r => !r.declares name) ++ ts := by
  rw [List.dropWhile_append, if_neg]
  intro empty
  obtain ⟨r, member, declares⟩ := List.any_eq_true.mp declared
  have all := List.dropWhile_eq_nil_iff.mp (List.isEmpty_iff.mp empty) r member
  simp [declares] at all

theorem mem_restoredMessages_append {rs ts : List LogRecord} {m : Message}
    (member : m ∈ restoredMessages rs name) (unacked : m.id ∉ ackedOf ts) :
    m ∈ restoredMessages (rs ++ ts) name := by
  have declared : logsQueue rs name = true := by
    cases logs : logsQueue rs name with
    | true => rfl
    | false =>
      rw [restoredMessages_declared logs] at member
      contradiction
  obtain ⟨r, behind, restored⟩ := List.mem_filterMap.mp member
  rw [restoredMessages, dropWhile_declared declared, ackedOf_append]
  exact List.mem_filterMap.mpr
    ⟨r, List.mem_append_left _ behind, restored_append restored unacked⟩

theorem mem_restoredMessages_new {rs : List LogRecord} (declared : logsQueue rs name = true)
    (unacked : id ∉ ackedOf rs) (exchange routingKey : String) (headers body : Bytes) :
    recoveredMessage id exchange routingKey headers body ∈
      restoredMessages (rs ++ [.enqueue name id exchange routingKey headers body]) name := by
  rw [restoredMessages, dropWhile_declared declared, ackedOf_append]
  refine List.mem_filterMap.mpr ⟨_, List.mem_append_right _ (List.mem_singleton_self _), ?_⟩
  have noAck : ackedOf [LogRecord.enqueue name id exchange routingKey headers body] = [] := rfl
  rw [noAck, List.append_nil, LogRecord.restored, if_pos ⟨unacked, rfl⟩]

theorem enqueuedId_msgId {r : LogRecord} (h : r.enqueuedId = some id) : r.msgId = some id := by
  cases r with
  | enqueue => exact h
  | _ => contradiction

theorem mem_loggedIds_of_restored {rs : List LogRecord} (member : id ∈ restoredIds rs name) :
    id ∈ loggedIds rs := by
  obtain ⟨m, restored, rfl⟩ := List.mem_map.mp member
  obtain ⟨r, behind, here⟩ := List.mem_filterMap.mp restored
  exact List.mem_filterMap.mpr
    ⟨r, (List.dropWhile_sublist _).subset behind, enqueuedId_msgId (restored_id here)⟩

theorem mem_loggedIds_of_acked {rs : List LogRecord} (member : id ∈ ackedOf rs) :
    id ∈ loggedIds rs := by
  obtain ⟨r, inside, here⟩ := List.mem_filterMap.mp member
  refine List.mem_filterMap.mpr ⟨r, inside, ?_⟩
  cases r with
  | ack => exact here
  | _ => contradiction

theorem eq_of_filterMap_nodup {α β : Type} {f : α → Option β} {xs : List α}
    (distinct : (xs.filterMap f).Nodup) {x y : α} {b : β} (hx : x ∈ xs) (hy : y ∈ xs)
    (fx : f x = some b) (fy : f y = some b) : x = y := by
  induction xs with
  | nil => contradiction
  | cons z zs ih =>
    cases fz : f z with
    | none =>
      rw [List.filterMap_cons_none fz] at distinct
      rcases List.mem_cons.mp hx with rfl | first
      · rw [fx] at fz
        contradiction
      · rcases List.mem_cons.mp hy with rfl | second
        · rw [fy] at fz
          contradiction
        · exact ih distinct first second
    | some c =>
      rw [List.filterMap_cons_some fz, List.nodup_cons] at distinct
      have inside : ∀ w ∈ zs, f w = some b → b ∈ zs.filterMap f :=
        fun w hw fw => List.mem_filterMap.mpr ⟨w, hw, fw⟩
      rcases List.mem_cons.mp hx with rfl | first
      · rcases List.mem_cons.mp hy with rfl | second
        · rfl
        · obtain rfl := Option.some.inj (fz.symm.trans fx)
          exact absurd (inside y second fy) distinct.1
      · rcases List.mem_cons.mp hy with rfl | second
        · obtain rfl := Option.some.inj (fz.symm.trans fy)
          exact absurd (inside x first fx) distinct.1
        · exact ih distinct.2 first second

theorem restored_queue {acked : List UInt64} {r : LogRecord} {m : Message} {a b : String}
    {m' : Message} (first : r.restored acked a = some m) (second : r.restored acked b = some m') :
    a = b := by
  cases r with
  | enqueue queue msgId exchange routingKey headers body =>
    simp only [LogRecord.restored] at first second
    split at first
    · rename_i left
      split at second
      · rename_i right
        exact left.2.trans right.2.symm
      · contradiction
    · contradiction
  | _ => contradiction

/-- Distinct ids in the log make distinct ids in the recovered queues. -/
theorem liveDistinct_restart (backed : Backed env s)
    (distinct : ((records env s).filterMap LogRecord.enqueuedId).Nodup) (now : Instant)
    (auth : AuthBackend) (cluster : Option ClusterCoordinator) :
    LiveDistinct (restart env now s.wal.dir auth cluster) := by
  constructor
  · intro name
    rw [heldAt_restart backed, Multiset.coe_nodup]
    exact restoredMessages_ids_nodup distinct name
  · intro a b id first second
    rw [heldAt_restart backed, Multiset.mem_coe] at first second
    obtain ⟨m, restored, rfl⟩ := List.mem_map.mp first
    obtain ⟨m', restored', same⟩ := List.mem_map.mp second
    obtain ⟨r, behind, here⟩ := List.mem_filterMap.mp restored
    obtain ⟨r', behind', here'⟩ := List.mem_filterMap.mp restored'
    have equal : r = r' := eq_of_filterMap_nodup distinct
      ((List.dropWhile_sublist _).subset behind) ((List.dropWhile_sublist _).subset behind')
      (restored_id here) (same ▸ restored_id here')
    subst equal
    exact restored_queue here here'

theorem logged_enqueuedIds (identified : e.Identified env l) :
    (e.logged l.broker).filterMap LogRecord.enqueuedId = [] ∨
      (e.allocates = true ∧
        (e.logged l.broker).filterMap LogRecord.enqueuedId = [l.broker.nextMsgId]) := by
  cases e with
  | createQueue queue q logs schema => cases logs <;> cases schema <;> exact .inl rfl
  | createExchange exchange kind durable logs => cases logs <;> exact .inl rfl
  | bind exchange b logs => cases logs <;> exact .inl rfl
  | enqueue queue ctx now =>
    simp only [Effect.logged]
    split
    · exact .inl rfl
    · split
      · exact .inl rfl
      · exact .inr ⟨rfl, rfl⟩
  | replicatePublish queue msgId body =>
    have missing : l.broker.queues.contains queue = false := identified
    simp [Effect.logged, missing]
  | replicateAck queue msgId =>
    have missing : l.broker.queues.contains queue = false := identified
    simp [Effect.logged, missing]
  | settle queue tag =>
    simp only [Effect.logged]
    split
    · exact .inl rfl
    · split <;> exact .inl rfl
  | _ => exact .inl rfl

theorem logged_of_persisted {p : String × Message} (member : p ∈ e.persisted s) :
    ∃ ctx now, e = .enqueue p.1 ctx now ∧
      p.2 = recoveredMessage s.nextMsgId ctx.exchange ctx.routingKey ctx.propBytes ctx.bodyBytes ∧
      e.logged s = [.enqueue p.1 s.nextMsgId ctx.exchange ctx.routingKey ctx.propBytes
        ctx.bodyBytes] := by
  cases e with
  | enqueue queue ctx now =>
    simp only [Effect.persisted] at member
    cases found : s.queues.get? queue with
    | none =>
      rw [found] at member
      contradiction
    | some q =>
      simp only [found] at member
      split at member
      · rename_i both
        obtain rfl := List.mem_singleton.mp member
        refine ⟨ctx, now, rfl, rfl, ?_⟩
        simp only [Bool.and_eq_true] at both
        simp [Effect.logged, found, both]
      · contradiction
  | _ => contradiction

structure Sound (env : Env) (l : Life) : Prop where
  backed : Backed env l.broker
  tagged : Tagged l.broker
  logKnown : ∀ id ∈ loggedIds (records env l.broker), l.Knows id
  heldKnown : ∀ name id, id ∈ heldAt l.broker name → l.Knows id
  live : LiveDistinct l.broker
  distinct : ((records env l.broker).filterMap LogRecord.enqueuedId).Nodup
  owed : ∀ p ∈ l.owed, p.2 ∈ restoredMessages (records env l.broker) p.1

theorem Sound.next_unlogged (h : Sound env l) (fresh : l.Fresh) :
    l.broker.nextMsgId ∉ loggedIds (records env l.broker) :=
  fun logged => not_knows_next fresh (h.logKnown _ logged)

theorem sound_heldKnown (h : Sound env l) (identified : e.Identified env l)
    (goesOn : e.restarts = false) :
    ∀ name id, id ∈ heldAt (l.step env e).broker name → (l.step env e).Knows id := by
  intro name id held
  rcases mem_heldAt_exec h.tagged goesOn held with old | new
  · exact knows_step identified goesOn (h.heldKnown name id old)
  · exact (arrived_unheld identified h.heldKnown new).2

theorem sound_append (h : Sound env l) (identified : Identified env l e)
    (goesOn : e.restarts = false) (appends : e ≠ .compact) : Sound env (l.step env e) := by
  have records' : records env (l.step env e).broker =
      records env l.broker ++ e.logged l.broker := records_exec h.backed identified.1 appends
  refine ⟨(backed_exec h.backed identified.1).1, tagged_exec h.tagged, ?_,
    sound_heldKnown h identified.2 goesOn,
    liveDistinct_exec identified.2 goesOn h.tagged h.heldKnown h.live, ?_, ?_⟩
  · intro id logged
    rw [records', loggedIds, List.filterMap_append, List.mem_append] at logged
    rcases logged with old | new
    · exact knows_step identified.2 goesOn (h.logKnown id old)
    · rcases logged_ids identified.2 new with ⟨allocates, rfl⟩ | ⟨name, held⟩
      · exact knows_given identified.2 allocates
      · exact knows_step identified.2 goesOn (h.heldKnown name id held)
  · rw [records', List.filterMap_append]
    rcases logged_enqueuedIds identified.2 with none | ⟨allocates, one⟩
    · rw [none, List.append_nil]
      exact h.distinct
    · rw [one, List.nodup_append]
      refine ⟨h.distinct, List.nodup_singleton _, ?_⟩
      intro old member new here same
      obtain rfl := List.mem_singleton.mp here
      obtain ⟨r, inside, isOld⟩ := List.mem_filterMap.mp member
      refine h.next_unlogged (fresh_of_identified identified.2 allocates) ?_
      exact List.mem_filterMap.mpr ⟨r, inside, same ▸ enqueuedId_msgId isOld⟩
  · intro p member
    rw [records']
    rcases List.mem_append.mp member with old | new
    · obtain ⟨owed, unacked⟩ := List.mem_filter.mp old
      exact mem_restoredMessages_append (h.owed p owed) (by simpa using unacked)
    · obtain ⟨ctx, now, rfl, message, logged⟩ := logged_of_persisted new
      rw [logged, message]
      refine mem_restoredMessages_new ?_ ?_ _ _ _ _
      · exact identified.2.2 (List.ne_nil_of_mem new)
      · intro acked
        exact h.next_unlogged identified.2.1 (mem_loggedIds_of_acked acked)

theorem sound_compact (h : Sound env l) (identified : Identified env l .compact) :
    Sound env (l.step env .compact) := by
  have backed := (backed_exec h.backed identified.1).1
  have memory : ∀ name, heldAt (l.step env .compact).broker name = heldAt l.broker name :=
    fun _ => rfl
  have knows : ∀ id, l.Knows id → (l.step env .compact).Knows id :=
    fun id known => knows_step identified.2 rfl known
  have owed : (l.step env .compact).owed = l.owed := by
    simp [Life.step, Effect.logged, Effect.persisted, ackedOf]
  have smaller : ∀ {α : Type} (f : LogRecord → Option α),
      ((records env (l.step env .compact).broker).filterMap f).Sublist
        ((records env l.broker).filterMap f) := by
    intro α f
    rcases records_compact h.backed with same | kept
    · change ((records env (exec env l.broker .compact)).filterMap f).Sublist _
      rw [same]
    · change ((records env (exec env l.broker .compact)).filterMap f).Sublist _
      rw [kept]
      exact (List.filter_sublist).filterMap f
  refine ⟨backed, tagged_exec h.tagged, ?_, ?_, ⟨h.live.within, h.live.across⟩, ?_, ?_⟩
  · intro id logged
    exact knows id (h.logKnown id ((smaller LogRecord.msgId).subset logged))
  · intro name id held
    rw [memory] at held
    exact knows id (h.heldKnown name id held)
  · exact h.distinct.sublist (smaller LogRecord.enqueuedId)
  · intro p member
    rw [owed] at member
    change p.2 ∈ restoredMessages (records env (exec env l.broker .compact)) p.1
    rcases records_compact h.backed with same | kept
    · rw [same]
      exact h.owed p member
    · rw [kept, restoredMessages_keptRecords]
      exact h.owed p member

theorem sound_restart (h : Sound env l) (now : Instant) (auth : AuthBackend)
    (cluster : Option ClusterCoordinator) : Sound env (l.step env (.restart now auth cluster)) := by
  have fitting : Fitting l.broker (.restart now auth cluster) := by simp [Fitting, Effect.logged]
  have records' : records env (l.step env (.restart now auth cluster)).broker =
      records env l.broker := by
    have appended := records_exec h.backed fitting (by simp)
    rwa [show Effect.logged l.broker (.restart now auth cluster) = [] from rfl,
      List.append_nil] at appended
  refine ⟨(backed_exec h.backed fitting).1, tagged_exec h.tagged, ?_, ?_,
    liveDistinct_restart h.backed h.distinct now auth cluster, ?_, ?_⟩
  · intro id logged
    rw [records'] at logged
    exact .inl logged
  · intro name id held
    change id ∈ heldAt (restart env now l.broker.wal.dir auth cluster) name at held
    rw [heldAt_restart h.backed, Multiset.mem_coe] at held
    exact .inl (mem_loggedIds_of_restored held)
  · rw [records']
    exact h.distinct
  · intro p member
    rw [records']
    have owed : (l.step env (.restart now auth cluster)).owed = l.owed := by
      simp [Life.step, Effect.logged, Effect.persisted, ackedOf]
    rw [owed] at member
    exact h.owed p member

theorem sound_step (h : Sound env l) (identified : Identified env l e) :
    Sound env (l.step env e) := by
  cases restarts : e.restarts with
  | true =>
    cases e with
    | restart now auth cluster => exact sound_restart h now auth cluster
    | _ => contradiction
  | false =>
    by_cases compacts : e = .compact
    · subst compacts
      exact sound_compact h identified
    · exact sound_append h identified restarts compacts

theorem run_broker (l : Life) (es : List Effect) :
    (Run.run (Life.step env) l es).broker = Run.run (exec env) l.broker es := by
  induction es generalizing l with
  | nil => rfl
  | cons e es ih => exact ih (l.step env e)

end

def firstLife (env : Env) (auth : AuthBackend) (cluster : Option ClusterCoordinator) : Life :=
  ⟨install env auth cluster, [], []⟩

/-- Every step of a run, over all its processes, is identified. -/
structure IdentifiedRun (env : Env) (auth : AuthBackend) (cluster : Option ClusterCoordinator)
    (ops : List Op) : Prop where
  along : Run.Along (Life.step env) (Identified env) (firstLife env auth cluster)
    (history env auth cluster ops)

instance (env : Env) (auth : AuthBackend) (cluster : Option ClusterCoordinator) (ops : List Op) :
    Decidable (IdentifiedRun env auth cluster ops) :=
  decidable_of_iff (Run.Along (Life.step env) (Identified env) (firstLife env auth cluster)
    (history env auth cluster ops)) ⟨.mk, IdentifiedRun.along⟩

/-- The persistent messages that went to a durable queue during a run and were
    acked in none of its processes. -/
def owedAfter (env : Env) (auth : AuthBackend) (cluster : Option ClusterCoordinator)
    (ops : List Op) : List (String × Message) :=
  (Run.run (Life.step env) (firstLife env auth cluster) (history env auth cluster ops)).owed

structure IdsSafe (env : Env) (auth : AuthBackend) (cluster : Option ClusterCoordinator)
    (ops : List Op) : Prop where
  /-- No id is given out that is in the log. -/
  unlogged : ∀ before e after, history env auth cluster ops = before ++ e :: after →
    e.allocates = true →
      let s := Run.run (exec env) (install env auth cluster) before
      s.nextMsgId ∉ loggedIds (records env s)
  /-- No persistent message is lost. -/
  recovered : ∀ now auth' cluster', ∀ p ∈ owedAfter env auth cluster ops, ∃ q,
    (restart env now (reached env auth cluster ops).wal.dir auth' cluster').queues.get? p.1 =
      some q ∧ .full p.2 ∈ q.messages.ready
  live : LiveDistinct (reached env auth cluster ops)

theorem sound_firstLife (env : Env) (auth : AuthBackend) (cluster : Option ClusterCoordinator) :
    Sound env (firstLife env auth cluster) := by
  have start := backed_install env auth cluster
  have empty : records env (firstLife env auth cluster).broker = [] := by
    rw [records, firstLife, start.2]
    rfl
  refine ⟨start.1, ?_, ?_, ?_, ⟨?_, ?_⟩, ?_, ?_⟩
  · intro name q found
    exact absurd found (Option.some_ne_none q).symm
  · intro id logged
    rw [empty] at logged
    contradiction
  · intro name id held
    contradiction
  · intro name
    exact Multiset.nodup_zero
  · intro a b id held
    contradiction
  · rw [empty]
    exact List.nodup_nil
  · intro p member
    contradiction

/-- A run over any number of processes in which none counts up to an id that its
    log had at the start. -/
theorem ids_safe (env : Env) (auth : AuthBackend) (cluster : Option ClusterCoordinator)
    (ops : List Op) (identified : IdentifiedRun env auth cluster ops) :
    IdsSafe env auth cluster ops := by
  have start := sound_firstLife env auth cluster
  have soundAfter : ∀ es, Run.Along (Life.step env) (Identified env) (firstLife env auth cluster)
      es → Sound env (Run.run (Life.step env) (firstLife env auth cluster) es) := by
    intro es along
    exact Run.invariant (fun _ l => Sound env l) start (fun _ _ _ allowed h => sound_step h allowed)
      along
  have final := soundAfter _ identified.along
  have broker : (Run.run (Life.step env) (firstLife env auth cluster)
      (history env auth cluster ops)).broker = reached env auth cluster ops := run_broker _ _
  refine ⟨?_, ?_, ?_⟩
  · intro before e after eq allocates
    have along := identified.along
    rw [eq, Run.along_append] at along
    have sound := soundAfter before along.1
    have fresh := fresh_of_identified along.2.1.2 allocates
    have unlogged := sound.next_unlogged fresh
    rw [run_broker] at unlogged
    exact unlogged
  · intro now auth' cluster' p member
    have restored := final.owed p member
    have backed := final.backed
    rw [broker] at restored backed
    have ready := readyAt_restart backed now auth' cluster' p.1
    split at ready
    · obtain ⟨q, found, messages⟩ := Option.map_eq_some_iff.mp ready
      refine ⟨q, found, ?_⟩
      rw [messages]
      exact List.mem_map_of_mem restored
    · rename_i undeclared
      have none := restoredMessages_declared (Bool.eq_false_iff.mpr undeclared)
      have absent : p.2 ∈ ([] : List Message) := none ▸ restored
      contradiction
  · have live := final.live
    rw [broker] at live
    exact live

/-- The second process stops before it reaches the one id in the log. -/
def spacedRun : List Op :=
  session "q" ++ [publishTo "q" false [1], publishTo "q" false [2], publishTo "q" true [3],
    .restart 0 guestOnly none] ++ session "q" ++ [publishTo "q" true [4]]

theorem ids_safe_spaced :
    (owedAfter (plainEnv 64 1) guestOnly none spacedRun).map (fun p => (p.1, p.2.id, p.2.body)) =
        [("q", 3, [3]), ("q", 1, [4])] ∧
      IdsSafe (plainEnv 64 1) guestOnly none spacedRun := by
  refine ⟨by decide +kernel, ?_⟩
  exact ids_safe (plainEnv 64 1) guestOnly none spacedRun (by decide +kernel)

theorem not_liveDistinct {s : BrokerState} {name : String} {id : UInt64}
    (twice : heldAt s name = {id, id}) : ¬ LiveDistinct s := by
  intro live
  have distinct := live.within name
  rw [twice] at distinct
  simp at distinct

def reusingRun : List Op :=
  session "q" ++ [publishTo "q" true [1], .restart 0 guestOnly none] ++ session "q" ++
    [publishTo "q" true [2]]

/-- After a restart the first id is given out again, next to the recovered
    message that has it. -/
theorem restart_reuses_id :
    heldAt (reached (plainEnv 64 1) guestOnly none reusingRun) "q" = {1, 1} ∧
      ¬ IdsSafe (plainEnv 64 1) guestOnly none reusingRun := by
  have twice : heldAt (reached (plainEnv 64 1) guestOnly none reusingRun) "q" = {1, 1} := by
    decide +kernel
  exact ⟨twice, fun safe => not_liveDistinct twice safe.live⟩

end RocketmqBroker
