import Mathlib.Data.List.Induction
import Mathlib.Data.List.TakeWhile
import RocketmqBroker.Durability.LogView

/-!
Which queues, exchanges and bindings a crash leaves. Replay brings back what the
log declares; a durable object that was created without a record is lost with
the process.
-/
namespace RocketmqBroker

namespace LogRecord

def declaresExchange (name : String) : LogRecord → Bool
  | declareExchange exchange kindByte durable =>
    durable && exchange == name && (ExchangeType.ofByte kindByte).isSome
  | _ => false

/-- Whether the record binds the queue during replay: by itself, or as the
    declaration of a queue, which is bound to the default exchange. -/
def bindsTo (name queue routingKey : String) : LogRecord → Bool
  | bind exchange queue' routingKey' =>
    exchange == name && queue' == queue && routingKey' == routingKey
  | declareQueue queue' durable =>
    durable && name == "" && queue' == queue && queue' == routingKey
  | _ => false

end LogRecord

def logsQueue (rs : List LogRecord) (name : String) : Bool := rs.any (LogRecord.declares name)

def logsExchange (rs : List LogRecord) (name : String) : Bool :=
  predeclared name || rs.any (LogRecord.declaresExchange name)

def behindExchange (rs : List LogRecord) (name : String) : List LogRecord :=
  if predeclared name then rs else rs.dropWhile fun r => !r.declaresExchange name

def logsBinding (rs : List LogRecord) (name queue routingKey : String) : Bool :=
  (behindExchange rs name).any (LogRecord.bindsTo name queue routingKey)

section
variable {rs : List LogRecord} {name queue routingKey : String} {r : LogRecord}

theorem logsExchange_snoc (rs : List LogRecord) (r : LogRecord) (name : String) :
    logsExchange (rs ++ [r]) name = (logsExchange rs name || r.declaresExchange name) := by
  simp [logsExchange, Bool.or_assoc]

theorem not_bindsTo_of_declares (h : r.declaresExchange name = true) :
    r.bindsTo name queue routingKey = false := by
  cases r <;> first | rfl | exact absurd h (by simp [LogRecord.declaresExchange])

theorem dropWhile_undeclared (h : rs.any (LogRecord.declaresExchange name) = false) :
    (rs.dropWhile fun r => !r.declaresExchange name) = [] := by
  rw [List.dropWhile_eq_nil_iff]
  intro r member
  simpa using List.any_eq_false.mp h r member

theorem logsBinding_undeclared (h : logsExchange rs name = false) :
    logsBinding rs name queue routingKey = false := by
  obtain ⟨first, undeclared⟩ := Bool.or_eq_false_iff.mp h
  simp [logsBinding, behindExchange, first, dropWhile_undeclared undeclared]

theorem logsBinding_snoc (rs : List LogRecord) (r : LogRecord) (name queue routingKey : String) :
    logsBinding (rs ++ [r]) name queue routingKey =
      (logsBinding rs name queue routingKey ||
        (logsExchange rs name && r.bindsTo name queue routingKey)) := by
  unfold logsBinding behindExchange logsExchange
  by_cases first : predeclared name = true
  · simp [first]
  · simp only [first, Bool.false_eq_true, ↓reduceIte, Bool.false_or, List.dropWhile_append]
    by_cases declared : rs.any (LogRecord.declaresExchange name) = true
    · have some_left : (rs.dropWhile fun r => !r.declaresExchange name).isEmpty = false := by
        rw [Bool.eq_false_iff]
        intro empty
        obtain ⟨r, member, declares⟩ := List.any_eq_true.mp declared
        have all := List.dropWhile_eq_nil_iff.mp (List.isEmpty_iff.mp empty) r member
        simp [declares] at all
      simp [some_left, declared]
    · have none_left := dropWhile_undeclared (Bool.eq_false_iff.mpr declared)
      simp only [none_left, List.isEmpty_nil, ↓reduceIte, List.any_nil,
        Bool.eq_false_iff.mpr declared, Bool.false_and, Bool.or_false]
      cases declares : r.declaresExchange name with
      | false => simp [declares]
      | true => simp [declares, not_bindsTo_of_declares declares]

theorem createDefaultExchanges_unbound {ex : Exchange}
    (h : createDefaultExchanges.get? name = some ex) : ex.bindings = [] := by
  simp only [createDefaultExchanges, FinMap.get?_insert, FinMap.get?_empty] at h
  repeat' split at h
  all_goals first | (cases h; rfl) | contradiction

/-- An exchange as the log has it: there exactly if it is declared, with exactly
    the bindings behind its declaration. -/
def AsLogged (rs : List LogRecord) (name : String) : Option Exchange → Prop
  | none => logsExchange rs name = false
  | some ex => logsExchange rs name = true ∧
      ∀ queue routingKey, ex.binds queue routingKey = logsBinding rs name queue routingKey

theorem asLogged_untouched {found : Option Exchange} (h : AsLogged rs name found)
    (noExchange : r.declaresExchange name = false)
    (noBinding : ∀ queue routingKey, r.bindsTo name queue routingKey = false) :
    AsLogged (rs ++ [r]) name found := by
  cases found with
  | none => simpa [AsLogged, logsExchange_snoc, noExchange] using h
  | some ex => simpa [AsLogged, logsExchange_snoc, logsBinding_snoc, noExchange, noBinding] using h

theorem asLogged_bound {found : Option Exchange} (h : AsLogged rs name found) (b : Binding)
    (noExchange : r.declaresExchange name = false)
    (binding : ∀ queue routingKey, r.bindsTo name queue routingKey =
      (b.queueName == queue && b.routingKey == routingKey)) :
    AsLogged (rs ++ [r]) name (found.map (·.addBinding b)) := by
  cases found with
  | none => simpa [AsLogged, logsExchange_snoc, noExchange] using h
  | some ex =>
    obtain ⟨declared, bindings⟩ := h
    refine ⟨by simp [logsExchange_snoc, declared], ?_⟩
    intro queue routingKey
    rw [Exchange.addBinding_binds, bindings, logsBinding_snoc, declared, binding, Bool.true_and]

theorem asLogged_declared {found : Option Exchange} (h : AsLogged rs name found)
    (kind : ExchangeType) (declares : r.declaresExchange name = true) :
    AsLogged (rs ++ [r]) name (some (found.getD (.new name kind true))) := by
  refine ⟨by simp [logsExchange_snoc, declares], ?_⟩
  intro queue routingKey
  rw [logsBinding_snoc, not_bindsTo_of_declares declares, Bool.and_false, Bool.or_false]
  cases found with
  | none => exact (logsBinding_undeclared h).symm
  | some ex => exact h.2 queue routingKey

theorem asLogged_restoreExchange {found : Option Exchange} (h : AsLogged rs name found)
    (r : LogRecord) : AsLogged (rs ++ [r]) name (restoreExchange name found r) := by
  cases r with
  | declareQueue queue durable =>
    simp only [restoreExchange]
    split
    · rename_i both
      refine asLogged_bound h _ rfl ?_
      simp [LogRecord.bindsTo, both]
    · rename_i other
      refine asLogged_untouched h rfl ?_
      intro queue' routingKey
      simp only [LogRecord.bindsTo]
      cases durable <;> simp_all
  | declareExchange exchange kindByte durable =>
    simp only [restoreExchange]
    split
    · rename_i both
      obtain ⟨rfl, rfl⟩ := both
      cases known : ExchangeType.ofByte kindByte with
      | some kind => exact asLogged_declared h kind (by simp [LogRecord.declaresExchange, known])
      | none =>
        exact asLogged_untouched h (by simp [LogRecord.declaresExchange, known]) fun _ _ => rfl
    · rename_i other
      refine asLogged_untouched h ?_ fun _ _ => rfl
      by_cases same : exchange = name
      · have transient : durable = false := by simpa [same] using other
        simp [LogRecord.declaresExchange, transient]
      · simp [LogRecord.declaresExchange, same]
  | bind exchange queue routingKey =>
    simp only [restoreExchange]
    split
    · rename_i same
      refine asLogged_bound h _ rfl ?_
      simp [LogRecord.bindsTo, same]
    · rename_i other
      refine asLogged_untouched h rfl ?_
      intro queue' routingKey'
      simp [LogRecord.bindsTo, Ne.symm other]
  | enqueue | ack | setQueueSchema | raft =>
    exact asLogged_untouched h rfl fun _ _ => rfl

theorem asLogged_restored (rs : List LogRecord) (name : String) :
    AsLogged rs name (rs.foldl (restoreExchange name) (createDefaultExchanges.get? name)) := by
  induction rs using List.reverseRecOn with
  | nil =>
    cases found : createDefaultExchanges.get? name with
    | none => simp [AsLogged, logsExchange, predeclared, FinMap.contains, found]
    | some ex =>
      have first : predeclared name = true := by simp [predeclared, FinMap.contains, found]
      simp [AsLogged, logsExchange, logsBinding, behindExchange, first, Exchange.binds,
        createDefaultExchanges_unbound found]
  | append_singleton rs r ih =>
    rw [List.foldl_append, List.foldl_cons, List.foldl_nil]
    exact asLogged_restoreExchange ih r

/-- What is logged stays logged. -/
theorem logsQueue_append (h : logsQueue rs name = true) (ts : List LogRecord) :
    logsQueue (rs ++ ts) name = true := by
  unfold logsQueue at h ⊢
  rw [List.any_append, h, Bool.true_or]

theorem logsExchange_append (h : logsExchange rs name = true) (ts : List LogRecord) :
    logsExchange (rs ++ ts) name = true := by
  induction ts using List.reverseRecOn with
  | nil => rwa [List.append_nil]
  | append_singleton ts r ih => rw [← List.append_assoc, logsExchange_snoc, ih, Bool.true_or]

theorem logsBinding_append (h : logsBinding rs name queue routingKey = true)
    (ts : List LogRecord) : logsBinding (rs ++ ts) name queue routingKey = true := by
  induction ts using List.reverseRecOn with
  | nil => rwa [List.append_nil]
  | append_singleton ts r ih => rw [← List.append_assoc, logsBinding_snoc, ih, Bool.true_or]

theorem asLogged_unique {ts : List LogRecord} {found : Option Exchange}
    (h : AsLogged rs name found) (h' : AsLogged ts name found) :
    logsExchange rs name = logsExchange ts name ∧ ∀ queue routingKey,
      logsBinding rs name queue routingKey = logsBinding ts name queue routingKey := by
  cases found with
  | none =>
    refine ⟨h.trans h'.symm, ?_⟩
    intro queue routingKey
    rw [logsBinding_undeclared h, logsBinding_undeclared h']
  | some ex =>
    refine ⟨h.1.trans h'.1.symm, ?_⟩
    intro queue routingKey
    rw [← h.2, ← h'.2]

theorem logs_keptRecords (rs : List LogRecord) (name : String) :
    logsExchange (keptRecords rs) name = logsExchange rs name ∧ ∀ queue routingKey,
      logsBinding (keptRecords rs) name queue routingKey =
        logsBinding rs name queue routingKey := by
  -- replay cannot tell the two logs apart
  let fresh := BrokerState.new (.new ∅ 0) ∅ none
  have replayed : ∀ ts, (replayRecords (plainEnv 0 0) 0 fresh ts).exchanges.get? name =
      ts.foldl (restoreExchange name) (createDefaultExchanges.get? name) :=
    fun ts => get?_exchanges_foldl _ _ _ ts fresh name
  have kept := asLogged_restored (keptRecords rs) name
  rw [← replayed, replayRecords_keptRecords, replayed] at kept
  exact asLogged_unique kept (asLogged_restored rs name)

theorem logsQueue_keptRecords (rs : List LogRecord) (name : String) :
    logsQueue (keptRecords rs) name = logsQueue rs name := by
  rw [logsQueue, keptRecords, List.any_filter]
  refine List.any_congr rfl fun r => ?_
  cases r <;> simp [LogRecord.declares, LogRecord.settledBy]

end

def durableQueue (s : BrokerState) (name : String) : Bool :=
  (s.queues.get? name).any fun q => q.options.durable

def durableExchange (s : BrokerState) (name : String) : Bool :=
  (s.exchanges.get? name).any fun ex => ex.durable

def durableBinding (s : BrokerState) (name queue routingKey : String) : Bool :=
  durableQueue s queue &&
    (s.exchanges.get? name).any fun ex => ex.durable && ex.binds queue routingKey

def boundOn (s : BrokerState) (queue : String) : List (String × String) :=
  s.exchanges.keys.flatMap fun name =>
    match s.exchanges.get? name with
    | none => []
    | some ex =>
      if ex.durable then
        (ex.bindings.filter fun b => b.queueName == queue).map fun b => (name, b.routingKey)
      else []

def Effect.LogsDurable (rs : List LogRecord) (s : BrokerState) : Effect → Prop
  | createQueue name q _ _ =>
    s.queues.contains name = false → q.state.options.durable = true →
      logsQueue rs name = true ∧ ∀ p ∈ boundOn s name, logsBinding rs p.1 name p.2 = true
  | createExchange name _ durable _ =>
    s.exchanges.contains name = false → durable = true → logsExchange rs name = true
  | bind name b _ =>
    durableExchange s name = true → durableQueue s b.queueName = true →
      logsBinding rs name b.queueName b.routingKey = true
  | appendBinding name b =>
    durableExchange s name = true → durableQueue s b.queueName = true →
      logsBinding rs name b.queueName b.routingKey = true
  | _ => True

instance (rs : List LogRecord) (s : BrokerState) (e : Effect) : Decidable (e.LogsDurable rs s) := by
  apply Effect.casesOn (motive := fun e => Decidable (e.LogsDurable rs s)) e <;> intros <;>
    dsimp only [Effect.LogsDurable] <;> infer_instance

/-- A step that logs every durable object it creates. -/
def Recording (env : Env) (s : BrokerState) (e : Effect) : Prop :=
  Fitting s e ∧ e.LogsDurable (records env s ++ e.logged s) s

instance (env : Env) (s : BrokerState) (e : Effect) : Decidable (Recording env s e) :=
  inferInstanceAs (Decidable (_ ∧ _))

def binds? (s : BrokerState) (name queue routingKey : String) : Bool :=
  (s.exchanges.get? name).any (·.binds queue routingKey)

structure PresentIn (rs : List LogRecord) (s : BrokerState) : Prop where
  queues : ∀ name, logsQueue rs name = true → s.queues.contains name = true
  exchanges : ∀ name, logsExchange rs name = true → s.exchanges.contains name = true
  bindings : ∀ name queue routingKey, logsBinding rs name queue routingKey = true →
    binds? s name queue routingKey = true

structure RecordedIn (rs : List LogRecord) (s : BrokerState) : Prop where
  queues : ∀ name, durableQueue s name = true → logsQueue rs name = true
  exchanges : ∀ name, durableExchange s name = true → logsExchange rs name = true
  bindings : ∀ name queue routingKey, durableBinding s name queue routingKey = true →
    logsBinding rs name queue routingKey = true

section
variable {env : Env} {s t : BrokerState} {rs : List LogRecord} {name queue routingKey : String}

theorem durableQueue_iff :
    durableQueue s name = true ↔ ∃ q, s.queues.get? name = some q ∧ q.options.durable = true := by
  rw [durableQueue, Option.any_eq_true]

theorem durableExchange_iff :
    durableExchange s name = true ↔ ∃ ex, s.exchanges.get? name = some ex ∧ ex.durable = true := by
  rw [durableExchange, Option.any_eq_true]

theorem durableBinding_iff :
    durableBinding s name queue routingKey = true ↔ durableQueue s queue = true ∧
      ∃ ex, s.exchanges.get? name = some ex ∧ ex.durable = true ∧
        ex.binds queue routingKey = true := by
  rw [durableBinding, Bool.and_eq_true, Option.any_eq_true]
  simp only [Bool.and_eq_true]

theorem mem_boundOn {ex : Exchange} (found : s.exchanges.get? name = some ex)
    (durable : ex.durable = true) (bound : ex.binds queue routingKey = true) :
    (name, routingKey) ∈ boundOn s queue := by
  obtain ⟨b, member, rfl, rfl⟩ := Exchange.binds_iff.mp bound
  rw [boundOn, List.mem_flatMap]
  refine ⟨name, FinMap.mem_keys_iff.mpr ⟨ex, found⟩, ?_⟩
  simp only [found, durable, ↓reduceIte, List.mem_map, List.mem_filter]
  exact ⟨b, ⟨member, by simp⟩, rfl⟩

theorem recordedIn_append (h : RecordedIn rs s) (ts : List LogRecord) :
    RecordedIn (rs ++ ts) s where
  queues name durable := logsQueue_append (h.queues name durable) ts
  exchanges name durable := logsExchange_append (h.exchanges name durable) ts
  bindings name queue routingKey durable :=
    logsBinding_append (h.bindings name queue routingKey durable) ts

theorem recordedIn_keptRecords (h : RecordedIn rs s) : RecordedIn (keptRecords rs) s where
  queues name durable := (logsQueue_keptRecords rs name).trans (h.queues name durable)
  exchanges name durable := (logs_keptRecords rs name).1.trans (h.exchanges name durable)
  bindings name queue routingKey durable :=
    ((logs_keptRecords rs name).2 queue routingKey).trans
      (h.bindings name queue routingKey durable)

theorem recordedIn_queues (h : RecordedIn rs s) (exchanges : t.exchanges = s.exchanges)
    (queues : ∀ name, durableQueue t name = true → durableQueue s name = true) :
    RecordedIn rs t where
  queues name durable := h.queues name (queues name durable)
  exchanges name durable := by
    rw [durableExchange, exchanges] at durable
    exact h.exchanges name durable
  bindings name queue routingKey durable := by
    rw [durableBinding, exchanges, Bool.and_eq_true] at durable
    refine h.bindings name queue routingKey ?_
    rw [durableBinding, Bool.and_eq_true]
    exact ⟨queues queue durable.1, durable.2⟩

theorem durableQueue_modify {f : QueueState → QueueState} (same : ∀ q, (f q).options = q.options)
    (durable : durableQueue (s.modifyQueue queue f) name = true) : durableQueue s name = true := by
  obtain ⟨q', found, yes⟩ := durableQueue_iff.mp durable
  rw [get?_modifyQueue] at found
  split at found
  · obtain ⟨q, present, rfl⟩ := Option.map_eq_some_iff.mp found
    rw [same] at yes
    exact durableQueue_iff.mpr ⟨q, present, yes⟩
  · exact durableQueue_iff.mpr ⟨q', found, yes⟩

theorem recordedIn_modifyQueue (h : RecordedIn rs s) {f : QueueState → QueueState}
    (same : ∀ q, (f q).options = q.options) : RecordedIn rs (s.modifyQueue queue f) :=
  recordedIn_queues h rfl fun _ durable => durableQueue_modify same durable

theorem recordedIn_modifyExchange (h : RecordedIn rs s) {exchange : String}
    {f : Exchange → Exchange} (durable : ∀ ex, (f ex).durable = ex.durable)
    (bindings : ∀ ex queue routingKey, (f ex).binds queue routingKey = true →
      ex.binds queue routingKey = true ∨ (durableExchange s exchange = true →
        durableQueue s queue = true → logsBinding rs exchange queue routingKey = true)) :
    RecordedIn rs (s.modifyExchange exchange f) where
  queues name := h.queues name
  exchanges name durable' := by
    obtain ⟨ex', found, yes⟩ := durableExchange_iff.mp durable'
    rw [get?_modifyExchange] at found
    split at found
    · obtain ⟨ex, present, rfl⟩ := Option.map_eq_some_iff.mp found
      rw [durable] at yes
      exact h.exchanges name (durableExchange_iff.mpr ⟨ex, present, yes⟩)
    · exact h.exchanges name (durableExchange_iff.mpr ⟨ex', found, yes⟩)
  bindings name queue routingKey durable' := by
    obtain ⟨onQueue, ex', found, yes, bound⟩ := durableBinding_iff.mp durable'
    have queueSame : durableQueue s queue = true := onQueue
    rw [get?_modifyExchange] at found
    split at found
    · rename_i same
      subst same
      obtain ⟨ex, present, rfl⟩ := Option.map_eq_some_iff.mp found
      rw [durable] at yes
      rcases bindings ex queue routingKey bound with old | new
      · exact h.bindings _ _ _ (durableBinding_iff.mpr ⟨queueSame, ex, present, yes, old⟩)
      · exact new (durableExchange_iff.mpr ⟨ex, present, yes⟩) queueSame
    · exact h.bindings _ _ _ (durableBinding_iff.mpr ⟨queueSame, ex', found, yes, bound⟩)

theorem recordedIn_createQueue (h : RecordedIn rs s) {new : NewQueue}
    (logged : s.queues.contains queue = false → new.state.options.durable = true →
      logsQueue rs queue = true ∧ ∀ p ∈ boundOn s queue, logsBinding rs p.1 queue p.2 = true) :
    RecordedIn rs { s with queues := s.queues.orInsert queue new.state } := by
  -- a durable queue is an old one or the one created here
  have origin : ∀ name,
      durableQueue { s with queues := s.queues.orInsert queue new.state } name = true →
      durableQueue s name = true ∨ (name = queue ∧ logsQueue rs queue = true ∧
        ∀ p ∈ boundOn s queue, logsBinding rs p.1 queue p.2 = true) := by
    intro name durable
    obtain ⟨q, found, yes⟩ := durableQueue_iff.mp durable
    rw [FinMap.get?_orInsert] at found
    split at found
    · rename_i same
      cases old : s.queues.get? queue with
      | some q' =>
        rw [old] at found
        cases found
        exact .inl (durableQueue_iff.mpr ⟨q', same ▸ old, yes⟩)
      | none =>
        rw [old] at found
        cases found
        exact .inr ⟨same, logged (by simp [FinMap.contains, old]) yes⟩
    · exact .inl (durableQueue_iff.mpr ⟨q, found, yes⟩)
  refine ⟨?_, h.exchanges, ?_⟩
  · intro name durable
    rcases origin name durable with old | ⟨rfl, here, _⟩
    · exact h.queues name old
    · exact here
  · intro name queue' routingKey durable
    obtain ⟨onQueue, ex, found, yes, bound⟩ := durableBinding_iff.mp durable
    rcases origin queue' onQueue with old | ⟨rfl, _, all⟩
    · exact h.bindings _ _ _ (durableBinding_iff.mpr ⟨old, ex, found, yes, bound⟩)
    · exact all _ (mem_boundOn found yes bound)

theorem recordedIn_createExchange (h : RecordedIn rs s) {exchange : String} {kind : ExchangeType}
    {durable : Bool} (logged : s.exchanges.contains exchange = false → durable = true →
      logsExchange rs exchange = true) :
    RecordedIn rs
      { s with exchanges := s.exchanges.orInsert exchange (.new exchange kind durable) } := by
  have origin : ∀ name ex,
      (s.exchanges.orInsert exchange (.new exchange kind durable)).get? name = some ex →
      s.exchanges.get? name = some ex ∨ (s.exchanges.contains exchange = false ∧
        name = exchange ∧ ex = .new exchange kind durable) := by
    intro name ex found
    rw [FinMap.get?_orInsert] at found
    split at found
    · rename_i same
      cases old : s.exchanges.get? exchange with
      | some ex' =>
        rw [old] at found
        cases found
        exact .inl (same ▸ old)
      | none =>
        rw [old] at found
        cases found
        exact .inr ⟨by simp [FinMap.contains, old], same, rfl⟩
    · exact .inl found
  refine ⟨h.queues, ?_, ?_⟩
  · intro name yes
    obtain ⟨ex, found, yes⟩ := durableExchange_iff.mp yes
    rcases origin name ex found with old | ⟨new, rfl, rfl⟩
    · exact h.exchanges name (durableExchange_iff.mpr ⟨ex, old, yes⟩)
    · exact logged new yes
  · intro name queue routingKey yes
    obtain ⟨onQueue, ex, found, yes, bound⟩ := durableBinding_iff.mp yes
    rcases origin name ex found with old | ⟨_, _, rfl⟩
    · exact h.bindings _ _ _ (durableBinding_iff.mpr ⟨onQueue, ex, old, yes, bound⟩)
    · contradiction

theorem recordedIn_removeExchange (h : RecordedIn rs s) (exchange : String) :
    RecordedIn rs { s with exchanges := s.exchanges.erase exchange } := by
  have origin : ∀ name ex, (s.exchanges.erase exchange).get? name = some ex →
      s.exchanges.get? name = some ex := by
    intro name ex found
    rw [FinMap.get?_erase] at found
    split at found
    · contradiction
    · exact found
  refine ⟨h.queues, ?_, ?_⟩
  · intro name yes
    obtain ⟨ex, found, yes⟩ := durableExchange_iff.mp yes
    exact h.exchanges name (durableExchange_iff.mpr ⟨ex, origin name ex found, yes⟩)
  · intro name queue routingKey yes
    obtain ⟨onQueue, ex, found, yes, bound⟩ := durableBinding_iff.mp yes
    exact h.bindings _ _ _
      (durableBinding_iff.mpr ⟨onQueue, ex, origin name ex found, yes, bound⟩)

theorem asLogged_restart (backed : Backed env s) (now : Instant) (auth : AuthBackend)
    (cluster : Option ClusterCoordinator) (name : String) :
    AsLogged (records env s) name
      ((restart env now s.wal.dir auth cluster).exchanges.get? name) := by
  rw [restart_eq backed, replayRecords, get?_exchanges_foldl]
  exact asLogged_restored (records env s) name

theorem contains_restart (backed : Backed env s) (now : Instant) (auth : AuthBackend)
    (cluster : Option ClusterCoordinator) (name : String) :
    (restart env now s.wal.dir auth cluster).queues.contains name =
      logsQueue (records env s) name := by
  have ready := readyAt_restart backed now auth cluster name
  rw [FinMap.contains, logsQueue]
  split at ready
  · rename_i declared
    obtain ⟨q, present, _⟩ := Option.map_eq_some_iff.mp ready
    rw [present, declared, Option.isSome_some]
  · rename_i undeclared
    rw [Option.map_eq_none_iff.mp ready, Bool.eq_false_iff.mpr undeclared, Option.isSome_none]

theorem recordedIn_restart (backed : Backed env s) (now : Instant) (auth : AuthBackend)
    (cluster : Option ClusterCoordinator) :
    RecordedIn (records env s) (restart env now s.wal.dir auth cluster) := by
  refine ⟨?_, ?_, ?_⟩
  · intro name durable
    obtain ⟨q, found, _⟩ := durableQueue_iff.mp durable
    rw [← contains_restart backed now auth cluster name, FinMap.contains, found]
    rfl
  · intro name durable
    obtain ⟨ex, found, _⟩ := durableExchange_iff.mp durable
    have logged := asLogged_restart backed now auth cluster name
    rw [found] at logged
    exact logged.1
  · intro name queue routingKey durable
    obtain ⟨_, ex, found, _, bound⟩ := durableBinding_iff.mp durable
    have logged := asLogged_restart backed now auth cluster name
    rw [found] at logged
    exact (logged.2 queue routingKey).symm.trans bound

theorem recordedIn_autoBind (h : RecordedIn rs s) (logged : logsQueue rs queue = true) :
    RecordedIn rs (s.autoBindDefaultExchange queue) := by
  refine recordedIn_modifyExchange h (fun ex => Exchange.addBinding_durable ex _) ?_
  intro ex queue' routingKey bound
  rw [Exchange.addBinding_binds, Bool.or_eq_true] at bound
  refine bound.imp id fun new _ _ => ?_
  simp only [Bool.and_eq_true, beq_iff_eq] at new
  obtain ⟨rfl, rfl⟩ := new
  obtain ⟨r, member, declares⟩ := List.any_eq_true.mp logged
  have first : predeclared "" = true := by decide
  rw [logsBinding, behindExchange, if_pos first, List.any_eq_true]
  refine ⟨r, member, ?_⟩
  cases r with
  | declareQueue name durable => simpa [LogRecord.declares, LogRecord.bindsTo] using declares
  | _ => exact absurd declares (by simp [LogRecord.declares])

theorem popTo_options (env : Env) (wal : SegmentCoordinator) (fate : Fate) (q : QueueState) :
    (q.popTo env wal fate).options = q.options := by
  unfold QueueState.popTo
  split
  · rfl
  · split <;> rfl

theorem dropOldest_options (q : QueueState) : q.dropOldest.options = q.options := by
  unfold QueueState.dropOldest
  split <;> rfl

theorem putBack_options (q : QueueState) (tag : UInt64) (counted : Bool) :
    (q.putBack tag counted).options = q.options := by
  unfold QueueState.putBack
  split <;> rfl

/-- Every step that goes on with the run, against the log after it. -/
theorem recordedIn_inMemory {e : Effect} (h : RecordedIn rs s) (logged : e.LogsDurable rs s)
    (creates : ∀ name q schema, e = .createQueue name q true schema → logsQueue rs name = true)
    (goesOn : ∀ now auth cluster, e ≠ .restart now auth cluster) :
    RecordedIn rs (e.inMemory env s) := by
  cases e with
  | books change =>
    refine recordedIn_queues h (change.exchanges s) ?_
    intro name durable
    rw [Effect.inMemory, durableQueue, change.queues] at durable
    exact durable
  | tune queue change => exact recordedIn_modifyQueue h change.options
  | tuneAll change =>
    refine recordedIn_queues h rfl ?_
    intro name durable
    obtain ⟨q', found, yes⟩ := durableQueue_iff.mp durable
    rw [Effect.inMemory, FinMap.get?_mapVals] at found
    obtain ⟨q, present, rfl⟩ := Option.map_eq_some_iff.mp found
    rw [change.options] at yes
    exact durableQueue_iff.mpr ⟨q, present, yes⟩
  | createQueue name q logs schema =>
    have created := recordedIn_createQueue h logged
    cases logs with
    | false => exact created
    | true => exact recordedIn_autoBind created (creates name q schema rfl)
  | removeQueue queue =>
    refine recordedIn_queues h rfl ?_
    intro name durable
    obtain ⟨q, found, yes⟩ := durableQueue_iff.mp durable
    rw [Effect.inMemory, FinMap.get?_erase] at found
    split at found
    · contradiction
    · exact durableQueue_iff.mpr ⟨q, found, yes⟩
  | createExchange name kind durable logs => exact recordedIn_createExchange h logged
  | removeExchange name => exact recordedIn_removeExchange h name
  | bind exchange b logs =>
    refine recordedIn_modifyExchange h (fun ex => Exchange.addBinding_durable ex b) ?_
    intro ex queue routingKey bound
    rw [Exchange.addBinding_binds, Bool.or_eq_true] at bound
    refine bound.imp id fun new onExchange onQueue => ?_
    simp only [Bool.and_eq_true, beq_iff_eq] at new
    obtain ⟨rfl, rfl⟩ := new
    exact logged onExchange onQueue
  | appendBinding exchange b =>
    refine recordedIn_modifyExchange h (fun ex => rfl) ?_
    intro ex queue routingKey bound
    obtain ⟨b', member, rfl, rfl⟩ := Exchange.binds_iff.mp bound
    rcases List.mem_append.mp member with old | new
    · exact .inl (Exchange.binds_iff.mpr ⟨b', old, rfl, rfl⟩)
    · rw [List.mem_singleton.mp new]
      exact .inr logged
  | unbind exchange queue routingKey =>
    refine recordedIn_modifyExchange h (fun ex => rfl) ?_
    intro ex queue' routingKey' bound
    exact .inl (Exchange.removeBinding_binds bound)
  | enqueue queue ctx now =>
    exact recordedIn_modifyQueue (s := s.allocMsgId.2) ⟨h.1, h.2, h.3⟩ fun _ => rfl
  | enqueueFull queue exchange routingKey headers body =>
    exact recordedIn_modifyQueue (s := s.allocMsgId.2) ⟨h.1, h.2, h.3⟩ fun _ => rfl
  | pushFull queue m => exact recordedIn_modifyQueue h fun _ => rfl
  | replicatePublish queue msgId body => exact recordedIn_modifyQueue h fun _ => rfl
  | replicateAck queue msgId => exact recordedIn_modifyQueue h fun _ => rfl
  | pop queue fate => exact recordedIn_modifyQueue h (popTo_options env s.wal fate)
  | popOldest queue => exact recordedIn_modifyQueue h dropOldest_options
  | purge queue => exact recordedIn_modifyQueue h fun _ => rfl
  | settle queue tag => exact recordedIn_modifyQueue h fun _ => rfl
  | discard queue tag => exact recordedIn_modifyQueue h fun _ => rfl
  | requeue queue tag counted =>
    exact recordedIn_modifyQueue h fun q => putBack_options q tag counted
  | alloc => exact ⟨h.1, h.2, h.3⟩
  | compact => exact h
  | restart now auth cluster => exact absurd rfl (goesOn now auth cluster)

structure Recorded (env : Env) (s : BrokerState) : Prop where
  backed : Backed env s
  logged : RecordedIn (records env s) s

theorem recordedIn_of_memory (h : RecordedIn rs s) (queues : t.queues = s.queues)
    (exchanges : t.exchanges = s.exchanges) : RecordedIn rs t :=
  recordedIn_queues h exchanges fun name durable => by
    rw [durableQueue, queues] at durable
    exact durable

theorem recorded_exec {e : Effect} (h : Recorded env s) (recording : Recording env s e) :
    Recorded env (exec env s e) := by
  refine ⟨(backed_exec h.backed recording.1).1, ?_⟩
  by_cases compacts : e = .compact
  · subst compacts
    have same : RecordedIn (records env s) (exec env s .compact) :=
      recordedIn_of_memory h.logged rfl rfl
    rcases records_compact h.backed with records | records
    · rw [records]
      exact same
    · rw [records]
      exact recordedIn_keptRecords same
  · rw [records_exec h.backed recording.1 compacts]
    have memory := exec_memory env s e
    refine recordedIn_of_memory ?_ memory.1 memory.2.1
    cases e with
    | restart now auth cluster =>
      exact recordedIn_append (recordedIn_restart h.backed now auth cluster) _
    | createQueue name q logs schema =>
      refine recordedIn_inMemory (recordedIn_append h.logged _) recording.2 ?_ (by intros; simp)
      intro name' q' schema' same
      cases same
      simp [logsQueue, Effect.logged, LogRecord.declares]
    | _ =>
      exact recordedIn_inMemory (recordedIn_append h.logged _) recording.2
        (by intros; contradiction) (by intros; simp)

theorem recorded_install (env : Env) (auth : AuthBackend) (cluster : Option ClusterCoordinator) :
    Recorded env (install env auth cluster) := by
  refine ⟨(backed_install env auth cluster).1, ?_⟩
  rw [records, (backed_install env auth cluster).2]
  refine ⟨?_, ?_, ?_⟩
  · intro name durable
    contradiction
  · intro name durable
    obtain ⟨ex, found, _⟩ := durableExchange_iff.mp durable
    have first : predeclared name = true := by
      rw [predeclared, FinMap.contains]
      exact Option.isSome_iff_exists.mpr ⟨ex, found⟩
    simp [logsExchange, first]
  · intro name queue routingKey durable
    obtain ⟨onQueue, _⟩ := durableBinding_iff.mp durable
    contradiction

theorem presentIn_restart (backed : Backed env s) (now : Instant) (auth : AuthBackend)
    (cluster : Option ClusterCoordinator) :
    PresentIn (records env s) (restart env now s.wal.dir auth cluster) := by
  refine ⟨?_, ?_, ?_⟩
  · intro name logged
    rwa [contains_restart backed]
  · intro name logged
    have found := asLogged_restart backed now auth cluster name
    rw [FinMap.contains]
    cases there : (restart env now s.wal.dir auth cluster).exchanges.get? name with
    | none =>
      rw [there] at found
      exact absurd logged (Bool.eq_false_iff.mp found)
    | some ex => rfl
  · intro name queue routingKey logged
    have found := asLogged_restart backed now auth cluster name
    rw [binds?]
    cases there : (restart env now s.wal.dir auth cluster).exchanges.get? name with
    | none =>
      rw [there] at found
      rw [logsBinding_undeclared found] at logged
      contradiction
    | some ex =>
      rw [there] at found
      exact (found.2 queue routingKey).trans logged

end

/-- Every durable object of the first state is there in the second one. -/
structure Survives (s t : BrokerState) : Prop where
  queues : ∀ name, durableQueue s name = true → t.queues.contains name = true
  exchanges : ∀ name, durableExchange s name = true → t.exchanges.contains name = true
  bindings : ∀ name queue routingKey, durableBinding s name queue routingKey = true →
    binds? t name queue routingKey = true

/-- A crash after a run that logged every durable object it created. -/
theorem durable_objects_survive (env : Env) (auth : AuthBackend)
    (cluster : Option ClusterCoordinator) (ops : List Op)
    (recording : Throughout env auth cluster (Recording env) ops) (now : Instant)
    (auth' : AuthBackend) (cluster' : Option ClusterCoordinator) :
    Survives (reached env auth cluster ops)
      (restart env now (reached env auth cluster ops).wal.dir auth' cluster') := by
  have recorded := recording.invariant (fun _ s => Recorded env s)
    (recorded_install env auth cluster) fun _ _ _ allowed h => recorded_exec h allowed
  have present := presentIn_restart recorded.backed now auth' cluster'
  refine ⟨?_, ?_, ?_⟩
  · intro name durable
    exact present.queues name (recorded.logged.queues name durable)
  · intro name durable
    exact present.exchanges name (recorded.logged.exchanges name durable)
  · intro name queue routingKey durable
    exact present.bindings name queue routingKey
      (recorded.logged.bindings name queue routingKey durable)

/-- A durable exchange bound to a durable queue, next to transient ones that were
    created without a record. -/
def boundRun : List Op :=
  session "q" ++ [.exchangeDeclare 1 ⟨"logs", "topic", false, true, false⟩,
    .queueBind "q" "logs" "a.#" false, .createQueueVhost "tmp" ⟨false, false, false⟩ 0,
    .createBindingEq "logs" "tmp" "b.*"]

theorem durable_objects_survive_bound :
    let s := reached (plainEnv 64 1) guestOnly none boundRun
    let t := restart (plainEnv 64 1) 0 s.wal.dir guestOnly none
    durableBinding s "logs" "q" "a.#" = true ∧ Survives s t := by
  refine ⟨by decide +kernel, ?_⟩
  exact durable_objects_survive (plainEnv 64 1) guestOnly none boundRun (by decide +kernel) 0
    guestOnly none

/-- A quorum queue declared without the durable flag is durable and not logged. -/
theorem quorum_queue_lost :
    let s := reached (plainEnv 64 1) guestOnly none [.connect "127.0.0.1:50000" "guest" "/",
      .channelOpen 1 1, .queueDeclare 1 ⟨"q", false, false, false, false, false,
        [("x-queue-type", .longString (strBytes "quorum"))]⟩ 0]
    let t := restart (plainEnv 64 1) 0 s.wal.dir guestOnly none
    durableQueue s "q" = true ∧ t.queues.contains "q" = false ∧ ¬ Survives s t := by
  intro s t
  have durable : durableQueue s "q" = true := by decide +kernel
  have lost : t.queues.contains "q" = false := by decide +kernel
  refine ⟨durable, lost, ?_⟩
  intro survives
  exact Bool.false_ne_true (lost.symm.trans (survives.queues "q" durable))

end RocketmqBroker
