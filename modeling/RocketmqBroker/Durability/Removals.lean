import RocketmqBroker.Durability.Objects

/-!
What a crash brings back of the topology. The log has no record of a removal, so
a queue, an exchange or a binding that was logged once is there after every
recovery, whatever was deleted in between.
-/
namespace RocketmqBroker

def Effect.RemovesUnlogged (rs : List LogRecord) : Effect → Prop
  | removeQueue name => logsQueue rs name = false
  | removeExchange name => logsExchange rs name = false
  | unbind exchange queue routingKey => logsBinding rs exchange queue routingKey = false
  | _ => True

instance (rs : List LogRecord) (e : Effect) : Decidable (e.RemovesUnlogged rs) := by
  apply Effect.casesOn (motive := fun e => Decidable (e.RemovesUnlogged rs)) e <;> intros <;>
    dsimp only [Effect.RemovesUnlogged] <;> infer_instance

def Retaining (env : Env) (s : BrokerState) (e : Effect) : Prop :=
  Fitting s e ∧ e.RemovesUnlogged (records env s)

instance (env : Env) (s : BrokerState) (e : Effect) : Decidable (Retaining env s e) :=
  inferInstanceAs (Decidable (_ ∧ _))

section
variable {env : Env} {s t : BrokerState} {rs : List LogRecord} {name queue routingKey : String}

theorem binds?_iff :
    binds? s name queue routingKey = true ↔
      ∃ ex, s.exchanges.get? name = some ex ∧ ex.binds queue routingKey = true := by
  rw [binds?, Option.any_eq_true]

theorem contains_iff {κ ν : Type} [DecidableEq κ] {m : FinMap κ ν} {k : κ} :
    m.contains k = true ↔ ∃ v, m.get? k = some v := Option.isSome_iff_exists

theorem presentIn_snoc (h : PresentIn rs s) {r : LogRecord}
    (queues : ∀ name, r.declares name = true → s.queues.contains name = true)
    (exchanges : ∀ name, r.declaresExchange name = true → s.exchanges.contains name = true)
    (bindings : ∀ name queue routingKey, r.bindsTo name queue routingKey = true →
      s.exchanges.contains name = true → binds? s name queue routingKey = true) :
    PresentIn (rs ++ [r]) s := by
  refine ⟨?_, ?_, ?_⟩
  · intro name logged
    rw [logsQueue, List.any_append, Bool.or_eq_true] at logged
    rcases logged with old | new
    · exact h.queues name old
    · exact queues name (by simpa using new)
  · intro name logged
    rw [logsExchange_snoc, Bool.or_eq_true] at logged
    exact logged.elim (h.exchanges name) (exchanges name)
  · intro name queue routingKey logged
    rw [logsBinding_snoc, Bool.or_eq_true, Bool.and_eq_true] at logged
    rcases logged with old | ⟨declared, new⟩
    · exact h.bindings name queue routingKey old
    · exact bindings name queue routingKey new (h.exchanges name declared)

theorem presentIn_queues (h : PresentIn rs s) (exchanges : t.exchanges = s.exchanges)
    (queues : ∀ name, logsQueue rs name = true → s.queues.contains name = true →
      t.queues.contains name = true) : PresentIn rs t where
  queues name logged := queues name logged (h.queues name logged)
  exchanges name logged := by
    rw [exchanges]
    exact h.exchanges name logged
  bindings name queue routingKey logged := by
    rw [binds?, exchanges]
    exact h.bindings name queue routingKey logged

theorem presentIn_modifyQueue (h : PresentIn rs s) (f : QueueState → QueueState) :
    PresentIn rs (s.modifyQueue queue f) := by
  refine presentIn_queues h rfl ?_
  intro name _ there
  rw [FinMap.contains, get?_modifyQueue]
  split
  · rwa [Option.isSome_map]
  · exact there

theorem presentIn_modifyExchange (h : PresentIn rs s) {exchange : String}
    {f : Exchange → Exchange} (keeps : ∀ ex queue routingKey,
      logsBinding rs exchange queue routingKey = true → ex.binds queue routingKey = true →
        (f ex).binds queue routingKey = true) : PresentIn rs (s.modifyExchange exchange f) := by
  refine ⟨h.queues, ?_, ?_⟩
  · intro name logged
    rw [FinMap.contains, get?_modifyExchange]
    split
    · rw [Option.isSome_map]
      exact h.exchanges name logged
    · exact h.exchanges name logged
  · intro name queue routingKey logged
    obtain ⟨ex, found, bound⟩ := binds?_iff.mp (h.bindings name queue routingKey logged)
    rw [binds?, get?_modifyExchange, found]
    split
    · rename_i same
      subst same
      exact keeps ex queue routingKey logged bound
    · exact bound

theorem addBinding_keeps (b : Binding) (ex : Exchange)
    (bound : ex.binds queue routingKey = true) :
    (ex.addBinding b).binds queue routingKey = true := by
  rw [Exchange.addBinding_binds, bound, Bool.true_or]

theorem removeBinding_keeps {ex : Exchange} {queue' routingKey' : String}
    (other : ¬ (queue = queue' ∧ routingKey = routingKey'))
    (bound : ex.binds queue routingKey = true) :
    (ex.removeBinding queue' routingKey').binds queue routingKey = true := by
  obtain ⟨b, member, rfl, rfl⟩ := Exchange.binds_iff.mp bound
  refine Exchange.binds_iff.mpr ⟨b, List.mem_filter.mpr ⟨member, ?_⟩, rfl, rfl⟩
  rcases not_and_or.mp other with differs | differs <;> simp [differs]

theorem presentIn_orInsertExchange (h : PresentIn rs s) (exchange : String) (new : Exchange) :
    PresentIn rs { s with exchanges := s.exchanges.orInsert exchange new } := by
  refine ⟨h.queues, ?_, ?_⟩
  · intro name logged
    exact FinMap.contains_orInsert.mpr (.inl (h.exchanges name logged))
  · intro name queue routingKey logged
    obtain ⟨ex, found, bound⟩ := binds?_iff.mp (h.bindings name queue routingKey logged)
    refine binds?_iff.mpr ⟨ex, ?_, bound⟩
    simp only [FinMap.get?_orInsert]
    split
    · rename_i same
      rw [← same, found, Option.getD_some]
    · exact found

theorem presentIn_removeExchange (h : PresentIn rs s) {exchange : String}
    (unlogged : logsExchange rs exchange = false) :
    PresentIn rs { s with exchanges := s.exchanges.erase exchange } := by
  refine ⟨h.queues, ?_, ?_⟩
  · intro name logged
    refine FinMap.contains_erase.mpr ⟨?_, h.exchanges name logged⟩
    rintro rfl
    rw [unlogged] at logged
    contradiction
  · intro name queue routingKey logged
    obtain ⟨ex, found, bound⟩ := binds?_iff.mp (h.bindings name queue routingKey logged)
    refine binds?_iff.mpr ⟨ex, ?_, bound⟩
    simp only [FinMap.get?_erase]
    split
    · rename_i same
      subst same
      rw [logsBinding_undeclared unlogged] at logged
      contradiction
    · exact found

/-- What a step leaves of the objects that were in the log before it. -/
theorem presentIn_inMemory {e : Effect} (h : PresentIn rs s) (unlogged : e.RemovesUnlogged rs)
    (goesOn : ∀ now auth cluster, e ≠ .restart now auth cluster) :
    PresentIn rs (e.inMemory env s) := by
  cases e with
  | books change =>
    refine presentIn_queues h (change.exchanges s) ?_
    intro name _ there
    rwa [Effect.inMemory, change.queues]
  | tuneAll change =>
    refine presentIn_queues h rfl ?_
    intro name _ there
    rwa [Effect.inMemory, FinMap.contains, FinMap.get?_mapVals, Option.isSome_map]
  | createQueue name q logs schema =>
    have created : PresentIn rs { s with queues := s.queues.orInsert name q.state } := by
      refine presentIn_queues h rfl ?_
      intro other _ there
      exact FinMap.contains_orInsert.mpr (.inl there)
    cases logs with
    | false => exact created
    | true =>
      exact presentIn_modifyExchange created fun ex _ _ _ bound => addBinding_keeps _ ex bound
  | removeQueue queue =>
    refine presentIn_queues h rfl ?_
    intro name logged there
    refine FinMap.contains_erase.mpr ⟨?_, there⟩
    rintro rfl
    rw [unlogged] at logged
    contradiction
  | createExchange name kind durable logs => exact presentIn_orInsertExchange h name _
  | removeExchange name => exact presentIn_removeExchange h unlogged
  | bind exchange b logs =>
    exact presentIn_modifyExchange h fun ex _ _ _ bound => addBinding_keeps b ex bound
  | appendBinding exchange b =>
    refine presentIn_modifyExchange h fun ex queue routingKey _ bound => ?_
    obtain ⟨b', member, same⟩ := Exchange.binds_iff.mp bound
    exact Exchange.binds_iff.mpr ⟨b', List.mem_append_left _ member, same⟩
  | unbind exchange queue routingKey =>
    refine presentIn_modifyExchange h fun ex queue' routingKey' logged bound => ?_
    refine removeBinding_keeps ?_ bound
    rintro ⟨rfl, rfl⟩
    rw [unlogged] at logged
    contradiction
  | enqueue queue ctx now =>
    exact presentIn_modifyQueue (s := s.allocMsgId.2) ⟨h.1, h.2, h.3⟩ _
  | enqueueFull queue exchange routingKey headers body =>
    exact presentIn_modifyQueue (s := s.allocMsgId.2) ⟨h.1, h.2, h.3⟩ _
  | tune | pushFull | replicatePublish | replicateAck | pop | popOldest | purge | settle | discard
  | requeue => exact presentIn_modifyQueue h _
  | alloc => exact ⟨h.1, h.2, h.3⟩
  | compact => exact h
  | restart now auth cluster => exact absurd rfl (goesOn now auth cluster)

theorem presentIn_message (h : PresentIn rs s) {r : LogRecord}
    (message : (∀ name, r.declares name = false) ∧ (∀ name, r.declaresExchange name = false) ∧
      ∀ name queue routingKey, r.bindsTo name queue routingKey = false) :
    PresentIn (rs ++ [r]) s := by
  obtain ⟨noQueue, noExchange, noBinding⟩ := message
  refine presentIn_snoc h ?_ ?_ ?_
  · intro name declares
    rw [noQueue] at declares
    contradiction
  · intro name declares
    rw [noExchange] at declares
    contradiction
  · intro name queue routingKey binds
    rw [noBinding] at binds
    contradiction

theorem presentIn_declaredQueue (h : PresentIn rs s) (there : s.queues.contains queue = true)
    (bound : s.exchanges.contains "" = true → binds? s "" queue queue = true) (durable : Bool) :
    PresentIn (rs ++ [.declareQueue queue durable]) s := by
  refine presentIn_snoc h ?_ ?_ ?_
  · intro name declares
    simp only [LogRecord.declares, Bool.and_eq_true, beq_iff_eq] at declares
    exact declares.2 ▸ there
  · intro name declares
    contradiction
  · intro name queue' routingKey binds onExchange
    simp only [LogRecord.bindsTo, Bool.and_eq_true, beq_iff_eq] at binds
    obtain ⟨⟨⟨_, rfl⟩, rfl⟩, rfl⟩ := binds
    exact bound onExchange

theorem binds?_autoBind (there : s.exchanges.contains "" = true) :
    binds? (s.autoBindDefaultExchange queue) "" queue queue = true := by
  obtain ⟨ex, found⟩ := contains_iff.mp there
  rw [binds?, BrokerState.autoBindDefaultExchange, get?_modifyExchange, if_pos rfl, found]
  simp [Exchange.addBinding_binds]

/-- The objects of the records that a step appends are there after it. -/
theorem presentIn_logged {e : Effect} (h : PresentIn rs (e.inMemory env s)) :
    PresentIn (rs ++ e.logged s) (e.inMemory env s) := by
  have nothing : PresentIn (rs ++ []) (e.inMemory env s) := by rwa [List.append_nil]
  cases e with
  | createQueue queue q logs schema =>
    cases logs with
    | false => exact nothing
    | true =>
      have declared : PresentIn (rs ++ [.declareQueue queue true])
          ((Effect.createQueue queue q true schema).inMemory env s) :=
        presentIn_declaredQueue h ?_ ?_ true
      · cases schema with
        | none => exact declared
        | some c =>
          have both := presentIn_message declared (r := .setQueueSchema c.id queue c.raw
            c.descriptorSetBytes c.messageName) ⟨fun _ => rfl, fun _ => rfl, fun _ _ _ => rfl⟩
          rwa [List.append_assoc] at both
      · simp [Effect.inMemory, BrokerState.autoBindDefaultExchange, BrokerState.modifyExchange,
          FinMap.contains_orInsert]
      · intro there
        refine binds?_autoBind ?_
        rw [Effect.inMemory] at there
        simp only [↓reduceIte, BrokerState.autoBindDefaultExchange, FinMap.contains,
          get?_modifyExchange, Option.isSome_map] at there
        exact there
  | createExchange exchange kind durable logs =>
    cases logs with
    | false => exact nothing
    | true =>
      refine presentIn_snoc h ?_ ?_ ?_
      · intro name declares
        contradiction
      · intro name declares
        simp only [LogRecord.declaresExchange, Bool.and_eq_true, beq_iff_eq] at declares
        simp [Effect.inMemory, FinMap.contains_orInsert, declares.1.2]
      · intro name queue routingKey binds
        contradiction
  | bind exchange b logs =>
    cases logs with
    | false => exact nothing
    | true =>
      refine presentIn_snoc h ?_ ?_ ?_
      · intro name declares
        contradiction
      · intro name declares
        contradiction
      · intro name queue routingKey binds there
        simp only [LogRecord.bindsTo, Bool.and_eq_true, beq_iff_eq] at binds
        obtain ⟨⟨rfl, rfl⟩, rfl⟩ := binds
        rw [Effect.inMemory, FinMap.contains, get?_modifyExchange, if_pos rfl,
          Option.isSome_map] at there
        obtain ⟨ex, found⟩ := Option.isSome_iff_exists.mp there
        rw [Effect.inMemory, binds?, get?_modifyExchange, if_pos rfl, found]
        simp [Exchange.addBinding_binds]
  | enqueue queue ctx now =>
    rw [Effect.logged]
    split
    · exact nothing
    · split
      · exact nothing
      · exact presentIn_message h ⟨fun _ => rfl, fun _ => rfl, fun _ _ _ => rfl⟩
  | replicatePublish queue msgId body =>
    rw [Effect.logged]
    split
    · exact presentIn_message h ⟨fun _ => rfl, fun _ => rfl, fun _ _ _ => rfl⟩
    · exact nothing
  | replicateAck queue msgId =>
    rw [Effect.logged]
    split
    · exact presentIn_message h ⟨fun _ => rfl, fun _ => rfl, fun _ _ _ => rfl⟩
    · exact nothing
  | settle queue tag =>
    rw [Effect.logged]
    split
    · exact nothing
    · split
      · exact presentIn_message h ⟨fun _ => rfl, fun _ => rfl, fun _ _ _ => rfl⟩
      · exact nothing
  | _ => exact nothing

theorem presentIn_keptRecords (h : PresentIn rs s) : PresentIn (keptRecords rs) s where
  queues name logged := h.queues name ((logsQueue_keptRecords rs name).symm.trans logged)
  exchanges name logged := h.exchanges name ((logs_keptRecords rs name).1.symm.trans logged)
  bindings name queue routingKey logged :=
    h.bindings name queue routingKey
      (((logs_keptRecords rs name).2 queue routingKey).symm.trans logged)

structure Present (env : Env) (s : BrokerState) : Prop where
  backed : Backed env s
  there : PresentIn (records env s) s

theorem presentIn_of_memory (h : PresentIn rs s) (queues : t.queues = s.queues)
    (exchanges : t.exchanges = s.exchanges) : PresentIn rs t :=
  presentIn_queues h exchanges fun name _ there => by rwa [queues]

theorem present_exec {e : Effect} (h : Present env s) (retaining : Retaining env s e) :
    Present env (exec env s e) := by
  refine ⟨(backed_exec h.backed retaining.1).1, ?_⟩
  by_cases compacts : e = .compact
  · subst compacts
    have same : PresentIn (records env s) (exec env s .compact) :=
      presentIn_of_memory h.there rfl rfl
    rcases records_compact h.backed with records | records
    · rw [records]
      exact same
    · rw [records]
      exact presentIn_keptRecords same
  · rw [records_exec h.backed retaining.1 compacts]
    have memory := exec_memory env s e
    refine presentIn_of_memory ?_ memory.1 memory.2.1
    refine presentIn_logged ?_
    cases e with
    | restart now auth cluster => exact presentIn_restart h.backed now auth cluster
    | _ => exact presentIn_inMemory h.there retaining.2 (by intros; simp)

theorem present_install (env : Env) (auth : AuthBackend) (cluster : Option ClusterCoordinator) :
    Present env (install env auth cluster) := by
  refine ⟨(backed_install env auth cluster).1, ?_⟩
  rw [records, (backed_install env auth cluster).2]
  refine ⟨?_, ?_, ?_⟩
  · intro name logged
    contradiction
  · intro name logged
    have first : predeclared name = true := by simpa [logsExchange, recordsOf] using logged
    exact first
  · intro name queue routingKey logged
    simp [logsBinding, behindExchange, recordsOf] at logged

end

/-- Every queue, exchange and binding of the second state was in the first one. -/
structure NoGhosts (s t : BrokerState) : Prop where
  queues : ∀ name, t.queues.contains name = true → s.queues.contains name = true
  exchanges : ∀ name, t.exchanges.contains name = true → s.exchanges.contains name = true
  bindings : ∀ name queue routingKey, binds? t name queue routingKey = true →
    binds? s name queue routingKey = true

/-- A crash after a run that removed nothing logged. -/
theorem recovered_topology_existed (env : Env) (auth : AuthBackend)
    (cluster : Option ClusterCoordinator) (ops : List Op)
    (retaining : Throughout env auth cluster (Retaining env) ops) (now : Instant)
    (auth' : AuthBackend) (cluster' : Option ClusterCoordinator) :
    NoGhosts (reached env auth cluster ops)
      (restart env now (reached env auth cluster ops).wal.dir auth' cluster') := by
  have present := retaining.invariant (fun _ s => Present env s)
    (present_install env auth cluster) fun _ _ _ allowed h => present_exec h allowed
  have found := asLogged_restart present.backed now auth' cluster'
  refine ⟨?_, ?_, ?_⟩
  · intro name recovered
    rw [contains_restart present.backed] at recovered
    exact present.there.queues name recovered
  · intro name recovered
    obtain ⟨ex, there⟩ := contains_iff.mp recovered
    have logged := found name
    rw [there] at logged
    exact present.there.exchanges name logged.1
  · intro name queue routingKey recovered
    obtain ⟨ex, there, bound⟩ := binds?_iff.mp recovered
    have logged := found name
    rw [there] at logged
    exact present.there.bindings name queue routingKey
      ((logged.2 queue routingKey).symm.trans bound)

/-- A transient queue, its binding and a transient exchange are removed; a durable
    queue and its binding stay. -/
def trimmedRun : List Op :=
  session "q" ++ [.exchangeDeclare 1 ⟨"logs", "topic", false, true, false⟩,
    .queueBind "q" "logs" "a.#" false, .exchangeDeclare 1 ⟨"tmp", "fanout", false, false, false⟩,
    .queueDeclare 1 ⟨"t", false, false, false, false, false, []⟩ 0, .queueBind "t" "tmp" "" false,
    .queueUnbind "t" "tmp" "", .queueDelete 1 "t" false false false, .exchangeDelete "tmp" false]

theorem recovered_topology_existed_trimmed :
    let s := reached (plainEnv 64 1) guestOnly none trimmedRun
    let t := restart (plainEnv 64 1) 0 s.wal.dir guestOnly none
    binds? t "logs" "q" "a.#" = true ∧ NoGhosts s t := by
  refine ⟨by decide +kernel, ?_⟩
  exact recovered_topology_existed (plainEnv 64 1) guestOnly none trimmedRun (by decide +kernel) 0
    guestOnly none

/-- A deleted queue is back after a crash. -/
theorem deleted_queue_comes_back :
    let s := reached (plainEnv 64 1) guestOnly none
      (session "q" ++ [.queueDelete 1 "q" false false false])
    let t := restart (plainEnv 64 1) 0 s.wal.dir guestOnly none
    s.queues.contains "q" = false ∧ t.queues.contains "q" = true ∧ ¬ NoGhosts s t := by
  intro s t
  have deleted : s.queues.contains "q" = false := by decide +kernel
  have back : t.queues.contains "q" = true := by decide +kernel
  refine ⟨deleted, back, ?_⟩
  intro none_new
  exact Bool.false_ne_true (deleted.symm.trans (none_new.queues "q" back))

end RocketmqBroker
