import RocketmqBroker.Storage.Replay

/-!
What replay restores, name by name. A record touches at most one queue and one
exchange, so the queue found under a name after replay is a fold over the log
that looks at nothing else, and the same holds for exchanges.
-/
namespace RocketmqBroker

def declaredQueue (now : Instant) (name : String) : QueueState :=
  { QueueState.withOptions { QueueOptions.default with durable := true } now with nameArc := name }

section
variable (env : Env) (now : Instant) (acked : List UInt64) (name : String)

def restoreQueue (found : Option QueueState) : LogRecord → Option QueueState
  | .declareQueue queue durable =>
    if durable ∧ name = queue then some (found.getD (declaredQueue now queue)) else found
  | .enqueue queue msgId exchange routingKey headers body =>
    if msgId ∉ acked ∧ name = queue then found.map fun q => { q with
      messages := q.messages.pushBack
        (.full (recoveredMessage msgId exchange routingKey headers body)) }
    else found
  | .setQueueSchema schemaId queue rawProto descriptorSetBytes messageName =>
    match reconstructSchema env.proto schemaId rawProto descriptorSetBytes messageName with
    | .ok compiled =>
      if name = queue then found.map fun q => { q with
        schema := some compiled
        options := { q.options with
          schema := some rawProto
          schemaType := some "protobuf"
          schemaMessage := some messageName } }
      else found
    | .error _ => found
  | _ => found

def restoreExchange (found : Option Exchange) : LogRecord → Option Exchange
  | .declareQueue queue durable =>
    if durable ∧ name = "" then found.map (·.addBinding ⟨queue, queue, none⟩) else found
  | .declareExchange exchange kindByte durable =>
    if durable ∧ name = exchange then
      match ExchangeType.ofByte kindByte with
      | some kind => some (found.getD (.new exchange kind true))
      | none => found
    else found
  | .bind exchange queue routingKey =>
    if name = exchange then found.map (·.addBinding ⟨queue, routingKey, none⟩) else found
  | _ => found

end

section
variable {env : Env} {now : Instant} {acked : List UInt64}

theorem get?_modifyQueue (s : BrokerState) (queue name : String) (f : QueueState → QueueState) :
    (s.modifyQueue queue f).queues.get? name =
      if name = queue then (s.queues.get? name).map f else s.queues.get? name := by
  rw [BrokerState.modifyQueue, FinMap.get?_modify]
  split
  · rename_i same
    rw [same]
  · rfl

theorem get?_modifyQueue_of {s : BrokerState} {queue : String} {q : QueueState}
    (found : s.queues.get? queue = some q) (f : QueueState → QueueState) :
    (s.modifyQueue queue f).queues.get? queue = some (f q) := by
  rw [get?_modifyQueue, if_pos rfl, found]
  rfl

theorem get?_modifyExchange (s : BrokerState) (exchange name : String)
    (f : Exchange → Exchange) :
    (s.modifyExchange exchange f).exchanges.get? name =
      if name = exchange then (s.exchanges.get? name).map f else s.exchanges.get? name := by
  rw [BrokerState.modifyExchange, FinMap.get?_modify]
  split
  · rename_i same
    rw [same]
  · rfl

theorem get?_queues_apply (s : BrokerState) (r : LogRecord) (name : String) :
    (r.apply env now acked s).queues.get? name =
      restoreQueue env now acked name (s.queues.get? name) r := by
  cases r with
  | declareQueue queue durable =>
    cases durable with
    | false => simp [LogRecord.apply, restoreQueue]
    | true =>
      simp only [LogRecord.apply, restoreQueue, ↓reduceIte, true_and,
        BrokerState.autoBindDefaultExchange, BrokerState.modifyExchange, FinMap.get?_orInsert]
      split
      · rename_i same
        rw [same]
        rfl
      · rfl
  | enqueue queue msgId exchange routingKey headers body =>
    simp only [LogRecord.apply, restoreQueue]
    by_cases done : msgId ∈ acked
    · simp [done]
    · simp only [done, ↓reduceIte, not_false_eq_true, true_and, get?_modifyQueue]
  | setQueueSchema schemaId queue rawProto descriptorSetBytes messageName =>
    simp only [LogRecord.apply, restoreQueue]
    cases reconstructSchema env.proto schemaId rawProto descriptorSetBytes messageName with
    | ok compiled => exact get?_modifyQueue _ _ _ _
    | error err => rfl
  | declareExchange exchange kindByte durable =>
    simp only [LogRecord.apply, restoreQueue]
    split
    · split <;> rfl
    · rfl
  | ack | bind | raft => rfl

theorem get?_exchanges_apply (s : BrokerState) (r : LogRecord) (name : String) :
    (r.apply env now acked s).exchanges.get? name =
      restoreExchange name (s.exchanges.get? name) r := by
  cases r with
  | declareQueue queue durable =>
    cases durable with
    | false => simp [LogRecord.apply, restoreExchange]
    | true =>
      simp only [LogRecord.apply, restoreExchange, ↓reduceIte, true_and,
        BrokerState.autoBindDefaultExchange, get?_modifyExchange]
  | enqueue queue msgId exchange routingKey headers body =>
    simp only [LogRecord.apply, restoreExchange]
    split <;> rfl
  | setQueueSchema schemaId queue rawProto descriptorSetBytes messageName =>
    simp only [LogRecord.apply, restoreExchange]
    split <;> rfl
  | declareExchange exchange kindByte durable =>
    cases durable with
    | false => simp [LogRecord.apply, restoreExchange]
    | true =>
      simp only [LogRecord.apply, restoreExchange, ↓reduceIte, true_and]
      cases ExchangeType.ofByte kindByte with
      | none => simp
      | some kind =>
        simp only [FinMap.get?_orInsert]
        split
        · rename_i same
          rw [same]
        · rfl
  | bind exchange queue routingKey =>
    simp only [LogRecord.apply, restoreExchange, get?_modifyExchange]
  | ack | raft => rfl

theorem get?_queues_foldl (env : Env) (now : Instant) (acked : List UInt64)
    (rs : List LogRecord) (s : BrokerState) (name : String) :
    (rs.foldl (LogRecord.apply env now acked) s).queues.get? name =
      rs.foldl (restoreQueue env now acked name) (s.queues.get? name) := by
  induction rs generalizing s with
  | nil => rfl
  | cons r rs ih => rw [List.foldl_cons, List.foldl_cons, ih, get?_queues_apply]

theorem get?_exchanges_foldl (env : Env) (now : Instant) (acked : List UInt64)
    (rs : List LogRecord) (s : BrokerState) (name : String) :
    (rs.foldl (LogRecord.apply env now acked) s).exchanges.get? name =
      rs.foldl (restoreExchange name) (s.exchanges.get? name) := by
  induction rs generalizing s with
  | nil => rfl
  | cons r rs ih => rw [List.foldl_cons, List.foldl_cons, ih, get?_exchanges_apply]

end

theorem restoreExchange_grows (name : String) (ex : Exchange) (r : LogRecord) :
    ∃ ex', restoreExchange name (some ex) r = some ex' ∧
      ∀ queue routingKey, ex.binds queue routingKey = true → ex'.binds queue routingKey = true := by
  have added : ∀ b : Binding, ∀ queue routingKey, ex.binds queue routingKey = true →
      (ex.addBinding b).binds queue routingKey = true := by
    intro b queue routingKey old
    rw [Exchange.addBinding_binds, old, Bool.true_or]
  cases r with
  | declareQueue queue durable =>
    simp only [restoreExchange]
    split
    · exact ⟨_, rfl, added _⟩
    · exact ⟨ex, rfl, fun _ _ old => old⟩
  | declareExchange exchange kindByte durable =>
    simp only [restoreExchange]
    split
    · split
      · exact ⟨ex, rfl, fun _ _ old => old⟩
      · exact ⟨ex, rfl, fun _ _ old => old⟩
    · exact ⟨ex, rfl, fun _ _ old => old⟩
  | bind exchange queue routingKey =>
    simp only [restoreExchange]
    split
    · exact ⟨_, rfl, added _⟩
    · exact ⟨ex, rfl, fun _ _ old => old⟩
  | enqueue | ack | setQueueSchema | raft => exact ⟨ex, rfl, fun _ _ old => old⟩

theorem restoreExchange_foldl_grows (name : String) (rs : List LogRecord) (ex : Exchange) :
    ∃ ex', rs.foldl (restoreExchange name) (some ex) = some ex' ∧
      ∀ queue routingKey, ex.binds queue routingKey = true → ex'.binds queue routingKey = true := by
  induction rs generalizing ex with
  | nil => exact ⟨ex, rfl, fun _ _ old => old⟩
  | cons r rs ih =>
    obtain ⟨ex₁, step, keeps₁⟩ := restoreExchange_grows name ex r
    obtain ⟨ex₂, rest, keeps₂⟩ := ih ex₁
    refine ⟨ex₂, by rw [List.foldl_cons, step, rest], ?_⟩
    exact fun queue routingKey old => keeps₂ _ _ (keeps₁ _ _ old)

theorem restoreExchange_foldl_declared {name : String} {kindByte : UInt8} {kind : ExchangeType}
    (known : ExchangeType.ofByte kindByte = some kind) {rs : List LogRecord}
    (member : .declareExchange name kindByte true ∈ rs) (found : Option Exchange) :
    ∃ ex, rs.foldl (restoreExchange name) found = some ex := by
  obtain ⟨before, after, rfl⟩ := List.append_of_mem member
  rw [List.foldl_append, List.foldl_cons]
  have here : restoreExchange name (before.foldl (restoreExchange name) found)
      (.declareExchange name kindByte true) =
        some ((before.foldl (restoreExchange name) found).getD (.new name kind true)) := by
    simp [restoreExchange, known]
  rw [here]
  obtain ⟨ex, rest, _⟩ := restoreExchange_foldl_grows name after
    ((before.foldl (restoreExchange name) found).getD (.new name kind true))
  exact ⟨ex, rest⟩

/-- A Bind record on an exchange that is there before the log begins. -/
theorem restoreExchange_foldl_bound {name queue routingKey : String} {rs : List LogRecord}
    (member : .bind name queue routingKey ∈ rs) (ex : Exchange) :
    ∃ ex', rs.foldl (restoreExchange name) (some ex) = some ex' ∧
      ex'.binds queue routingKey = true := by
  obtain ⟨before, after, rfl⟩ := List.append_of_mem member
  obtain ⟨ex₁, start, _⟩ := restoreExchange_foldl_grows name before ex
  obtain ⟨ex₂, rest, keeps⟩ := restoreExchange_foldl_grows name after
    (ex₁.addBinding ⟨queue, routingKey, none⟩)
  refine ⟨ex₂, ?_, keeps _ _ ?_⟩
  · rw [List.foldl_append, List.foldl_cons, start]
    simpa [restoreExchange] using rest
  · simp [Exchange.addBinding_binds]

/-- Whether the record creates this queue during replay. -/
def LogRecord.declares (name : String) : LogRecord → Bool
  | .declareQueue queue durable => durable && queue == name
  | _ => false

def LogRecord.enqueuedId : LogRecord → Option UInt64
  | .enqueue _ msgId _ _ _ _ => some msgId
  | _ => none

/-- The message that an enqueue record to this queue puts back, unless acked. -/
def LogRecord.restored (acked : List UInt64) (name : String) : LogRecord → Option Message
  | .enqueue queue msgId exchange routingKey headers body =>
    if msgId ∉ acked ∧ name = queue then
      some (recoveredMessage msgId exchange routingKey headers body)
    else none
  | _ => none

/-- The messages restored to a queue, in log order: what was enqueued before the
    queue was first declared is not among them. -/
def restoredMessages (rs : List LogRecord) (name : String) : List Message :=
  (rs.dropWhile fun r => !r.declares name).filterMap (LogRecord.restored (ackedOf rs) name)

def readyAt (found : Option QueueState) : Option (List QueueMessage) :=
  found.map fun q => q.messages.ready

section
variable {env : Env} {now : Instant} {acked : List UInt64} {name : String}

theorem readyAt_restoreQueue_some {found : Option QueueState} {ready : List QueueMessage}
    (h : readyAt found = some ready) (r : LogRecord) :
    readyAt (restoreQueue env now acked name found r) =
      some (ready ++ (r.restored acked name).toList.map .full) := by
  obtain ⟨q, rfl, rfl⟩ := Option.map_eq_some_iff.mp h
  cases r with
  | declareQueue queue durable =>
    simp only [restoreQueue, Option.getD_some]
    split <;> simp [readyAt, LogRecord.restored]
  | enqueue queue msgId exchange routingKey headers body =>
    simp only [restoreQueue, LogRecord.restored]
    split
    · simp [readyAt, PriorityQueue.ready_pushBack (show
        (QueueMessage.full (recoveredMessage msgId exchange routingKey headers body)).priority = 0
        from rfl)]
    · simp [readyAt]
  | setQueueSchema schemaId queue rawProto descriptorSetBytes messageName =>
    simp only [restoreQueue]
    split
    · split <;> simp [readyAt, LogRecord.restored]
    · simp [readyAt, LogRecord.restored]
  | ack | declareExchange | bind | raft => simp [restoreQueue, readyAt, LogRecord.restored]

theorem restoreQueue_none (r : LogRecord) :
    restoreQueue env now acked name none r =
      if r.declares name then some (declaredQueue now name) else none := by
  cases r with
  | declareQueue queue durable =>
    cases durable with
    | false => simp [restoreQueue, LogRecord.declares]
    | true =>
      simp only [restoreQueue, LogRecord.declares, Bool.true_and, true_and, beq_iff_eq,
        Option.getD_none]
      by_cases same : name = queue
      · simp [same]
      · simp [same, Ne.symm same]
  | enqueue => simp [restoreQueue, LogRecord.declares]
  | setQueueSchema =>
    simp only [restoreQueue, LogRecord.declares]
    split <;> simp
  | ack | declareExchange | bind | raft => simp [restoreQueue, LogRecord.declares]

/-- Once the queue is there, every enqueue to it that is not acked is added. -/
theorem readyAt_foldl_some (rs : List LogRecord) {found : Option QueueState}
    {ready : List QueueMessage} (h : readyAt found = some ready) :
    readyAt (rs.foldl (restoreQueue env now acked name) found) =
      some (ready ++ (rs.filterMap (LogRecord.restored acked name)).map .full) := by
  induction rs generalizing found ready with
  | nil => simpa using h
  | cons r rs ih =>
    rw [List.foldl_cons, ih (readyAt_restoreQueue_some h r), List.append_assoc,
      ← List.map_append]
    cases restored : r.restored acked name with
    | none => rw [List.filterMap_cons_none restored]; rfl
    | some m => rw [List.filterMap_cons_some restored]; rfl

/-- Before its first durable declaration nothing is kept for a queue. -/
theorem readyAt_foldl_none (rs : List LogRecord) :
    readyAt (rs.foldl (restoreQueue env now acked name) none) =
      if rs.any (LogRecord.declares name) then
        some (((rs.dropWhile fun r => !r.declares name).filterMap
          (LogRecord.restored acked name)).map .full)
      else none := by
  induction rs with
  | nil => rfl
  | cons r rs ih =>
    rw [List.foldl_cons, restoreQueue_none]
    cases declares : r.declares name with
    | false => simpa [declares] using ih
    | true =>
      have empty : readyAt (some (declaredQueue now name)) = some [] := rfl
      have nothing : r.restored acked name = none := by
        cases r <;> simp_all [LogRecord.declares, LogRecord.restored]
      simp only [↓reduceIte, readyAt_foldl_some rs empty, List.any_cons, declares, Bool.true_or,
        List.dropWhile_cons, Bool.not_true, Bool.false_eq_true,
        List.filterMap_cons_none nothing, List.nil_append]

theorem readyAt_replayRecords (env : Env) (now : Instant) {s : BrokerState}
    (fresh : s.queues.get? name = none) (rs : List LogRecord) :
    readyAt ((replayRecords env now s rs).queues.get? name) =
      if rs.any (LogRecord.declares name) then
        some ((restoredMessages rs name).map .full)
      else none := by
  rw [replayRecords, get?_queues_foldl, fresh, readyAt_foldl_none, restoredMessages]

end

theorem restored_id {acked : List UInt64} {name : String} {r : LogRecord} {m : Message}
    (h : r.restored acked name = some m) : r.enqueuedId = some m.id := by
  cases r with
  | enqueue queue msgId exchange routingKey headers body =>
    simp only [LogRecord.restored] at h
    split at h
    · cases h
      rfl
    · contradiction
  | _ => contradiction

theorem restored_ids_sublist (acked : List UInt64) (name : String) (rs : List LogRecord) :
    ((rs.filterMap (LogRecord.restored acked name)).map Message.id).Sublist
      (rs.filterMap LogRecord.enqueuedId) := by
  induction rs with
  | nil => exact List.Sublist.slnil
  | cons r rs ih =>
    cases restored : r.restored acked name with
    | none =>
      rw [List.filterMap_cons_none restored]
      refine ih.trans ?_
      exact (List.sublist_cons_self r rs).filterMap _
    | some m =>
      rw [List.filterMap_cons_some restored, List.filterMap_cons_some (restored_id restored)]
      exact ih.cons_cons m.id

theorem restoredMessages_ids_nodup {rs : List LogRecord}
    (distinct : (rs.filterMap LogRecord.enqueuedId).Nodup) (name : String) :
    ((restoredMessages rs name).map Message.id).Nodup := by
  refine distinct.sublist ((restored_ids_sublist _ _ _).trans ?_)
  exact (List.dropWhile_sublist _).filterMap _

/-- A log of well-formed entries with distinct enqueue ids, replayed on a fresh
    broker: a queue is there exactly when a durable declaration of it is, and it
    holds the messages enqueued after that one and acked nowhere, each once and
    in log order, as they were logged and marked as redelivered. -/
theorem replay_restores_exactly (env : Env) (now : Instant) (wal : SegmentCoordinator)
    (auth : AuthBackend) (cluster : Option ClusterCoordinator) (rs : List LogRecord)
    (wellFormed : ∀ r ∈ rs, r.WellFormed)
    (distinct : (rs.filterMap LogRecord.enqueuedId).Nodup) (name : String) :
    let queues := (replay env now (.new wal auth cluster) (rs.map LogRecord.encode)).queues
    (queues.contains name ↔ LogRecord.declareQueue name true ∈ rs) ∧
      ∀ q, queues.get? name = some q →
        q.messages.ready = (restoredMessages rs name).map .full ∧
        (q.messages.ready.map QueueMessage.id).Nodup := by
  intro queues
  have found : readyAt (queues.get? name) =
      if rs.any (LogRecord.declares name) then some ((restoredMessages rs name).map .full)
      else none := by
    simp only [queues, replay_encoded wellFormed]
    exact readyAt_replayRecords env now rfl rs
  have declared : rs.any (LogRecord.declares name) = true ↔
      LogRecord.declareQueue name true ∈ rs := by
    rw [List.any_eq_true]
    constructor
    · rintro ⟨r, member, declares⟩
      cases r with
      | declareQueue queue durable =>
        simp only [LogRecord.declares, Bool.and_eq_true, beq_iff_eq] at declares
        obtain ⟨rfl, rfl⟩ := declares
        exact member
      | _ => contradiction
    · intro member
      exact ⟨_, member, by simp [LogRecord.declares]⟩
  refine ⟨?_, ?_⟩
  · rw [← declared, FinMap.contains]
    split at found
    · rename_i yes
      obtain ⟨q, present, _⟩ := Option.map_eq_some_iff.mp found
      simp [present, yes]
    · rename_i no
      simp [Option.map_eq_none_iff.mp found, no]
  · intro q present
    rw [present] at found
    split at found
    · have ready : q.messages.ready = (restoredMessages rs name).map .full :=
        Option.some.inj found
      refine ⟨ready, ?_⟩
      rw [ready, List.map_map]
      exact restoredMessages_ids_nodup distinct name
    · contradiction

theorem replay_restores_exactly_mixed :
    let rs := [.enqueue "q" 1 "" "q" [] [1], .ack 2, .declareQueue "q" true,
      .enqueue "q" 2 "" "q" [] [2], .enqueue "q" 3 "amq.topic" "a.b" [5] [3],
      .declareQueue "q" true, .enqueue "q" 4 "" "q" [] [4], .enqueue "q" 5 "" "q" [] [5], .ack 4]
    let queues := (replay (plainEnv 64 1) 0 (.new (.new ∅ 64) ∅ none)
      (rs.map LogRecord.encode)).queues
    ∃ q, queues.get? "q" = some q ∧ q.messages.ready =
      [.full (recoveredMessage 3 "amq.topic" "a.b" [5] [3]),
        .full (recoveredMessage 5 "" "q" [] [5])] := by
  intro rs queues
  have exact := replay_restores_exactly (plainEnv 64 1) 0 (.new ∅ 64) ∅ none rs (by decide)
    (by decide) "q"
  obtain ⟨q, present⟩ := Option.isSome_iff_exists.mp (exact.1.mpr (by decide))
  refine ⟨q, present, ?_⟩
  rw [(exact.2 q present).1]
  decide

end RocketmqBroker
