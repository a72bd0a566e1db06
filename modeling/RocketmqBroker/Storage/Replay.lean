import RocketmqBroker.State.BrokerState
import RocketmqBroker.Storage.LogRecord

/-!
Recovery (storage/mod.rs): the first pass collects the acked ids, the second
applies the entries one by one. An entry whose payload is refused changes
nothing. What an entry does to the broker is a function of the record it parses
to, so everything about replay can be said over records.
-/
namespace RocketmqBroker

section
variable (env : Env) (now : Instant) (acked : List UInt64)

def replayDeclareQueue (s : BrokerState) (data : Bytes) : Except ReplayError BrokerState := do
  let (name, durable) ← readDeclareQueue data
  if durable then
    let opts := { QueueOptions.default with durable := true }
    let q := { QueueState.withOptions opts now with nameArc := name }
    let s := { s with queues := s.queues.orInsert name q }
    return s.autoBindDefaultExchange name
  else return s

def replaySetQueueSchema (s : BrokerState) (data : Bytes) : Except ReplayError BrokerState := do
  let (schemaId, queue, rawProto, descriptorSetBytes, messageName) ← readSetQueueSchema data
  match reconstructSchema env.proto schemaId rawProto descriptorSetBytes messageName with
  | .ok compiled =>
    return s.modifyQueue queue fun q => { q with
      schema := some compiled
      options := { q.options with
        schema := some rawProto
        schemaType := some "protobuf"
        schemaMessage := some messageName } }
  | .error _ => return s

/-- Recovered messages count as redelivered; priority and expiration are not in
    the log. -/
def recoveredMessage (msgId : UInt64) (exchange routingKey : String) (headers body : Bytes) :
    Message :=
  { Message.newRouted msgId headers body exchange routingKey with redelivered := true }

def replayEnqueue (s : BrokerState) (data : Bytes) : Except ReplayError BrokerState := do
  let (queue, cur) ← readStringU16 data
  let (msgId, cur) ← readU64 cur
  if msgId ∈ acked then return s
  else
    let (exchange, routingKey, headers, body) ← readEnqueueRest cur
    return s.modifyQueue queue fun q => { q with
      messages := q.messages.pushBack
        (.full (recoveredMessage msgId exchange routingKey headers body)) }

def replayDeclareExchange (s : BrokerState) (data : Bytes) : Except ReplayError BrokerState := do
  let (name, kindByte, durable) ← readDeclareExchange data
  if !durable then return s
  else
    match ExchangeType.ofByte kindByte with
    | some kind => return { s with exchanges := s.exchanges.orInsert name (.new name kind true) }
    | none => .error (.invalidExchangeType kindByte)

def replayBind (s : BrokerState) (data : Bytes) : Except ReplayError BrokerState := do
  let (exchange, queue, routingKey) ← readBind data
  return s.modifyExchange exchange fun ex => ex.addBinding ⟨queue, routingKey, none⟩

def replayEntry (s : BrokerState) (e : WalEntry) : BrokerState :=
  let res := match e.entryType with
    | .declareQueue => replayDeclareQueue now s e.data
    | .enqueue => replayEnqueue acked s e.data
    | .ack => .ok s
    | .declareExchange => replayDeclareExchange s e.data
    | .bind => replayBind s e.data
    | .setQueueSchema => replaySetQueueSchema env s e.data
    | .raftEntry | .raftVote => .ok s
  match res with
  | .ok s' => s'
  | .error _ => s

end

def replay (env : Env) (now : Instant) (s : BrokerState) (entries : List WalEntry) : BrokerState :=
  entries.foldl (replayEntry env now (ackedIds entries)) s

def recover (env : Env) (now : Instant) (s : BrokerState) : BrokerState :=
  let entries := s.wal.readAllEntries env.crc32
  if entries.isEmpty then s else replay env now s entries

/-- A new process on what the previous one left on disk. -/
def restart (env : Env) (now : Instant) (dir : Dir) (auth : AuthBackend)
    (cluster : Option ClusterCoordinator) : BrokerState :=
  recover env now (.new (SegmentCoordinator.new dir env.maxSegmentSize) auth cluster)

/-- An environment for concrete runs, which declare no schema. -/
def plainEnv (maxSegmentSize walCompactThreshold : Nat) : Env where
  crc32 := crc32Ieee
  regex _ := none
  proto := ⟨fun _ => none, fun _ => none⟩
  debugFormat _ := ""
  schemaReplyText _ _ := ""
  validateMessage _ _ := none
  checkSchemaConflict _ _ := none
  checkConsumerSubset _ _ := none
  maxSegmentSize
  walCompactThreshold

namespace LogRecord

def ackId : LogRecord → Option UInt64
  | ack msgId => some msgId
  | _ => none

def apply (env : Env) (now : Instant) (acked : List UInt64) (s : BrokerState) :
    LogRecord → BrokerState
  | declareQueue name durable =>
    if durable then
      let opts := { QueueOptions.default with durable := true }
      let q := { QueueState.withOptions opts now with nameArc := name }
      BrokerState.autoBindDefaultExchange { s with queues := s.queues.orInsert name q } name
    else s
  | enqueue queue msgId exchange routingKey headers body =>
    if msgId ∈ acked then s
    else s.modifyQueue queue fun q => { q with
      messages := q.messages.pushBack
        (.full (recoveredMessage msgId exchange routingKey headers body)) }
  | ack _ => s
  | declareExchange name kindByte durable =>
    if durable then
      match ExchangeType.ofByte kindByte with
      | some kind => { s with exchanges := s.exchanges.orInsert name (.new name kind true) }
      | none => s
    else s
  | bind exchange queue routingKey =>
    s.modifyExchange exchange fun ex => ex.addBinding ⟨queue, routingKey, none⟩
  | setQueueSchema schemaId queue rawProto descriptorSetBytes messageName =>
    match reconstructSchema env.proto schemaId rawProto descriptorSetBytes messageName with
    | .ok compiled =>
      s.modifyQueue queue fun q => { q with
        schema := some compiled
        options := { q.options with
          schema := some rawProto
          schemaType := some "protobuf"
          schemaMessage := some messageName } }
    | .error _ => s
  | raft _ _ => s

end LogRecord

def recordsOf (entries : List WalEntry) : List LogRecord := entries.filterMap LogRecord.parse

theorem recordsOf_append (xs ys : List WalEntry) :
    recordsOf (xs ++ ys) = recordsOf xs ++ recordsOf ys := List.filterMap_append ..

theorem mem_recordsOf {entries : List WalEntry} {r : LogRecord} :
    r ∈ recordsOf entries ↔ ∃ e ∈ entries, LogRecord.parse e = some r := List.mem_filterMap

def ackedOf (rs : List LogRecord) : List UInt64 := rs.filterMap LogRecord.ackId

theorem ackedOf_append (rs ts : List LogRecord) : ackedOf (rs ++ ts) = ackedOf rs ++ ackedOf ts :=
  List.filterMap_append ..

def replayRecords (env : Env) (now : Instant) (s : BrokerState) (rs : List LogRecord) :
    BrokerState :=
  rs.foldl (LogRecord.apply env now (ackedOf rs)) s

section
variable {env : Env} {now : Instant} {acked : List UInt64} {s : BrokerState}

/-- The acked check in front of the remaining fields makes no difference: an
    acked enqueue and a refused one both change nothing. -/
theorem replayEnqueue_eq (env : Env) (now : Instant) (data : Bytes) :
    (match replayEnqueue acked s data with | .ok s' => s' | .error _ => s) =
      match (readEnqueue data).toOption with
      | some (queue, msgId, exchange, routingKey, headers, body) =>
        LogRecord.apply env now acked s
          (.enqueue queue msgId exchange routingKey headers body)
      | none => s := by
  unfold replayEnqueue readEnqueue
  cases readStringU16 data with
  | error err => rfl
  | ok first =>
    simp only [Fallible.ok_bind]
    cases readU64 first.2 with
    | error err => rfl
    | ok second =>
      simp only [Fallible.ok_bind]
      cases h : readEnqueueRest second.2 with
      | error err =>
        split
        · rename_i s' eq
          split at eq
          · exact (Except.ok.inj eq).symm
          · contradiction
        · rfl
      | ok rest =>
        by_cases done : second.1 ∈ acked
        · simp [done, LogRecord.apply, Except.toOption, pure, Except.pure]
        · simp [done, LogRecord.apply, Except.toOption, pure, Except.pure]

theorem replayEntry_eq (e : WalEntry) :
    replayEntry env now acked s e =
      match LogRecord.parse e with
      | some r => r.apply env now acked s
      | none => s := by
  obtain ⟨entryType, data⟩ := e
  cases entryType with
  | declareQueue =>
    simp only [replayEntry, LogRecord.parse, replayDeclareQueue]
    cases readDeclareQueue data with
    | error err => rfl
    | ok fields =>
      obtain ⟨name, durable⟩ := fields
      cases durable <;> rfl
  | enqueue =>
    simp only [replayEntry, LogRecord.parse]
    rw [replayEnqueue_eq env now]
    cases readEnqueue data <;> rfl
  | ack =>
    simp only [replayEntry, LogRecord.parse]
    cases ackedId ⟨.ack, data⟩ <;> rfl
  | declareExchange =>
    simp only [replayEntry, LogRecord.parse, replayDeclareExchange]
    cases readDeclareExchange data with
    | error err => rfl
    | ok fields =>
      obtain ⟨name, kindByte, durable⟩ := fields
      cases durable with
      | false => rfl
      | true =>
        simp only [Fallible.ok_bind, LogRecord.apply, Except.toOption, Option.map_some]
        cases ExchangeType.ofByte kindByte <;> rfl
  | bind =>
    simp only [replayEntry, LogRecord.parse, replayBind]
    cases readBind data <;> rfl
  | setQueueSchema =>
    simp only [replayEntry, LogRecord.parse, replaySetQueueSchema]
    cases readSetQueueSchema data with
    | error err => rfl
    | ok fields =>
      simp only [Fallible.ok_bind, LogRecord.apply, Except.toOption, Option.map_some]
      cases reconstructSchema env.proto fields.1 fields.2.2.1 fields.2.2.2.1 fields.2.2.2.2 <;> rfl
  | raftEntry => rfl
  | raftVote => rfl

theorem ackedId_eq_parse (e : WalEntry) :
    ackedId e = (LogRecord.parse e).bind LogRecord.ackId := by
  obtain ⟨entryType, data⟩ := e
  cases entryType with
  | declareQueue =>
    simp only [LogRecord.parse, ackedId]
    cases readDeclareQueue data <;> rfl
  | enqueue =>
    simp only [LogRecord.parse, ackedId]
    cases readEnqueue data <;> rfl
  | ack =>
    simp only [LogRecord.parse]
    cases ackedId ⟨.ack, data⟩ <;> rfl
  | declareExchange =>
    simp only [LogRecord.parse, ackedId]
    cases readDeclareExchange data <;> rfl
  | bind =>
    simp only [LogRecord.parse, ackedId]
    cases readBind data <;> rfl
  | setQueueSchema =>
    simp only [LogRecord.parse, ackedId]
    cases readSetQueueSchema data <;> rfl
  | raftEntry => rfl
  | raftVote => rfl

theorem ackedIds_eq (entries : List WalEntry) :
    ackedIds entries = ackedOf (entries.filterMap LogRecord.parse) := by
  rw [ackedIds, ackedOf, List.filterMap_filterMap]
  exact List.filterMap_congr fun e _ => ackedId_eq_parse e

theorem foldl_replayEntry_eq (entries : List WalEntry) (s : BrokerState) :
    entries.foldl (replayEntry env now acked) s =
      (entries.filterMap LogRecord.parse).foldl (LogRecord.apply env now acked) s := by
  induction entries generalizing s with
  | nil => rfl
  | cons e es ih =>
    rw [List.foldl_cons, replayEntry_eq, ih]
    cases h : LogRecord.parse e with
    | none => rw [List.filterMap_cons_none h]
    | some r => rw [List.filterMap_cons_some h, List.foldl_cons]

theorem replay_eq_replayRecords (entries : List WalEntry) :
    replay env now s entries = replayRecords env now s (entries.filterMap LogRecord.parse) := by
  rw [replay, replayRecords, foldl_replayEntry_eq, ackedIds_eq]

theorem replay_encoded {rs : List LogRecord} (h : ∀ r ∈ rs, r.WellFormed) :
    replay env now s (rs.map LogRecord.encode) = replayRecords env now s rs := by
  rw [replay_eq_replayRecords, LogRecord.filterMap_parse_encode h]

theorem recover_eq_replay (env : Env) (now : Instant) (s : BrokerState) :
    recover env now s = replay env now s (s.wal.readAllEntries env.crc32) := by
  rw [recover]
  split
  · rename_i empty
    rw [List.isEmpty_iff.mp empty]
    rfl
  · rfl

end
end RocketmqBroker
