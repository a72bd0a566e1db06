import RocketmqBroker.Broker.Step
import RocketmqBroker.Storage.Recovered

/-!
The log of a running broker, as the list of its entries. As long as every record
that is appended fits its length fields, the files are those of a log that was
written from an empty directory on, so a step is an append, a compaction or,
for a restart, nothing at all.
-/
namespace RocketmqBroker

section
variable (env : Env) (s : BrokerState)

def entries : List WalEntry := s.wal.readAllEntries env.crc32

def records : List LogRecord := recordsOf (entries env s)

def recordsFound : List LogRecord :=
  recordsOf ((SegmentCoordinator.new s.wal.dir env.maxSegmentSize).readAllEntries env.crc32)

/-- The files hold what was appended since the log was empty. -/
structure Backed : Prop where
  wal : s.wal = walOf env.crc32 env.maxSegmentSize (entries env s)
  fits : ∀ e ∈ entries env s, e.Fits

/-- What a step appends survives its length fields. -/
def Fitting (e : Effect) : Prop := ∀ r ∈ e.logged s, r.WellFormed

instance (e : Effect) : Decidable (Fitting s e) := inferInstanceAs (Decidable (∀ r ∈ _, _))

def Effect.entriesAfter : Effect → List WalEntry
  | .compact =>
    if compactionStops env.walCompactThreshold (entries env s) then entries env s
    else kept (entries env s)
  | e => entries env s ++ (e.logged s).map LogRecord.encode

end

variable {env : Env} {s : BrokerState} {e : Effect}

theorem backed_of_walOf {es : List WalEntry} (wal : s.wal = walOf env.crc32 env.maxSegmentSize es)
    (fits : ∀ e ∈ es, e.Fits) : Backed env s ∧ entries env s = es := by
  have same : entries env s = es := by rw [entries, wal, walOf_readAllEntries fits]
  exact ⟨⟨by rw [same, wal], by rw [same]; exact fits⟩, same⟩

theorem backed_install (env : Env) (auth : AuthBackend) (cluster : Option ClusterCoordinator) :
    Backed env (install env auth cluster) ∧ entries env (install env auth cluster) = [] :=
  backed_of_walOf rfl (by simp)

theorem apply_aside (env : Env) (now : Instant) (acked : List UInt64) (s : BrokerState)
    (r : LogRecord) : (r.apply env now acked s).wal = s.wal ∧
      (r.apply env now acked s).connState = s.connState := by
  cases r with
  | declareQueue name durable => cases durable <;> exact ⟨rfl, rfl⟩
  | enqueue queue msgId exchange routingKey headers body =>
    simp only [LogRecord.apply]
    split <;> exact ⟨rfl, rfl⟩
  | declareExchange name kindByte durable =>
    simp only [LogRecord.apply]
    split
    · split <;> exact ⟨rfl, rfl⟩
    · exact ⟨rfl, rfl⟩
  | setQueueSchema schemaId queue rawProto descriptorSetBytes messageName =>
    simp only [LogRecord.apply]
    split <;> exact ⟨rfl, rfl⟩
  | ack | bind | raft => exact ⟨rfl, rfl⟩

theorem replayRecords_aside (env : Env) (now : Instant) (rs : List LogRecord) (s : BrokerState) :
    (replayRecords env now s rs).wal = s.wal ∧
      (replayRecords env now s rs).connState = s.connState := by
  unfold replayRecords
  generalize ackedOf rs = acked
  induction rs generalizing s with
  | nil => exact ⟨rfl, rfl⟩
  | cons r rs ih =>
    have first := apply_aside env now acked s r
    rw [List.foldl_cons, (ih _).1, (ih _).2]
    exact first

theorem restart_replays (env : Env) (s : BrokerState) (now : Instant) (auth : AuthBackend)
    (cluster : Option ClusterCoordinator) :
    restart env now s.wal.dir auth cluster =
      replayRecords env now
        (.new (SegmentCoordinator.new s.wal.dir env.maxSegmentSize) auth cluster)
        (recordsFound env s) := by
  rw [restart, recover_eq_replay, replay_eq_replayRecords]
  rfl

theorem reopened (backed : Backed env s) :
    SegmentCoordinator.new s.wal.dir env.maxSegmentSize = s.wal := by
  rw [backed.wal, walOf_reopen backed.fits]

theorem recordsFound_eq (backed : Backed env s) : recordsFound env s = records env s := by
  rw [recordsFound, reopened backed]
  rfl

theorem restart_eq (backed : Backed env s) (now : Instant) (auth : AuthBackend)
    (cluster : Option ClusterCoordinator) :
    restart env now s.wal.dir auth cluster =
      replayRecords env now (.new s.wal auth cluster) (records env s) := by
  rw [restart_replays, reopened backed, recordsFound_eq backed]

theorem readyAt_found (env : Env) (s : BrokerState) (now : Instant) (auth : AuthBackend)
    (cluster : Option ClusterCoordinator) (name : String) :
    readyAt ((restart env now s.wal.dir auth cluster).queues.get? name) =
      if (recordsFound env s).any (LogRecord.declares name) then
        some ((restoredMessages (recordsFound env s) name).map .full)
      else none := by
  rw [restart_replays]
  exact readyAt_replayRecords env now rfl (recordsFound env s)

theorem readyAt_restart (backed : Backed env s) (now : Instant) (auth : AuthBackend)
    (cluster : Option ClusterCoordinator) (name : String) :
    readyAt ((restart env now s.wal.dir auth cluster).queues.get? name) =
      if (records env s).any (LogRecord.declares name) then
        some ((restoredMessages (records env s) name).map .full)
      else none := by
  rw [← recordsFound_eq backed]
  exact readyAt_found env s now auth cluster name

theorem restart_wal (backed : Backed env s) (now : Instant) (auth : AuthBackend)
    (cluster : Option ClusterCoordinator) :
    (restart env now s.wal.dir auth cluster).wal = s.wal := by
  rw [restart_eq backed, (replayRecords_aside _ _ _ _).1]
  rfl

theorem fits_kept {es : List WalEntry} (fits : ∀ e ∈ es, e.Fits) : ∀ e ∈ kept es, e.Fits := by
  intro e member
  exact fits e (List.mem_filter.mp member).1

theorem compact_walOf {es : List WalEntry} (fits : ∀ e ∈ es, e.Fits) :
    compact env (walOf env.crc32 env.maxSegmentSize es) =
      walOf env.crc32 env.maxSegmentSize
        (if compactionStops env.walCompactThreshold es then es else kept es) := by
  rw [compact]
  simp only [walOf_readAllEntries fits]
  split
  · rfl
  · rw [walOf_truncate, walOf_logAll, List.nil_append]

theorem exec_wal (backed : Backed env s) (e : Effect) :
    (exec env s e).wal = walOf env.crc32 env.maxSegmentSize (e.entriesAfter env s) := by
  have appended : s.wal.logAll env.crc32 ((e.logged s).map LogRecord.encode) =
      walOf env.crc32 env.maxSegmentSize
        (entries env s ++ (e.logged s).map LogRecord.encode) := by
    rw [← walOf_logAll, ← backed.wal]
  cases e with
  | compact =>
    change compact env s.wal = _
    rw [backed.wal, compact_walOf backed.fits]
    rfl
  | restart now auth cluster =>
    change (restart env now s.wal.dir auth cluster).wal = _
    have nothing : Effect.entriesAfter env s (.restart now auth cluster) = entries env s :=
      List.append_nil _
    rw [restart_wal backed, nothing]
    exact backed.wal
  | _ => exact appended

theorem fits_entriesAfter (backed : Backed env s) (fitting : Fitting s e) :
    ∀ x ∈ e.entriesAfter env s, x.Fits := by
  have appended : ∀ x ∈ entries env s ++ (e.logged s).map LogRecord.encode, x.Fits := by
    intro x member
    rcases List.mem_append.mp member with old | new
    · exact backed.fits x old
    · obtain ⟨r, logged, rfl⟩ := List.mem_map.mp new
      exact (fitting r logged).fits
  cases e with
  | compact =>
    rw [Effect.entriesAfter]
    split
    · exact backed.fits
    · exact fits_kept backed.fits
  | _ => exact appended

theorem backed_exec (backed : Backed env s) (fitting : Fitting s e) :
    Backed env (exec env s e) ∧ entries env (exec env s e) = e.entriesAfter env s :=
  backed_of_walOf (exec_wal backed e) (fits_entriesAfter backed fitting)

/-- The records after every step but a compaction. -/
theorem records_exec (backed : Backed env s) (fitting : Fitting s e) (appends : e ≠ .compact) :
    records env (exec env s e) = records env s ++ e.logged s := by
  have after : e.entriesAfter env s = entries env s ++ (e.logged s).map LogRecord.encode := by
    cases e with
    | compact => exact absurd rfl appends
    | _ => rfl
  rw [records, (backed_exec backed fitting).2, after, recordsOf_append]
  have parsed : recordsOf ((e.logged s).map LogRecord.encode) = e.logged s :=
    LogRecord.filterMap_parse_encode fitting
  rw [parsed]
  rfl

theorem records_compact (backed : Backed env s) :
    records env (exec env s .compact) = records env s ∨
      records env (exec env s .compact) = keptRecords (records env s) := by
  have fitting : Fitting s .compact := by simp [Fitting, Effect.logged]
  rw [records, (backed_exec backed fitting).2, Effect.entriesAfter]
  split
  · exact .inl rfl
  · exact .inr (filterMap_parse_kept (entries env s))

theorem exec_memory (env : Env) (s : BrokerState) (e : Effect) :
    (exec env s e).queues = (e.inMemory env s).queues ∧
    (exec env s e).exchanges = (e.inMemory env s).exchanges ∧
    (exec env s e).nextMsgId = (e.inMemory env s).nextMsgId := by
  cases e <;> exact ⟨rfl, rfl, rfl⟩

theorem createQueue_queues (env : Env) (s : BrokerState) (queue : String) (q : NewQueue)
    (logs : Bool) (schema : Option CompiledSchema) :
    (Effect.inMemory env s (.createQueue queue q logs schema)).queues =
      s.queues.orInsert queue q.state := by
  cases logs <;> rfl

def Effect.restarts : Effect → Bool
  | restart .. => true
  | _ => false

theorem forall_modifyQueue {P : String → QueueState → Prop} {queue : String}
    {f : QueueState → QueueState} (all : ∀ name q, s.queues.get? name = some q → P name q)
    (keeps : ∀ q, s.queues.get? queue = some q → P queue q → P queue (f q)) :
    ∀ name q, (s.modifyQueue queue f).queues.get? name = some q → P name q := by
  intro name q' present
  rw [get?_modifyQueue] at present
  split at present
  · rename_i same
    subst same
    obtain ⟨q, found, rfl⟩ := Option.map_eq_some_iff.mp present
    exact keeps q found (all name q found)
  · exact all name q' present

end RocketmqBroker
