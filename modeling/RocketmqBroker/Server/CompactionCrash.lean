import RocketmqBroker.Server.Compaction
import RocketmqBroker.Storage.Recovered

/-!
A crash in the middle of compaction. Between the first deletion and the last
append the log is only partly on disk, so what a restart finds there is what it
found before compaction only when the log restores nothing at all.
-/
namespace RocketmqBroker
open RecordScan

/-- What may be on disk when the broker dies during one run of compaction: all
    files, all but those already deleted (in the order of the directory, which
    is any), or the first few of the entries that are appended again. -/
inductive CrashPoint (env : Env) (w : SegmentCoordinator) : Dir → Prop where
  | before : CrashPoint env w w.dir
  | deleting (names : List String)
      (runs : compactionStops env.walCompactThreshold (w.readAllEntries env.crc32) = false) :
      CrashPoint env w (w.dir.removeFiles names)
  | appending (n : Nat)
      (runs : compactionStops env.walCompactThreshold (w.readAllEntries env.crc32) = false) :
      CrashPoint env w
        (w.truncate.logAll env.crc32 ((kept (w.readAllEntries env.crc32)).take n)).dir

/-- Two brokers that differ in nothing but the log they write to. -/
def SameBroker (s t : BrokerState) : Prop := { s with wal := t.wal } = t

/-- A record that a broker without queues and with only the predeclared
    exchanges does not notice. -/
def LogRecord.inert : LogRecord → Bool
  | .declareQueue _ durable => !durable
  | .declareExchange name kindByte durable =>
    !(durable && (ExchangeType.ofByte kindByte).isSome && !predeclared name)
  | .bind exchange _ _ => !predeclared exchange
  | _ => true

def WalEntry.inert (e : WalEntry) : Bool :=
  match LogRecord.parse e with
  | some r => r.inert
  | none => true

section
variable {env : Env} {now : Instant} {acked : List UInt64}

theorem apply_inert {r : LogRecord} (h : r.inert = true) {s : BrokerState}
    (noQueues : s.queues = ∅) (defaults : s.exchanges = createDefaultExchanges) :
    r.apply env now acked s = s := by
  have missing : ∀ name, s.queues.get? name = none := by
    intro name
    rw [noQueues]
    rfl
  cases r with
  | declareQueue queue durable =>
    simp only [LogRecord.inert, Bool.not_eq_true'] at h
    simp [LogRecord.apply, h]
  | enqueue queue msgId exchange routingKey headers body =>
    simp only [LogRecord.apply, BrokerState.modifyQueue, FinMap.modify_missing (missing _)]
    split <;> rfl
  | declareExchange name kindByte durable =>
    simp only [LogRecord.inert, Bool.not_eq_true', Bool.and_eq_false_iff, Bool.not_eq_false']
      at h
    simp only [LogRecord.apply]
    split
    · rename_i durableTrue
      split
      · rename_i kind known
        have old : predeclared name = true := by
          rcases h with (notDurable | unknown) | old
          · rw [notDurable] at durableTrue
            contradiction
          · rw [known] at unknown
            contradiction
          · exact old
        rw [FinMap.orInsert_present (by rw [defaults]; exact old)]
      · rfl
    · rfl
  | bind exchange queue routingKey =>
    simp only [LogRecord.inert, Bool.not_eq_true'] at h
    have absent : s.exchanges.get? exchange = none := by
      rw [defaults]
      exact Option.not_isSome_iff_eq_none.mp (by rw [predeclared, FinMap.contains] at h; simp [h])
    simp only [LogRecord.apply, BrokerState.modifyExchange, FinMap.modify_missing absent]
  | setQueueSchema schemaId queue rawProto descriptorSetBytes messageName =>
    simp only [LogRecord.apply, BrokerState.modifyQueue, FinMap.modify_missing (missing _)]
    split <;> rfl
  | ack => rfl
  | raft => rfl

theorem foldl_apply_inert {rs : List LogRecord} (h : ∀ r ∈ rs, r.inert = true) {s : BrokerState}
    (noQueues : s.queues = ∅) (defaults : s.exchanges = createDefaultExchanges) :
    rs.foldl (LogRecord.apply env now acked) s = s := by
  induction rs with
  | nil => rfl
  | cons r rs ih =>
    rw [List.foldl_cons, apply_inert (h r (by simp)) noQueues defaults]
    exact ih fun r' hr => h r' (by simp [hr])

theorem parsed_inert {entries : List WalEntry} :
    (∀ e ∈ entries, e.inert = true) ↔ ∀ r ∈ entries.filterMap LogRecord.parse, r.inert = true := by
  simp only [List.mem_filterMap, WalEntry.inert]
  constructor
  · rintro h r ⟨e, member, parsed⟩
    have := h e member
    rwa [parsed] at this
  · intro h e member
    split
    · rename_i r parsed
      exact h r ⟨e, member, parsed⟩
    · rfl

/-- A log that is not inert restores something. -/
theorem inert_of_replayRecords {rs : List LogRecord} {s : BrokerState} (noQueues : s.queues = ∅)
    (defaults : s.exchanges = createDefaultExchanges)
    (sameQueues : (replayRecords env now s rs).queues = ∅)
    (sameExchanges : (replayRecords env now s rs).exchanges = createDefaultExchanges) :
    ∀ r ∈ rs, r.inert = true := by
  intro r member
  cases r with
  | declareQueue queue durable =>
    cases durable with
    | false => rfl
    | true =>
      have declared : rs.any (LogRecord.declares queue) = true :=
        List.any_eq_true.mpr ⟨_, member, by simp [LogRecord.declares]⟩
      have fresh : s.queues.get? queue = none := by rw [noQueues]; rfl
      have ready := readyAt_replayRecords env now fresh rs
      rw [declared, sameQueues] at ready
      contradiction
  | declareExchange name kindByte durable =>
    by_contra lively
    rw [Bool.not_eq_true] at lively
    simp only [LogRecord.inert, Bool.not_eq_eq_eq_not, Bool.not_false, Bool.and_eq_true] at lively
    obtain ⟨⟨rfl, known⟩, new⟩ := lively
    obtain ⟨kind, known⟩ := Option.isSome_iff_exists.mp known
    obtain ⟨ex, there⟩ := restoreExchange_foldl_declared known member (s.exchanges.get? name)
    rw [← get?_exchanges_foldl env now (ackedOf rs)] at there
    change (replayRecords env now s rs).exchanges.get? name = some ex at there
    rw [sameExchanges] at there
    simp [predeclared, FinMap.contains, there] at new
  | bind exchange queue routingKey =>
    by_contra lively
    rw [Bool.not_eq_true] at lively
    simp only [LogRecord.inert, Bool.not_eq_eq_eq_not, Bool.not_false] at lively
    obtain ⟨ex, old⟩ := Option.isSome_iff_exists.mp lively
    rw [← defaults] at old
    obtain ⟨ex', there, bound⟩ := restoreExchange_foldl_bound member ex
    rw [← old, ← get?_exchanges_foldl env now (ackedOf rs)] at there
    change (replayRecords env now s rs).exchanges.get? exchange = some ex' at there
    rw [sameExchanges] at there
    have unbound : ∀ e ∈ createDefaultExchanges.entries, e.2.bindings = [] := by decide
    have empty := unbound _ (FinMap.get?_eq_some_iff_mem.mp there)
    simp only at empty
    simp [Exchange.binds, empty] at bound
  | _ => rfl

end

theorem mem_readAllEntries {crc32 : Bytes → UInt32} {w : SegmentCoordinator} {e : WalEntry} :
    e ∈ w.readAllEntries crc32 ↔
      ∃ id bytes, w.dir.get? (segmentPath id) = some bytes ∧ e ∈ readEntries crc32 bytes := by
  simp only [SegmentCoordinator.readAllEntries, List.mem_flatMap]
  constructor
  · rintro ⟨id, _, inside⟩
    cases found : w.dir.get? (segmentPath id) with
    | none =>
      rw [found, Option.getD_none] at inside
      contradiction
    | some bytes =>
      rw [found, Option.getD_some] at inside
      exact ⟨id, bytes, found, inside⟩
  · rintro ⟨id, bytes, found, inside⟩
    refine ⟨id, ?_, by rw [found]; exact inside⟩
    rw [discoverSegmentIds, List.mem_insertionSort, List.mem_filterMap]
    exact ⟨segmentPath id, FinMap.mem_keys_iff.mpr ⟨bytes, found⟩, segmentIdOf_segmentPath id⟩

theorem mem_readAllEntries_new {crc32 : Bytes → UInt32} {dir : Dir} {max : Nat} {e : WalEntry}
    (h : e ∈ (SegmentCoordinator.new dir max).readAllEntries crc32) :
    ∃ id bytes, dir.get? (segmentPath id) = some bytes ∧ e ∈ readEntries crc32 bytes := by
  obtain ⟨id, bytes, found, inside⟩ := mem_readAllEntries.mp h
  simp only [SegmentCoordinator.new, Dir.touch, FinMap.get?_orInsert] at found
  split at found
  · rename_i same
    cases old : dir.get? (segmentPath ((discoverSegmentIds dir).getLast?.getD 1)) with
    | none =>
      rw [old, Option.getD_none] at found
      rw [← Option.some.inj found] at inside
      contradiction
    | some there =>
      rw [old, Option.getD_some] at found
      exact ⟨id, bytes, by rw [same, old, found], inside⟩
  · exact ⟨id, bytes, found, inside⟩

theorem mem_readAllEntries_opened {crc32 : Bytes → UInt32} {w : SegmentCoordinator} {max : Nat}
    {e : WalEntry} (h : e ∈ w.readAllEntries crc32) :
    e ∈ (SegmentCoordinator.new w.dir max).readAllEntries crc32 := by
  obtain ⟨id, bytes, found, inside⟩ := mem_readAllEntries.mp h
  refine mem_readAllEntries.mpr ⟨id, bytes, ?_, inside⟩
  simp only [SegmentCoordinator.new, Dir.touch, FinMap.get?_orInsert]
  split
  · rename_i same
    rw [← same, found, Option.getD_some]
  · exact found

def FilledWith (crc32 : Bytes → UInt32) (p : WalEntry → Prop) (dir : Dir) : Prop :=
  ∀ name bytes, dir.get? name = some bytes → ∃ es, bytes = segmentBytes crc32 es ∧
    ∀ e ∈ es, (recordCodec crc32).Valid e ∧ p e

section
variable {crc32 : Bytes → UInt32} {p : WalEntry → Prop}

theorem filledWith_touch {dir : Dir} (h : FilledWith crc32 p dir) (name : String) :
    FilledWith crc32 p (dir.touch name) := by
  intro other bytes found
  rw [Dir.touch, FinMap.get?_orInsert] at found
  split at found
  · cases old : dir.get? name with
    | none =>
      rw [old] at found
      exact ⟨[], (Option.some.inj found).symm, by simp⟩
    | some there => exact h name bytes (by rw [old]; rw [old] at found; exact found)
  · exact h other bytes found

theorem filledWith_log {w : SegmentCoordinator} (h : FilledWith crc32 p w.dir) {e : WalEntry}
    (valid : (recordCodec crc32).Valid e) (good : p e) :
    FilledWith crc32 p (w.log crc32 e).dir := by
  have written : ∀ dir : Dir, FilledWith crc32 p dir → ∀ name,
      FilledWith crc32 p (dir.appendTo name (recordBytes crc32 e)) := by
    intro dir filled name other bytes found
    rw [appendTo_lookup] at found
    split at found
    · have start : ∃ es, (dir.get? name).getD [] = segmentBytes crc32 es ∧
          ∀ e ∈ es, (recordCodec crc32).Valid e ∧ p e := by
        cases old : dir.get? name with
        | none => exact ⟨[], rfl, by simp⟩
        | some there => exact filled name there old
      obtain ⟨es, same, each⟩ := start
      refine ⟨es ++ [e], ?_, ?_⟩
      · rw [segmentBytes_snoc, ← same]
        exact (Option.some.inj found).symm
      · intro x member
        rcases List.mem_append.mp member with old | new
        · exact each x old
        · rw [List.mem_singleton.mp new]
          exact ⟨valid, good⟩
    · exact filled other bytes found
  simp only [SegmentCoordinator.log, SegmentCoordinator.append]
  split
  · exact written _ (filledWith_touch h _) _
  · exact written _ h _

theorem filledWith_logAll {w : SegmentCoordinator} (h : FilledWith crc32 p w.dir)
    {es : List WalEntry} (each : ∀ e ∈ es, (recordCodec crc32).Valid e ∧ p e) :
    FilledWith crc32 p (w.logAll crc32 es).dir := by
  induction es generalizing w with
  | nil => exact h
  | cons e es ih =>
    obtain ⟨valid, good⟩ := each e (by simp)
    exact ih (filledWith_log h valid good) fun x hx => each x (by simp [hx])

theorem filledWith_read {dir : Dir} (h : FilledWith crc32 p dir) {id : Nat} {bytes : Bytes}
    (found : dir.get? (segmentPath id) = some bytes) {e : WalEntry}
    (inside : e ∈ readEntries crc32 bytes) : p e := by
  obtain ⟨es, rfl, each⟩ := h _ _ found
  have back : readEntries crc32 (segmentBytes crc32 es) = es :=
    scan_encodeAll (recordCodec crc32) fun x hx => (each x hx).1
  rw [back] at inside
  exact (each e inside).2

end

theorem readEntries_valid {crc32 : Bytes → UInt32} {bytes : Bytes} {e : WalEntry}
    (inside : e ∈ readEntries crc32 bytes) : (recordCodec crc32).Valid e := by
  exact (scan_partition (recordCodec crc32) bytes).1 e inside

theorem crashPoint_subset {env : Env} {w : SegmentCoordinator} {dir : Dir}
    (h : CrashPoint env w dir) {max : Nat} {e : WalEntry}
    (read : e ∈ (SegmentCoordinator.new dir max).readAllEntries env.crc32) :
    e ∈ w.readAllEntries env.crc32 := by
  obtain ⟨id, bytes, found, inside⟩ := mem_readAllEntries_new read
  cases h with
  | before => exact mem_readAllEntries.mpr ⟨id, bytes, found, inside⟩
  | deleting names =>
    rw [removeFiles_lookup] at found
    split at found
    · contradiction
    · exact mem_readAllEntries.mpr ⟨id, bytes, found, inside⟩
  | appending n =>
    have start : FilledWith env.crc32 (· ∈ w.readAllEntries env.crc32) w.truncate.dir := by
      rw [truncate_dir]
      exact filledWith_touch (fun _ _ found => by contradiction) _
    refine filledWith_read (filledWith_logAll start ?_) found inside
    intro x member
    have old := (List.mem_filter.mp (List.mem_of_mem_take member)).1
    obtain ⟨_, _, _, inside⟩ := mem_readAllEntries.mp old
    exact ⟨readEntries_valid inside, old⟩

section
variable {env : Env} {now : Instant} {auth : AuthBackend} {cluster : Option ClusterCoordinator}

theorem restart_inert {dir : Dir}
    (h : ∀ e ∈ (SegmentCoordinator.new dir env.maxSegmentSize).readAllEntries env.crc32,
      e.inert = true) :
    restart env now dir auth cluster =
      .new (SegmentCoordinator.new dir env.maxSegmentSize) auth cluster := by
  rw [restart, recover_eq_replay, replay_eq_replayRecords]
  exact foldl_apply_inert (parsed_inert.mp h) rfl rfl

end

/-- Compaction is safe against a crash at every point exactly when it stops
    before it touches the log, or the log restores nothing. -/
theorem compaction_crash_safe_iff (env : Env) (now : Instant) (auth : AuthBackend)
    (cluster : Option ClusterCoordinator) (w : SegmentCoordinator) :
    (∀ dir, CrashPoint env w dir →
      SameBroker (restart env now dir auth cluster) (restart env now w.dir auth cluster)) ↔
    compactionStops env.walCompactThreshold (w.readAllEntries env.crc32) = true ∨
      ∀ e ∈ w.readAllEntries env.crc32, e.inert = true := by
  constructor
  · intro safe
    cases runs : compactionStops env.walCompactThreshold (w.readAllEntries env.crc32) with
    | true => exact Or.inl rfl
    | false =>
      right
      -- With every file deleted and none written yet, a restart finds nothing.
      have same := safe _ (CrashPoint.deleting w.dir.keys runs)
      have nothing : restart env now (w.dir.removeFiles w.dir.keys) auth cluster =
          .new (SegmentCoordinator.new ∅ env.maxSegmentSize) auth cluster := by
        rw [removeFiles_all]
        apply restart_inert
        intro e read
        obtain ⟨_, _, found, _⟩ := mem_readAllEntries_new read
        contradiction
      rw [nothing] at same
      have restarted : restart env now w.dir auth cluster = replayRecords env now
          (.new (SegmentCoordinator.new w.dir env.maxSegmentSize) auth cluster)
          (((SegmentCoordinator.new w.dir env.maxSegmentSize).readAllEntries env.crc32).filterMap
            LogRecord.parse) := by
        rw [restart, recover_eq_replay, replay_eq_replayRecords]
        rfl
      rw [restarted] at same
      have inert := parsed_inert.mpr
        (inert_of_replayRecords rfl rfl (by rw [← same]; rfl) (by rw [← same]; rfl))
      intro e member
      exact inert e (mem_readAllEntries_opened member)
  · rintro (stops | inert)
    · intro dir crash
      cases crash with
      | before => rfl
      | deleting names runs =>
        rw [stops] at runs
        contradiction
      | appending n runs =>
        rw [stops] at runs
        contradiction
    · intro dir crash
      rw [restart_inert fun e read => inert e (crashPoint_subset crash read),
        restart_inert fun e read => inert e (crashPoint_subset .before read)]
      rfl

/-- A crash right after the truncation loses a queue that was declared durable. -/
theorem crash_loses_queue :
    let env := plainEnv 4096 1
    let w := (SegmentCoordinator.new ∅ 4096).logAll env.crc32
      [declareQueueEntry "q" true, ackEntry 1]
    CrashPoint env w w.truncate.dir ∧
      (restart env 0 w.dir ∅ none).queues.contains "q" = true ∧
      (restart env 0 w.truncate.dir ∅ none).queues.contains "q" = false ∧
      ¬ SameBroker (restart env 0 w.truncate.dir ∅ none) (restart env 0 w.dir ∅ none) := by
  intro env w
  have before : (restart env 0 w.dir ∅ none).queues.contains "q" = true := by decide +kernel
  have after : (restart env 0 w.truncate.dir ∅ none).queues.contains "q" = false := by
    decide +kernel
  refine ⟨CrashPoint.appending 0 (by decide +kernel), before, after, ?_⟩
  intro same
  rw [← same] at before
  exact absurd after (by simpa using before)

end RocketmqBroker
