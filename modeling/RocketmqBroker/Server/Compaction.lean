import RocketmqBroker.Storage.Replay

/-!
Compaction of the log (server/tasks.rs): read everything, collect the acked ids,
truncate, append the entries of messages that are not acked. The filter parses
payloads by itself; it agrees with replay on every payload that replay accepts.
-/
namespace RocketmqBroker
open BigEndian ByteReader

def isAckedEntry (acked : List UInt64) (e : WalEntry) : Bool :=
  match e.entryType with
  | .enqueue =>
    if e.data.length < 4 then false
    else
      let queueLen := fromBeBytes (e.data.take 2)
      if e.data.length < 2 + queueLen + 8 then false
      else UInt64.ofNat (fromBeBytes ((e.data.drop (2 + queueLen)).take 8)) ∈ acked
  | .ack =>
    if e.data.length < 8 then false
    else UInt64.ofNat (fromBeBytes (e.data.take 8)) ∈ acked
  | _ => false

def kept (entries : List WalEntry) : List WalEntry :=
  entries.filter fun e => !isAckedEntry (ackedIds entries) e

/-- Too few entries, or no ack among them: compaction returns before it touches
    the log. -/
def compactionStops (threshold : Nat) (entries : List WalEntry) : Bool :=
  entries.length < threshold || (ackedIds entries).isEmpty

/-- `wal_compact_task` and `replay_entries`, as one uninterrupted run. -/
def compact (env : Env) (w : SegmentCoordinator) : SegmentCoordinator :=
  let entries := w.readAllEntries env.crc32
  if compactionStops env.walCompactThreshold entries then w
  else w.truncate.logAll env.crc32 (kept entries)

def LogRecord.settledBy (acked : List UInt64) : LogRecord → Bool
  | .enqueue _ msgId _ _ _ _ => msgId ∈ acked
  | .ack msgId => msgId ∈ acked
  | _ => false

def keptRecords (rs : List LogRecord) : List LogRecord :=
  rs.filter fun r => !r.settledBy (ackedOf rs)

theorem orEof_ok {α : Type} {found : Option α} {a : α} (h : orEof found = .ok a) :
    found = some a := by
  cases found with
  | none => contradiction
  | some b => exact congrArg some (Except.ok.inj h)

theorem readStringU16_ok {data cur : Bytes} {text : String}
    (h : readStringU16 data = .ok (text, cur)) :
    2 + fromBeBytes (data.take 2) ≤ data.length ∧
      cur = data.drop (2 + fromBeBytes (data.take 2)) := by
  obtain ⟨⟨bytes, rest⟩, read, tail⟩ := Fallible.bind_eq_ok.mp h
  simp only at tail
  split at tail
  · obtain ⟨_, rfl⟩ := Prod.mk.inj (Except.ok.inj tail)
    exact readPrefixed_eq_some (orEof_ok read)
  · contradiction

theorem readU64_ok {data cur : Bytes} {n : UInt64} (h : readU64 data = .ok (n, cur)) :
    8 ≤ data.length ∧ n = UInt64.ofNat (fromBeBytes (data.take 8)) := by
  obtain ⟨⟨word, rest⟩, read, tail⟩ := Fallible.bind_eq_ok.mp h
  obtain ⟨enough, rfl, _⟩ := readWord_eq_some (orEof_ok read)
  obtain ⟨rfl, _⟩ := Prod.mk.inj (Except.ok.inj tail)
  exact ⟨enough, rfl⟩

theorem isAckedEntry_enqueue {acked : List UInt64} {data : Bytes}
    {fields : String × UInt64 × String × String × Bytes × Bytes}
    (h : readEnqueue data = .ok fields) :
    isAckedEntry acked ⟨.enqueue, data⟩ = decide (fields.2.1 ∈ acked) := by
  obtain ⟨⟨queue, cur⟩, first, more⟩ := Fallible.bind_eq_ok.mp h
  obtain ⟨⟨msgId, cur'⟩, second, last⟩ := Fallible.bind_eq_ok.mp more
  obtain ⟨rest, _, done⟩ := Fallible.bind_eq_ok.mp last
  obtain ⟨room, rfl⟩ := readStringU16_ok first
  obtain ⟨enough, rfl⟩ := readU64_ok second
  cases done
  rw [List.length_drop] at enough
  have long : ¬ data.length < 4 := by omega
  have longer : ¬ data.length < 2 + fromBeBytes (data.take 2) + 8 := by omega
  simp only [isAckedEntry, long, longer, ↓reduceIte]

theorem isAckedEntry_of_parse {acked : List UInt64} {e : WalEntry} {r : LogRecord}
    (h : LogRecord.parse e = some r) : isAckedEntry acked e = r.settledBy acked := by
  obtain ⟨entryType, data⟩ := e
  cases entryType with
  | enqueue =>
    simp only [LogRecord.parse] at h
    cases read : readEnqueue data with
    | error err => rw [read] at h; contradiction
    | ok fields =>
      rw [read] at h
      cases h
      rw [isAckedEntry_enqueue read]
      rfl
  | ack =>
    simp only [LogRecord.parse, ackedId, true_and] at h
    split at h
    · rename_i long
      cases h
      have : ¬ data.length < 8 := by omega
      simp only [isAckedEntry, this, ↓reduceIte, LogRecord.settledBy]
    · contradiction
  | declareQueue =>
    simp only [LogRecord.parse] at h
    obtain ⟨fields, _, rfl⟩ := Option.map_eq_some_iff.mp h
    rfl
  | declareExchange =>
    simp only [LogRecord.parse] at h
    obtain ⟨fields, _, rfl⟩ := Option.map_eq_some_iff.mp h
    rfl
  | bind =>
    simp only [LogRecord.parse] at h
    obtain ⟨fields, _, rfl⟩ := Option.map_eq_some_iff.mp h
    rfl
  | setQueueSchema =>
    simp only [LogRecord.parse] at h
    obtain ⟨fields, _, rfl⟩ := Option.map_eq_some_iff.mp h
    rfl
  | raftEntry => cases h; rfl
  | raftVote => cases h; rfl

theorem filterMap_parse_filter (acked : List UInt64) (entries : List WalEntry) :
    (entries.filter fun e => !isAckedEntry acked e).filterMap LogRecord.parse =
      (entries.filterMap LogRecord.parse).filter fun r => !r.settledBy acked := by
  induction entries with
  | nil => rfl
  | cons e es ih =>
    cases h : LogRecord.parse e with
    | none =>
      rw [List.filterMap_cons_none h, ← ih, List.filter_cons]
      split
      · rw [List.filterMap_cons_none h]
      · rfl
    | some r =>
      rw [List.filterMap_cons_some h, List.filter_cons, List.filter_cons, isAckedEntry_of_parse h]
      split
      · rw [List.filterMap_cons_some h, ih]
      · exact ih

theorem filterMap_parse_kept (entries : List WalEntry) :
    (kept entries).filterMap LogRecord.parse = keptRecords (entries.filterMap LogRecord.parse) := by
  rw [kept, filterMap_parse_filter, keptRecords, ackedIds_eq]

section
variable {env : Env} {now : Instant}

theorem apply_settled {acked : List UInt64} {r : LogRecord} (h : r.settledBy acked = true)
    (s : BrokerState) : r.apply env now acked s = s := by
  cases r with
  | enqueue queue msgId exchange routingKey headers body =>
    simp only [LogRecord.settledBy, decide_eq_true_eq] at h
    simp only [LogRecord.apply, h, ↓reduceIte]
  | ack => rfl
  | _ => exact absurd h (by simp [LogRecord.settledBy])

theorem apply_unsettled {acked more : List UInt64} {r : LogRecord}
    (h : r.settledBy more = false) (s : BrokerState) :
    r.apply env now (more ++ acked) s = r.apply env now acked s := by
  cases r with
  | enqueue queue msgId exchange routingKey headers body =>
    simp only [LogRecord.settledBy, decide_eq_false_iff_not] at h
    simp only [LogRecord.apply, List.mem_append, h, false_or]
  | _ => rfl

/-- Taking the settled records out is the same as treating their ids as acked. -/
theorem foldl_apply_filter (acked more : List UInt64) (rs : List LogRecord) (s : BrokerState) :
    (rs.filter fun r => !r.settledBy more).foldl (LogRecord.apply env now acked) s =
      rs.foldl (LogRecord.apply env now (more ++ acked)) s := by
  induction rs generalizing s with
  | nil => rfl
  | cons r rs ih =>
    rw [List.filter_cons, List.foldl_cons]
    cases settled : r.settledBy more with
    | true =>
      have both : r.settledBy (more ++ acked) = true := by
        cases r <;> simp_all [LogRecord.settledBy]
      rw [apply_settled both]
      exact ih s
    | false =>
      rw [apply_unsettled settled]
      exact ih _

theorem ackedOf_keptRecords (rs : List LogRecord) : ackedOf (keptRecords rs) = [] := by
  rw [ackedOf, List.filterMap_eq_nil_iff]
  intro r member
  obtain ⟨inside, unsettled⟩ := List.mem_filter.mp member
  cases r with
  | ack msgId =>
    have : msgId ∈ ackedOf rs := List.mem_filterMap.mpr ⟨_, inside, rfl⟩
    simp [LogRecord.settledBy, this] at unsettled
  | _ => rfl

theorem replayRecords_keptRecords (rs : List LogRecord) (s : BrokerState) :
    replayRecords env now s (keptRecords rs) = replayRecords env now s rs := by
  rw [replayRecords, ackedOf_keptRecords, keptRecords, foldl_apply_filter, List.append_nil]
  rfl

end

/-- Replay does not see whether the log was filtered by compaction, for entries
    of any content in any order. -/
theorem replay_filtered_log (env : Env) (now : Instant) (s : BrokerState)
    (entries : List WalEntry) :
    replay env now s (entries.filter fun e => !isAckedEntry (ackedIds entries) e) =
      replay env now s entries := by
  have filtered := filterMap_parse_kept entries
  rw [kept] at filtered
  rw [replay_eq_replayRecords, filtered, replayRecords_keptRecords, replay_eq_replayRecords]

end RocketmqBroker
