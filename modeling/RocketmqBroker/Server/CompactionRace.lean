import RocketmqBroker.Lib.Run
import RocketmqBroker.Server.Compaction
import RocketmqBroker.Storage.Recovered

/-!
Compaction next to other tasks. The log is locked for each step of compaction
and not over all of them, so appends of other tasks fall between the snapshot,
the truncation and the single appends of the survivors.
-/
namespace RocketmqBroker
open Run

inductive Phase where
  | idle
  | scanned (entries : List WalEntry)
  | collected (entries : List WalEntry) (acked : List UInt64)
  | rebuilding (acked : List UInt64) (todo : List WalEntry)
  | done
  deriving DecidableEq

structure Shared where
  wal : SegmentCoordinator
  phase : Phase

inductive Event where
  | append (e : WalEntry)
  | compact
  deriving DecidableEq

def compactStep (env : Env) (s : Shared) : Shared :=
  match s.phase with
  | .idle => { s with phase := .scanned (s.wal.readAllEntries env.crc32) }
  | .scanned entries =>
    if compactionStops env.walCompactThreshold entries then { s with phase := .done }
    else { s with phase := .collected entries (ackedIds entries) }
  | .collected entries acked =>
    ⟨s.wal.truncate, .rebuilding acked (entries.filter fun e => !isAckedEntry acked e)⟩
  | .rebuilding _ [] => { s with phase := .done }
  | .rebuilding acked (e :: todo) => ⟨s.wal.log env.crc32 e, .rebuilding acked todo⟩
  | .done => s

def sharedStep (env : Env) (s : Shared) : Event → Shared
  | .append e => { s with wal := s.wal.log env.crc32 e }
  | .compact => compactStep env s

def foreign (events : List Event) : List WalEntry :=
  events.filterMap fun
    | .append e => some e
    | .compact => none

inductive Slot where
  | queue (name : String)
  | exchange (name : String)
  deriving DecidableEq

def LogRecord.touches : LogRecord → List Slot
  | .declareQueue name durable => if durable then [.queue name, .exchange ""] else []
  | .enqueue queue _ _ _ _ _ => [.queue queue]
  | .declareExchange name _ durable => if durable then [.exchange name] else []
  | .bind exchange _ _ => [.exchange exchange]
  | .setQueueSchema _ queue _ _ _ => [.queue queue]
  | .ack _ => []
  | .raft _ _ => []

def WalEntry.touches (e : WalEntry) : List Slot :=
  match LogRecord.parse e with
  | some r => r.touches
  | none => []

def WalEntry.reuses (acked : List UInt64) (e : WalEntry) : Bool :=
  match (LogRecord.parse e).bind LogRecord.enqueuedId with
  | some msgId => msgId ∈ acked
  | none => false

def WalEntry.RestoresNothing (e : WalEntry) : Prop := e.touches = [] ∧ ackedId e = none

instance (e : WalEntry) : Decidable e.RestoresNothing := inferInstanceAs (Decidable (_ ∧ _))

/-- An append that compaction does not get in the way of: one before the
    snapshot, one that is lost but restores nothing, or one that has nothing to
    do with the entries still to be appended again. What comes after the end is
    not part of the run. -/
def Undisturbed (env : Env) (phase : Phase) (e : WalEntry) : Prop :=
  match phase with
  | .idle => True
  | .scanned entries =>
    compactionStops env.walCompactThreshold entries = true ∨ e.RestoresNothing
  | .collected _ _ => e.RestoresNothing
  | .rebuilding acked todo =>
    (∀ x ∈ todo, ∀ slot ∈ e.touches, slot ∉ x.touches) ∧ e.reuses acked = false
  | .done => False

def Allowed (env : Env) (s : Shared) : Event → Prop
  | .append e => e.Fits ∧ Undisturbed env s.phase e
  | .compact => True

instance (env : Env) (phase : Phase) (e : WalEntry) : Decidable (Undisturbed env phase e) := by
  cases phase <;> dsimp only [Undisturbed] <;> infer_instance

instance (env : Env) (s : Shared) (event : Event) : Decidable (Allowed env s event) := by
  cases event <;> dsimp only [Allowed] <;> infer_instance

structure SameNames (s t : BrokerState) : Prop where
  queues : ∀ name, s.queues.get? name = t.queues.get? name
  exchanges : ∀ name, s.exchanges.get? name = t.exchanges.get? name

section
variable {env : Env} {now : Instant} {acked : List UInt64}

theorem restoreQueue_untouched {name : String} {r : LogRecord} (h : .queue name ∉ r.touches)
    (found : Option QueueState) : restoreQueue env now acked name found r = found := by
  cases r with
  | declareQueue queue durable =>
    cases durable with
    | false => simp [restoreQueue]
    | true => simp_all [restoreQueue, LogRecord.touches]
  | enqueue queue msgId exchange routingKey headers body =>
    simp only [LogRecord.touches, List.mem_singleton, Slot.queue.injEq] at h
    simp [restoreQueue, h]
  | setQueueSchema schemaId queue rawProto descriptorSetBytes messageName =>
    simp only [LogRecord.touches, List.mem_singleton, Slot.queue.injEq] at h
    simp only [restoreQueue, h, ↓reduceIte]
    split <;> rfl
  | ack | declareExchange | bind | raft => rfl

theorem restoreExchange_untouched {name : String} {r : LogRecord}
    (h : .exchange name ∉ r.touches) (found : Option Exchange) :
    restoreExchange name found r = found := by
  cases r with
  | declareQueue queue durable =>
    cases durable with
    | false => simp [restoreExchange]
    | true => simp_all [restoreExchange, LogRecord.touches]
  | declareExchange exchange kindByte durable =>
    cases durable with
    | false => simp [restoreExchange]
    | true => simp_all [restoreExchange, LogRecord.touches]
  | bind exchange queue routingKey =>
    simp only [LogRecord.touches, List.mem_singleton, Slot.exchange.injEq] at h
    simp [restoreExchange, h]
  | enqueue | ack | setQueueSchema | raft => rfl

theorem foldl_filter_of_ignores {α β : Type} (f : β → α → β) (p : α → Bool)
    (ignores : ∀ b a, p a = false → f b a = b) (as : List α) (b : β) :
    (as.filter p).foldl f b = as.foldl f b := by
  induction as generalizing b with
  | nil => rfl
  | cons a as ih =>
    rw [List.filter_cons, List.foldl_cons]
    cases keep : p a with
    | true => exact ih _
    | false =>
      rw [ignores b a keep]
      exact ih b

def onSlot (slot : Slot) (rs : List LogRecord) : List LogRecord :=
  rs.filter fun r => slot ∈ r.touches

/-- Replay depends on the order within each slot only. -/
theorem sameNames_of_onSlot (env : Env) (now : Instant) (acked : List UInt64)
    {rs ts : List LogRecord}
    (slots : ∀ slot, onSlot slot rs = onSlot slot ts) (s : BrokerState) :
    SameNames (rs.foldl (LogRecord.apply env now acked) s)
      (ts.foldl (LogRecord.apply env now acked) s) := by
  refine ⟨?_, ?_⟩
  · intro name
    have ignores : ∀ found r, decide (Slot.queue name ∈ LogRecord.touches r) = false →
        restoreQueue env now acked name found r = found := fun found r untouched =>
      restoreQueue_untouched (of_decide_eq_false untouched) found
    rw [get?_queues_foldl, get?_queues_foldl, ← foldl_filter_of_ignores _ _ ignores rs,
      ← foldl_filter_of_ignores _ _ ignores ts]
    exact congrArg (List.foldl _ _) (slots (.queue name))
  · intro name
    have ignores : ∀ found r, decide (Slot.exchange name ∈ LogRecord.touches r) = false →
        restoreExchange name found r = found := fun found r untouched =>
      restoreExchange_untouched (of_decide_eq_false untouched) found
    rw [get?_exchanges_foldl, get?_exchanges_foldl, ← foldl_filter_of_ignores _ _ ignores rs,
      ← foldl_filter_of_ignores _ _ ignores ts]
    exact congrArg (List.foldl _ _) (slots (.exchange name))

theorem onSlot_append (slot : Slot) (rs ts : List LogRecord) :
    onSlot slot (rs ++ ts) = onSlot slot rs ++ onSlot slot ts := List.filter_append ..

theorem apply_untouching {r : LogRecord} (h : r.touches = []) (s : BrokerState) :
    r.apply env now acked s = s := by
  cases r with
  | declareQueue queue durable => cases durable <;> simp_all [LogRecord.touches, LogRecord.apply]
  | declareExchange exchange kindByte durable =>
    cases durable <;> simp_all [LogRecord.touches, LogRecord.apply]
  | ack | raft => rfl
  | enqueue | bind | setQueueSchema => simp [LogRecord.touches] at h

theorem foldl_apply_untouching {rs : List LogRecord} (h : ∀ r ∈ rs, r.touches = [])
    (s : BrokerState) : rs.foldl (LogRecord.apply env now acked) s = s := by
  induction rs with
  | nil => rfl
  | cons r rs ih =>
    rw [List.foldl_cons, apply_untouching (h r (by simp))]
    exact ih fun r' hr => h r' (by simp [hr])

theorem foldl_apply_fresh {more : List UInt64} {rs : List LogRecord}
    (fresh : ∀ r ∈ rs, ∀ msgId, r.enqueuedId = some msgId → msgId ∉ more) (s : BrokerState) :
    rs.foldl (LogRecord.apply env now (more ++ acked)) s =
      rs.foldl (LogRecord.apply env now acked) s := by
  induction rs generalizing s with
  | nil => rfl
  | cons r rs ih =>
    have here : r.apply env now (more ++ acked) s = r.apply env now acked s := by
      cases r with
      | enqueue queue msgId exchange routingKey headers body =>
        have := fresh _ List.mem_cons_self msgId rfl
        simp [LogRecord.apply, this]
      | _ => rfl
    rw [List.foldl_cons, List.foldl_cons, here]
    exact ih (fun r' hr => fresh r' (by simp [hr])) _

end

theorem touches_of_parse {e : WalEntry} {r : LogRecord} (h : LogRecord.parse e = some r) :
    e.touches = r.touches := by
  simp only [WalEntry.touches, h]

theorem untouched_of_restoresNothing {entries : List WalEntry}
    (h : ∀ e ∈ entries, e.RestoresNothing) :
    (∀ r ∈ recordsOf entries, r.touches = []) ∧ ackedOf (recordsOf entries) = [] := by
  refine ⟨?_, ?_⟩
  · intro r member
    obtain ⟨e, inside, parsed⟩ := mem_recordsOf.mp member
    rw [← touches_of_parse parsed]
    exact (h e inside).1
  · rw [recordsOf, ← ackedIds_eq, ackedIds, List.filterMap_eq_nil_iff]
    exact fun e inside => (h e inside).2

/-- Half way through the rebuild: `log` is on disk, `todo` comes back later, and
    the other tasks appended `late` before the truncation and `new` after it. -/
structure Rebuilding (entries late new log todo : List WalEntry) : Prop where
  lost : ∀ e ∈ late, e.RestoresNothing
  slots : ∀ slot, onSlot slot (recordsOf (log ++ todo)) =
    onSlot slot (recordsOf (kept entries ++ new))
  acks : ackedOf (recordsOf log) = ackedOf (recordsOf new)
  survivors : ∀ e ∈ todo, e ∈ kept entries
  fresh : ∀ r ∈ recordsOf new, ∀ msgId, r.enqueuedId = some msgId → msgId ∉ ackedIds entries

theorem ackedOf_kept {entries some_kept : List WalEntry} (h : ∀ e ∈ some_kept, e ∈ kept entries) :
    ackedOf (recordsOf some_kept) = [] := by
  have none_kept : ackedIds (kept entries) = [] := by
    rw [ackedIds_eq, filterMap_parse_kept, ackedOf_keptRecords]
  rw [ackedIds, List.filterMap_eq_nil_iff] at none_kept
  rw [recordsOf, ← ackedIds_eq, ackedIds, List.filterMap_eq_nil_iff]
  exact fun e member => none_kept e (h e member)

theorem rebuilding_start {entries late : List WalEntry} (lost : ∀ e ∈ late, e.RestoresNothing) :
    Rebuilding entries late [] [] (kept entries) :=
  ⟨lost, by simp, rfl, fun _ member => member, by simp [recordsOf]⟩

theorem rebuilding_next {entries late new log todo : List WalEntry} {e : WalEntry}
    (h : Rebuilding entries late new log (e :: todo)) :
    Rebuilding entries late new (log ++ [e]) todo := by
  refine ⟨h.lost, ?_, ?_, fun x hx => h.survivors x (by simp [hx]), h.fresh⟩
  · intro slot
    rw [List.append_assoc, List.singleton_append]
    exact h.slots slot
  · have unacked : ackedOf (recordsOf [e]) = [] :=
      ackedOf_kept fun x hx => h.survivors x (by rw [List.mem_singleton.mp hx]; simp)
    rw [recordsOf_append, ackedOf_append, unacked, List.append_nil]
    exact h.acks

/-- An append that shares no slot with what is still to come may as well come
    after it. -/
theorem rebuilding_append {entries late new log todo : List WalEntry} {e : WalEntry}
    (h : Rebuilding entries late new log todo)
    (apart : ∀ x ∈ todo, ∀ slot ∈ e.touches, slot ∉ x.touches)
    (fresh : e.reuses (ackedIds entries) = false) :
    Rebuilding entries late (new ++ [e]) (log ++ [e]) todo := by
  refine ⟨h.lost, ?_, ?_, h.survivors, ?_⟩
  · intro slot
    have old := h.slots slot
    rw [recordsOf_append, onSlot_append] at old
    rw [← List.append_assoc, recordsOf_append, recordsOf_append,
      recordsOf_append (kept entries ++ new), onSlot_append, onSlot_append,
      onSlot_append slot (recordsOf (kept entries ++ new)), ← old]
    by_cases here : slot ∈ e.touches
    · have nothing : onSlot slot (recordsOf todo) = [] := by
        rw [onSlot, List.filter_eq_nil_iff]
        intro r member
        obtain ⟨x, inside, parsed⟩ := mem_recordsOf.mp member
        have := apart x inside slot here
        rw [touches_of_parse parsed] at this
        simpa using this
      rw [nothing, List.append_nil, List.append_nil]
    · have nothing : onSlot slot (recordsOf [e]) = [] := by
        rw [onSlot, List.filter_eq_nil_iff]
        intro r member
        obtain ⟨x, inside, parsed⟩ := mem_recordsOf.mp member
        rw [← touches_of_parse parsed, List.mem_singleton.mp inside]
        simpa using here
      rw [nothing, List.append_nil, List.append_nil]
  · rw [recordsOf_append, ackedOf_append, recordsOf_append, ackedOf_append, h.acks]
  · intro r member msgId enqueued
    rw [recordsOf_append] at member
    rcases List.mem_append.mp member with old | here
    · exact h.fresh r old msgId enqueued
    · obtain ⟨x, inside, parsed⟩ := mem_recordsOf.mp here
      rw [List.mem_singleton.mp inside] at parsed
      simpa [WalEntry.reuses, parsed, enqueued] using fresh

/-- The log at the end replays as the log without compaction. -/
theorem rebuilding_end {entries late new log : List WalEntry} {env : Env} {now : Instant}
    (h : Rebuilding entries late new log []) (s : BrokerState) :
    SameNames (replay env now s log) (replay env now s (entries ++ late ++ new)) := by
  obtain ⟨untouching, unacked⟩ := untouched_of_restoresNothing h.lost
  have slots : ∀ slot,
      onSlot slot (recordsOf log) = onSlot slot (recordsOf (kept entries ++ new)) :=
    fun slot => by simpa using h.slots slot
  have moved := sameNames_of_onSlot env now (ackedOf (recordsOf new)) slots s
  have left : replay env now s log =
      (recordsOf log).foldl (LogRecord.apply env now (ackedOf (recordsOf new))) s := by
    rw [replay_eq_replayRecords, replayRecords]
    exact congrArg (fun acked => (recordsOf log).foldl (LogRecord.apply env now acked) s) h.acks
  have right : replay env now s (entries ++ late ++ new) =
      (recordsOf (kept entries ++ new)).foldl
        (LogRecord.apply env now (ackedOf (recordsOf new))) s := by
    have fresh : ∀ r ∈ recordsOf new, ∀ msgId, r.enqueuedId = some msgId →
        msgId ∉ ackedOf (recordsOf entries) := by
      intro r member msgId enqueued
      rw [recordsOf, ← ackedIds_eq]
      exact h.fresh r member msgId enqueued
    have survivors : recordsOf (kept entries) = keptRecords (recordsOf entries) :=
      filterMap_parse_kept entries
    have acks : ackedOf (recordsOf (entries ++ late ++ new)) =
        ackedOf (recordsOf entries) ++ ackedOf (recordsOf new) := by
      rw [recordsOf_append, recordsOf_append, ackedOf_append, ackedOf_append, unacked,
        List.append_nil]
    rw [replay_eq_replayRecords, replayRecords]
    change (recordsOf (entries ++ late ++ new)).foldl
      (LogRecord.apply env now (ackedOf (recordsOf (entries ++ late ++ new)))) s = _
    rw [acks, recordsOf_append, recordsOf_append, recordsOf_append, List.foldl_append,
      List.foldl_append, List.foldl_append, foldl_apply_untouching untouching,
      foldl_apply_fresh fresh, survivors, keptRecords, foldl_apply_filter]
  rw [left, right]
  exact moved

theorem foreign_append (past : List Event) (e : WalEntry) :
    foreign (past ++ [.append e]) = foreign past ++ [e] := by
  simp [foreign]

theorem foreign_compact (past : List Event) : foreign (past ++ [.compact]) = foreign past := by
  simp [foreign]

/-- What the log on disk has to do with the log without compaction, `plain`. -/
def Tracked (env : Env) (now : Instant) (max : Nat) (plain : List WalEntry) (s : Shared) : Prop :=
  ∃ log, s.wal = walOf env.crc32 max log ∧ (∀ e ∈ log, e.Fits) ∧
    match s.phase with
    | .idle => plain = log
    | .scanned entries => plain = log ∧ ∃ late, plain = entries ++ late ∧
        (compactionStops env.walCompactThreshold entries = true ∨ ∀ e ∈ late, e.RestoresNothing)
    | .collected entries acked => acked = ackedIds entries ∧ (∀ e ∈ entries, e.Fits) ∧
        ∃ late, plain = entries ++ late ∧ ∀ e ∈ late, e.RestoresNothing
    | .rebuilding acked todo => ∃ entries late new, acked = ackedIds entries ∧
        plain = entries ++ late ++ new ∧ Rebuilding entries late new log todo ∧
        ∀ e ∈ todo, e.Fits
    | .done => ∀ b, SameNames (replay env now b log) (replay env now b plain)

section
variable {env : Env} {now : Instant} {max : Nat} {plain : List WalEntry}

theorem tracked_append {wal : SegmentCoordinator} {phase : Phase} {e : WalEntry}
    (fits : e.Fits) (clear : Undisturbed env phase e)
    (h : Tracked env now max plain ⟨wal, phase⟩) :
    Tracked env now max (plain ++ [e]) ⟨wal.log env.crc32 e, phase⟩ := by
  obtain ⟨log, disk, fit, rest⟩ := h
  simp only at disk
  have fit' : ∀ x ∈ log ++ [e], x.Fits := by
    intro x member
    rcases List.mem_append.mp member with old | new
    · exact fit x old
    · rw [List.mem_singleton.mp new]
      exact fits
  refine ⟨log ++ [e], by rw [disk]; exact walOf_log e, fit', ?_⟩
  cases phase with
  | idle => exact congrArg (· ++ [e]) rest
  | scanned entries =>
    obtain ⟨same, late, split, lost⟩ := rest
    refine ⟨by rw [same], late ++ [e], by rw [split, List.append_assoc], ?_⟩
    rcases lost with stops | lost
    · exact Or.inl stops
    · rcases clear with stops | nothing
      · exact Or.inl stops
      · right
        intro x member
        rcases List.mem_append.mp member with old | new
        · exact lost x old
        · rw [List.mem_singleton.mp new]
          exact nothing
  | collected entries acked =>
    obtain ⟨same, fitEntries, late, split, lost⟩ := rest
    refine ⟨same, fitEntries, late ++ [e], by rw [split, List.append_assoc], ?_⟩
    intro x member
    rcases List.mem_append.mp member with old | new
    · exact lost x old
    · rw [List.mem_singleton.mp new]
      exact clear
  | rebuilding acked todo =>
    obtain ⟨entries, late, new, rfl, split, half, fitTodo⟩ := rest
    exact ⟨entries, late, new ++ [e], rfl, by rw [split, List.append_assoc],
      rebuilding_append half clear.1 clear.2, fitTodo⟩
  | done => contradiction

theorem tracked_compact {s : Shared} (h : Tracked env now max plain s) :
    Tracked env now max plain (compactStep env s) := by
  obtain ⟨wal, phase⟩ := s
  obtain ⟨log, disk, fit, rest⟩ := h
  simp only at disk
  cases phase with
  | idle =>
    refine ⟨log, disk, fit, rest, [], ?_, Or.inr (by simp)⟩
    simp only at rest
    rw [disk, walOf_readAllEntries fit, rest, List.append_nil]
  | scanned entries =>
    obtain ⟨same, late, split, lost⟩ := rest
    simp only [compactStep]
    split
    · exact ⟨log, disk, fit, fun b => by rw [same]; exact ⟨fun _ => rfl, fun _ => rfl⟩⟩
    · rename_i runs
      rcases lost with stops | lost
      · exact absurd stops runs
      · refine ⟨log, disk, fit, rfl, ?_, late, split, lost⟩
        intro e member
        exact fit e (by rw [← same, split]; simp [member])
  | collected entries acked =>
    obtain ⟨rfl, fitEntries, late, split, lost⟩ := rest
    refine ⟨[], by rw [disk]; exact walOf_truncate, by simp, entries, late, [], rfl,
      by simp [split], rebuilding_start lost, ?_⟩
    intro e member
    exact fitEntries e (List.mem_filter.mp member).1
  | rebuilding acked todo =>
    obtain ⟨entries, late, new, rfl, split, half, fitTodo⟩ := rest
    cases todo with
    | nil =>
      refine ⟨log, disk, fit, ?_⟩
      intro b
      rw [split]
      exact rebuilding_end half b
    | cons e todo =>
      refine ⟨log ++ [e], by rw [disk]; exact walOf_log e, ?_, entries, late, new, rfl, split,
        rebuilding_next half, fun x hx => fitTodo x (by simp [hx])⟩
      intro x member
      rcases List.mem_append.mp member with old | next
      · exact fit x old
      · rw [List.mem_singleton.mp next]
        exact fitTodo e (by simp)
  | done => exact ⟨log, disk, fit, rest⟩

end

/-- Any interleaving in which no append is disturbed: when compaction is done,
    the log replays as if it had never run. -/
theorem compaction_race (env : Env) (now : Instant) (max : Nat) (es : List WalEntry)
    (fits : ∀ e ∈ es, e.Fits) (events : List Event)
    (undisturbed : Along (sharedStep env) (Allowed env) ⟨walOf env.crc32 max es, .idle⟩ events)
    (finished : (run (sharedStep env) ⟨walOf env.crc32 max es, .idle⟩ events).phase = .done)
    (b : BrokerState) :
    SameNames
      (replay env now b
        ((run (sharedStep env) ⟨walOf env.crc32 max es, .idle⟩ events).wal.readAllEntries
          env.crc32))
      (replay env now b
        (((walOf env.crc32 max es).logAll env.crc32 (foreign events)).readAllEntries
          env.crc32)) := by
  have tracked : Tracked env now max (es ++ foreign events) _ ∧
      ∀ e ∈ foreign events, e.Fits :=
    invariant (fun past s => Tracked env now max (es ++ foreign past) s ∧
        ∀ e ∈ foreign past, e.Fits)
      ⟨⟨es, rfl, fits, by simp [foreign]⟩, by simp [foreign]⟩
      (fun past s event allowed inv => by
        cases event with
        | append e =>
          rw [foreign_append, ← List.append_assoc]
          refine ⟨tracked_append allowed.1 allowed.2 inv.1, ?_⟩
          intro x member
          rcases List.mem_append.mp member with old | new
          · exact inv.2 x old
          · rw [List.mem_singleton.mp new]
            exact allowed.1
        | compact =>
          rw [foreign_compact]
          exact ⟨tracked_compact inv.1, inv.2⟩)
      undisturbed
  obtain ⟨⟨log, disk, fit, rest⟩, fitForeign⟩ := tracked
  rw [finished] at rest
  have plain : ∀ e ∈ es ++ foreign events, e.Fits := by
    intro e member
    rcases List.mem_append.mp member with old | new
    · exact fits e old
    · exact fitForeign e new
  rw [disk, walOf_readAllEntries fit, walOf_logAll, walOf_readAllEntries plain]
  exact rest b

def raceStart : List WalEntry :=
  [declareQueueEntry "q" true, declareQueueEntry "other" true, enqueueEntry "q" 1 "" "q" [] [1],
    enqueueEntry "q" 2 "" "q" [] [2], ackEntry 1]

theorem compaction_race_with_appends :
    let env := plainEnv 64 1
    let events := [.append (ackEntry 7), .compact, .compact, .compact, .compact, .compact,
      .append (enqueueEntry "other" 3 "" "other" [] [3]), .append (ackEntry 2), .compact, .compact]
    let final := run (sharedStep env) ⟨walOf env.crc32 64 raceStart, .idle⟩ events
    final.phase = .done ∧ SameNames
      (replay env 0 (.new final.wal ∅ none) (final.wal.readAllEntries env.crc32))
      (replay env 0 (.new final.wal ∅ none)
        (((walOf env.crc32 64 raceStart).logAll env.crc32 (foreign events)).readAllEntries
          env.crc32)) := by
  intro env events final
  have finished : final.phase = .done := by decide +kernel
  exact ⟨finished, compaction_race env 0 64 raceStart (by decide) events (by decide +kernel)
    finished _⟩

/-- A publish between the snapshot and the truncation is gone. -/
theorem compaction_race_loses_publish :
    let env := plainEnv 64 1
    let late := enqueueEntry "q" 3 "" "q" [] [3]
    let events := [.compact, .append late, .compact, .compact, .compact, .compact, .compact,
      .compact]
    let final := run (sharedStep env) ⟨walOf env.crc32 64 raceStart, .idle⟩ events
    let fresh := BrokerState.new final.wal ∅ none
    let plain := (walOf env.crc32 64 raceStart).logAll env.crc32 (foreign events)
    final.phase = .done ∧
      readyAt ((replay env 0 fresh (plain.readAllEntries env.crc32)).queues.get? "q") =
        some [.full (recoveredMessage 2 "" "q" [] [2]), .full (recoveredMessage 3 "" "q" [] [3])] ∧
      readyAt ((replay env 0 fresh (final.wal.readAllEntries env.crc32)).queues.get? "q") =
        some [.full (recoveredMessage 2 "" "q" [] [2])] ∧
      ¬ SameNames (replay env 0 fresh (final.wal.readAllEntries env.crc32))
        (replay env 0 fresh (plain.readAllEntries env.crc32)) := by
  intro env late events final fresh plain
  have expected : readyAt ((replay env 0 fresh (plain.readAllEntries env.crc32)).queues.get? "q") =
      some [.full (recoveredMessage 2 "" "q" [] [2]),
        .full (recoveredMessage 3 "" "q" [] [3])] := by decide +kernel
  have left : readyAt ((replay env 0 fresh (final.wal.readAllEntries env.crc32)).queues.get? "q") =
      some [.full (recoveredMessage 2 "" "q" [] [2])] := by decide +kernel
  refine ⟨by decide +kernel, expected, left, ?_⟩
  intro same
  rw [same.queues, expected] at left
  exact absurd left (by decide)

end RocketmqBroker
