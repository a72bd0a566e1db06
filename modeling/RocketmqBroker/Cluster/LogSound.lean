import RocketmqBroker.Cluster.Raft
import RocketmqBroker.Lib.Run

/-!
Positions and indices of a replicated log. The code takes the index that an
entry carries for its position, which it is as long as no frame leaves a gap,
and the commit index stays within the log as long as no frame cuts below it.
-/
namespace RocketmqBroker
variable {κ : Type}

/-- What is done to a log: local appends, frames of a leader, failover and, for
    metadata, the application of what is committed. -/
inductive LogOp (κ : Type) where
  | append (command : κ)
  | entries (f : AppendEntries κ)
  | promote (nodeId : UInt64)
  | drain

namespace RaftState

def step (s : RaftState κ) : LogOp κ → RaftState κ
  | .append command => (s.appendCommand command).1
  | .entries f => (s.handleAppendEntries f).1
  | .promote nodeId => s.promote nodeId
  | .drain => s.drainUnapplied.1

end RaftState

/-- When its turn comes, no entry lies beyond the end of the log, and none that
    conflicts lies at or below the commit index. -/
def Placed (commitIndex : Nat) : List (LogEntry κ) → List (LogEntry κ) → Prop
  | _, [] => True
  | log, e :: es =>
    (e.index ≤ log.length ∧ ∀ old ∈ log[e.index]?, old.term ≠ e.term → commitIndex < e.index) ∧
      Placed commitIndex (RaftState.appendEntry log e) es

instance decidablePlaced (commitIndex : Nat) : (log entries : List (LogEntry κ)) →
    Decidable (Placed commitIndex log entries)
  | _, [] => isTrue trivial
  | log, e :: es =>
    have := decidablePlaced commitIndex (RaftState.appendEntry log e) es
    inferInstanceAs (Decidable ((_ ∧ _) ∧ _))

/-- The condition on a step: the entries that are taken are placed. -/
def InPlace (s : RaftState κ) : LogOp κ → Prop
  | .entries f => s.Accepts f → Placed s.commitIndex s.log f.entries
  | _ => True

instance (s : RaftState κ) (op : LogOp κ) : Decidable (InPlace s op) := by
  cases op <;> dsimp only [InPlace] <;> infer_instance

/-- The index of an entry is its position. -/
def Indexed (log : List (LogEntry κ)) : Prop :=
  ∀ i (e : LogEntry κ), log[i]? = some e → e.index = i

/-- What a log is for: indices are positions, what is applied is committed and
    what is committed is there, and no frame makes the code read past the end. -/
structure LogSound (s : RaftState κ) : Prop where
  indexed : Indexed s.log
  applied : s.lastApplied ≤ s.commitIndex
  committed : s.commitIndex ≤ s.lastLogIndex
  inBounds : ∀ f, (s.handleAppendEntries f).2 ≠ none

section
variable {s : RaftState κ} {log : List (LogEntry κ)} {e : LogEntry κ}

theorem indexed_of_range (h : log.map LogEntry.index = List.range log.length) : Indexed log := by
  intro i e found
  have inside := (List.getElem?_eq_some_iff.mp found).1
  have position : (log.map LogEntry.index)[i]? = some i := by
    rw [h, List.getElem?_range inside]
  rw [List.getElem?_map, found] at position
  exact Option.some.inj position

theorem Indexed.append (h : Indexed log) (next : e.index = log.length) : Indexed (log ++ [e]) := by
  intro i x found
  rw [List.getElem?_append] at found
  split at found
  · exact h i x found
  · rename_i beyond
    rw [List.getElem?_singleton] at found
    split at found
    · cases found
      omega
    · contradiction

theorem Indexed.take (h : Indexed log) (n : Nat) : Indexed (log.take n) := by
  intro i x found
  rw [List.getElem?_take] at found
  split at found
  · exact h i x found
  · contradiction

theorem Indexed.last (h : Indexed s.log) (filled : s.log ≠ []) :
    s.lastLogIndex + 1 = s.log.length := by
  have positive := List.length_pos_iff.mpr filled
  have last : s.log.getLast? = some (s.log.getLast filled) :=
    List.getLast?_eq_getLast_of_ne_nil filled
  have position : s.log[s.log.length - 1]? = some (s.log.getLast filled) := by
    rw [← last, List.getLast?_eq_getElem?]
  rw [RaftState.lastLogIndex, last, Option.map_some, Option.getD_some, h _ _ position]
  omega

theorem appendEntry_indexed (h : Indexed log) (near : e.index ≤ log.length) :
    Indexed (RaftState.appendEntry log e) := by
  unfold RaftState.appendEntry
  split
  · rename_i old found
    have inside := (List.getElem?_eq_some_iff.mp found).1
    split
    · refine (h.take _).append ?_
      rw [List.length_take]
      omega
    · exact h
  · rename_i missing
    have beyond := List.getElem?_eq_none_iff.mp missing
    exact h.append (Nat.le_antisymm near beyond)

theorem appendEntry_reaches {commitIndex : Nat} (reaches : commitIndex < log.length)
    (above : ∀ old ∈ log[e.index]?, old.term ≠ e.term → commitIndex < e.index) :
    commitIndex < (RaftState.appendEntry log e).length := by
  unfold RaftState.appendEntry
  split
  · rename_i old found
    have inside := (List.getElem?_eq_some_iff.mp found).1
    split
    · rename_i conflict
      have := above old found conflict
      rw [List.length_append, List.length_take, List.length_singleton]
      omega
    · exact reaches
  · rw [List.length_append]
    omega

theorem foldl_appendEntry {commitIndex : Nat} (entries : List (LogEntry κ)) (h : Indexed log)
    (reaches : commitIndex < log.length) (placed : Placed commitIndex log entries) :
    Indexed (entries.foldl RaftState.appendEntry log) ∧
      commitIndex < (entries.foldl RaftState.appendEntry log).length := by
  induction entries generalizing log with
  | nil => exact ⟨h, reaches⟩
  | cons e es ih =>
    exact ih (appendEntry_indexed h placed.1.1) (appendEntry_reaches reaches placed.1.2) placed.2

/-- The invariant of the runs below: as in `LogSound`, with the length in place
    of the last index. -/
structure WithinLog (s : RaftState κ) : Prop where
  indexed : Indexed s.log
  applied : s.lastApplied ≤ s.commitIndex
  committed : s.commitIndex < s.log.length

theorem WithinLog.filled (h : WithinLog s) : s.log ≠ [] := by
  have reaches := h.committed
  exact List.length_pos_iff.mp (by omega)

theorem WithinLog.last (h : WithinLog s) : s.lastLogIndex + 1 = s.log.length :=
  h.indexed.last h.filled

/-- Where indices are positions, the consistency check stays within the log. -/
theorem Indexed.answers (h : Indexed s.log) (filled : s.log ≠ []) (f : AppendEntries κ) :
    (s.handleAppendEntries f).2 ≠ none := by
  have checked : s.prevMatches f.prevLogIndex f.prevLogTerm ≠ none := by
    unfold RaftState.prevMatches
    split
    · split
      · simp
      · have last := h.last filled
        have inside : f.prevLogIndex < s.log.length := by omega
        simp [inside]
    · simp
  unfold RaftState.handleAppendEntries
  split
  · simp
  · simp only [RaftState.prevMatches_follow]
    split
    · contradiction
    · simp
    · simp

theorem WithinLog.sound (h : WithinLog s) : LogSound s := by
  refine ⟨h.indexed, h.applied, ?_, h.indexed.answers h.filled⟩
  have last := h.last
  have committed := h.committed
  omega

theorem withinLog_entries (h : WithinLog s) {f : AppendEntries κ}
    (placed : s.Accepts f → Placed s.commitIndex s.log f.entries) :
    WithinLog (s.handleAppendEntries f).1 := by
  rcases s.handleAppendEntries_cases f with ⟨same, -⟩ | ⟨accepts, log, applied, commit, -⟩
  · obtain ⟨log, commit, applied⟩ := same
    refine ⟨?_, ?_, ?_⟩
    · rw [log]
      exact h.indexed
    · rw [applied, commit]
      exact h.applied
    · rw [log, commit]
      exact h.committed
  · obtain ⟨indexed, reaches⟩ := foldl_appendEntry f.entries h.indexed h.committed (placed accepts)
    rw [← log] at indexed reaches
    have last := indexed.last (List.length_pos_iff.mp (by omega))
    have before := h.applied
    refine ⟨indexed, ?_, ?_⟩
    · rw [applied, commit]
      split <;> omega
    · rw [commit]
      split <;> omega

theorem withinLog_step (h : WithinLog s) {op : LogOp κ} (inPlace : InPlace s op) :
    WithinLog (s.step op) := by
  cases op with
  | append command =>
    simp only [RaftState.step, RaftState.appendCommand]
    split
    · exact h
    · refine ⟨h.indexed.append h.last, h.applied, ?_⟩
      have committed := h.committed
      simp only [List.length_append]
      omega
  | entries f => exact withinLog_entries h inPlace
  | promote nodeId => exact ⟨h.indexed, h.applied, h.committed⟩
  | drain =>
    refine ⟨h.indexed, ?_, h.committed⟩
    have applied := h.applied
    simp only [RaftState.step, RaftState.drainUnapplied]
    omega

end

/-- A group as it is created: a follower of nobody, or the leader of a new queue. -/
def RaftState.created (sentinel : κ) (currentTerm : UInt64) (role : RaftRole)
    (leaderId : Option UInt64) : RaftState κ :=
  { RaftState.new sentinel with
    currentTerm
    role
    leaderId }

/-- Any sequence of local appends and frames, for queues and for metadata. -/
theorem log_sound (sentinel : κ) (currentTerm : UInt64) (role : RaftRole)
    (leaderId : Option UInt64) (ops : List (LogOp κ))
    (inPlace : Run.Along RaftState.step InPlace (.created sentinel currentTerm role leaderId) ops) :
    LogSound (Run.run RaftState.step (.created sentinel currentTerm role leaderId) ops) := by
  refine (Run.invariant (fun _ s => WithinLog s) ?_
    (fun _ _ _ allowed h => withinLog_step h allowed) inPlace).sound
  refine ⟨?_, Nat.le_refl _, Nat.zero_lt_one⟩
  intro i e found
  cases i with
  | zero =>
    cases found
    rfl
  | succ i => contradiction

/-- The log of a quorum queue as `RaftQueueState.new` makes it. -/
def newGroup : RaftState RaftCommand := .created (.ack 0) 0 .follower none

/-- Entries of one leader, an overwrite by the next, a failover and a local append. -/
def overwrittenLog : List (LogOp RaftCommand) :=
  [.entries ⟨1, 7, 0, 0, [⟨1, 1, .ack 1⟩, ⟨2, 1, .ack 2⟩], 1⟩,
    .entries ⟨2, 8, 1, 1, [⟨2, 2, .ack 3⟩], 2⟩, .promote 9, .append (.ack 4), .drain]

theorem log_sound_overwritten :
    (Run.run RaftState.step newGroup overwrittenLog).log.map LogEntry.term = [0, 1, 2, 3] ∧
      LogSound (Run.run RaftState.step newGroup overwrittenLog) := by
  have inPlace : Run.Along RaftState.step InPlace newGroup overwrittenLog := by decide +kernel
  refine ⟨by decide +kernel, ?_⟩
  exact log_sound (RaftCommand.ack 0) 0 .follower none overwrittenLog inPlace

/-- One frame with an entry far beyond the end. -/
def gapped : RaftState RaftCommand :=
  Run.run RaftState.step newGroup [.entries ⟨1, 7, 0, 0, [⟨5, 1, .ack 1⟩], 0⟩]

/-- The entry is pushed at position 1, and the next frame that refers to a
    position before its index makes the code read past the end. -/
theorem gap_reads_past_end :
    gapped.log.map LogEntry.index = [0, 5] ∧
      (gapped.handleAppendEntries ⟨1, 7, 3, 1, [], 0⟩).2 = none ∧ ¬ LogSound gapped := by
  have panics : (gapped.handleAppendEntries ⟨1, 7, 3, 1, [], 0⟩).2 = none := by decide +kernel
  exact ⟨by decide +kernel, panics, fun sound => sound.inBounds _ panics⟩

end RocketmqBroker
