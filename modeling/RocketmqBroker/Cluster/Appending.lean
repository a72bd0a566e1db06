import RocketmqBroker.Cluster.LogSound

/-!
One AppendEntries call, when the log of the follower and that of the leader match: they share
their sentinel, and an entry of one term at one index tells that they agree up to it. The call
then leaves the log as it was or makes it the leader's, up to the last entry of the frame.
-/
namespace RocketmqBroker
variable {κ : Type}

/-- An entry in both logs with one term means that they agree as far as it. -/
def TermsTell (log leader : List (LogEntry κ)) : Prop :=
  ∀ i old e, log[i]? = some old → leader[i]? = some e → old.term = e.term →
    log.take (i + 1) = leader.take (i + 1)

structure Departs (log leader : List (LogEntry κ)) (j : Nat) : Prop where
  before : log.take j = leader.take j
  here : ∃ old e, log[j]? = some old ∧ leader[j]? = some e ∧ old.term ≠ e.term

theorem prefix_getElem? {α : Type} {xs ys : List α} (h : xs <+: ys) {i : Nat}
    (inside : i < xs.length) : ys[i]? = xs[i]? := by
  obtain ⟨rest, rfl⟩ := h
  exact List.getElem?_append_left inside

theorem take_succ_eq {xs : List (LogEntry κ)} {n : Nat} {e : LogEntry κ}
    (found : xs[n]? = some e) : xs.take (n + 1) = xs.take n ++ [e] := by
  rw [List.take_add_one, found]
  rfl

theorem termsTell_of_lt {log leader : List (LogEntry κ)} (tell : ∀ i < log.length,
    log[i]?.map LogEntry.term = leader[i]?.map LogEntry.term →
      log.take (i + 1) = leader.take (i + 1)) : TermsTell log leader := by
  intro i old e found here same
  refine tell i (List.getElem?_eq_some_iff.mp found).1 ?_
  rw [found, here]
  exact congrArg some same

theorem termsTell_take (leader : List (LogEntry κ)) (n : Nat) :
    TermsTell (leader.take n) leader := by
  intro i old e found _ _
  have inside := (List.getElem?_eq_some_iff.mp found).1
  rw [List.length_take] at inside
  rw [List.take_take, Nat.min_eq_left (by omega)]

theorem foldl_present (entries log : List (LogEntry κ))
    (present : ∀ e ∈ entries, ∃ old, log[e.index]? = some old ∧ old.term = e.term) :
    entries.foldl RaftState.appendEntry log = log := by
  induction entries with
  | nil => rfl
  | cons e es ih =>
    obtain ⟨old, found, same⟩ := present e List.mem_cons_self
    have unchanged : RaftState.appendEntry log e = log := by
      rw [RaftState.appendEntry, found]
      simp [same]
    rw [List.foldl_cons, unchanged]
    exact ih fun x member => present x (List.mem_cons_of_mem e member)

/-- What the entries of a leader do to a log that agrees with the leader's up to
    where they start: nothing, when the log already has them; else the log ends
    with them, and what it had before is kept or conflicts somewhere. -/
theorem foldl_of_leader {leader : List (LogEntry κ)} (indexed : Indexed leader)
    (entries : List (LogEntry κ)) {n : Nat} {log : List (LogEntry κ)}
    (tell : TermsTell log leader) (agree : log.take n = leader.take n) (reaches : n ≤ log.length)
    (drawn : entries <+: leader.drop n) :
    let log' := entries.foldl RaftState.appendEntry log
    (log' = log ∧ n + entries.length ≤ log.length ∧
        log.take (n + entries.length) = leader.take (n + entries.length)) ∨
      (log' = leader.take (n + entries.length) ∧
        (log <+: log' ∨ ∃ j, n ≤ j ∧ j < n + entries.length ∧ Departs log leader j)) := by
  induction entries generalizing n log with
  | nil => exact .inl ⟨rfl, reaches, agree⟩
  | cons e es ih =>
    obtain ⟨rest, split⟩ := drawn
    have here : leader[n]? = some e := by
      have first := congrArg (·[0]?) split
      simpa [List.getElem?_drop] using first.symm
    have later : es <+: leader.drop (n + 1) := by
      refine ⟨rest, ?_⟩
      rw [← List.drop_drop, ← split]
      rfl
    have index : e.index = n := indexed n e here
    have inside : n < leader.length := (List.getElem?_eq_some_iff.mp here).1
    have length : n + (e :: es).length = n + 1 + es.length := by
      rw [List.length_cons]
      omega
    have taken : log.take n ++ [e] = leader.take (n + 1) := by
      rw [agree, take_succ_eq here]
    -- once the log is cut or extended it is the leader's, up to the entry
    have cut : RaftState.appendEntry log e = leader.take (n + 1) →
        (e :: es).foldl RaftState.appendEntry log = leader.take (n + (e :: es).length) := by
      intro ends
      have shape := ih (termsTell_take leader (n + 1)) (by rw [List.take_take, Nat.min_self])
        (by rw [List.length_take]; omega) later
      rw [List.foldl_cons, ends, length]
      rcases shape with ⟨same, short, -⟩ | ⟨extended, -⟩
      · have none : es.length = 0 := by
          rw [List.length_take] at short
          omega
        rw [same, none, Nat.add_zero]
      · exact extended
    cases found : log[n]? with
    | none =>
      have ends : log.length = n := by
        have beyond := List.getElem?_eq_none_iff.mp found
        omega
      have all : log.take n = log := List.take_of_length_le (by omega)
      have whole := cut (by rw [RaftState.appendEntry, index, found, ← taken, all])
      refine .inr ⟨whole, .inl ?_⟩
      rw [whole, ← all, agree]
      exact List.take_prefix_take_left (by omega)
    | some old =>
      by_cases same : old.term = e.term
      · have unchanged : RaftState.appendEntry log e = log := by
          rw [RaftState.appendEntry, index, found]
          simp [same]
        have position := (List.getElem?_eq_some_iff.mp found).1
        have shape := ih tell (tell n old e found here same) position later
        rw [List.foldl_cons, unchanged, length]
        rcases shape with kept | ⟨ends, grown | ⟨j, above, below, departs⟩⟩
        · exact .inl kept
        · exact .inr ⟨ends, .inl grown⟩
        · exact .inr ⟨ends, .inr ⟨j, by omega, below, departs⟩⟩
      · have whole := cut (by rw [RaftState.appendEntry, index, found, ← taken]; simp [same])
        refine .inr ⟨whole, .inr ⟨n, Nat.le_refl n, ?_, agree, old, e, found, here, same⟩⟩
        rw [List.length_cons]
        omega

/-- The frame carries the leader's entries behind its previous index, and the leader's term
    there. -/
structure AppendEntries.DrawnFrom (f : AppendEntries κ) (leader : List (LogEntry κ)) (m : Nat) :
    Prop where
  inside : f.prevLogIndex + m < leader.length
  prevTerm : leader[f.prevLogIndex]?.map LogEntry.term = some f.prevLogTerm
  entries : f.entries = (leader.drop (f.prevLogIndex + 1)).take m

variable {s : RaftState κ} {leader : List (LogEntry κ)} {sentinel : LogEntry κ}
  {f : AppendEntries κ} {m : Nat}

theorem agree_of_accepts (based : s.log[0]? = some sentinel)
    (based' : leader[0]? = some sentinel) (tell : TermsTell s.log leader)
    (drawn : f.DrawnFrom leader m) (accepts : s.Accepts f) :
    f.prevLogIndex + 1 ≤ s.log.length ∧
      s.log.take (f.prevLogIndex + 1) = leader.take (f.prevLogIndex + 1) := by
  have there : ∃ old, s.log[f.prevLogIndex]? = some old ∧
      leader[f.prevLogIndex]?.map LogEntry.term = some old.term := by
    rcases RaftState.prevMatches_found accepts.2 with zero | ⟨old, found, same⟩
    · rw [zero, based, based']
      exact ⟨sentinel, rfl, rfl⟩
    · rw [drawn.prevTerm, ← same]
      exact ⟨old, found, rfl⟩
  obtain ⟨old, found, same⟩ := there
  obtain ⟨e, here, terms⟩ := Option.map_eq_some_iff.mp same
  exact ⟨(List.getElem?_eq_some_iff.mp found).1, tell _ old e found here terms.symm⟩

theorem again_unchanged (indexed : Indexed s.log) (indexed' : Indexed leader)
    (drawn : f.DrawnFrom leader m) (current : ¬ f.term < s.currentTerm)
    (agree : s.log.take (f.prevLogIndex + m + 1) = leader.take (f.prevLogIndex + m + 1)) :
    s.Accepts f ∧ (s.handleAppendEntries f).1.log = s.log := by
  have inside := drawn.inside
  have same : ∀ i ≤ f.prevLogIndex + m, s.log[i]? = leader[i]? := by
    intro i low
    have equal := congrArg (·[i]?) agree
    simpa [List.getElem?_take, Nat.lt_succ_of_le low] using equal
  have accepts : s.Accepts f := by
    refine ⟨current, ?_⟩
    obtain ⟨e, here, term⟩ := Option.map_eq_some_iff.mp drawn.prevTerm
    rw [← same _ (Nat.le_add_right _ _)] at here
    have long := (List.getElem?_eq_some_iff.mp here).1
    have last := indexed.last (List.length_pos_iff.mp (Nat.lt_of_le_of_lt (Nat.zero_le _) long))
    have low : ¬ f.prevLogIndex > s.lastLogIndex := by omega
    unfold RaftState.prevMatches
    simp [low, here, term]
  refine ⟨accepts, ?_⟩
  rcases s.handleAppendEntries_cases f with ⟨-, refused, -⟩ | ⟨-, log, -⟩
  · exact absurd accepts refused
  · rw [log]
    apply foldl_present
    intro e member
    rw [drawn.entries] at member
    obtain ⟨k, position⟩ := List.mem_iff_getElem?.mp member
    rw [List.getElem?_take] at position
    split at position
    · rename_i short
      rw [List.getElem?_drop] at position
      have index := indexed' _ e position
      refine ⟨e, ?_, rfl⟩
      rw [index, same _ (by omega), position]
    · contradiction

/-- A call that succeeds makes the log agree with the leader's over the whole frame, keeps indices
    positions, drops entries only from the first index on at which the terms differ, and does
    nothing when it comes again. -/
theorem appendEntries_matches (s : RaftState κ) (leader : List (LogEntry κ))
    (sentinel : LogEntry κ) (f : AppendEntries κ) (m : Nat) (term : UInt64)
    (indexed : Indexed s.log) (indexed' : Indexed leader) (based : s.log[0]? = some sentinel)
    (based' : leader[0]? = some sentinel) (tell : TermsTell s.log leader)
    (drawn : f.DrawnFrom leader m) (success : (s.handleAppendEntries f).2 = some (term, true)) :
    let s' := (s.handleAppendEntries f).1
    s'.log.take (f.prevLogIndex + m + 1) = leader.take (f.prevLogIndex + m + 1) ∧
      Indexed s'.log ∧
      (∀ i < s.log.length, s'.log[i]? ≠ s.log[i]? →
        ∃ j ≤ i, j ≤ f.prevLogIndex + m ∧ Departs s.log leader j) ∧
      (s'.handleAppendEntries f).1.log = s'.log ∧
      (s'.handleAppendEntries f).2 = some (term, true) := by
  intro s'
  obtain ⟨accepts, rfl⟩ := RaftState.handleAppendEntries_success.mp success
  obtain ⟨reaches, agree⟩ := agree_of_accepts based based' tell drawn accepts
  rcases s.handleAppendEntries_cases f with ⟨-, refused, -⟩ | ⟨-, log, -, -, current⟩
  · exact absurd accepts refused
  have inside := drawn.inside
  have size : f.entries.length = m := by
    rw [drawn.entries, List.length_take, List.length_drop]
    omega
  have shape := foldl_of_leader indexed' f.entries tell agree reaches
    (by rw [drawn.entries]; exact List.take_prefix _ _)
  rw [size, ← log, show f.prevLogIndex + 1 + m = f.prevLogIndex + m + 1 by omega] at shape
  have whole : s'.log.take (f.prevLogIndex + m + 1) = leader.take (f.prevLogIndex + m + 1) := by
    rcases shape with ⟨same, -, agree'⟩ | ⟨ends, -⟩
    · exact (congrArg (List.take _) same).trans agree'
    · exact (congrArg (List.take _) ends).trans (by rw [List.take_take, Nat.min_self])
  have aligned : Indexed s'.log := by
    rcases shape with ⟨same, -⟩ | ⟨ends, -⟩
    · exact same ▸ indexed
    · exact ends ▸ indexed'.take _
  have notOlder : ¬ f.term < s'.currentTerm := by
    rw [current]
    exact UInt64.lt_irrefl _
  obtain ⟨accepts', again⟩ := again_unchanged aligned indexed' drawn notOlder whole
  refine ⟨whole, aligned, ?_, again, RaftState.handleAppendEntries_success.mpr ⟨accepts', rfl⟩⟩
  intro i present changed
  rcases shape with ⟨same, -⟩ | ⟨ends, grown | ⟨j, -, below, departs⟩⟩
  · exact absurd (congrArg (·[i]?) same) changed
  · exact absurd (prefix_getElem? grown present) changed
  · refine ⟨j, ?_, Nat.le_of_lt_succ below, departs⟩
    by_contra later
    refine changed ?_
    have kept := congrArg (·[i]?) departs.before
    have low : i < j := by omega
    simp only [List.getElem?_take, low, ↓reduceIte] at kept
    change s'.log[i]? = _
    rw [kept, show s'.log = _ from ends, List.getElem?_take, if_pos (by omega)]

/-- A follower with an entry of the first term that the leader of the second does not have. -/
def staleGroup : RaftState RaftCommand :=
  { newGroup with
    currentTerm := 1
    log := [⟨0, 0, .ack 0⟩, ⟨1, 1, .ack 1⟩, ⟨2, 1, .ack 2⟩] }

def secondLog : List (LogEntry RaftCommand) :=
  [⟨0, 0, .ack 0⟩, ⟨1, 1, .ack 1⟩, ⟨2, 2, .ack 3⟩, ⟨3, 2, .ack 4⟩]

/-- The frame starts with an entry that the follower has. -/
def overlappingFrame : AppendEntries RaftCommand := ⟨2, 8, 0, 0, secondLog.tail, 0⟩

theorem appendEntries_matches_overlapping :
    let s' := (staleGroup.handleAppendEntries overlappingFrame).1
    s'.log = secondLog ∧ Indexed s'.log ∧
      (s'.handleAppendEntries overlappingFrame).1.log = s'.log := by
  have indexed : Indexed staleGroup.log := indexed_of_range (by decide)
  have indexed' : Indexed secondLog := indexed_of_range (by decide)
  have tell : TermsTell staleGroup.log secondLog := termsTell_of_lt (by decide)
  have drawn : overlappingFrame.DrawnFrom secondLog 3 := ⟨by decide, rfl, rfl⟩
  have success : (staleGroup.handleAppendEntries overlappingFrame).2 = some (2, true) := by
    decide +kernel
  obtain ⟨-, aligned, -, again, -⟩ := appendEntries_matches staleGroup secondLog ⟨0, 0, .ack 0⟩
    overlappingFrame 3 2 indexed indexed' rfl rfl tell drawn success
  exact ⟨by decide +kernel, aligned, again⟩

end RocketmqBroker
