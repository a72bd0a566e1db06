import RocketmqBroker.Cluster.Appending

/-!
A follower of legitimate leaders. Its log is always that of some leader, up to a
point, but the commit rule takes the leader's commit index for entries that the
frame has not shown to be the leader's, so the commit index is right as long as
no stale entry lies between the two.
-/
namespace RocketmqBroker
variable {κ : Type}

/-- A leader at one moment: its term and id, its log and how far it has committed. -/
structure Leader (κ : Type) where
  term : UInt64
  id : UInt64
  log : List (LogEntry κ)
  commit : Nat
  deriving DecidableEq, Repr

/-- Leaders as the protocol allows them, at all moments: each term has one, whose
    log only grows, logs match, and later leaders have what was committed. -/
structure Legitimate (sentinel : LogEntry κ) (leaders : Leader κ → Prop) : Prop where
  indexed : ∀ L, leaders L → Indexed L.log
  based : ∀ L, leaders L → L.log[0]? = some sentinel
  committed : ∀ L, leaders L → L.commit < L.log.length
  matching : ∀ L, leaders L → ∀ M, leaders M → ∀ i, i < L.log.length →
    L.log[i]?.map LogEntry.term = M.log[i]?.map LogEntry.term →
      L.log.take (i + 1) = M.log.take (i + 1)
  growing : ∀ L, leaders L → ∀ M, leaders M → L.term = M.term →
    L.log <+: M.log ∨ M.log <+: L.log
  complete : ∀ L, leaders L → ∀ M, leaders M → L.term < M.term →
    L.log.take (L.commit + 1) <+: M.log

/-- A frame that a leader draws from its log. -/
structure Delivery (κ : Type) where
  leader : Leader κ
  prev : Nat
  count : Nat
  deriving DecidableEq, Repr

namespace Delivery

def entries (d : Delivery κ) : List (LogEntry κ) :=
  (d.leader.log.drop (d.prev + 1)).take d.count

def frame (d : Delivery κ) : AppendEntries κ where
  term := d.leader.term
  leaderId := d.leader.id
  prevLogIndex := d.prev
  prevLogTerm := (d.leader.log[d.prev]?.map LogEntry.term).getD 0
  entries := d.entries
  leaderCommit := d.leader.commit

end Delivery

/-- How frames reach a log: by the call itself, or through the coordinator, which
    has a term of its own and takes an empty frame for a heartbeat that moves the
    commit index of every group. -/
inductive Feed where
  | direct
  | network
  deriving DecidableEq, Repr

structure Follower (κ : Type) where
  localTerm : UInt64
  group : RaftState κ

namespace Follower

def receive (feed : Feed) (s : Follower κ) (d : Delivery κ) : Follower κ :=
  match feed with
  | .direct => { s with group := (s.group.handleAppendEntries d.frame).1 }
  | .network =>
    if d.frame.term < s.localTerm then s
    else
      let s := { s with localTerm := d.frame.term }
      if d.entries.isEmpty then { s with group := s.group.advanceCommit d.frame.leaderCommit }
      else { s with group := (s.group.handleAppendEntries d.frame).1 }

def Takes (feed : Feed) (s : Follower κ) (d : Delivery κ) : Prop :=
  match feed with
  | .direct => s.group.Accepts d.frame
  | .network => ¬ d.frame.term < s.localTerm ∧ (d.entries ≠ [] → s.group.Accepts d.frame)

def shown (feed : Feed) (d : Delivery κ) : Nat :=
  match feed with
  | .direct => d.prev + d.entries.length
  | .network => if d.entries.isEmpty then 0 else d.prev + d.entries.length

def Conflicts (s : Follower κ) (d : Delivery κ) : Prop :=
  ∃ e ∈ d.entries, ∃ old ∈ s.group.log[e.index]?, old.term ≠ e.term

/-- Unless the frame cuts the log, the follower has no stale entry between what
    the frame shows and the leader's commit index. -/
def Fresh (feed : Feed) (s : Follower κ) (d : Delivery κ) : Prop :=
  s.Takes feed d → ¬ s.Conflicts d → ∀ i, i ≤ d.leader.commit → shown feed d < i →
    ∀ e ∈ s.group.log[i]?, d.leader.log[i]?.map LogEntry.term = some e.term

instance (feed : Feed) (s : Follower κ) (d : Delivery κ) : Decidable (s.Takes feed d) := by
  cases feed <;> dsimp only [Takes] <;> infer_instance

instance (s : Follower κ) (d : Delivery κ) : Decidable (s.Conflicts d) :=
  inferInstanceAs (Decidable (∃ e ∈ d.entries, ∃ old ∈ s.group.log[e.index]?, old.term ≠ e.term))

instance (feed : Feed) (s : Follower κ) (d : Delivery κ) : Decidable (s.Fresh feed d) :=
  inferInstanceAs (Decidable (_ → _ → _))

end Follower

/-- Every committed entry is the one that the leaders committed there. -/
structure CommitsAgree (leaders : Leader κ → Prop) (s : RaftState κ) : Prop where
  stored : ∀ i, 0 < i → i ≤ s.commitIndex →
    ∃ L, leaders L ∧ i ≤ L.commit ∧ ∃ e, L.log[i]? = some e ∧ s.log[i]? = some e
  agree : ∀ L, leaders L → ∀ i, i ≤ s.commitIndex → i ≤ L.commit → s.log[i]? = L.log[i]?

section
variable {sentinel : LogEntry κ} {leaders : Leader κ → Prop} {L M : Leader κ}
  {log : List (LogEntry κ)}

theorem Legitimate.same_entry (legit : Legitimate sentinel leaders) (hL : leaders L)
    (hM : leaders M) {i : Nat} (inside : i < L.log.length)
    (terms : L.log[i]?.map LogEntry.term = M.log[i]?.map LogEntry.term) :
    L.log[i]? = M.log[i]? := by
  have same := congrArg (·[i]?) (legit.matching L hL M hM i inside terms)
  simpa [List.getElem?_take] using same

theorem Legitimate.committed_in (legit : Legitimate sentinel leaders) (hL : leaders L)
    (hM : leaders M) (earlier : L.term ≤ M.term) {i : Nat} (committed : i ≤ L.commit)
    (inside : i < M.log.length) : M.log[i]? = L.log[i]? := by
  have reaches := legit.committed L hL
  rcases UInt64.lt_or_eq_of_le earlier with before | same
  · have kept := prefix_getElem? (legit.complete L hL M hM before) (i := i)
      (by rw [List.length_take]; omega)
    rw [kept, List.getElem?_take, if_pos (by omega)]
  · rcases legit.growing L hL M hM same with grown | shorter
    · exact prefix_getElem? grown (by omega)
    · exact (prefix_getElem? shorter inside).symm

theorem Legitimate.committed_agree (legit : Legitimate sentinel leaders) (hL : leaders L)
    (hM : leaders M) {i : Nat} (first : i ≤ L.commit) (second : i ≤ M.commit) :
    L.log[i]? = M.log[i]? := by
  have reachesL := legit.committed L hL
  have reachesM := legit.committed M hM
  rcases UInt64.le_or_lt L.term M.term with earlier | later
  · exact (legit.committed_in hL hM earlier first (by omega)).symm
  · exact legit.committed_in hM hL (UInt64.le_of_lt later) second (by omega)

theorem Legitimate.termsTell (legit : Legitimate sentinel leaders) (hL : leaders L)
    (hM : leaders M) (within : log <+: M.log) : TermsTell log L.log := by
  intro i old e found here same
  have inside := (List.getElem?_eq_some_iff.mp found).1
  have inM : M.log[i]? = some old := (prefix_getElem? within inside).trans found
  have there := (List.getElem?_eq_some_iff.mp here).1
  have agree := legit.matching L hL M hM i there (by rw [here, inM]; simp [same])
  obtain ⟨rest, grown⟩ := within
  rw [agree, ← grown, List.take_append_of_le_length inside]

/-- What the entries of a leader do to a follower of legitimate leaders. -/
theorem appendEntries_shape (legit : Legitimate sentinel leaders) (hL : leaders L)
    (entries : List (LogEntry κ)) {n : Nat} (hM : leaders M) (within : log <+: M.log)
    (agree : log.take n = L.log.take n) (reaches : n ≤ log.length)
    (drawn : entries <+: L.log.drop n) :
    let log' := entries.foldl RaftState.appendEntry log
    (log' = log ∧ n + entries.length ≤ log.length ∧
        log.take (n + entries.length) = L.log.take (n + entries.length)) ∨
      (log' = L.log.take (n + entries.length) ∧
        (log <+: log' ∨ ∃ j, j < log'.length ∧ ∃ old e, log[j]? = some old ∧
          L.log[j]? = some e ∧ old.term ≠ e.term)) := by
  intro log'
  rcases foldl_of_leader (legit.indexed L hL) entries (legit.termsTell hL hM within) agree reaches
    drawn with kept | ⟨ends, grown | ⟨j, -, below, departs⟩⟩
  · exact .inl kept
  · exact .inr ⟨ends, .inl grown⟩
  · obtain ⟨old, e, found, here, conflict⟩ := departs.here
    refine .inr ⟨ends, .inr ⟨j, ?_, old, e, found, here, conflict⟩⟩
    have inside := (List.getElem?_eq_some_iff.mp here).1
    change j < (entries.foldl RaftState.appendEntry log).length
    rw [ends, List.length_take]
    omega

/-- The invariant of a follower: its log is that of some leader, up to a point,
    and so is what it has committed, of a leader not newer than the bound. -/
structure Follows (sentinel : LogEntry κ) (leaders : Leader κ → Prop) (bound : UInt64)
    (s : RaftState κ) : Prop where
  log : s.log = [sentinel] ∨ ∃ M, leaders M ∧ s.log <+: M.log
  reaches : s.commitIndex < s.log.length
  commit : s.commitIndex = 0 ∨ ∃ L, leaders L ∧ L.term ≤ bound ∧ s.commitIndex ≤ L.commit ∧
    ∀ i ≤ s.commitIndex, s.log[i]? = L.log[i]?

variable {s : RaftState κ} {bound : UInt64}

theorem Follows.within (h : Follows sentinel leaders bound s) (legit : Legitimate sentinel leaders)
    (hL : leaders L) : ∃ M, leaders M ∧ s.log <+: M.log := by
  rcases h.log with only | known
  · refine ⟨L, hL, ?_⟩
    rw [only]
    have first := legit.based L hL
    cases log : L.log with
    | nil =>
      rw [log] at first
      contradiction
    | cons e es =>
      rw [log] at first
      cases first
      exact ⟨es, rfl⟩
  · exact known

theorem Follows.base (h : Follows sentinel leaders bound s) (legit : Legitimate sentinel leaders) :
    s.log[0]? = some sentinel := by
  rcases h.log with only | ⟨M, hM, within⟩
  · rw [only]
    rfl
  · have reaches := h.reaches
    rw [← prefix_getElem? within (by omega)]
    exact legit.based M hM

theorem Follows.later {bound' : UInt64} (h : Follows sentinel leaders bound s)
    (later : bound ≤ bound') : Follows sentinel leaders bound' s := by
  refine ⟨h.log, h.reaches, ?_⟩
  rcases h.commit with none | ⟨L, hL, term, committed, agree⟩
  · exact .inl none
  · exact .inr ⟨L, hL, UInt64.le_trans term later, committed, agree⟩

theorem Follows.last (h : Follows sentinel leaders bound s) (legit : Legitimate sentinel leaders)
    (hL : leaders L) : s.lastLogIndex + 1 = s.log.length := by
  obtain ⟨M, hM, within⟩ := h.within legit hL
  have reaches := h.reaches
  have indexed : Indexed s.log := by
    intro i e found
    have inside := (List.getElem?_eq_some_iff.mp found).1
    exact legit.indexed M hM i e ((prefix_getElem? within inside).trans found)
  exact indexed.last (List.length_pos_iff.mp (by omega))

theorem Follows.advance (h : Follows sentinel leaders bound s) (legit : Legitimate sentinel leaders)
    (hL : leaders L) (newer : bound ≤ L.term)
    (agree : ∀ i ≤ L.commit, i < s.log.length → s.log[i]? = L.log[i]?) :
    Follows sentinel leaders L.term (s.advanceCommit L.commit) := by
  unfold RaftState.advanceCommit
  split
  · have last := h.last legit hL
    have reaches := h.reaches
    refine ⟨h.log, ?_, .inr ⟨L, hL, UInt64.le_refl _, ?_, ?_⟩⟩
    · simp only
      omega
    · simp only
      omega
    · intro i below
      simp only at below
      exact agree i (by omega) (by omega)
  · exact h.later newer

theorem Follows.overwritten (h : Follows sentinel leaders bound s)
    (legit : Legitimate sentinel leaders) (hL : leaders L) (newer : bound ≤ L.term) {n : Nat}
    (changed : s.log <+: L.log.take n ∨ ∃ j, j < (L.log.take n).length ∧ ∃ old e,
      s.log[j]? = some old ∧ L.log[j]? = some e ∧ old.term ≠ e.term) :
    Follows sentinel leaders L.term { s with log := L.log.take n } := by
  have reaches := h.reaches
  rcases changed with kept | ⟨j, inside, old, e, found, here, conflict⟩
  · have grows := kept.length_le
    refine ⟨.inr ⟨L, hL, List.take_prefix _ _⟩, by simp only; omega, ?_⟩
    rcases h.commit with none | ⟨L0, hL0, term, committed, agree⟩
    · exact .inl none
    · refine .inr ⟨L0, hL0, UInt64.le_trans term newer, committed, ?_⟩
      intro i below
      rw [← agree i below]
      simp only at below
      exact prefix_getElem? kept (by omega)
  · -- a conflict at or below the commit index would be with a committed entry
    have base := h.base legit
    have above : s.commitIndex < j := by
      by_contra below
      have low : j ≤ s.commitIndex := by omega
      rcases h.commit with none | ⟨L0, hL0, term, committed, agree⟩
      · obtain rfl : j = 0 := by omega
        have first := legit.based L hL
        rw [base] at found
        rw [first] at here
        cases found
        cases here
        exact conflict rfl
      · have stored := legit.committed_in hL0 hL (UInt64.le_trans term newer) (i := j) (by omega)
          (List.getElem?_eq_some_iff.mp here).1
        rw [← agree j low, found, here] at stored
        cases stored
        exact conflict rfl
    refine ⟨.inr ⟨L, hL, List.take_prefix _ _⟩, by simp only; omega, ?_⟩
    rcases h.commit with none | ⟨L0, hL0, term, committed, agree⟩
    · exact .inl none
    · refine .inr ⟨L0, hL0, UInt64.le_trans term newer, committed, ?_⟩
      intro i below
      simp only at below
      have short : i < (L.log.take n).length := by omega
      rw [← prefix_getElem? (List.take_prefix n L.log) short]
      refine legit.committed_in hL0 hL (UInt64.le_trans term newer) (by omega) ?_
      rw [List.length_take] at short
      omega

theorem Follows.tail (h : Follows sentinel leaders bound s) (legit : Legitimate sentinel leaders)
    (hL : leaders L) {i : Nat} (inside : i < s.log.length)
    (fresh : ∀ e ∈ s.log[i]?, L.log[i]?.map LogEntry.term = some e.term) :
    s.log[i]? = L.log[i]? := by
  obtain ⟨M, hM, within⟩ := h.within legit hL
  obtain ⟨e, found⟩ : ∃ e, s.log[i]? = some e := ⟨_, List.getElem?_eq_getElem inside⟩
  have inM := (prefix_getElem? within inside).trans found
  have terms := fresh e found
  have inM' := (List.getElem?_eq_some_iff.mp inM).1
  rw [found, ← inM]
  exact legit.same_entry hM hL inM' (by rw [inM, terms]; rfl)

theorem Follows.checked (h : Follows sentinel leaders bound s) (legit : Legitimate sentinel leaders)
    {d : Delivery κ} (hL : leaders d.leader) (drawn : d.prev < d.leader.log.length)
    (accepts : s.Accepts d.frame) :
    d.prev < s.log.length ∧ s.log.take (d.prev + 1) = d.leader.log.take (d.prev + 1) := by
  have reaches := h.reaches
  obtain ⟨M, hM, within⟩ := h.within legit hL
  rcases RaftState.prevMatches_found accepts.2 with zero | ⟨e, found, terms⟩
  · have zero : d.prev = 0 := zero
    rw [zero, take_succ_eq (h.base legit), take_succ_eq (legit.based d.leader hL)]
    exact ⟨by omega, rfl⟩
  · have found : s.log[d.prev]? = some e := found
    have inside := (List.getElem?_eq_some_iff.mp found).1
    have inM := (prefix_getElem? within inside).trans found
    have inM' := (List.getElem?_eq_some_iff.mp inM).1
    obtain ⟨x, there⟩ : ∃ x, d.leader.log[d.prev]? = some x :=
      ⟨_, List.getElem?_eq_getElem drawn⟩
    simp only [Delivery.frame, there, Option.map_some, Option.getD_some] at terms
    have same := legit.matching M hM d.leader hL d.prev inM' (by rw [inM, there]; simp [terms])
    obtain ⟨rest, grown⟩ := within
    refine ⟨inside, ?_⟩
    rw [← same, ← grown, List.take_append_of_le_length inside]

theorem Follows.congr {t : RaftState κ} (h : Follows sentinel leaders bound s)
    (log : t.log = s.log) (commit : t.commitIndex = s.commitIndex) :
    Follows sentinel leaders bound t := by
  refine ⟨?_, ?_, ?_⟩
  · rw [log]
    exact h.log
  · rw [log, commit]
    exact h.reaches
  · rw [log, commit]
    exact h.commit

theorem Follows.accepted (h : Follows sentinel leaders bound s)
    (legit : Legitimate sentinel leaders) {d : Delivery κ} (hL : leaders d.leader)
    (drawn : d.prev < d.leader.log.length) (newer : bound ≤ d.leader.term)
    (accepts : s.Accepts d.frame)
    (fresh : (¬ ∃ e ∈ d.entries, ∃ old ∈ s.log[e.index]?, old.term ≠ e.term) →
      ∀ i, i ≤ d.leader.commit → d.prev + d.entries.length < i →
        ∀ e ∈ s.log[i]?, d.leader.log[i]?.map LogEntry.term = some e.term) :
    Follows sentinel leaders d.leader.term (s.handleAppendEntries d.frame).1 := by
  rcases s.handleAppendEntries_cases d.frame with ⟨-, refused, -⟩ | ⟨-, log, -, commit, -⟩
  · exact absurd accepts refused
  · have last : (s.handleAppendEntries d.frame).1.lastLogIndex =
        { s with log := d.entries.foldl RaftState.appendEntry s.log }.lastLogIndex := by
      rw [RaftState.lastLogIndex, log]
      rfl
    refine Follows.congr (s := RaftState.advanceCommit
      { s with log := d.entries.foldl RaftState.appendEntry s.log } d.leader.commit) ?_ ?_ ?_
    rotate_left
    · rw [log, RaftState.advanceCommit_log]
      rfl
    · rw [commit, last, RaftState.advanceCommit_commitIndex]
      rfl
    obtain ⟨inside, agree⟩ := h.checked legit hL drawn accepts
    obtain ⟨M, hM, within⟩ := h.within legit hL
    rcases appendEntries_shape legit hL d.entries hM within agree inside (List.take_prefix _ _)
      with ⟨same, long, agree'⟩ | ⟨ends, changed⟩
    · rw [same]
      have below : ∀ i, i < d.prev + 1 + d.entries.length → s.log[i]? = d.leader.log[i]? := by
        intro i low
        have equal := congrArg (·[i]?) agree'
        simpa [List.getElem?_take, low] using equal
      refine Follows.advance (s := s) h legit hL newer ?_
      intro i committed present
      by_cases low : i < d.prev + 1 + d.entries.length
      · exact below i low
      · refine h.tail legit hL present (fresh ?_ i committed (by omega))
        rintro ⟨e, member, old, found, conflict⟩
        obtain ⟨k, position⟩ := List.mem_iff_getElem?.mp member
        have short := (List.getElem?_eq_some_iff.mp position).1
        have there : d.leader.log[d.prev + 1 + k]? = some e := by
          have taken := (prefix_getElem? (List.take_prefix d.count _) short).trans position
          rwa [List.getElem?_drop] at taken
        have index := legit.indexed d.leader hL _ e there
        rw [index, below _ (by omega), there] at found
        cases found
        exact conflict rfl
    · rw [ends] at changed ⊢
      refine (h.overwritten legit hL newer changed).advance legit hL (UInt64.le_refl _) ?_
      intro i _ present
      exact (prefix_getElem? (List.take_prefix _ _) present).symm

def Follower.floorTerm (feed : Feed) (s : Follower κ) : UInt64 :=
  match feed with
  | .direct => s.group.currentTerm
  | .network => s.localTerm

theorem follows_direct {d : Delivery κ} {f : Follower κ}
    (h : Follows sentinel leaders (f.floorTerm .direct) f.group)
    (legit : Legitimate sentinel leaders) (hL : leaders d.leader)
    (drawn : d.prev < d.leader.log.length) (fresh : f.Fresh .direct d) :
    Follows sentinel leaders ((f.receive .direct d).floorTerm .direct)
      (f.receive .direct d).group := by
  simp only [Follower.receive, Follower.floorTerm] at h ⊢
  rcases f.group.handleAppendEntries_cases d.frame with ⟨same, -, later⟩ | accepted
  · exact (h.congr same.1 same.2.1).later later
  · have term := accepted.2.2.2.2
    rw [term]
    have newer := UInt64.not_lt.mp accepted.1.1
    exact h.accepted legit hL drawn newer accepted.1 (fresh accepted.1)

theorem follows_network {d : Delivery κ} {f : Follower κ}
    (h : Follows sentinel leaders (f.floorTerm .network) f.group)
    (legit : Legitimate sentinel leaders) (hL : leaders d.leader)
    (drawn : d.prev < d.leader.log.length) (fresh : f.Fresh .network d) :
    Follows sentinel leaders ((f.receive .network d).floorTerm .network)
      (f.receive .network d).group := by
  unfold Follower.receive
  simp only
  split
  · exact h
  · rename_i current
    have newer : f.localTerm ≤ d.leader.term := UInt64.not_lt.mp current
    unfold Follower.Fresh Follower.Takes Follower.shown at fresh
    split
    · rename_i empty
      have none : d.entries = [] := List.isEmpty_iff.mp empty
      refine Follows.advance h legit hL newer ?_
      intro i committed present
      by_cases first : i = 0
      · subst first
        rw [h.base legit, legit.based d.leader hL]
      · refine h.tail legit hL present ?_
        refine fresh ⟨current, fun filled => absurd none filled⟩ ?_ i committed ?_
        · rintro ⟨e, member, -⟩
          rw [none] at member
          contradiction
        · simp only [empty, if_true]
          omega
    · rename_i filled
      have filled : d.entries.isEmpty = false := Bool.eq_false_iff.mpr filled
      simp only [Follower.floorTerm]
      rcases f.group.handleAppendEntries_cases d.frame with ⟨same, -, -⟩ | accepted
      · exact (h.congr same.1 same.2.1).later newer
      · refine h.accepted legit hL drawn newer accepted.1 ?_
        intro noConflict i committed beyond
        refine fresh ⟨current, fun _ => accepted.1⟩ noConflict i committed ?_
        simp only [filled, Bool.false_eq_true, if_false]
        exact beyond

theorem follows_receive {feed : Feed} {d : Delivery κ} {f : Follower κ}
    (h : Follows sentinel leaders (f.floorTerm feed) f.group)
    (legit : Legitimate sentinel leaders) (hL : leaders d.leader)
    (drawn : d.prev < d.leader.log.length) (fresh : f.Fresh feed d) :
    Follows sentinel leaders ((f.receive feed d).floorTerm feed) (f.receive feed d).group := by
  cases feed with
  | direct => exact follows_direct h legit hL drawn fresh
  | network => exact follows_network h legit hL drawn fresh

theorem Follows.agrees (h : Follows sentinel leaders bound s)
    (legit : Legitimate sentinel leaders) : CommitsAgree leaders s := by
  have reaches := h.reaches
  rcases h.commit with none | ⟨L, hL, term, committed, agree⟩
  · refine ⟨by omega, ?_⟩
    intro L hL i low _
    obtain rfl : i = 0 := by omega
    rw [h.base legit, legit.based L hL]
  · refine ⟨?_, ?_⟩
    · intro i _ low
      have inside : i < s.log.length := by omega
      refine ⟨L, hL, by omega, s.log[i], ?_, List.getElem?_eq_getElem inside⟩
      rw [← agree i low, List.getElem?_eq_getElem inside]
    · intro M hM i low committed'
      rw [agree i low]
      exact legit.committed_agree hL hM (by omega) committed'

end

/-- The log of a follower with only the sentinel, as a group or the metadata log
    starts, at a node that is already in some term. -/
def Follower.initial (sentinel : κ) (localTerm : UInt64) : Follower κ :=
  ⟨localTerm, RaftState.new sentinel⟩

/-- Frames of legitimate leaders in any order, none of which takes a stale entry
    of the follower for committed. -/
theorem follower_commits_agree (feed : Feed) (sentinel : κ) (leaders : Leader κ → Prop)
    (legit : Legitimate ⟨0, 0, sentinel⟩ leaders) (localTerm : UInt64) (ds : List (Delivery κ))
    (drawn : ∀ d ∈ ds, leaders d.leader ∧ d.prev < d.leader.log.length)
    (fresh : Run.Along (Follower.receive feed) (Follower.Fresh feed)
      (.initial sentinel localTerm) ds) :
    CommitsAgree leaders
      (Run.run (Follower.receive feed) (.initial sentinel localTerm) ds).group := by
  have start : Follows ⟨0, 0, sentinel⟩ leaders
      (Follower.floorTerm feed (.initial sentinel localTerm))
      (Follower.initial sentinel localTerm).group := ⟨.inl rfl, Nat.zero_lt_one, .inl rfl⟩
  have general : ∀ f : Follower κ, Follows ⟨0, 0, sentinel⟩ leaders (f.floorTerm feed) f.group →
      Run.Along (Follower.receive feed) (Follower.Fresh feed) f ds →
      CommitsAgree leaders (Run.run (Follower.receive feed) f ds).group := by
    clear start fresh
    induction ds with
    | nil => exact fun f h _ => h.agrees legit
    | cons d ds ih =>
      intro f h along
      obtain ⟨hL, inside⟩ := drawn d List.mem_cons_self
      exact ih (fun x member => drawn x (List.mem_cons_of_mem _ member)) (f.receive feed d)
        (follows_receive h legit hL inside along.1) along.2
  exact general _ start fresh

/-- A leader whose last entry was never committed. -/
def firstLeader : Leader RaftCommand := ⟨1, 7, [⟨0, 0, .ack 0⟩, ⟨1, 1, .ack 1⟩], 0⟩

def nextLeader : Leader RaftCommand := ⟨2, 8, [⟨0, 0, .ack 0⟩, ⟨1, 2, .ack 2⟩], 1⟩

def twoLeaders (L : Leader RaftCommand) : Prop := L ∈ [firstLeader, nextLeader]

theorem legitimate_twoLeaders : Legitimate ⟨0, 0, .ack 0⟩ twoLeaders := by
  refine ⟨?_, ?_, ?_, ?_, ?_, ?_⟩
  · intro L member
    have range : ∀ L ∈ [firstLeader, nextLeader],
        L.log.map LogEntry.index = List.range L.log.length := by decide
    exact indexed_of_range (range L member)
  all_goals
    unfold twoLeaders
    decide

/-- The second leader overwrites the entry of the first and commits its own. -/
def overwriting : List (Delivery RaftCommand) :=
  [⟨firstLeader, 0, 1⟩, ⟨nextLeader, 0, 1⟩, ⟨nextLeader, 0, 0⟩]

theorem follower_commits_agree_overwritten :
    (Run.run (Follower.receive .network) (.initial (.ack 0) 0) overwriting).group.commitIndex = 1 ∧
      CommitsAgree twoLeaders
        (Run.run (Follower.receive .network) (.initial (.ack 0) 0) overwriting).group := by
  have fresh : Run.Along (Follower.receive .network) (Follower.Fresh .network)
      (.initial (.ack 0) 0) overwriting := by decide +kernel
  have drawn : ∀ d ∈ overwriting, d.leader ∈ [firstLeader, nextLeader] ∧
      d.prev < d.leader.log.length := by decide +kernel
  refine ⟨by decide +kernel, ?_⟩
  exact follower_commits_agree .network (RaftCommand.ack 0) twoLeaders legitimate_twoLeaders 0
    overwriting drawn fresh

/-- The second leader only sends a heartbeat. -/
def staleTail (feed : Feed) : RaftState RaftCommand :=
  (Run.run (Follower.receive feed) (.initial (.ack 0) 0)
    [⟨firstLeader, 0, 1⟩, ⟨nextLeader, 0, 0⟩]).group

/-- The follower takes the stale entry of the first leader for committed, whether
    the heartbeat comes through the coordinator or by the call itself. -/
theorem stale_entry_committed :
    (staleTail .network).commitIndex = 1 ∧ (staleTail .network).log = firstLeader.log ∧
      ¬ CommitsAgree twoLeaders (staleTail .network) ∧
      ¬ CommitsAgree twoLeaders (staleTail .direct) := by
  have stale : ∀ feed, 1 ≤ (staleTail feed).commitIndex ∧
      (staleTail feed).log[1]? ≠ nextLeader.log[1]? := by
    intro feed
    cases feed <;> decide +kernel
  have wrong : ∀ feed, ¬ CommitsAgree twoLeaders (staleTail feed) := by
    intro feed agrees
    have committed : twoLeaders nextLeader := List.mem_cons_of_mem _ List.mem_cons_self
    exact (stale feed).2 (agrees.agree nextLeader committed 1 (stale feed).1 (Nat.le_refl 1))
  exact ⟨by decide +kernel, by decide +kernel, wrong .network, wrong .direct⟩

end RocketmqBroker
