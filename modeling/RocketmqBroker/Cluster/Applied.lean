import RocketmqBroker.Cluster.Follower

/-!
The commands that the members of a cluster take out of their logs to apply them. A log may be
cut and overwritten in between, but never where commands were taken out, so that all members
apply the same commands in the same order.
-/
namespace RocketmqBroker
variable {κ : Type}

/-- What happens to a member: a frame of a leader comes, or the committed commands are taken. -/
inductive MemberEvent (κ : Type) where
  | receive (d : Delivery κ)
  | drain
  deriving DecidableEq, Repr

/-- A frame that comes is one of a leader. -/
def MemberEvent.Drawn (leaders : Leader κ → Prop) : MemberEvent κ → Prop
  | receive d => leaders d.leader ∧ d.prev < d.leader.log.length
  | drain => True

instance (leaders : Leader κ → Prop) [DecidablePred leaders] (e : MemberEvent κ) :
    Decidable (e.Drawn leaders) := by
  cases e <;> dsimp only [MemberEvent.Drawn] <;> infer_instance

/-- A follower with the commands that it gave out to be applied. -/
structure Applier (κ : Type) where
  follower : Follower κ
  applied : List κ

namespace Applier

def step (feed : Feed) (a : Applier κ) : MemberEvent κ → Applier κ
  | .receive d => { a with follower := a.follower.receive feed d }
  | .drain =>
    { follower := { a.follower with group := a.follower.group.drainUnapplied.1 }
      applied := a.applied ++ a.follower.group.drainUnapplied.2 }

def initial (sentinel : κ) (localTerm : UInt64) : Applier κ := ⟨.initial sentinel localTerm, []⟩

/-- No frame that comes takes a stale entry for committed. -/
def Fresh (feed : Feed) (a : Applier κ) : MemberEvent κ → Prop
  | .receive d => a.follower.Fresh feed d
  | .drain => True

instance (feed : Feed) (a : Applier κ) (e : MemberEvent κ) : Decidable (a.Fresh feed e) := by
  cases e <;> dsimp only [Fresh] <;> infer_instance

end Applier

def commandsUpTo (log : List (LogEntry κ)) (n : Nat) : List κ :=
  ((log.drop 1).take n).map LogEntry.command

def Leader.committedCommands (L : Leader κ) : List κ := commandsUpTo L.log L.commit

def Alongside (xs ys : List κ) : Prop := xs <+: ys ∨ ys <+: xs

instance [DecidableEq κ] (xs ys : List κ) : Decidable (Alongside xs ys) :=
  inferInstanceAs (Decidable (_ ∨ _))

/-- A member has applied each committed command of its log once, as far as it is, and these are
    the commands that the leaders have committed. -/
structure Applier.InStep (leaders : Leader κ → Prop) (a : Applier κ) : Prop where
  once : a.applied = commandsUpTo a.follower.group.log a.follower.group.lastApplied
  committed : a.follower.group.lastApplied ≤ a.follower.group.commitIndex
  alongside : ∀ L, leaders L → Alongside a.applied L.committedCommands

section
variable {log log' : List (LogEntry κ)} {n m : Nat}

theorem commandsUpTo_congr (same : ∀ i, 0 < i → i ≤ n → log[i]? = log'[i]?) :
    commandsUpTo log n = commandsUpTo log' n := by
  refine congrArg (List.map LogEntry.command) (List.ext_getElem? fun i => ?_)
  rw [List.getElem?_take, List.getElem?_take, List.getElem?_drop, List.getElem?_drop]
  split
  · exact same (1 + i) (by omega) (by omega)
  · rfl

theorem commandsUpTo_prefix (fewer : n ≤ m) : commandsUpTo log n <+: commandsUpTo log m :=
  (List.take_prefix_take_left fewer).map _

/-- Logs that agree as far as both go. -/
theorem commandsUpTo_alongside
    (same : ∀ i, 0 < i → i ≤ n → i ≤ m → log[i]? = log'[i]?) :
    Alongside (commandsUpTo log n) (commandsUpTo log' m) := by
  rcases Nat.le_total n m with fewer | more
  · left
    rw [commandsUpTo_congr fun i first low => same i first low (by omega)]
    exact commandsUpTo_prefix fewer
  · right
    rw [← commandsUpTo_congr fun i first low => same i first (by omega) low]
    exact commandsUpTo_prefix more

theorem filterMap_range' (log : List (LogEntry κ)) (start count : Nat) :
    (List.range' start count).filterMap (log[·]?) = (log.drop start).take count := by
  induction count generalizing start with
  | zero => rfl
  | succ count ih =>
    rw [List.range'_succ, List.filterMap_cons, ih]
    cases found : log[start]? with
    | none =>
      have behind : log.length ≤ start := List.getElem?_eq_none_iff.mp found
      rw [List.drop_eq_nil_of_le behind, List.drop_eq_nil_of_le (by omega), List.take_nil,
        List.take_nil]
    | some e =>
      obtain ⟨inside, here⟩ := List.getElem?_eq_some_iff.mp found
      rw [List.drop_eq_getElem_cons inside, here]
      rfl

theorem commandsUpTo_drain {s : RaftState κ} (behind : s.lastApplied ≤ s.commitIndex) :
    commandsUpTo s.log s.lastApplied ++ s.drainUnapplied.2 = commandsUpTo s.log s.commitIndex := by
  have whole : s.commitIndex = s.lastApplied + (s.commitIndex - s.lastApplied) := by omega
  unfold commandsUpTo RaftState.drainUnapplied
  dsimp only
  rw [filterMap_range', ← List.map_append]
  conv_rhs => rw [whole, List.take_add, List.drop_drop, Nat.add_comm 1]

end

section
variable {sentinel : LogEntry κ} {leaders : Leader κ → Prop} {s : RaftState κ} {bound : UInt64}

theorem Follows.commit_grows (h : Follows sentinel leaders bound s)
    (legit : Legitimate sentinel leaders) {d : Delivery κ} (hL : leaders d.leader)
    (drawn : d.prev < d.leader.log.length) (newer : bound ≤ d.leader.term)
    (accepts : s.Accepts d.frame) :
    s.commitIndex ≤ (s.handleAppendEntries d.frame).1.commitIndex := by
  rcases s.handleAppendEntries_cases d.frame with ⟨-, refused, -⟩ | ⟨-, log, -, commit, -⟩
  · exact absurd accepts refused
  · rw [commit]
    split
    · rename_i ahead
      have last : (s.handleAppendEntries d.frame).1.lastLogIndex =
          { s with log := d.entries.foldl RaftState.appendEntry s.log }.lastLogIndex := by
        rw [RaftState.lastLogIndex, log]
        rfl
      rw [last]
      obtain ⟨inside, agree⟩ := h.checked legit hL drawn accepts
      obtain ⟨M, hM, within⟩ := h.within legit hL
      have kept : Follows sentinel leaders d.leader.term
          { s with log := d.entries.foldl RaftState.appendEntry s.log } := by
        rcases appendEntries_shape legit hL d.entries hM within agree inside (List.take_prefix _ _)
          with ⟨same, -, -⟩ | ⟨ends, changed⟩
        · rw [same]
          exact h.later newer
        · rw [ends] at changed ⊢
          exact h.overwritten legit hL newer changed
      have whole := kept.last legit hL
      have reaches := kept.reaches
      have ahead : s.commitIndex < d.frame.leaderCommit := ahead
      have reaches : s.commitIndex < (d.entries.foldl RaftState.appendEntry s.log).length := reaches
      exact Nat.le_min.mpr ⟨Nat.le_of_lt ahead,
        Nat.le_of_lt_succ (Nat.lt_of_lt_of_eq reaches whole.symm)⟩
    · exact Nat.le_refl _

theorem Follows.receive_grows {feed : Feed} {d : Delivery κ} {f : Follower κ}
    (h : Follows sentinel leaders (f.floorTerm feed) f.group)
    (legit : Legitimate sentinel leaders) (hL : leaders d.leader)
    (drawn : d.prev < d.leader.log.length) :
    f.group.commitIndex ≤ (f.receive feed d).group.commitIndex ∧
      (f.receive feed d).group.lastApplied = f.group.lastApplied := by
  have called {bound : UInt64} (h : Follows sentinel leaders bound f.group)
      (newer : f.group.Accepts d.frame → bound ≤ d.leader.term) :
      f.group.commitIndex ≤ (f.group.handleAppendEntries d.frame).1.commitIndex ∧
        (f.group.handleAppendEntries d.frame).1.lastApplied = f.group.lastApplied := by
    rcases f.group.handleAppendEntries_cases d.frame with ⟨same, -⟩ | ⟨accepts, -, applied, -⟩
    · exact ⟨Nat.le_of_eq same.2.1.symm, same.2.2⟩
    · exact ⟨h.commit_grows legit hL drawn (newer accepts) accepts, applied⟩
  cases feed with
  | direct => exact called h fun accepts => UInt64.not_lt.mp accepts.1
  | network =>
    unfold Follower.receive
    dsimp only
    split
    · exact ⟨Nat.le_refl _, rfl⟩
    · rename_i current
      split
      · have whole := h.last legit hL
        have reaches := h.reaches
        constructor
        · rw [RaftState.advanceCommit_commitIndex]
          split <;> omega
        · unfold RaftState.advanceCommit
          split <;> rfl
      · exact called h fun _ => UInt64.not_lt.mp current

theorem Follows.receive_keeps {feed : Feed} {d : Delivery κ} {f : Follower κ}
    (h : Follows sentinel leaders (f.floorTerm feed) f.group)
    (legit : Legitimate sentinel leaders) (hL : leaders d.leader)
    (drawn : d.prev < d.leader.log.length) (fresh : f.Fresh feed d) {i : Nat} (first : 0 < i)
    (committed : i ≤ f.group.commitIndex) :
    (f.receive feed d).group.log[i]? = f.group.log[i]? := by
  have after := (follows_receive h legit hL drawn fresh).agrees legit
  have grows := (h.receive_grows legit hL drawn).1
  obtain ⟨L, hL', inside, e, there, here⟩ := (h.agrees legit).stored i first committed
  rw [after.agree L hL' i (Nat.le_trans committed grows) inside, there, here]

structure Applier.Sound (sentinel : LogEntry κ) (leaders : Leader κ → Prop) (feed : Feed)
    (a : Applier κ) : Prop where
  follows : Follows sentinel leaders (a.follower.floorTerm feed) a.follower.group
  once : a.applied = commandsUpTo a.follower.group.log a.follower.group.lastApplied
  committed : a.follower.group.lastApplied ≤ a.follower.group.commitIndex

namespace Applier
variable {feed : Feed} {a b : Applier κ}

theorem Sound.step (h : a.Sound sentinel leaders feed) (legit : Legitimate sentinel leaders)
    {e : MemberEvent κ} (drawn : e.Drawn leaders) (fresh : a.Fresh feed e) :
    (a.step feed e).Sound sentinel leaders feed := by
  cases e with
  | receive d =>
    obtain ⟨hL, inside⟩ := drawn
    obtain ⟨grows, applied⟩ := h.follows.receive_grows legit hL inside
    have committed := h.committed
    refine ⟨follows_receive h.follows legit hL inside fresh, ?_, ?_⟩
    · refine h.once.trans ?_
      rw [Applier.step, applied]
      exact commandsUpTo_congr fun i first low =>
        (h.follows.receive_keeps legit hL inside fresh first (by omega)).symm
    · rw [Applier.step, applied]
      exact Nat.le_trans committed grows
  | drain =>
    have all : max a.follower.group.lastApplied a.follower.group.commitIndex =
        a.follower.group.commitIndex := Nat.max_eq_right h.committed
    refine ⟨?_, ?_, Nat.le_of_eq all⟩
    · cases feed <;> exact h.follows.congr rfl rfl
    · change a.applied ++ a.follower.group.drainUnapplied.2 =
        commandsUpTo a.follower.group.log (max _ _)
      rw [all, h.once]
      exact commandsUpTo_drain h.committed

theorem Sound.run (legit : Legitimate sentinel leaders) {es : List (MemberEvent κ)}
    (drawn : ∀ e ∈ es, e.Drawn leaders)
    (h : a.Sound sentinel leaders feed) (fresh : Run.Along (Applier.step feed) (Fresh feed) a es) :
    (Run.run (Applier.step feed) a es).Sound sentinel leaders feed := by
  induction es generalizing a with
  | nil => exact h
  | cons e es ih =>
    have next := h.step legit (drawn e List.mem_cons_self) fresh.1
    exact ih (fun e' member => drawn e' (List.mem_cons_of_mem _ member)) next fresh.2

theorem Sound.agree (h : a.Sound sentinel leaders feed) (h' : b.Sound sentinel leaders feed)
    (legit : Legitimate sentinel leaders) {i : Nat} (first : 0 < i)
    (low : i ≤ a.follower.group.commitIndex) (low' : i ≤ b.follower.group.commitIndex) :
    a.follower.group.log[i]? = b.follower.group.log[i]? := by
  obtain ⟨L, hL, inside, e, there, here⟩ := (h.follows.agrees legit).stored i first low
  rw [here, (h'.follows.agrees legit).agree L hL i low' inside, there]

theorem Sound.inStep (h : a.Sound sentinel leaders feed) (legit : Legitimate sentinel leaders) :
    a.InStep leaders where
  once := h.once
  committed := h.committed
  alongside L hL := by
    have committed := h.committed
    rw [h.once]
    exact commandsUpTo_alongside fun i _ low within =>
      (h.follows.agrees legit).agree L hL i (by omega) within

end Applier

end

/-- Two members that get frames of legitimate leaders in any order, and take commands out whenever
    they like, apply the same commands in the same order, each once. -/
theorem applied_commands_agree (feed : Feed) (sentinel : κ) (leaders : Leader κ → Prop)
    (legit : Legitimate ⟨0, 0, sentinel⟩ leaders) (term term' : UInt64)
    (es es' : List (MemberEvent κ))
    (drawn : ∀ e ∈ es ++ es', e.Drawn leaders)
    (fresh : Run.Along (Applier.step feed) (Applier.Fresh feed) (.initial sentinel term) es)
    (fresh' : Run.Along (Applier.step feed) (Applier.Fresh feed) (.initial sentinel term') es') :
    (Run.run (Applier.step feed) (.initial sentinel term) es).InStep leaders ∧
      Alongside (Run.run (Applier.step feed) (.initial sentinel term) es).applied
        (Run.run (Applier.step feed) (.initial sentinel term') es').applied := by
  have start (localTerm : UInt64) :
      (Applier.initial sentinel localTerm).Sound ⟨0, 0, sentinel⟩ leaders feed :=
    ⟨⟨.inl rfl, Nat.zero_lt_one, .inl rfl⟩, rfl, Nat.le_refl _⟩
  have first := (start term).run legit
    (fun e member => drawn e (List.mem_append_left _ member)) fresh
  have second := (start term').run legit
    (fun e member => drawn e (List.mem_append_right _ member)) fresh'
  refine ⟨first.inStep legit, ?_⟩
  have low := first.committed
  have low' := second.committed
  rw [first.once, second.once]
  exact commandsUpTo_alongside fun i ahead below below' =>
    first.agree second legit ahead (by omega) (by omega)

def vhostLeaders : List (Leader MetadataCommand) :=
  [⟨1, 7, [⟨0, 0, .createVhost ""⟩, ⟨1, 1, .createVhost "a"⟩], 0⟩,
    ⟨2, 8, [⟨0, 0, .createVhost ""⟩, ⟨1, 2, .createVhost "b"⟩], 1⟩]

theorem legitimate_vhostLeaders : Legitimate ⟨0, 0, .createVhost ""⟩ (· ∈ vhostLeaders) := by
  refine ⟨?_, ?_, ?_, ?_, ?_, ?_⟩
  · intro L member
    have range : ∀ L ∈ vhostLeaders,
        L.log.map LogEntry.index = List.range L.log.length := by decide
    exact indexed_of_range (range L member)
  all_goals decide

/-- Frames of both leaders, with commands taken out in between. -/
def vhostFrames : List (MemberEvent MetadataCommand) :=
  vhostLeaders.flatMap fun L => [.receive ⟨L, 0, 1⟩, .drain]

theorem applied_commands_agree_overwritten :
    (Run.run (Applier.step .direct) (.initial (.createVhost "") 0) vhostFrames).applied =
        [.createVhost "b"] ∧
      Alongside (Run.run (Applier.step .direct) (.initial (.createVhost "") 0) vhostFrames).applied
        (Run.run (Applier.step .direct) (.initial (.createVhost "") 0)
          (vhostFrames.drop 2)).applied := by
  have drawn : ∀ e ∈ vhostFrames ++ vhostFrames.drop 2, e.Drawn (· ∈ vhostLeaders) := by
    decide +kernel
  refine ⟨by decide +kernel, ?_⟩
  exact (applied_commands_agree .direct (MetadataCommand.createVhost "") (· ∈ vhostLeaders)
    legitimate_vhostLeaders 0 0 vhostFrames (vhostFrames.drop 2) drawn (by decide +kernel)
    (by decide +kernel)).2

end RocketmqBroker
