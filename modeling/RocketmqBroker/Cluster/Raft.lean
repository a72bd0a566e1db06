import Mathlib.Data.List.Basic
import RocketmqBroker.Lib.FinMap
import RocketmqBroker.Queue.Message

/-!
The replicated logs (cluster/raft.rs, cluster/metadata.rs): one for each quorum
queue and one for the metadata of the cluster. The two have the same state and
the same rules, for different commands. Log indices are natural numbers, since a
vector ends long before they would wrap.
-/
namespace RocketmqBroker

inductive RaftCommand where
  | enqueue (msgId : UInt64) (body : Bytes)
  | ack (msgId : UInt64)
  deriving DecidableEq, Repr

inductive MetadataCommand where
  | declareExchange (name kind : String) (durable : Bool)
  | deleteExchange (name : String)
  | bindQueue (exchange queue routingKey : String)
  | unbindQueue (exchange queue routingKey : String)
  | createVhost (name : String)
  | deleteVhost (name : String)
  | createUser (username passwordHash : String) (tags : List String)
  | deleteUser (username : String)
  | setPermission (username vhost configure write read : String)
  deriving DecidableEq, Repr

structure LogEntry (κ : Type) where
  index : Nat
  term : UInt64
  command : κ
  deriving DecidableEq, Repr

inductive RaftRole where
  | follower
  | candidate
  | leader
  deriving DecidableEq, Repr

structure RaftState (κ : Type) where
  currentTerm : UInt64
  votedFor : Option UInt64
  log : List (LogEntry κ)
  commitIndex : Nat
  lastApplied : Nat
  role : RaftRole
  leaderId : Option UInt64
  deriving DecidableEq, Repr

structure AppendEntries (κ : Type) where
  term : UInt64
  leaderId : UInt64
  prevLogIndex : Nat
  prevLogTerm : UInt64
  entries : List (LogEntry κ)
  leaderCommit : Nat
  deriving DecidableEq, Repr

namespace RaftState
variable {κ : Type}

/-- A sentinel stands at index 0. -/
def new (sentinel : κ) : RaftState κ := ⟨0, none, [⟨0, 0, sentinel⟩], 0, 0, .follower, none⟩

/-- The index that the last entry carries, which need not be its position. -/
def lastLogIndex (s : RaftState κ) : Nat := (s.log.getLast?.map LogEntry.index).getD 0

def lastLogTerm (s : RaftState κ) : UInt64 := (s.log.getLast?.map LogEntry.term).getD 0

def appendCommand (s : RaftState κ) (command : κ) : RaftState κ × Option (Nat × UInt64) :=
  if s.role ≠ .leader then (s, none)
  else
    let newIndex := s.lastLogIndex + 1
    ({ s with log := s.log ++ [⟨newIndex, s.currentTerm, command⟩] },
      some (newIndex, s.currentTerm))

/-- The consistency check. `none` is the panic of a position that the vector does
    not have: the bound is tested with the index in the last entry. -/
def prevMatches (s : RaftState κ) (prevLogIndex : Nat) (prevLogTerm : UInt64) : Option Bool :=
  if prevLogIndex > 0 then
    if prevLogIndex > s.lastLogIndex then some false
    else s.log[prevLogIndex]?.map fun e => e.term == prevLogTerm
  else some true

/-- One entry of a frame: it overwrites what conflicts with it, and is pushed
    behind the last one wherever its own index lies beyond. -/
def appendEntry (log : List (LogEntry κ)) (entry : LogEntry κ) : List (LogEntry κ) :=
  match log[entry.index]? with
  | some old => if old.term ≠ entry.term then log.take entry.index ++ [entry] else log
  | none => log ++ [entry]

/-- The commit rule: up to the end of the log, whatever the frame has shown of it. -/
def advanceCommit (s : RaftState κ) (leaderCommit : Nat) : RaftState κ :=
  if leaderCommit > s.commitIndex then
    { s with commitIndex := min leaderCommit s.lastLogIndex }
  else s

theorem advanceCommit_log (s : RaftState κ) (leaderCommit : Nat) :
    (s.advanceCommit leaderCommit).log = s.log := by
  unfold advanceCommit
  split <;> rfl

theorem advanceCommit_commitIndex (s : RaftState κ) (leaderCommit : Nat) :
    (s.advanceCommit leaderCommit).commitIndex =
      if leaderCommit > s.commitIndex then min leaderCommit s.lastLogIndex
      else s.commitIndex := by
  unfold advanceCommit
  split <;> rfl

theorem prevMatches_found {s : RaftState κ} {index : Nat} {term : UInt64}
    (h : s.prevMatches index term = some true) :
    index = 0 ∨ ∃ e, s.log[index]? = some e ∧ e.term = term := by
  unfold prevMatches at h
  split at h
  · split at h
    · contradiction
    · obtain ⟨e, found, equal⟩ := Option.map_eq_some_iff.mp h
      exact .inr ⟨e, found, by simpa using equal⟩
  · exact .inl (by omega)

/-- The answer is the term and whether the entries were taken, or `none` when the
    call panics, which leaves the state as it was by then. -/
def handleAppendEntries (s : RaftState κ) (f : AppendEntries κ) :
    RaftState κ × Option (UInt64 × Bool) :=
  if f.term < s.currentTerm then (s, some (s.currentTerm, false))
  else
    let s := { s with
      currentTerm := f.term
      role := .follower
      leaderId := some f.leaderId
      votedFor := none }
    match s.prevMatches f.prevLogIndex f.prevLogTerm with
    | none => (s, none)
    | some false => (s, some (s.currentTerm, false))
    | some true =>
      let s := { s with log := f.entries.foldl appendEntry s.log }.advanceCommit f.leaderCommit
      (s, some (s.currentTerm, true))

def Accepts (s : RaftState κ) (f : AppendEntries κ) : Prop :=
  ¬ f.term < s.currentTerm ∧ s.prevMatches f.prevLogIndex f.prevLogTerm = some true

instance (s : RaftState κ) (f : AppendEntries κ) : Decidable (s.Accepts f) :=
  inferInstanceAs (Decidable (_ ∧ _))

theorem prevMatches_follow (s : RaftState κ) (term : UInt64) (leader : Option UInt64)
    (index : Nat) (prevTerm : UInt64) :
    { s with currentTerm := term, role := .follower, leaderId := leader,
             votedFor := none }.prevMatches index prevTerm = s.prevMatches index prevTerm := rfl

/-- A frame leaves the log and its counters alone, or it is accepted. -/
theorem handleAppendEntries_cases (s : RaftState κ) (f : AppendEntries κ) :
    let s' := (s.handleAppendEntries f).1
    ((s'.log = s.log ∧ s'.commitIndex = s.commitIndex ∧ s'.lastApplied = s.lastApplied) ∧
        ¬ s.Accepts f ∧ s.currentTerm ≤ s'.currentTerm) ∨
      (s.Accepts f ∧ s'.log = f.entries.foldl appendEntry s.log ∧
        s'.lastApplied = s.lastApplied ∧
        s'.commitIndex = (if f.leaderCommit > s.commitIndex then min f.leaderCommit s'.lastLogIndex
          else s.commitIndex) ∧
        s'.currentTerm = f.term) := by
  unfold handleAppendEntries Accepts
  split
  · rename_i stale
    exact .inl ⟨⟨rfl, rfl, rfl⟩, fun accepts => accepts.1 stale, UInt64.le_refl _⟩
  · rename_i current
    have newer := UInt64.not_lt.mp current
    simp only [prevMatches_follow]
    cases s.prevMatches f.prevLogIndex f.prevLogTerm with
    | none => exact .inl ⟨⟨rfl, rfl, rfl⟩, by simp, newer⟩
    | some matching =>
      cases matching with
      | false => exact .inl ⟨⟨rfl, rfl, rfl⟩, by simp, newer⟩
      | true =>
        refine .inr ⟨⟨current, rfl⟩, ?_⟩
        simp only [advanceCommit]
        split <;> exact ⟨rfl, rfl, rfl, rfl⟩

theorem handleAppendEntries_success {s : RaftState κ} {f : AppendEntries κ} {term : UInt64} :
    (s.handleAppendEntries f).2 = some (term, true) ↔ s.Accepts f ∧ f.term = term := by
  unfold handleAppendEntries Accepts
  split
  · rename_i stale
    simp [stale]
  · rename_i current
    simp only [prevMatches_follow]
    cases s.prevMatches f.prevLogIndex f.prevLogTerm with
    | none => simp
    | some matching =>
      cases matching with
      | false => simp
      | true =>
        have kept : ∀ t : RaftState κ, (t.advanceCommit f.leaderCommit).currentTerm =
            t.currentTerm := by
          intro t
          unfold advanceCommit
          split <;> rfl
        simp [current, kept]

/-- Committed entries that were not applied yet, up to the end of the log. -/
def drainUnapplied (s : RaftState κ) : RaftState κ × List κ :=
  let indices := List.range' (s.lastApplied + 1) (s.commitIndex - s.lastApplied)
  ({ s with lastApplied := max s.lastApplied s.commitIndex },
    (indices.filterMap (s.log[·]?)).map LogEntry.command)

def promote (s : RaftState κ) (nodeId : UInt64) : RaftState κ :=
  { s with
    leaderId := some nodeId
    role := .leader
    currentTerm := s.currentTerm + 1
    votedFor := some nodeId }

end RaftState

structure RaftQueueState extends RaftState RaftCommand where
  queueName : String
  nextIndex : FinMap UInt64 Nat
  matchIndex : FinMap UInt64 Nat

namespace RaftQueueState

def new (queueName : String) : RaftQueueState :=
  ⟨RaftState.new (.ack 0), queueName, ∅, ∅⟩

def appendLocalCommand (s : RaftQueueState) (command : RaftCommand) :
    RaftQueueState × Option (Nat × UInt64) :=
  let (state, result) := s.toRaftState.appendCommand command
  ({ s with toRaftState := state }, result)

def handleAppendEntries (s : RaftQueueState) (f : AppendEntries RaftCommand) :
    RaftQueueState × Option (UInt64 × Bool) :=
  let (state, result) := s.toRaftState.handleAppendEntries f
  ({ s with toRaftState := state }, result)

end RaftQueueState

abbrev MetadataRaftState := RaftState MetadataCommand

def MetadataRaftState.new : MetadataRaftState := RaftState.new (.createVhost "")

def MetadataRaftState.appendCommand (s : MetadataRaftState) (command : MetadataCommand) :
    MetadataRaftState × Option Nat :=
  let (state, result) := RaftState.appendCommand s command
  (state, result.map Prod.fst)

end RocketmqBroker
