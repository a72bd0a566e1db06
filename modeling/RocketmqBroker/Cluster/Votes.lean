import RocketmqBroker.Cluster.Coordinator
import RocketmqBroker.Lib.Run

/-!
The votes of one node. Six handlers write the term and the vote, some of them
the term alone, but a vote that was cast in the current term stays until the term
goes on, so within one process a node votes once a term. Nothing of this survives
a crash: a new process starts in term 1 without a vote.
-/
namespace RocketmqBroker

/-- A node with the votes that it has cast, its own for itself among them. -/
structure Voter where
  node : Coordinator
  cast : List (UInt64 × UInt64)

def ClusterInput.candidates : ClusterInput → List UInt64
  | frame _ _ _ (.requestVote _ candidateId) => [candidateId]
  | _ => []

structure VoteStep (c : Coordinator) (candidates : List UInt64) (r : Reaction) : Prop where
  rises : c.currentTerm ≤ r.state.currentTerm
  kept : r.state.currentTerm = c.currentTerm → c.votedFor ≠ 0 → r.state.votedFor = c.votedFor
  cast : ∀ t x, r.cast = some (t, x) →
    t = r.state.currentTerm ∧ r.state.votedFor = x ∧ (x = c.nodeId ∨ x ∈ candidates)
  nodeId : r.state.nodeId = c.nodeId

section
variable {c : Coordinator} {candidates : List UInt64} {r : Reaction}

theorem VoteStep.still (term : r.state.currentTerm = c.currentTerm)
    (vote : r.state.votedFor = c.votedFor) (nodeId : r.state.nodeId = c.nodeId)
    (cast : r.cast = none) : VoteStep c candidates r := by
  refine ⟨?_, fun _ _ => vote, ?_, nodeId⟩
  · rw [term]
    exact UInt64.le_refl _
  · intro t x some
    rw [cast] at some
    contradiction

theorem VoteStep.apart (apart : r.Apart c) : VoteStep c candidates r :=
  .still apart.term apart.vote apart.nodeId apart.cast

theorem VoteStep.raised (term : c.currentTerm < r.state.currentTerm)
    (nodeId : r.state.nodeId = c.nodeId) (cast : r.cast = none) : VoteStep c candidates r := by
  refine ⟨UInt64.le_of_lt term, ?_, ?_, nodeId⟩
  · intro same
    rw [same] at term
    exact absurd term (UInt64.lt_irrefl _)
  · intro t x some
    rw [cast] at some
    contradiction

theorem lt_succ_of_room {n : UInt64} (room : n.toNat + 1 < 2 ^ 64) : n < n + 1 := by
  rw [UInt64.lt_iff_toNat_lt, UInt64.toNat_add]
  have one : (1 : UInt64).toNat = 1 := rfl
  omega

theorem voteStep_requestVotes (room : c.currentTerm.toNat + 1 < 2 ^ 64) :
    VoteStep c candidates c.requestVotes := by
  have later := lt_succ_of_room room
  refine ⟨UInt64.le_of_lt later, ?_, ?_, rfl⟩
  · intro same
    rw [Coordinator.requestVotes] at same
    simp only at same
    rw [same] at later
    exact absurd later (UInt64.lt_irrefl _)
  · intro t x cast
    cases cast
    exact ⟨rfl, rfl, .inl rfl⟩

theorem voteStep_startElection (room : c.currentTerm.toNat + 1 < 2 ^ 64) :
    VoteStep c candidates c.startElection := by
  unfold Coordinator.startElection
  simp only
  split
  · exact voteStep_requestVotes room
  · exact .still rfl rfl rfl rfl

theorem voteStep_poll (room : c.currentTerm.toNat + 1 < 2 ^ 64) (k : Nat) (expired : Bool) :
    VoteStep c candidates (c.poll k expired) := by
  unfold Coordinator.poll
  split
  · exact .still rfl rfl rfl rfl
  · split
    · have opened : VoteStep c candidates c.requestVotes := voteStep_requestVotes room
      exact ⟨opened.rises, opened.kept, opened.cast, opened.nodeId⟩
    · split <;> exact .still rfl rfl rfl rfl
  · exact .still rfl rfl rfl rfl
  · split
    · exact .still rfl rfl rfl rfl
    · split
      · exact .still rfl rfl rfl rfl
      · split <;> exact .still rfl rfl rfl rfl

theorem voteStep_perform (room : c.currentTerm.toNat + 1 < 2 ^ 64) (t : ClusterTask) :
    VoteStep c candidates (c.perform t) := by
  cases t with
  | electionTimeout =>
    unfold Coordinator.perform
    simp only
    split
    · exact voteStep_startElection room
    · exact .still rfl rfl rfl rfl
  | poll k expired => exact voteStep_poll room k expired
  | leaderHeartbeat | publish | ack | callReturns | peerDown | createGroup | appendLocal =>
    exact .apart (apart_perform rfl)

theorem voteStep_requestVote (sender : UInt64) (inbound known : Bool) (term candidateId : UInt64) :
    VoteStep c [candidateId]
      (c.dispatchFrame sender inbound known (.requestVote term candidateId)) := by
  unfold Coordinator.dispatchFrame Coordinator.handleRequestVote
  simp only
  by_cases stale : term < c.currentTerm
  · simp only [stale, if_true]
    exact .still rfl rfl rfl rfl
  · by_cases newer : term > c.currentTerm
    · simp only [stale, newer, if_true, if_false, true_or]
      refine ⟨UInt64.le_of_lt newer, ?_, ?_, rfl⟩
      · intro same
        simp only at same
        rw [same] at newer
        exact absurd newer (UInt64.lt_irrefl _)
      · intro t x cast
        cases cast
        exact ⟨rfl, rfl, .inr (List.mem_singleton_self _)⟩
    · simp only [stale, newer, if_false]
      split
      · rename_i free
        refine ⟨UInt64.le_refl _, ?_, ?_, rfl⟩
        · intro _ voted
          rcases free with none | again
          · exact absurd none voted
          · exact again.symm
        · intro t x cast
          cases cast
          exact ⟨rfl, rfl, .inr (List.mem_singleton_self _)⟩
      · exact .still rfl rfl rfl rfl

theorem voteStep_acceptTerm (term leaderId : UInt64) (sent : List (UInt64 × ClusterFrame)) :
    VoteStep c candidates { state := (c.acceptTerm term leaderId).1, sent } := by
  unfold Coordinator.acceptTerm
  split
  · exact .still rfl rfl rfl rfl
  · split
    · rename_i newer
      exact .raised newer rfl rfl
    · exact .still rfl rfl rfl rfl

theorem voteStep_taken {term : UInt64} (current : ¬ term < c.currentTerm)
    (taken : r.state.currentTerm = term) (vote : r.state.votedFor = c.votedFor)
    (nodeId : r.state.nodeId = c.nodeId) (cast : r.cast = none) : VoteStep c candidates r := by
  refine ⟨?_, fun _ _ => vote, ?_, nodeId⟩
  · rw [taken]
    exact UInt64.not_lt.mp current
  · intro t x some
    rw [cast] at some
    contradiction

theorem voteStep_appendEntries (f : AppendEntries RaftCommand)
    (sent : Option ClusterFrame → List (UInt64 × ClusterFrame)) :
    VoteStep c candidates
      { state := (c.handleAppendEntries f).1, sent := sent (c.handleAppendEntries f).2 } := by
  unfold Coordinator.handleAppendEntries
  split
  · exact .still rfl rfl rfl rfl
  · rename_i current
    simp only
    split <;> exact voteStep_taken current rfl rfl rfl rfl

theorem voteStep_dispatchFrame (sender : UInt64) (inbound known : Bool) (f : ClusterFrame) :
    VoteStep c (ClusterInput.candidates (.frame sender inbound known f))
      (c.dispatchFrame sender inbound known f) := by
  cases f with
  | requestVote term candidateId => exact voteStep_requestVote sender inbound known term candidateId
  | preVoteResponse term voteGranted =>
    unfold Coordinator.dispatchFrame
    cases voteGranted <;> exact .still rfl rfl rfl rfl
  | requestVoteResponse term voteGranted =>
    unfold Coordinator.dispatchFrame Coordinator.handleRequestVoteResponse
    cases voteGranted with
    | true => exact .still rfl rfl rfl rfl
    | false =>
      simp only [Bool.false_eq_true, if_false]
      split
      · rename_i newer
        exact .raised newer rfl rfl
      · exact .still rfl rfl rfl rfl
  | leaderHeartbeat term leaderId =>
    unfold Coordinator.dispatchFrame Coordinator.handleLeaderHeartbeat
    simp only
    split
    · rename_i current
      exact voteStep_taken (UInt64.not_lt.mpr current) rfl rfl rfl rfl
    · exact .still rfl rfl rfl rfl
  | appendEntries f => exact voteStep_appendEntries f fun answer => answer.toList.map (sender, ·)
  | replicatePublish term leaderId queue msgId body => exact voteStep_acceptTerm term leaderId _
  | replicateAck term leaderId queue msgId => exact voteStep_acceptTerm term leaderId _
  | heartbeat nodeId => exact .still rfl rfl rfl rfl
  | preVote | appendEntriesResponse | replicateResponse | nodeDown =>
    exact .apart (apart_dispatchFrame rfl sender inbound known)

theorem voteStep_react (room : c.currentTerm.toNat + 1 < 2 ^ 64) (i : ClusterInput) :
    VoteStep c i.candidates (c.react i) := by
  cases i with
  | task t => exact voteStep_perform room t
  | frame sender inbound known f => exact voteStep_dispatchFrame sender inbound known f
  | closed peer =>
    unfold Coordinator.react
    simp only
    split
    · obtain ⟨rises, kept, cast, nodeId⟩ := voteStep_startElection
        (c := { c with peers := c.peers.filter (· ≠ peer) }) room
      exact ⟨rises, kept, cast, nodeId⟩
    · exact .still rfl rfl rfl rfl

end

/-- What a node goes through: inputs, and crashes followed by a new process on the
    same directory, which reads nothing back for the coordinator. -/
inductive VoterEvent where
  | input (i : ClusterInput)
  | restart
  deriving DecidableEq, Repr

namespace Voter

def start (nodeId : UInt64) : Voter := ⟨.new nodeId, []⟩

def step (v : Voter) : VoterEvent → Voter
  | .input i =>
    let r := v.node.react i
    ⟨r.state, v.cast ++ r.cast.toList⟩
  | .restart => ⟨.new v.node.nodeId, v.cast⟩

/-- Candidates have ids, and terms do not run out. -/
def Regular (v : Voter) (i : ClusterInput) : Prop :=
  (∀ x ∈ i.candidates, x ≠ 0) ∧ v.node.currentTerm.toNat + 1 < 2 ^ 64

/-- As above, and the node crashes only in its first term and before it votes. -/
def Steady (v : Voter) : VoterEvent → Prop
  | .input i => v.Regular i
  | .restart => v.node.currentTerm = 1 ∧ v.node.votedFor = 0

instance (v : Voter) (i : ClusterInput) : Decidable (v.Regular i) :=
  have := List.decidableBAll (· ≠ 0) i.candidates
  inferInstanceAs (Decidable (_ ∧ _))

instance (v : Voter) (e : VoterEvent) : Decidable (v.Steady e) := by
  cases e <;> dsimp only [Steady] <;> infer_instance

/-- The invariant of votes: a vote of the current term is the one that is kept. -/
structure Backed (v : Voter) : Prop where
  own : v.node.nodeId ≠ 0
  kept : ∀ p ∈ v.cast, p.1 ≤ v.node.currentTerm ∧
    (p.1 = v.node.currentTerm → v.node.votedFor = p.2) ∧ p.2 ≠ 0
  single : ∀ term a b, (term, a) ∈ v.cast → (term, b) ∈ v.cast → a = b

theorem backed_input {v : Voter} (h : v.Backed) {i : ClusterInput} (regular : v.Regular i) :
    (v.step (.input i)).Backed := by
  obtain ⟨rises, stays, cast, nodeId⟩ := voteStep_react regular.2 i
  -- the old votes stand, and one of the new term is still the vote of the node
  have old : ∀ p ∈ v.cast, p.1 ≤ (v.node.react i).state.currentTerm ∧
      (p.1 = (v.node.react i).state.currentTerm → (v.node.react i).state.votedFor = p.2) ∧
        p.2 ≠ 0 := by
    intro p member
    obtain ⟨below, vote, real⟩ := h.kept p member
    refine ⟨UInt64.le_trans below rises, ?_, real⟩
    intro now
    have same : (v.node.react i).state.currentTerm = v.node.currentTerm := by
      refine UInt64.le_antisymm ?_ rises
      rw [← now]
      exact below
    have mine := vote (now.trans same)
    rw [stays same (by rw [mine]; exact real), mine]
  refine ⟨?_, ?_, ?_⟩
  · rw [step, nodeId]
    exact h.own
  · intro p member
    rcases List.mem_append.mp member with before | new
    · exact old p before
    · obtain ⟨term, vote, who⟩ := cast p.1 p.2 (Option.mem_toList.mp new)
      refine ⟨UInt64.le_of_eq term, fun _ => vote, ?_⟩
      rcases who with self | named
      · rw [self]
        exact h.own
      · exact regular.1 _ named
  · have agree : ∀ term a b, (term, a) ∈ v.cast → (v.node.react i).cast = some (term, b) →
        a = b := by
      intro term a b before new
      obtain ⟨now, vote, -⟩ := cast term b new
      rw [← vote]
      exact ((old _ before).2.1 now).symm
    intro term a b first second
    rcases List.mem_append.mp first with before | new
    · rcases List.mem_append.mp second with before' | new'
      · exact h.single term a b before before'
      · exact agree term a b before (Option.mem_toList.mp new')
    · rcases List.mem_append.mp second with before' | new'
      · exact (agree term b a before' (Option.mem_toList.mp new)).symm
      · have same := (Option.mem_toList.mp new).symm.trans (Option.mem_toList.mp new')
        exact congrArg Prod.snd (Option.some.inj same)

theorem backed_restart {v : Voter} (h : v.Backed)
    (early : v.node.currentTerm = 1 ∧ v.node.votedFor = 0) : (v.step .restart).Backed := by
  refine ⟨h.own, ?_, h.single⟩
  intro p member
  obtain ⟨below, vote, real⟩ := h.kept p member
  refine ⟨?_, ?_, real⟩
  · rw [early.1] at below
    exact below
  · intro now
    have mine := vote (now.trans early.1.symm)
    rw [early.2] at mine
    exact absurd mine.symm real

theorem backed_step {v : Voter} (h : v.Backed) {e : VoterEvent} (steady : v.Steady e) :
    (v.step e).Backed := by
  cases e with
  | input i => exact backed_input h steady
  | restart => exact backed_restart h steady

theorem term_step {v : Voter} {e : VoterEvent} (steady : v.Steady e) :
    v.node.currentTerm ≤ (v.step e).node.currentTerm := by
  cases e with
  | input i => exact (voteStep_react steady.2 i).rises
  | restart => exact UInt64.le_of_eq steady.1

theorem term_run {v : Voter} {es : List VoterEvent} (steady : Run.Along step Steady v es) :
    v.node.currentTerm ≤ (Run.run step v es).node.currentTerm := by
  induction es generalizing v with
  | nil => exact UInt64.le_refl _
  | cons e es ih => exact UInt64.le_trans (term_step steady.1) (ih steady.2)

theorem backed_start {nodeId : UInt64} (real : nodeId ≠ 0) : (start nodeId).Backed :=
  ⟨real, by simp [start], by simp [start]⟩

theorem backed_run {nodeId : UInt64} (real : nodeId ≠ 0) {es : List VoterEvent}
    (steady : Run.Along step Steady (start nodeId) es) :
    (Run.run step (start nodeId) es).Backed :=
  Run.invariant (fun _ v => v.Backed) (backed_start real)
    (fun _ _ _ allowed h => backed_step h allowed) steady

end Voter

/-- Terms never go back, and no term has votes for two candidates. -/
structure OneVotePerTerm (nodeId : UInt64) (es : List VoterEvent) : Prop where
  rising : ∀ before after, es = before ++ after →
    (Run.run Voter.step (.start nodeId) before).node.currentTerm ≤
      (Run.run Voter.step (.start nodeId) es).node.currentTerm
  single : ∀ term a b, (term, a) ∈ (Run.run Voter.step (.start nodeId) es).cast →
    (term, b) ∈ (Run.run Voter.step (.start nodeId) es).cast → a = b

theorem oneVotePerTerm_steady {nodeId : UInt64} (real : nodeId ≠ 0) {es : List VoterEvent}
    (steady : Run.Along Voter.step Voter.Steady (.start nodeId) es) :
    OneVotePerTerm nodeId es := by
  refine ⟨?_, (Voter.backed_run real steady).single⟩
  rintro before after rfl
  rw [Run.run_append]
  exact Voter.term_run (Run.along_append.mp steady).2

theorem along_inputs {v : Voter} {is : List ClusterInput}
    (regular : Run.Along (fun v i => Voter.step v (.input i)) Voter.Regular v is) :
    Run.Along Voter.step Voter.Steady v (is.map .input) := by
  induction is generalizing v with
  | nil => trivial
  | cons i is ih => exact ⟨regular.1, ih regular.2⟩

/-- Any order of frames and of the node's own elections, in one process. -/
theorem one_vote_per_term (nodeId : UInt64) (real : nodeId ≠ 0) (is : List ClusterInput)
    (regular : Run.Along (fun v i => Voter.step v (.input i)) Voter.Regular (.start nodeId) is) :
    OneVotePerTerm nodeId (is.map .input) :=
  oneVotePerTerm_steady real (along_inputs regular)

/-- A vote for a peer, a newer term from a heartbeat, a refusal in that term, and
    an election when the leader is gone. -/
def votingInputs : List ClusterInput :=
  [.frame 2 true false (.heartbeat 2), .frame 2 true false (.requestVote 3 2),
    .frame 2 true false (.leaderHeartbeat 4 2), .frame 3 true false (.requestVote 4 3), .closed 2]

theorem one_vote_per_term_voting :
    (Run.run Voter.step (.start 1) (votingInputs.map .input)).cast = [(3, 2), (5, 1)] ∧
      OneVotePerTerm 1 (votingInputs.map .input) := by
  refine ⟨by decide +kernel, ?_⟩
  exact one_vote_per_term 1 (by decide) votingInputs (by decide +kernel)

/-- What crashes must not undo: no term has votes for two candidates, and a new
    process is in no lower term than any the node was in before. -/
structure CrashSafe (nodeId : UInt64) (es : List VoterEvent) : Prop where
  single : ∀ term a b, (term, a) ∈ (Run.run Voter.step (.start nodeId) es).cast →
    (term, b) ∈ (Run.run Voter.step (.start nodeId) es).cast → a = b
  resumes : ∀ before between after, es = before ++ between ++ .restart :: after →
    (Run.run Voter.step (.start nodeId) before).node.currentTerm ≤
      (Run.run Voter.step (.start nodeId) (before ++ between ++ [.restart])).node.currentTerm

/-- A run with crashes in which none comes after the first term or the first vote. -/
theorem crashes_keep_votes (nodeId : UInt64) (real : nodeId ≠ 0) (es : List VoterEvent)
    (steady : Run.Along Voter.step Voter.Steady (.start nodeId) es) : CrashSafe nodeId es := by
  refine ⟨(Voter.backed_run real steady).single, ?_⟩
  rintro before between after rfl
  have regrouped : before ++ between ++ .restart :: after =
      before ++ (between ++ [.restart]) ++ after := by simp
  rw [regrouped] at steady
  have upTo := (Run.along_append.mp steady).1
  rw [List.append_assoc, Run.run_append]
  exact Voter.term_run (Run.along_append.mp upTo).2

/-- A node that crashes before it has voted, and then takes part. -/
def earlyCrash : List VoterEvent := .restart :: votingInputs.map .input

theorem crashes_keep_votes_early :
    (Run.run Voter.step (.start 1) earlyCrash).cast = [(3, 2), (5, 1)] ∧
      CrashSafe 1 earlyCrash := by
  refine ⟨by decide +kernel, ?_⟩
  exact crashes_keep_votes 1 (by decide) earlyCrash (by decide +kernel)

/-- A vote in term 5, a crash, and a vote for another candidate in term 5. -/
def crashAfterVote : List VoterEvent :=
  [.input (.frame 2 true false (.requestVote 5 2)), .restart,
    .input (.frame 3 true false (.requestVote 5 3))]

theorem crash_forgets_vote :
    (Run.run Voter.step (.start 1) crashAfterVote).cast = [(5, 2), (5, 3)] ∧
      ¬ CrashSafe 1 crashAfterVote := by
  have both : (Run.run Voter.step (.start 1) crashAfterVote).cast = [(5, 2), (5, 3)] := by
    decide +kernel
  refine ⟨both, ?_⟩
  intro safe
  have same := safe.single 5 2 3 (by rw [both]; decide) (by rw [both]; decide)
  exact absurd same (by decide)

end RocketmqBroker
