import RocketmqBroker.Cluster.Coordinator
import RocketmqBroker.Lib.Run

/-!
Leadership is a pair, the leader's id and the term, that the code does not write
together: a higher term in a vote request or a refused vote is taken over without
a word to the leader's id. A node that is leader is the winner of its term as long
as no such frame reaches it in that role.
-/
namespace RocketmqBroker

def Election.isRequesting : Election → Bool
  | requesting _ => true
  | _ => false

/-- A node with whether it has stood for election, and the terms that it won. -/
structure Contender where
  node : Coordinator
  stood : Bool
  won : List UInt64

namespace Contender

def start (nodeId : UInt64) : Contender := ⟨.new nodeId, false, []⟩

def step (v : Contender) (i : ClusterInput) : Contender :=
  let r := v.node.react i
  ⟨r.state, v.stood || r.state.elections.any Election.isRequesting, v.won ++ r.elected.toList⟩

end Contender

def Coordinator.proposed (c : Coordinator) (k : Nat) : Option UInt64 :=
  match c.elections[k]? with
  | some (.preVoting proposedTerm) => some proposedTerm
  | _ => none

/-- No frame with a higher term reaches a leader unless it names another one, and
    a leader does not stand for election. Frames name a leader other than their
    receiver, and a node is not its own peer. -/
def Undisputed (v : Contender) : ClusterInput → Prop
  | .frame _ _ _ (.requestVote term _) => v.node.isLeader = true → ¬ term > v.node.currentTerm
  | .frame _ _ _ (.requestVoteResponse term voteGranted) =>
    v.node.isLeader = true → voteGranted = false → ¬ term > v.node.currentTerm
  | .frame _ _ _ (.leaderHeartbeat _ leaderId) => leaderId ≠ v.node.nodeId
  | .frame _ _ _ (.appendEntries f) => f.leaderId ≠ v.node.nodeId
  | .frame _ _ _ (.replicatePublish _ leaderId _ _ _) => leaderId ≠ v.node.nodeId
  | .frame _ _ _ (.replicateAck _ leaderId _ _) => leaderId ≠ v.node.nodeId
  | .task (.poll k _) =>
    ∀ term ∈ v.node.proposed k, v.node.votes term ≥ v.node.quorum → v.node.isLeader = false
  | .closed peer => peer ≠ v.node.nodeId
  | _ => True

instance (v : Contender) (i : ClusterInput) : Decidable (Undisputed v i) := by
  rcases i with t | ⟨_, _, _, f⟩ | _
  · cases t with
    | poll k expired => exact Option.decidableForallMem (v.node.proposed k)
    | _ => exact isTrue trivial
  · apply ClusterFrame.casesOn (motive := fun f => Decidable (Undisputed v (.frame _ _ _ f))) f <;>
      intros <;> dsimp only [Undisputed] <;> infer_instance
  · dsimp only [Undisputed]
    infer_instance

/-- Who considers itself leader in some term has won that term. -/
structure LeaderWon (v : Contender) : Prop where
  won : v.stood = true → v.node.isLeader = true → v.node.currentTerm ∈ v.won

/-- What one stretch of code may do to a leader: leave it in its term, or make it
    one by an election. -/
structure LeadStep (c : Coordinator) (r : Reaction) : Prop where
  leads : r.state.isLeader = true → r.elected = some r.state.currentTerm ∨
    (c.isLeader = true ∧ r.state.currentTerm = c.currentTerm ∧
      (r.state.elections.any Election.isRequesting = true →
        c.elections.any Election.isRequesting = true))

section
variable {c : Coordinator} {r : Reaction}

theorem LeadStep.still (leader : r.state.leaderId = c.leaderId) (own : r.state.nodeId = c.nodeId)
    (term : r.state.currentTerm = c.currentTerm)
    (elections : r.state.elections.Sublist c.elections) : LeadStep c r := by
  constructor
  intro leads
  refine .inr ⟨?_, term, ?_⟩
  · rw [Coordinator.isLeader, ← leader, ← own]
    exact leads
  · intro requesting
    obtain ⟨e, member, isOne⟩ := List.any_eq_true.mp requesting
    exact List.any_eq_true.mpr ⟨e, elections.subset member, isOne⟩

theorem LeadStep.apart (apart : r.Apart c) : LeadStep c r := by
  refine .still apart.leader apart.nodeId apart.term ?_
  rw [apart.elections]

theorem LeadStep.follows (other : r.state.leaderId ≠ r.state.nodeId) : LeadStep c r := by
  constructor
  intro leads
  rw [Coordinator.isLeader, beq_iff_eq] at leads
  exact absurd leads other

theorem leaderId_ne (follows : c.isLeader = false) : c.leaderId ≠ c.nodeId := by
  intro same
  rw [Coordinator.isLeader, same] at follows
  simp at follows

theorem leadStep_requestVotes (follows : c.isLeader = false) : LeadStep c c.requestVotes :=
  .follows (leaderId_ne follows)

theorem leadStep_startElection (follows : c.isLeader = false) : LeadStep c c.startElection := by
  unfold Coordinator.startElection
  simp only
  split
  · exact leadStep_requestVotes follows
  · exact .follows (leaderId_ne follows)

theorem leadStep_poll {k : Nat} (expired : Bool)
    (unopposed : ∀ term, c.elections[k]? = some (.preVoting term) → c.votes term ≥ c.quorum →
      c.isLeader = false) : LeadStep c (c.poll k expired) := by
  unfold Coordinator.poll
  split
  · exact .still rfl rfl rfl (List.Sublist.refl _)
  · rename_i term found
    split
    · rename_i enough
      exact .follows (leaderId_ne (unopposed term found enough))
    · split
      · exact .still rfl rfl rfl (List.eraseIdx_sublist _ _)
      · exact .still rfl rfl rfl (List.Sublist.refl _)
  · rename_i term found
    constructor
    intro leads
    refine .inr ⟨leads, rfl, ?_⟩
    -- a requesting election becomes a voting one, and the others stay
    intro requesting
    exact List.any_eq_true.mpr ⟨_, List.mem_of_getElem? found, rfl⟩
  · rename_i term quorum found
    split
    · exact .still rfl rfl rfl (List.eraseIdx_sublist _ _)
    · rename_i same
      split
      · constructor
        intro _
        refine .inl ?_
        simp only [ne_eq, not_not] at same
        exact congrArg some same.symm
      · split
        · exact .still rfl rfl rfl (List.eraseIdx_sublist _ _)
        · exact .still rfl rfl rfl (List.Sublist.refl _)

theorem leadStep_perform {v : Contender} {t : ClusterTask} (undisputed : Undisputed v (.task t)) :
    LeadStep v.node (v.node.perform t) := by
  cases t with
  | electionTimeout =>
    unfold Coordinator.perform
    simp only
    split
    · rename_i guard
      simp only [Bool.and_eq_true, Bool.not_eq_true'] at guard
      exact leadStep_startElection guard.1
    · exact .still rfl rfl rfl (List.Sublist.refl _)
  | poll k expired =>
    refine leadStep_poll expired fun term found enough => ?_
    exact undisputed term (by simp [Coordinator.proposed, found]) enough
  | leaderHeartbeat | publish | ack | callReturns | peerDown | createGroup | appendLocal =>
    exact .apart (apart_perform rfl)

theorem leadStep_acceptTerm {term leaderId : UInt64} (other : leaderId ≠ c.nodeId)
    (sent : List (UInt64 × ClusterFrame)) :
    LeadStep c { state := (c.acceptTerm term leaderId).1, sent } := by
  unfold Coordinator.acceptTerm
  split
  · exact .still rfl rfl rfl (List.Sublist.refl _)
  · split
    · exact .follows other
    · exact .still rfl rfl rfl (List.Sublist.refl _)

theorem leadStep_requestVote {term candidateId : UInt64}
    (calm : c.isLeader = true → ¬ term > c.currentTerm) (sender : UInt64) (inbound known : Bool) :
    LeadStep c (c.dispatchFrame sender inbound known (.requestVote term candidateId)) := by
  unfold Coordinator.dispatchFrame Coordinator.handleRequestVote
  simp only
  by_cases stale : term < c.currentTerm
  · simp only [stale, if_true]
    exact .still rfl rfl rfl (List.Sublist.refl _)
  · by_cases newer : term > c.currentTerm
    · simp only [stale, newer, if_true, if_false, true_or]
      constructor
      intro leads
      exact absurd newer (calm leads)
    · simp only [stale, newer, if_false]
      split <;> exact .still rfl rfl rfl (List.Sublist.refl _)

theorem leadStep_dispatchFrame {v : Contender} {sender : UInt64} {inbound known : Bool}
    {f : ClusterFrame} (undisputed : Undisputed v (.frame sender inbound known f)) :
    LeadStep v.node (v.node.dispatchFrame sender inbound known f) := by
  cases f with
  | requestVote term candidateId => exact leadStep_requestVote undisputed sender inbound known
  | preVoteResponse term voteGranted =>
    unfold Coordinator.dispatchFrame
    cases voteGranted <;> exact .still rfl rfl rfl (List.Sublist.refl _)
  | requestVoteResponse term voteGranted =>
    unfold Coordinator.dispatchFrame Coordinator.handleRequestVoteResponse
    cases voteGranted with
    | true => exact .still rfl rfl rfl (List.Sublist.refl _)
    | false =>
      simp only [Bool.false_eq_true, if_false]
      split
      · rename_i newer
        constructor
        intro leads
        exact absurd newer (undisputed leads rfl)
      · exact .still rfl rfl rfl (List.Sublist.refl _)
  | leaderHeartbeat term leaderId =>
    unfold Coordinator.dispatchFrame Coordinator.handleLeaderHeartbeat
    simp only
    split
    · exact .follows undisputed
    · exact .still rfl rfl rfl (List.Sublist.refl _)
  | appendEntries f =>
    unfold Coordinator.dispatchFrame Coordinator.handleAppendEntries
    simp only
    split
    · exact .still rfl rfl rfl (List.Sublist.refl _)
    · split <;> exact .follows undisputed
  | replicatePublish term leaderId queue msgId body => exact leadStep_acceptTerm undisputed _
  | replicateAck term leaderId queue msgId => exact leadStep_acceptTerm undisputed _
  | heartbeat nodeId => exact .still rfl rfl rfl (List.Sublist.refl _)
  | preVote | appendEntriesResponse | replicateResponse | nodeDown =>
    exact .apart (apart_dispatchFrame rfl sender inbound known)

theorem leadStep_react {v : Contender} {i : ClusterInput} (undisputed : Undisputed v i) :
    LeadStep v.node (v.node.react i) := by
  cases i with
  | task t => exact leadStep_perform undisputed
  | frame sender inbound known f => exact leadStep_dispatchFrame undisputed
  | closed peer =>
    unfold Coordinator.react
    simp only
    split
    · rename_i gone
      have other : v.node.leaderId ≠ v.node.nodeId := by
        rw [beq_iff_eq.mp gone]
        exact undisputed
      have follows : Coordinator.isLeader
          { v.node with peers := v.node.peers.filter (· ≠ peer) } = false := by
        simpa [Coordinator.isLeader] using other
      obtain ⟨leads⟩ := leadStep_startElection follows
      exact ⟨leads⟩
    · exact .still rfl rfl rfl (List.Sublist.refl _)

end

structure Contender.Sound (v : Contender) : Prop extends LeaderWon v where
  stood : v.node.elections.any Election.isRequesting = true → v.stood = true

theorem Contender.sound_step {v : Contender} (h : v.Sound) {i : ClusterInput}
    (undisputed : Undisputed v i) : (v.step i).Sound := by
  refine ⟨⟨?_⟩, ?_⟩
  · intro stood leads
    rcases (leadStep_react undisputed).leads leads with now | ⟨led, sameTerm, before⟩
    · exact List.mem_append.mpr (.inr (Option.mem_toList.mpr now))
    · have stoodBefore : v.stood = true := by
        rcases Bool.or_eq_true_iff.mp stood with already | requesting
        · exact already
        · exact h.stood (before requesting)
      have won : (v.step i).node.currentTerm ∈ v.won := by
        show (v.node.react i).state.currentTerm ∈ v.won
        rw [sameTerm]
        exact h.won stoodBefore led
      exact List.mem_append.mpr (.inl won)
  · intro requesting
    exact Bool.or_eq_true_iff.mpr (.inr requesting)

/-- Any order of inputs in which a leader is undisputed. -/
theorem leader_won_term (nodeId : UInt64) (is : List ClusterInput)
    (undisputed : Run.Along Contender.step Undisputed (.start nodeId) is) :
    LeaderWon (Run.run Contender.step (.start nodeId) is) := by
  have start : (Contender.start nodeId).Sound := ⟨⟨by simp [Contender.start]⟩, by
    simp [Contender.start, Coordinator.new]⟩
  exact (Run.invariant (fun _ => Contender.Sound) start
    (fun _ _ _ allowed h => Contender.sound_step h allowed) undisputed).toLeaderWon

def electedInputs : List ClusterInput :=
  [.frame 2 true false (.heartbeat 2), .frame 2 true false (.leaderHeartbeat 1 2),
    .task .electionTimeout, .frame 2 true false (.preVoteResponse 2 true), .task (.poll 0 false),
    .frame 2 true false (.requestVoteResponse 2 true), .task (.poll 0 false),
    .task (.poll 0 false)]

def afterElection (is : List ClusterInput) : Contender :=
  Run.run Contender.step (.start 1) (electedInputs ++ is)

/-- The elected node is told of a leader in term 3, and later elected in term 4. -/
def dethroned : List ClusterInput :=
  [.frame 2 true false (.leaderHeartbeat 3 2), .task .electionTimeout,
    .frame 2 true false (.preVoteResponse 4 true), .task (.poll 0 false),
    .frame 2 true false (.requestVoteResponse 4 true), .task (.poll 0 false),
    .task (.poll 0 false)]

theorem leader_won_term_dethroned :
    ((afterElection dethroned).node.isLeader = true ∧ (afterElection dethroned).won = [2, 4]) ∧
      LeaderWon (afterElection dethroned) := by
  refine ⟨by decide +kernel, ?_⟩
  exact leader_won_term 1 (electedInputs ++ dethroned) (by decide +kernel)

/-- The elected node sees a vote request of term 3: it takes the term over, and
    goes on as leader. -/
def outbid : List ClusterInput := [.frame 2 true false (.requestVote 3 2)]

theorem outbid_leader_stays :
    ((afterElection outbid).node.currentTerm = 3 ∧ (afterElection outbid).won = [2]) ∧
      ¬ LeaderWon (afterElection outbid) := by
  have run : ((afterElection outbid).node.currentTerm = 3 ∧ (afterElection outbid).won = [2]) ∧
      (afterElection outbid).stood = true ∧ (afterElection outbid).node.isLeader = true := by
    decide +kernel
  refine ⟨run.1, ?_⟩
  intro all
  have won := all.won run.2.1 run.2.2
  rw [run.1.1, run.1.2] at won
  exact absurd won (by decide)

end RocketmqBroker
