import RocketmqBroker.Cluster.Votes

/-!
The tally of an election, seen from the candidate. Pre-votes and votes for a term
are counted in one place, which is wiped when the election proper begins. From
then on it holds the candidate's own vote and the votes that came in, unless a
pre-vote comes in late.
-/
namespace RocketmqBroker

def Election.stands : Election → Option UInt64
  | preVoting _ => none
  | requesting newTerm => some newTerm
  | voting newTerm _ => some newTerm

def ClusterFrame.isBallot : ClusterFrame → Bool
  | requestVote _ _ => true
  | requestVoteResponse _ voteGranted => voteGranted
  | _ => false

def ClusterFrame.Signed (sender : UInt64) : ClusterFrame → Prop
  | heartbeat nodeId => nodeId = sender
  | requestVote _ candidateId => candidateId = sender
  | _ => True

namespace ClusterInput

def sender : ClusterInput → Option UInt64
  | frame sender _ _ _ => some sender
  | _ => none

def vote : ClusterInput → Option UInt64
  | frame _ _ _ (.requestVoteResponse term true) => some term
  | _ => none

def preVote : ClusterInput → Option UInt64
  | frame _ _ _ (.preVoteResponse term true) => some term
  | _ => none

def isPublish : ClusterInput → Bool
  | task (.publish _ _ _) => true
  | _ => false

def Within (c : Coordinator) : ClusterInput → Prop
  | task _ => True
  | frame sender _ _ f => sender ∈ c.peers ∧ f.Signed sender
  | closed _ => False

end ClusterInput

/-- What one stretch of code may do to the elections and their tallies, as far as
    terms are concerned that the node has reached. -/
structure TallyStep (c : Coordinator) (i : ClusterInput) (r : Reaction) : Prop where
  votes : ∀ t, t ≤ c.currentTerm →
    r.state.electionVotes.get? t = c.electionVotes.get? t ∨ r.state.electionVotes.get? t = none ∨
      ((i.vote = some t ∨ i.preVote = some t) ∧
        ∃ n, c.electionVotes.get? t = some n ∧ r.state.electionVotes.get? t = some (n + 1))
  running : ∀ t, t ≤ c.currentTerm → r.state.electionVotes.get? t ≠ none →
    ∀ e ∈ c.elections, e.stands = some t → ∃ e' ∈ r.state.elections, e'.stands = some t
  stands : ∀ e ∈ r.state.elections, ∀ t, e.stands = some t →
    r.cast = some (t, c.nodeId) ∨ ∃ e' ∈ c.elections, e'.stands = some t
  quorums : ∀ t n, .voting t n ∈ r.state.elections → .voting t n ∈ c.elections ∨ n = c.quorum
  elected : ∀ t, r.elected = some t → ∃ n, .voting t n ∈ c.elections ∧ n ≤ c.votes t

/-- The ballots that a stretch of code casts and sends: none, the opening of an
    election of its own, or the vote that a candidate asked for. -/
inductive Ballots (c : Coordinator) (i : ClusterInput) (r : Reaction) : Prop where
  | none (cast : r.cast = none) (sent : ∀ m ∈ r.sent, m.2.isBallot = false)
  | opened (term : r.state.currentTerm = c.currentTerm + 1)
      (cast : r.cast = some (c.currentTerm + 1, c.nodeId))
      (sent : r.sent = c.broadcast (.requestVote (c.currentTerm + 1) c.nodeId))
      (tally : r.state.electionVotes.get? (c.currentTerm + 1) = some 1)
      (stands : .requesting (c.currentTerm + 1) ∈ r.state.elections)
  | granted (sender : UInt64) (inbound known : Bool) (term candidateId : UInt64)
      (asked : i = .frame sender inbound known (.requestVote term candidateId))
      (cast : r.cast = some (term, candidateId))
      (sent : r.sent = [(sender, .requestVoteResponse term true)])

structure ElectionStep (c : Coordinator) (i : ClusterInput) (r : Reaction) : Prop where
  peers : r.state.peers = c.peers
  sent : ∀ m ∈ r.sent, (m.1 ∈ c.peers ∨ i.sender = some m.1) ∧ m.2.Signed c.nodeId
  ballots : Ballots c i r
  tally : TallyStep c i r

section
variable {c : Coordinator} {i : ClusterInput} {r : Reaction}

theorem TallyStep.unended (votes : ∀ t,
      r.state.electionVotes.get? t = c.electionVotes.get? t ∨
        ((i.vote = some t ∨ i.preVote = some t) ∧
          ∃ n, c.electionVotes.get? t = some n ∧ r.state.electionVotes.get? t = some (n + 1)))
    (elections : r.state.elections = c.elections) (elected : r.elected = none) :
    TallyStep c i r := by
  constructor
  · intro t _
    exact (votes t).imp id .inr
  · intro t _ _ e member stands
    exact ⟨e, by rw [elections]; exact member, stands⟩
  · intro e member t stands
    rw [elections] at member
    exact .inr ⟨e, member, stands⟩
  · intro t n member
    rw [elections] at member
    exact .inl member
  · intro t won
    rw [elected] at won
    contradiction

theorem TallyStep.still (votes : r.state.electionVotes = c.electionVotes)
    (elections : r.state.elections = c.elections) (elected : r.elected = none) :
    TallyStep c i r :=
  .unended (fun t => .inl (by rw [votes])) elections elected

theorem TallyStep.counted {term : UInt64} (grant : i.vote = some term ∨ i.preVote = some term)
    (votes : r.state.electionVotes = c.electionVotes.modify term (· + 1))
    (elections : r.state.elections = c.elections) (elected : r.elected = none) :
    TallyStep c i r := by
  refine .unended (fun t => ?_) elections elected
  rw [votes, FinMap.get?_modify]
  by_cases same : t = term
  · subst same
    rw [if_pos rfl]
    cases tally : c.electionVotes.get? t with
    | none => exact .inl rfl
    | some n => exact .inr ⟨grant, n, rfl, rfl⟩
  · rw [if_neg same]
    exact .inl rfl

theorem ne_next {n t : UInt64} (room : n < n + 1) (reached : t ≤ n) : t ≠ n + 1 := by
  rintro rfl
  exact absurd (UInt64.lt_of_lt_of_le room reached) (UInt64.lt_irrefl _)

theorem mem_eraseIdx_of_ne {α : Type} {xs : List α} {k : Nat} {x y : α} (at_k : xs[k]? = some y)
    (member : x ∈ xs) (other : x ≠ y) : x ∈ xs.eraseIdx k := by
  obtain ⟨j, found⟩ := List.mem_iff_getElem?.mp member
  refine List.mem_eraseIdx_iff_getElem?.mpr ⟨j, ?_, found⟩
  rintro rfl
  rw [at_k] at found
  exact other (Option.some.inj found).symm

theorem TallyStep.ended {k : Nat} {e : Election} {term : UInt64}
    (at_k : c.elections[k]? = some e) (term_eq : ∀ t, e.stands = some t → t = term)
    (votes : r.state.electionVotes = c.electionVotes.erase term)
    (elections : r.state.elections = c.elections.eraseIdx k)
    (elected : ∀ t, r.elected = some t → ∃ n, .voting t n ∈ c.elections ∧ n ≤ c.votes t) :
    TallyStep c i r := by
  constructor
  · intro t _
    rw [votes, FinMap.get?_erase]
    split
    · exact .inr (.inl rfl)
    · exact .inl rfl
  · intro t _ counted e' member stands
    refine ⟨e', ?_, stands⟩
    rw [elections]
    refine mem_eraseIdx_of_ne at_k member ?_
    rintro rfl
    rw [votes, FinMap.get?_erase, if_pos (term_eq t stands)] at counted
    exact counted rfl
  · intro e' member t stands
    rw [elections] at member
    exact .inr ⟨e', List.mem_of_mem_eraseIdx member, stands⟩
  · intro t n member
    rw [elections] at member
    exact .inl (List.mem_of_mem_eraseIdx member)
  · exact elected

theorem TallyStep.opened {k : Nat} {proposedTerm : UInt64}
    (room : c.currentTerm < c.currentTerm + 1)
    (at_k : c.elections[k]? = some (.preVoting proposedTerm)) :
    TallyStep c i (c.endElection k proposedTerm).requestVotes := by
  constructor
  · intro t reached
    have below := ne_next room reached
    show ((c.electionVotes.erase proposedTerm).insert (c.currentTerm + 1) 1).get? t = _ ∨
      ((c.electionVotes.erase proposedTerm).insert (c.currentTerm + 1) 1).get? t = none ∨ _
    rw [FinMap.get?_insert, if_neg below, FinMap.get?_erase]
    split
    · exact .inr (.inl rfl)
    · exact .inl rfl
  · intro t _ _ e member stands
    refine ⟨e, List.mem_append_left _ (mem_eraseIdx_of_ne at_k member ?_), stands⟩
    rintro rfl
    contradiction
  · intro e member t stands
    rcases List.mem_append.mp member with old | new
    · exact .inr ⟨e, List.mem_of_mem_eraseIdx old, stands⟩
    · rw [List.mem_singleton.mp new] at stands
      cases stands
      exact .inl rfl
  · intro t n member
    rcases List.mem_append.mp member with old | new
    · exact .inl (List.mem_of_mem_eraseIdx old)
    · exact absurd (List.mem_singleton.mp new) (by simp)
  · intro t won
    contradiction

theorem TallyStep.proposed (room : c.currentTerm < c.currentTerm + 1)
    (votes : r.state.electionVotes = c.electionVotes.insert (c.currentTerm + 1) 1)
    (elections : r.state.elections = c.elections ++ [.preVoting (c.currentTerm + 1)])
    (elected : r.elected = none) : TallyStep c i r := by
  constructor
  · intro t reached
    have below := ne_next room reached
    rw [votes, FinMap.get?_insert, if_neg below]
    exact .inl rfl
  · intro t _ _ e member stands
    exact ⟨e, by rw [elections]; exact List.mem_append_left _ member, stands⟩
  · intro e member t stands
    rw [elections] at member
    rcases List.mem_append.mp member with old | new
    · exact .inr ⟨e, old, stands⟩
    · rw [List.mem_singleton.mp new] at stands
      contradiction
  · intro t n member
    rw [elections] at member
    rcases List.mem_append.mp member with old | new
    · exact .inl old
    · exact absurd (List.mem_singleton.mp new) (by simp)
  · intro t won
    rw [elected] at won
    contradiction

theorem TallyStep.settled {k : Nat} {newTerm : UInt64}
    (at_k : c.elections[k]? = some (.requesting newTerm)) :
    TallyStep c i
      { state := { c with elections := c.elections.set k (.voting newTerm c.quorum) } } := by
  have replaced : ∀ e ∈ c.elections.set k (.voting newTerm c.quorum),
      e = .voting newTerm c.quorum ∨ e ∈ c.elections := by
    intro e member
    exact (List.mem_or_eq_of_mem_set member).symm
  constructor
  · intro t _
    exact .inl rfl
  · intro t _ _ e member stands
    by_cases same : e = .requesting newTerm
    · subst same
      obtain ⟨inside, -⟩ := List.getElem?_eq_some_iff.mp at_k
      exact ⟨.voting newTerm c.quorum, List.mem_set inside _, stands⟩
    · refine ⟨e, ?_, stands⟩
      obtain ⟨j, found⟩ := List.mem_iff_getElem?.mp member
      have elsewhere : k ≠ j := by
        rintro rfl
        rw [at_k] at found
        exact same (Option.some.inj found).symm
      refine List.mem_iff_getElem?.mpr ⟨j, ?_⟩
      show (c.elections.set k _)[j]? = _
      rw [List.getElem?_set_ne elsewhere]
      exact found
  · intro e member t stands
    rcases replaced e member with rfl | old
    · exact .inr ⟨.requesting newTerm, List.mem_of_getElem? at_k, stands⟩
    · exact .inr ⟨e, old, stands⟩
  · intro t n member
    rcases replaced _ member with same | old
    · exact .inr (by cases same; rfl)
    · exact .inl old
  · intro t won
    contradiction

def Quiet (c : Coordinator) (i : ClusterInput) (sent : List (UInt64 × ClusterFrame)) : Prop :=
  ∀ m ∈ sent, ((m.1 ∈ c.peers ∨ i.sender = some m.1) ∧ m.2.Signed c.nodeId) ∧
    m.2.isBallot = false

theorem quiet_nil : Quiet c i [] := by simp [Quiet]

theorem quiet_broadcast {f : ClusterFrame} (signed : f.Signed c.nodeId)
    (ballot : f.isBallot = false) : Quiet c i (c.broadcast f) := by
  intro m member
  obtain ⟨p, peer, rfl⟩ := List.mem_map.mp member
  exact ⟨⟨.inl peer, signed⟩, ballot⟩

theorem quiet_reply {sender : UInt64} {inbound known : Bool} {g f : ClusterFrame}
    (signed : f.Signed c.nodeId) (ballot : f.isBallot = false) :
    Quiet c (.frame sender inbound known g) [(sender, f)] := by
  intro m member
  rw [List.mem_singleton.mp member]
  exact ⟨⟨.inr rfl, signed⟩, ballot⟩

theorem quiet_replicate {msgId : UInt64} {f : ClusterFrame} (signed : f.Signed c.nodeId)
    (ballot : f.isBallot = false) : Quiet c i (c.replicate msgId f).sent := by
  unfold Coordinator.replicate
  simp only
  split
  · exact quiet_nil
  · exact quiet_broadcast signed ballot

theorem ElectionStep.quiet (tally : TallyStep c i r) (peers : r.state.peers = c.peers)
    (cast : r.cast = none) (quiet : Quiet c i r.sent) : ElectionStep c i r :=
  ⟨peers, fun m member => (quiet m member).1, .none cast fun m member => (quiet m member).2, tally⟩

theorem ElectionStep.apart (apart : r.Apart c) (quiet : Quiet c i r.sent) : ElectionStep c i r :=
  .quiet (.still apart.votes apart.elections apart.elected) apart.peers apart.cast quiet

theorem ElectionStep.still (votes : r.state.electionVotes = c.electionVotes)
    (elections : r.state.elections = c.elections) (elected : r.elected = none)
    (peers : r.state.peers = c.peers) (cast : r.cast = none) (quiet : Quiet c i r.sent) :
    ElectionStep c i r :=
  .quiet (.still votes elections elected) peers cast quiet

theorem electionStep_startElection (room : c.currentTerm < c.currentTerm + 1)
    (connected : c.peers.isEmpty = false) : ElectionStep c i c.startElection := by
  unfold Coordinator.startElection
  simp only [connected, Bool.false_eq_true, if_false]
  exact .quiet (.proposed room rfl rfl rfl) rfl rfl (quiet_broadcast trivial rfl)

theorem electionStep_poll (room : c.currentTerm < c.currentTerm + 1) (k : Nat) (expired : Bool) :
    ElectionStep c i (c.poll k expired) := by
  unfold Coordinator.poll
  split
  · exact .still rfl rfl rfl rfl rfl quiet_nil
  · rename_i proposedTerm at_k
    have ended : ElectionStep c i { state := c.endElection k proposedTerm } :=
      .quiet (.ended at_k (by simp [Election.stands]) rfl rfl (by simp)) rfl rfl quiet_nil
    split
    · refine ⟨rfl, ?_, ?_, .opened room at_k⟩
      · intro m member
        obtain ⟨p, peer, rfl⟩ := List.mem_map.mp member
        exact ⟨.inl peer, rfl⟩
      · exact .opened rfl rfl rfl (FinMap.get?_insert_self _ _ _) (List.mem_append_right _ (by
          exact List.mem_singleton_self _))
    · split
      · exact ended
      · exact .still rfl rfl rfl rfl rfl quiet_nil
  · rename_i newTerm at_k
    exact .quiet (.settled at_k) rfl rfl quiet_nil
  · rename_i newTerm quorum at_k
    have term_eq : ∀ t, (Election.voting newTerm quorum).stands = some t → t = newTerm := by
      intro t stands
      exact (Option.some.inj stands).symm
    have ended : ElectionStep c i { state := c.endElection k newTerm } :=
      .quiet (.ended at_k term_eq rfl rfl (by simp)) rfl rfl quiet_nil
    split
    · exact ended
    · split
      · rename_i enough
        refine .quiet (.ended at_k term_eq rfl rfl ?_) rfl rfl (quiet_broadcast trivial rfl)
        intro t won
        cases won
        exact ⟨quorum, List.mem_of_getElem? at_k, enough⟩
      · split
        · exact ended
        · exact .still rfl rfl rfl rfl rfl quiet_nil

theorem electionStep_perform (room : c.currentTerm < c.currentTerm + 1) (t : ClusterTask) :
    ElectionStep c i (c.perform t) := by
  cases t with
  | electionTimeout =>
    unfold Coordinator.perform
    simp only
    split
    · rename_i guard
      simp only [Bool.and_eq_true, Bool.not_eq_true'] at guard
      exact electionStep_startElection room guard.2
    · exact .still rfl rfl rfl rfl rfl quiet_nil
  | poll k expired => exact electionStep_poll room k expired
  | leaderHeartbeat =>
    refine .apart (apart_perform rfl) ?_
    unfold Coordinator.perform
    simp only
    split
    · exact quiet_broadcast trivial rfl
    · exact quiet_nil
  | publish queue msgId body => exact .apart (apart_perform rfl) (quiet_replicate trivial rfl)
  | ack queue msgId => exact .apart (apart_perform rfl) (quiet_replicate trivial rfl)
  | peerDown nodeId => exact .apart (apart_perform rfl) (quiet_broadcast trivial rfl)
  | callReturns | createGroup | appendLocal => exact .apart (apart_perform rfl) quiet_nil

theorem electionStep_requestVote (sender : UInt64) (inbound known : Bool)
    (term candidateId : UInt64) :
    ElectionStep c (.frame sender inbound known (.requestVote term candidateId))
      (c.dispatchFrame sender inbound known (.requestVote term candidateId)) := by
  unfold Coordinator.dispatchFrame Coordinator.handleRequestVote
  simp only
  by_cases stale : term < c.currentTerm
  · simp only [stale, if_true]
    exact .still rfl rfl rfl rfl rfl (quiet_reply trivial rfl)
  · have reply : ∀ m ∈ [(sender, ClusterFrame.requestVoteResponse term true)],
        (m.1 ∈ c.peers ∨ some sender = some m.1) ∧ m.2.Signed c.nodeId := by
      intro m member
      rw [List.mem_singleton.mp member]
      exact ⟨.inr rfl, trivial⟩
    by_cases newer : term > c.currentTerm
    · simp only [stale, newer, if_true, if_false, true_or]
      exact ⟨rfl, reply, .granted sender inbound known term candidateId rfl rfl rfl,
        .still rfl rfl rfl⟩
    · have current : c.currentTerm = term :=
        UInt64.le_antisymm (UInt64.not_lt.mp stale) (UInt64.not_lt.mp newer)
      simp only [stale, newer, if_false]
      split
      · simp only [current, if_true]
        exact ⟨rfl, reply, .granted sender inbound known term candidateId rfl rfl rfl,
          .still rfl rfl rfl⟩
      · exact .still rfl rfl rfl rfl rfl (quiet_reply trivial rfl)

theorem electionStep_acceptTerm {sender : UInt64} {inbound known : Bool} {g : ClusterFrame}
    (term leaderId msgId : UInt64) (success : Bool) :
    ElectionStep c (.frame sender inbound known g)
      { state := (c.acceptTerm term leaderId).1,
        sent := [(sender, .replicateResponse term msgId success)] } := by
  unfold Coordinator.acceptTerm
  split
  · exact .still rfl rfl rfl rfl rfl (quiet_reply trivial rfl)
  · split <;> exact .still rfl rfl rfl rfl rfl (quiet_reply trivial rfl)

theorem quiet_answer {sender : UInt64} {inbound known : Bool} (f : AppendEntries RaftCommand) :
    Quiet c (.frame sender inbound known (.appendEntries f))
      ((c.handleAppendEntries f).2.toList.map (sender, ·)) := by
  unfold Coordinator.handleAppendEntries
  split
  · exact quiet_reply trivial rfl
  · simp only
    split
    · exact quiet_reply trivial rfl
    · intro m member
      obtain ⟨answer, made, rfl⟩ := List.mem_map.mp member
      obtain ⟨a, -, rfl⟩ := Option.map_eq_some_iff.mp (Option.mem_toList.mp made)
      exact ⟨⟨.inr rfl, trivial⟩, rfl⟩

theorem quiet_response {sender : UInt64} {inbound known : Bool} (term msgId : UInt64)
    (success : Bool) : Quiet c i (c.dispatchFrame sender inbound known
      (.replicateResponse term msgId success)).sent := by
  unfold Coordinator.dispatchFrame Coordinator.voteReplication
  simp only
  split
  · split
    · exact quiet_nil
    · split
      · split <;> exact quiet_nil
      · exact quiet_nil
  · exact quiet_nil

theorem electionStep_dispatchFrame {sender : UInt64} {inbound known : Bool} {f : ClusterFrame}
    (within : ClusterInput.Within c (.frame sender inbound known f)) :
    ElectionStep c (.frame sender inbound known f) (c.dispatchFrame sender inbound known f) := by
  cases f with
  | heartbeat nodeId =>
    have peer : nodeId ∈ c.peers := by
      rw [show nodeId = sender from within.2]
      exact within.1
    refine .still rfl rfl rfl (if_pos peer) rfl ?_
    unfold Coordinator.dispatchFrame
    simp only
    split
    · exact quiet_reply rfl rfl
    · exact quiet_nil
  | preVote term candidateId =>
    exact .apart (apart_dispatchFrame rfl sender inbound known) (quiet_reply trivial rfl)
  | preVoteResponse term voteGranted =>
    cases voteGranted with
    | true => exact .quiet (.counted (.inr rfl) rfl rfl rfl) rfl rfl quiet_nil
    | false => exact .still rfl rfl rfl rfl rfl quiet_nil
  | requestVote term candidateId =>
    exact electionStep_requestVote sender inbound known term candidateId
  | requestVoteResponse term voteGranted =>
    cases voteGranted with
    | true => exact .quiet (.counted (.inl rfl) rfl rfl rfl) rfl rfl quiet_nil
    | false =>
      unfold Coordinator.dispatchFrame Coordinator.handleRequestVoteResponse
      simp only [Bool.false_eq_true, if_false]
      split <;> exact .still rfl rfl rfl rfl rfl quiet_nil
  | leaderHeartbeat term leaderId =>
    unfold Coordinator.dispatchFrame Coordinator.handleLeaderHeartbeat
    simp only
    split <;> exact .still rfl rfl rfl rfl rfl quiet_nil
  | appendEntries f =>
    have answered : Quiet c (.frame sender inbound known (.appendEntries f))
        ((c.handleAppendEntries f).2.toList.map (sender, ·)) := quiet_answer f
    have kept : (c.handleAppendEntries f).1.electionVotes = c.electionVotes ∧
        (c.handleAppendEntries f).1.elections = c.elections ∧
        (c.handleAppendEntries f).1.peers = c.peers := by
      unfold Coordinator.handleAppendEntries
      split
      · exact ⟨rfl, rfl, rfl⟩
      · simp only
        split <;> exact ⟨rfl, rfl, rfl⟩
    exact .still kept.1 kept.2.1 rfl kept.2.2 rfl answered
  | replicatePublish term leaderId queue msgId body =>
    exact electionStep_acceptTerm term leaderId msgId _
  | replicateAck term leaderId queue msgId => exact electionStep_acceptTerm term leaderId msgId _
  | replicateResponse term msgId success =>
    exact .apart (apart_dispatchFrame rfl sender inbound known) (quiet_response term msgId success)
  | appendEntriesResponse | nodeDown =>
    exact .apart (apart_dispatchFrame rfl sender inbound known) quiet_nil

theorem electionStep_react (room : c.currentTerm < c.currentTerm + 1) (within : i.Within c) :
    ElectionStep c i (c.react i) := by
  cases i with
  | task t => exact electionStep_perform room t
  | frame sender inbound known f => exact electionStep_dispatchFrame within
  | closed peer => exact within.elim

end

/-- A node with the votes that it has cast, the terms of the votes that it was
    given, the terms in which it was elected, the calls in which it replicated a
    publish, and the calls that were confirmed. -/
structure Candidate extends Voter where
  granted : List UInt64
  won : List UInt64
  published : List Nat
  confirmed : List Nat

namespace Candidate

def step (v : Candidate) (i : ClusterInput) : Candidate where
  toVoter := v.toVoter.step (.input i)
  granted := v.granted ++ i.vote.toList
  won := v.won ++ (v.node.react i).elected.toList
  published := if i.isPublish then v.published ++ [v.node.nextCall] else v.published
  confirmed := v.confirmed ++ (v.node.react i).confirmed.toList

/-- A pre-vote comes in before the election proper of its term. -/
def Timely (v : Candidate) (i : ClusterInput) : Prop :=
  ∀ t ∈ i.preVote, ∀ e ∈ v.node.elections, e.stands ≠ some t

structure Tallied (v : Candidate) : Prop where
  backed : v.toVoter.Backed
  stands : ∀ e ∈ v.node.elections, ∀ t, e.stands = some t → (t, v.node.nodeId) ∈ v.cast
  quorums : ∀ t n, .voting t n ∈ v.node.elections → n = v.node.quorum
  running : ∀ t, (t, v.node.nodeId) ∈ v.cast → v.node.electionVotes.get? t ≠ none →
    ∃ e ∈ v.node.elections, e.stands = some t
  counted : ∀ t n, (t, v.node.nodeId) ∈ v.cast → v.node.electionVotes.get? t = some n →
    n ≤ 1 + v.granted.count t
  won : ∀ t ∈ v.won, (t, v.node.nodeId) ∈ v.cast ∧ v.node.quorum ≤ 1 + v.granted.count t

section
variable {v : Candidate} {i : ClusterInput}

theorem count_le (t : UInt64) : v.granted.count t ≤ (v.step i).granted.count t := by
  unfold step
  simp only [List.count_append]
  omega

/-- The votes of the step before count as before, with one more only for a vote
    that comes in. -/
theorem counted_step (h : v.Tallied) (step : TallyStep v.node i (v.node.react i))
    (timely : v.Timely i) {t : UInt64} {n : Nat} (own : (t, v.node.nodeId) ∈ v.cast)
    (tally : (v.node.react i).state.electionVotes.get? t = some n) :
    n ≤ 1 + (v.step i).granted.count t := by
  have grows := v.count_le (i := i) t
  rcases step.votes t (h.backed.kept _ own).1 with same | gone | ⟨grant, m, before, after⟩
  · have bound := h.counted t n own (same.symm.trans tally)
    omega
  · rw [gone] at tally
    contradiction
  · rw [after] at tally
    cases tally
    have bound := h.counted t m own before
    rcases grant with vote | preVote
    · have one : (v.step i).granted.count t = v.granted.count t + 1 := by
        unfold Candidate.step
        simp [vote]
      omega
    · obtain ⟨e, member, stands⟩ := h.running t own (by rw [before]; simp)
      exact absurd stands (timely t preVote e member)

theorem candidates_peers {c : Coordinator} (within : i.Within c) :
    ∀ x ∈ i.candidates, x ∈ c.peers := by
  intro x named
  cases i with
  | frame sender inbound known f =>
    cases f with
    | requestVote term candidateId =>
      rw [List.mem_singleton.mp named, show candidateId = sender from within.2]
      exact within.1
    | _ => contradiction
  | _ => contradiction

theorem own_cast {c : Coordinator} {r : Reaction} (ballots : Ballots c i r) (within : i.Within c)
    (alone : c.nodeId ∉ c.peers) {t : UInt64} (cast : r.cast = some (t, c.nodeId)) :
    r.state.electionVotes.get? t = some 1 ∧ .requesting t ∈ r.state.elections := by
  cases ballots with
  | none nothing => rw [nothing] at cast; contradiction
  | opened term vote sent tally stands =>
    rw [vote] at cast
    cases cast
    exact ⟨tally, stands⟩
  | granted sender inbound known term candidateId asked vote sent =>
    rw [vote] at cast
    cases cast
    subst asked
    exact absurd (candidates_peers within _ (List.mem_singleton_self _)) alone

theorem mem_cast_step {p : UInt64 × UInt64} :
    p ∈ (v.step i).cast ↔ p ∈ v.cast ∨ (v.node.react i).cast = some p := by
  show p ∈ v.cast ++ (v.node.react i).cast.toList ↔ _
  rw [List.mem_append, Option.mem_toList]

theorem mem_won_step {t : UInt64} :
    t ∈ (v.step i).won ↔ t ∈ v.won ∨ (v.node.react i).elected = some t := by
  show t ∈ v.won ++ (v.node.react i).elected.toList ↔ _
  rw [List.mem_append, Option.mem_toList]

theorem quorum_pos (c : Coordinator) : 0 < c.quorum := Nat.succ_pos _

theorem tallied_step (h : v.Tallied) (room : v.node.currentTerm.toNat + 1 < 2 ^ 64)
    (within : i.Within v.node) (alone : v.node.nodeId ∉ v.node.peers)
    (real : ∀ p ∈ v.node.peers, p ≠ 0) (timely : v.Timely i) : (v.step i).Tallied := by
  obtain ⟨peers, -, ballots, tally⟩ := electionStep_react (lt_succ_of_room room) within
  have nodeId : (v.step i).node.nodeId = v.node.nodeId := (voteStep_react room i).nodeId
  have quorum : (v.step i).node.quorum = v.node.quorum := by
    show (v.node.react i).state.quorum = v.node.quorum
    unfold Coordinator.quorum Coordinator.clusterSize
    rw [peers]
  have before : ∀ e' ∈ v.node.elections, ∀ t, e'.stands = some t →
      (t, v.node.nodeId) ∈ (v.step i).cast := by
    intro e' member t stands
    exact mem_cast_step.mpr (.inl (h.stands e' member t stands))
  constructor
  · exact Voter.backed_input h.backed
      ⟨fun x named => real x (candidates_peers within x named), room⟩
  · intro e member t stands
    rw [nodeId]
    rcases tally.stands e member t stands with new | ⟨e', member', stands'⟩
    · exact mem_cast_step.mpr (.inr new)
    · exact before e' member' t stands'
  · intro t n member
    rw [quorum]
    rcases tally.quorums t n member with old | new
    · exact h.quorums t n old
    · exact new
  · intro t own counted
    rw [nodeId] at own
    rcases mem_cast_step.mp own with old | new
    · have someBefore : v.node.electionVotes.get? t ≠ none := by
        intro none
        rcases tally.votes t (h.backed.kept _ old).1 with same | gone | ⟨-, n, found, -⟩
        · exact counted (same.trans none)
        · exact counted gone
        · rw [none] at found
          contradiction
      obtain ⟨e, member, stands⟩ := h.running t old someBefore
      exact tally.running t (h.backed.kept _ old).1 counted e member stands
    · exact ⟨_, (own_cast ballots within alone new).2, rfl⟩
  · intro t n own found
    rw [nodeId] at own
    rcases mem_cast_step.mp own with old | new
    · exact counted_step h tally timely old found
    · have one := (own_cast ballots within alone new).1
      rw [show (v.node.react i).state.electionVotes.get? t = some n from found] at one
      cases one
      omega
  · intro t won
    have grows := v.count_le (i := i) t
    rw [nodeId, quorum]
    rcases mem_won_step.mp won with old | new
    · obtain ⟨own, enough⟩ := h.won t old
      exact ⟨mem_cast_step.mpr (.inl own), by omega⟩
    · obtain ⟨n, member, enough⟩ := tally.elected t new
      have own := h.stands _ member t rfl
      refine ⟨mem_cast_step.mpr (.inl own), ?_⟩
      rw [h.quorums t n member] at enough
      have positive := quorum_pos v.node
      unfold Coordinator.votes at enough
      cases found : v.node.electionVotes.get? t with
      | none =>
        rw [found, Option.getD_none] at enough
        omega
      | some m =>
        rw [found, Option.getD_some] at enough
        have bound := h.counted t m own found
        omega

end

end Candidate

end RocketmqBroker
