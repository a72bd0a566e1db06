import RocketmqBroker.Cluster.Raft
import RocketmqBroker.State.BrokerState

/-!
The cluster coordinator (cluster/manager.rs) and what it does with the frames of
other members (cluster/network.rs). The broker part of a frame is elsewhere; here
it is only whether the broker knows the queue or message that a frame names. A
call that waits is cut at its waits: each stretch between two of them is one
input. Time is in the inputs.
-/
namespace RocketmqBroker

inductive ClusterFrame where
  | heartbeat (nodeId : UInt64)
  | preVote (term candidateId : UInt64)
  | preVoteResponse (term : UInt64) (voteGranted : Bool)
  | requestVote (term candidateId : UInt64)
  | requestVoteResponse (term : UInt64) (voteGranted : Bool)
  | leaderHeartbeat (term leaderId : UInt64)
  | appendEntries (f : AppendEntries RaftCommand)
  | appendEntriesResponse (term : UInt64) (success : Bool) (matchIndex : Nat)
  | replicatePublish (term leaderId : UInt64) (queue : String) (msgId : UInt64) (body : Bytes)
  | replicateAck (term leaderId : UInt64) (queue : String) (msgId : UInt64)
  | replicateResponse (term msgId : UInt64) (success : Bool)
  | nodeDown (nodeId detectedBy : UInt64)
  deriving DecidableEq, Repr

/-- A running `start_election`: in its pre-vote round, between its vote request
    and the computation of the quorum, or collecting votes. -/
inductive Election where
  | preVoting (proposedTerm : UInt64)
  | requesting (newTerm : UInt64)
  | voting (newTerm : UInt64) (quorum : Nat)
  deriving DecidableEq, Repr

structure Coordinator extends ClusterCoordinator where
  /-- The connected peers. -/
  peers : List UInt64
  votedFor : UInt64
  electionVotes : FinMap UInt64 Nat
  /-- The waiting replication call of a message, by its number. -/
  pendingReplications : FinMap UInt64 Nat
  replicationVotes : FinMap UInt64 Nat
  queueRaftGroups : FinMap String RaftQueueState
  elections : List Election
  nextCall : Nat

/-- What a stretch of code leaves behind: the state, the frames to send with their
    receivers and, for the record, the vote that it cast (term and candidate), the
    election that it won and the replication call that it lets return true. -/
structure Reaction where
  state : Coordinator
  sent : List (UInt64 × ClusterFrame) := []
  cast : Option (UInt64 × UInt64) := none
  elected : Option UInt64 := none
  confirmed : Option Nat := none

namespace Coordinator

/-- A node starts as its own leader, in term 1. -/
def new (nodeId : UInt64) : Coordinator where
  nodeId := nodeId
  currentTerm := 1
  leaderId := nodeId
  peers := []
  votedFor := 0
  electionVotes := ∅
  pendingReplications := ∅
  replicationVotes := ∅
  queueRaftGroups := ∅
  elections := []
  nextCall := 0

section
variable (c : Coordinator)

def isLeader : Bool := c.leaderId == c.nodeId

def clusterSize : Nat := c.peers.length + 1

def quorum : Nat := c.clusterSize / 2 + 1

def broadcast (frame : ClusterFrame) : List (UInt64 × ClusterFrame) := c.peers.map (·, frame)

def tallyVote (term : UInt64) : Coordinator :=
  { c with electionVotes := c.electionVotes.modify term (· + 1) }

def tallyPreVote (term : UInt64) : Coordinator := c.tallyVote term

def requestVotes : Reaction :=
  let newTerm := c.currentTerm + 1
  let c := { c with
    currentTerm := newTerm
    votedFor := c.nodeId
    electionVotes := c.electionVotes.insert newTerm 1
    elections := c.elections ++ [.requesting newTerm] }
  { state := c
    sent := c.broadcast (.requestVote newTerm c.nodeId)
    cast := some (newTerm, c.nodeId) }

/-- `start_election`, up to its first wait. -/
def startElection : Reaction :=
  let proposedTerm := c.currentTerm + 1
  if c.peers.isEmpty then c.requestVotes
  else
    let c := { c with
      electionVotes := c.electionVotes.insert proposedTerm 1
      elections := c.elections ++ [.preVoting proposedTerm] }
    { state := c
      sent := c.broadcast (.preVote proposedTerm c.nodeId) }

def votes (term : UInt64) : Nat := (c.electionVotes.get? term).getD 0

def endElection (k : Nat) (term : UInt64) : Coordinator :=
  { c with
    electionVotes := c.electionVotes.erase term
    elections := c.elections.eraseIdx k }

/-- One round of the waiting loop of the election at position `k`. -/
def poll (k : Nat) (expired : Bool) : Reaction :=
  match c.elections[k]? with
  | none => { state := c }
  | some (.preVoting proposedTerm) =>
    if c.votes proposedTerm ≥ c.quorum then (c.endElection k proposedTerm).requestVotes
    else if expired then { state := c.endElection k proposedTerm }
    else { state := c }
  | some (.requesting newTerm) =>
    { state := { c with elections := c.elections.set k (.voting newTerm c.quorum) } }
  | some (.voting newTerm quorum) =>
    if c.currentTerm ≠ newTerm then { state := c.endElection k newTerm }
    else if c.votes newTerm ≥ quorum then
      let c := { c.endElection k newTerm with leaderId := c.nodeId }
      { state := c
        sent := c.broadcast (.leaderHeartbeat newTerm c.nodeId)
        elected := some newTerm }
    else if expired then { state := c.endElection k newTerm }
    else { state := c }

def handlePreVote (term candidateId : UInt64) : ClusterFrame :=
  let wouldGrant :=
    if term < c.currentTerm then false
    else if term > c.currentTerm then true
    else c.votedFor == 0 || c.votedFor == candidateId
  .preVoteResponse term wouldGrant

def handleRequestVote (term candidateId : UInt64) : Coordinator × Bool :=
  if term < c.currentTerm then (c, false)
  else
    let c := if term > c.currentTerm then { c with currentTerm := term, votedFor := 0 } else c
    if c.votedFor = 0 ∨ c.votedFor = candidateId then ({ c with votedFor := candidateId }, true)
    else (c, false)

def handleRequestVoteResponse (term : UInt64) (voteGranted : Bool) : Coordinator :=
  if voteGranted then c.tallyVote term
  else if term > c.currentTerm then { c with currentTerm := term, votedFor := 0 }
  else c

def handleLeaderHeartbeat (term leaderId : UInt64) : Coordinator :=
  if term ≥ c.currentTerm then { c with currentTerm := term, leaderId } else c

end

/-- The entries are offered to one group after the other. The answer is the last
    index of the last group that took them and whether all was well, or `none`
    when a group panics. -/
def offerEntries (f : AppendEntries RaftCommand) : List String → FinMap String RaftQueueState →
    Nat × Bool → FinMap String RaftQueueState × Option (Nat × Bool)
  | [], groups, answer => (groups, some answer)
  | name :: names, groups, (lastMatchIndex, allOk) =>
    match groups.get? name with
    | none => offerEntries f names groups (lastMatchIndex, allOk)
    | some g =>
      let (g, result) := g.handleAppendEntries f
      let groups := groups.insert name g
      match result with
      | none => (groups, none)
      | some (respTerm, success) =>
        let answer :=
          if success then (g.lastLogIndex, allOk)
          else if respTerm > f.term then (lastMatchIndex, false)
          else (lastMatchIndex, allOk)
        offerEntries f names groups answer

section
variable (c : Coordinator)

def handleAppendEntries (f : AppendEntries RaftCommand) : Coordinator × Option ClusterFrame :=
  if f.term < c.currentTerm then (c, some (.appendEntriesResponse c.currentTerm false 0))
  else
    let c := { c with currentTerm := f.term, leaderId := f.leaderId }
    if f.entries.isEmpty then
      let groups := c.queueRaftGroups.mapVals fun _ g =>
        { g with toRaftState := g.advanceCommit f.leaderCommit }
      ({ c with queueRaftGroups := groups }, some (.appendEntriesResponse f.term true 0))
    else
      let (groups, answer) := offerEntries f c.queueRaftGroups.keys c.queueRaftGroups (0, true)
      ({ c with queueRaftGroups := groups },
        answer.map fun a => .appendEntriesResponse f.term a.2 a.1)

def handleAppendEntriesResponse (success : Bool) (matchIndex : Nat) : Coordinator :=
  if !c.isLeader then c
  else
    { c with queueRaftGroups := c.queueRaftGroups.mapVals fun _ g =>
      if g.role ≠ .leader then g
      else if success ∧ matchIndex > g.commitIndex then
        if c.quorum ≤ 2 ∨ c.peers.isEmpty then { g with commitIndex := matchIndex } else g
      else g }

/-- Replicated messages and acks: whether the term is current; a newer one makes
    its sender the leader. -/
def acceptTerm (term leaderId : UInt64) : Coordinator × Bool :=
  if term < c.currentTerm then (c, false)
  else if term > c.currentTerm then ({ c with currentTerm := term, leaderId }, true)
  else (c, true)

/-- `replicate_publish` and `replicate_ack`, up to their wait. -/
def replicate (msgId : UInt64) (frame : ClusterFrame) : Reaction :=
  let call := c.nextCall
  let c := { c with nextCall := call + 1 }
  if c.peers.isEmpty then { state := c, confirmed := some call }
  else
    { state := { c with
        pendingReplications := c.pendingReplications.insert msgId call
        replicationVotes := c.replicationVotes.insert msgId 1 }
      sent := c.broadcast frame }

def replicatePublish (queue : String) (msgId : UInt64) (body : Bytes) : Reaction :=
  c.replicate msgId (.replicatePublish c.currentTerm c.nodeId queue msgId body)

def replicateAck (queue : String) (msgId : UInt64) : Reaction :=
  c.replicate msgId (.replicateAck c.currentTerm c.nodeId queue msgId)

def voteReplication (msgId : UInt64) : Reaction :=
  match c.replicationVotes.get? msgId with
  | none => { state := c }
  | some count =>
    let c := { c with replicationVotes := c.replicationVotes.insert msgId (count + 1) }
    if count + 1 ≥ c.quorum then
      match c.pendingReplications.get? msgId with
      | none => { state := c }
      | some call =>
        { state := { c with pendingReplications := c.pendingReplications.erase msgId }
          confirmed := some call }
    else { state := c }

/-- The declaring node leads the group; its peers are replicas, up to the size. -/
def createQueueRaftGroup (queue : String) (groupSize : Nat) : Coordinator :=
  let replicas := (c.peers.take (groupSize - 1)).filter (· ≠ c.nodeId)
  let state := { RaftQueueState.new queue with
    role := .leader
    currentTerm := c.currentTerm
    leaderId := some c.nodeId
    nextIndex := replicas.foldl (fun m p => m.insert p 1) ∅
    matchIndex := replicas.foldl (fun m p => m.insert p 0) ∅ }
  { c with queueRaftGroups := c.queueRaftGroups.insert queue state }

def failoverQueuesForNode (downedNodeId : UInt64) : Coordinator :=
  { c with queueRaftGroups := c.queueRaftGroups.mapVals fun _ g =>
    if g.leaderId ≠ some downedNodeId then g
    else { g with toRaftState := g.promote c.nodeId } }

/-- A frame that came on the connection to `sender`, which one of the two opened.
    `known` is the answer of the broker to a replicated message or ack. -/
def dispatchFrame (sender : UInt64) (inbound known : Bool) : ClusterFrame → Reaction
  | .heartbeat nodeId =>
    { state := { c with peers := if nodeId ∈ c.peers then c.peers else c.peers ++ [nodeId] }
      sent := if inbound then [(sender, .heartbeat c.nodeId)] else [] }
  | .preVote term candidateId =>
    { state := c, sent := [(sender, c.handlePreVote term candidateId)] }
  | .preVoteResponse term voteGranted =>
    { state := if voteGranted then c.tallyPreVote term else c }
  | .requestVote term candidateId =>
    let (c, grant) := c.handleRequestVote term candidateId
    { state := c
      sent := [(sender, .requestVoteResponse c.currentTerm grant)]
      cast := if grant then some (c.currentTerm, candidateId) else none }
  | .requestVoteResponse term voteGranted =>
    { state := c.handleRequestVoteResponse term voteGranted }
  | .leaderHeartbeat term leaderId => { state := c.handleLeaderHeartbeat term leaderId }
  | .appendEntries f =>
    let (c, answer) := c.handleAppendEntries f
    { state := c, sent := answer.toList.map (sender, ·) }
  | .appendEntriesResponse _ success matchIndex =>
    { state := c.handleAppendEntriesResponse success matchIndex }
  | .replicatePublish term leaderId _ msgId _ =>
    let (c, accepted) := c.acceptTerm term leaderId
    { state := c, sent := [(sender, .replicateResponse term msgId (accepted && known))] }
  | .replicateAck term leaderId _ msgId =>
    let (c, accepted) := c.acceptTerm term leaderId
    { state := c, sent := [(sender, .replicateResponse term msgId (accepted && known))] }
  | .replicateResponse term msgId success =>
    if term = c.currentTerm ∧ success then c.voteReplication msgId else { state := c }
  | .nodeDown nodeId _ => { state := c.failoverQueuesForNode nodeId }

end

end Coordinator

inductive ClusterTask where
  /-- The connector finds the leader silent or gone. -/
  | electionTimeout
  | poll (k : Nat) (expired : Bool)
  /-- The connector sends the heartbeat of a leader. -/
  | leaderHeartbeat
  | publish (queue : String) (msgId : UInt64) (body : Bytes)
  | ack (queue : String) (msgId : UInt64)
  /-- A replication call returns, confirmed or not. -/
  | callReturns (msgId : UInt64) (confirmed : Bool)
  /-- The failure detector gives a peer up. -/
  | peerDown (nodeId : UInt64)
  | createGroup (queue : String) (groupSize : Nat)
  | appendLocal (queue : String) (command : RaftCommand)
  deriving DecidableEq, Repr

inductive ClusterInput where
  | task (t : ClusterTask)
  | frame (sender : UInt64) (inbound known : Bool) (f : ClusterFrame)
  /-- The connection to a peer ends. -/
  | closed (peer : UInt64)
  deriving DecidableEq, Repr

namespace Coordinator
variable (c : Coordinator)

def perform : ClusterTask → Reaction
  | .electionTimeout =>
    if !c.isLeader && !c.peers.isEmpty then c.startElection else { state := c }
  | .poll k expired => c.poll k expired
  | .leaderHeartbeat =>
    { state := c
      sent := if c.isLeader then c.broadcast (.leaderHeartbeat c.currentTerm c.nodeId) else [] }
  | .publish queue msgId body => c.replicatePublish queue msgId body
  | .ack queue msgId => c.replicateAck queue msgId
  | .callReturns msgId confirmed =>
    -- a call that gives up also takes the entry of whoever waits for that message
    { state := { c with
        pendingReplications :=
          if confirmed then c.pendingReplications else c.pendingReplications.erase msgId
        replicationVotes := c.replicationVotes.erase msgId } }
  | .peerDown nodeId =>
    { state := c.failoverQueuesForNode nodeId
      sent := c.broadcast (.nodeDown nodeId c.nodeId) }
  | .createGroup queue groupSize => { state := c.createQueueRaftGroup queue groupSize }
  | .appendLocal queue command =>
    { state := { c with queueRaftGroups :=
        c.queueRaftGroups.modify queue fun g => (g.appendLocalCommand command).1 } }

def react : ClusterInput → Reaction
  | .task t => c.perform t
  | .frame sender inbound known f => c.dispatchFrame sender inbound known f
  | .closed peer =>
    let wasLeader := c.leaderId == peer
    let c := { c with peers := c.peers.filter (· ≠ peer) }
    if wasLeader then c.startElection else { state := c }

end Coordinator

/-- What has nothing to do with elections leaves the term, the vote, the leader, the
    peers and all elections as they are. -/
structure Reaction.Apart (c : Coordinator) (r : Reaction) : Prop where
  term : r.state.currentTerm = c.currentTerm
  vote : r.state.votedFor = c.votedFor
  leader : r.state.leaderId = c.leaderId
  nodeId : r.state.nodeId = c.nodeId
  peers : r.state.peers = c.peers
  elections : r.state.elections = c.elections
  votes : r.state.electionVotes = c.electionVotes
  cast : r.cast = none
  elected : r.elected = none

def ClusterTask.isElectoral : ClusterTask → Bool
  | electionTimeout => true
  | poll _ _ => true
  | _ => false

def ClusterFrame.isElectoral : ClusterFrame → Bool
  | heartbeat _ => true
  | preVoteResponse _ _ => true
  | requestVote _ _ => true
  | requestVoteResponse _ _ => true
  | leaderHeartbeat _ _ => true
  | appendEntries _ => true
  | replicatePublish _ _ _ _ _ => true
  | replicateAck _ _ _ _ => true
  | _ => false

section
variable {c : Coordinator}

theorem apart_replicate (msgId : UInt64) (f : ClusterFrame) :
    Reaction.Apart c (c.replicate msgId f) := by
  unfold Coordinator.replicate
  simp only
  split <;> exact ⟨rfl, rfl, rfl, rfl, rfl, rfl, rfl, rfl, rfl⟩

theorem apart_voteReplication (msgId : UInt64) : Reaction.Apart c (c.voteReplication msgId) := by
  unfold Coordinator.voteReplication
  split
  · exact ⟨rfl, rfl, rfl, rfl, rfl, rfl, rfl, rfl, rfl⟩
  · simp only
    split
    · split <;> exact ⟨rfl, rfl, rfl, rfl, rfl, rfl, rfl, rfl, rfl⟩
    · exact ⟨rfl, rfl, rfl, rfl, rfl, rfl, rfl, rfl, rfl⟩

theorem apart_perform {t : ClusterTask} (other : t.isElectoral = false) :
    Reaction.Apart c (c.perform t) := by
  cases t with
  | electionTimeout | poll => contradiction
  | publish queue msgId body => exact apart_replicate msgId _
  | ack queue msgId => exact apart_replicate msgId _
  | leaderHeartbeat | callReturns | peerDown | createGroup | appendLocal =>
    exact ⟨rfl, rfl, rfl, rfl, rfl, rfl, rfl, rfl, rfl⟩

theorem apart_dispatchFrame {f : ClusterFrame} (other : f.isElectoral = false) (sender : UInt64)
    (inbound known : Bool) : Reaction.Apart c (c.dispatchFrame sender inbound known f) := by
  cases f with
  | preVote | nodeDown => exact ⟨rfl, rfl, rfl, rfl, rfl, rfl, rfl, rfl, rfl⟩
  | appendEntriesResponse term success matchIndex =>
    unfold Coordinator.dispatchFrame Coordinator.handleAppendEntriesResponse
    simp only
    split <;> exact ⟨rfl, rfl, rfl, rfl, rfl, rfl, rfl, rfl, rfl⟩
  | replicateResponse term msgId success =>
    unfold Coordinator.dispatchFrame
    simp only
    split
    · exact apart_voteReplication msgId
    · exact ⟨rfl, rfl, rfl, rfl, rfl, rfl, rfl, rfl, rfl⟩
  | heartbeat | preVoteResponse | requestVote | requestVoteResponse | leaderHeartbeat
  | appendEntries | replicatePublish | replicateAck => contradiction

end

end RocketmqBroker
