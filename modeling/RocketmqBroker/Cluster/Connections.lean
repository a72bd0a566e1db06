import RocketmqBroker.Cluster.Coordinator
import RocketmqBroker.Lib.Run

/-!
The connections of a node and the map of its peers (cluster/network.rs). The map
has one entry for a peer, however many connections there are to it, and every
connection that closes takes the entry of the last peer it heard with it.
-/
namespace RocketmqBroker

/-- An open connection: who opened it, `temp_peer_id` and, for the record, all
    peers whose heartbeat came on it. -/
structure Link where
  inbound : Bool
  tempPeerId : Option UInt64
  heard : List UInt64
  deriving DecidableEq, Repr

structure LinkedNode where
  node : Coordinator
  links : FinMap Nat Link
  opened : Nat

inductive LinkEvent where
  | opens (inbound : Bool)
  | frame (k : Nat) (known : Bool) (f : ClusterFrame)
  | closes (k : Nat)
  | task (t : ClusterTask)
  deriving DecidableEq, Repr

def Link.note (l : Link) : ClusterFrame → Link
  | .heartbeat nodeId => { l with tempPeerId := some nodeId, heard := l.heard ++ [nodeId] }
  | _ => l

namespace LinkedNode

def start (nodeId : UInt64) : LinkedNode := ⟨.new nodeId, ∅, 0⟩

/-- `process_connection`, one turn of its loop at a time. Replies go out on the
    connection itself. -/
def step (s : LinkedNode) : LinkEvent → LinkedNode
  | .opens inbound => { s with
    links := s.links.insert s.opened ⟨inbound, none, []⟩
    opened := s.opened + 1 }
  | .frame k known f =>
    match s.links.get? k with
    | none => s
    | some l => { s with
      node := (s.node.dispatchFrame (l.tempPeerId.getD 0) l.inbound known f).state
      links := s.links.insert k (l.note f) }
  | .closes k =>
    match s.links.get? k with
    | none => s
    | some l =>
      match l.tempPeerId with
      | none => { s with links := s.links.erase k }
      | some peer => { s with
        node := (s.node.react (.closed peer)).state
        links := s.links.erase k }
  | .task t => { s with node := (s.node.perform t).state }

def Hears (links : FinMap Nat Link) (p : UInt64) : Prop :=
  ∃ k ∈ links.keys, ∃ l ∈ links.get? k, p ∈ l.heard

instance (links : FinMap Nat Link) (p : UInt64) : Decidable (Hears links p) :=
  inferInstanceAs (Decidable (∃ k ∈ links.keys, _))

/-- The peers are those with an open connection on which they were heard. -/
def PeersExact (s : LinkedNode) : Prop := ∀ p, p ∈ s.node.peers ↔ Hears s.links p

/-- Of the peers heard on a connection that closes, exactly the last one has no
    other open connection on which it was heard. -/
def Sole (s : LinkedNode) : LinkEvent → Prop
  | .closes k => ∀ l ∈ s.links.get? k, ∀ p ∈ l.heard,
    l.tempPeerId = some p ↔ ¬ Hears (s.links.erase k) p
  | _ => True

instance (s : LinkedNode) (e : LinkEvent) : Decidable (s.Sole e) := by
  cases e with
  | closes k =>
    have each (l : Link) : Decidable (∀ p ∈ l.heard,
        l.tempPeerId = some p ↔ ¬ Hears (s.links.erase k) p) := List.decidableBAll _ _
    exact Option.decidableForallMem _
  | opens | frame | task => exact isTrue trivial

/-- `temp_peer_id` is the peer heard last, and new connections get new numbers. -/
structure Kept (s : LinkedNode) : Prop where
  last : ∀ k l, s.links.get? k = some l → l.tempPeerId = l.heard.getLast?
  fresh : ∀ k ∈ s.links.keys, k < s.opened

end LinkedNode

section
variable {c : Coordinator}

theorem startElection_peers : c.startElection.state.peers = c.peers := by
  unfold Coordinator.startElection
  simp only
  split <;> rfl

theorem poll_peers (k : Nat) (expired : Bool) : (c.poll k expired).state.peers = c.peers := by
  unfold Coordinator.poll
  split
  · rfl
  · split
    · rfl
    · split <;> rfl
  · rfl
  · split
    · rfl
    · split
      · rfl
      · split <;> rfl

theorem perform_peers (t : ClusterTask) : (c.perform t).state.peers = c.peers := by
  cases t with
  | electionTimeout =>
    show Coordinator.peers (Reaction.state (ite _ _ _)) = c.peers
    split
    · exact startElection_peers
    · rfl
  | poll k expired => exact poll_peers k expired
  | leaderHeartbeat | publish | ack | callReturns | peerDown | createGroup | appendLocal =>
    exact (apart_perform rfl).peers

theorem acceptTerm_peers (term leaderId : UInt64) :
    (c.acceptTerm term leaderId).1.peers = c.peers := by
  unfold Coordinator.acceptTerm
  split
  · rfl
  · split <;> rfl

theorem handleAppendEntries_peers (f : AppendEntries RaftCommand) :
    (c.handleAppendEntries f).1.peers = c.peers := by
  unfold Coordinator.handleAppendEntries
  split
  · rfl
  · simp only
    split <;> rfl

theorem dispatchFrame_peers (sender : UInt64) (inbound known : Bool) (f : ClusterFrame) :
    (c.dispatchFrame sender inbound known f).state.peers =
      match f with
      | .heartbeat nodeId => if nodeId ∈ c.peers then c.peers else c.peers ++ [nodeId]
      | _ => c.peers := by
  cases f with
  | heartbeat nodeId => rfl
  | preVoteResponse term voteGranted => cases voteGranted <;> rfl
  | requestVote term candidateId =>
    show (c.handleRequestVote term candidateId).1.peers = c.peers
    unfold Coordinator.handleRequestVote
    split
    · rfl
    · simp only
      split <;> split <;> rfl
  | requestVoteResponse term voteGranted =>
    show (c.handleRequestVoteResponse term voteGranted).peers = c.peers
    unfold Coordinator.handleRequestVoteResponse
    split
    · rfl
    · split <;> rfl
  | leaderHeartbeat term leaderId =>
    show (c.handleLeaderHeartbeat term leaderId).peers = c.peers
    unfold Coordinator.handleLeaderHeartbeat
    split <;> rfl
  | appendEntries f => exact handleAppendEntries_peers f
  | replicatePublish term leaderId => exact acceptTerm_peers term leaderId
  | replicateAck term leaderId => exact acceptTerm_peers term leaderId
  | preVote | appendEntriesResponse | replicateResponse | nodeDown =>
    exact (apart_dispatchFrame rfl sender inbound known).peers

theorem closed_peers (peer : UInt64) :
    (c.react (.closed peer)).state.peers = c.peers.filter (· ≠ peer) := by
  unfold Coordinator.react
  simp only
  split
  · exact startElection_peers
  · rfl

end

namespace LinkedNode
variable {s : LinkedNode} {links : FinMap Nat Link} {k : Nat} {l : Link} {p : UInt64}

theorem hears_iff : Hears links p ↔ ∃ k l, links.get? k = some l ∧ p ∈ l.heard := by
  constructor
  · rintro ⟨k, -, l, found, heard⟩
    exact ⟨k, l, found, heard⟩
  · rintro ⟨k, l, found, heard⟩
    exact ⟨k, FinMap.mem_keys_iff.mpr ⟨l, found⟩, l, found, heard⟩

theorem hears_of_get? (found : links.get? k = some l) :
    Hears links p ↔ p ∈ l.heard ∨ Hears (links.erase k) p := by
  simp only [hears_iff, FinMap.get?_erase]
  constructor
  · rintro ⟨j, other, there, heard⟩
    by_cases same : j = k
    · rw [same, found] at there
      cases there
      exact .inl heard
    · exact .inr ⟨j, other, by rw [if_neg same]; exact there, heard⟩
  · rintro (heard | ⟨j, other, there, heard⟩)
    · exact ⟨k, l, found, heard⟩
    · split at there
      · contradiction
      · exact ⟨j, other, there, heard⟩

theorem hears_insert : Hears (links.insert k l) p ↔ p ∈ l.heard ∨ Hears (links.erase k) p := by
  have others : Hears ((links.insert k l).erase k) p ↔ Hears (links.erase k) p := by
    simp only [hears_iff, FinMap.get?_erase, FinMap.get?_insert]
    refine exists_congr fun j => exists_congr fun other => ?_
    split <;> rfl
  rw [hears_of_get? (FinMap.get?_insert_self ..), others]

theorem hears_erase_absent (absent : k ∉ links.keys) :
    Hears (links.erase k) p ↔ Hears links p := by
  simp only [hears_iff, FinMap.get?_erase]
  refine exists_congr fun j => exists_congr fun other => ?_
  split
  · rename_i same
    subst same
    have none : links.get? j ≠ some other := fun found =>
      absent (FinMap.mem_keys_iff.mpr ⟨other, found⟩)
    simp [none]
  · rfl

theorem kept_step (kept : Kept s) (e : LinkEvent) : Kept (s.step e) := by
  cases e with
  | task t => exact ⟨kept.last, kept.fresh⟩
  | opens inbound =>
    constructor
    · intro k l found
      simp only [step, FinMap.get?_insert] at found
      split at found
      · cases found
        rfl
      · exact kept.last k l found
    · intro k member
      simp only [step, FinMap.mem_keys_insert] at member ⊢
      rcases member with rfl | old
      · omega
      · have := kept.fresh k old
        omega
  | frame k known f =>
    simp only [step]
    cases found : s.links.get? k with
    | none => exact kept
    | some l =>
      constructor
      · intro j other there
        simp only [FinMap.get?_insert] at there
        split at there
        · cases there
          cases f with
          | heartbeat nodeId => simp [Link.note]
          | _ => exact kept.last k l found
        · exact kept.last j other there
      · intro j member
        rcases FinMap.mem_keys_insert.mp member with rfl | old
        · exact kept.fresh j (FinMap.mem_keys_iff.mpr ⟨l, found⟩)
        · exact kept.fresh j old
  | closes k =>
    have shrunk : ∀ node, Kept { node, links := s.links.erase k, opened := s.opened } := by
      intro node
      constructor
      · intro j other there
        simp only [FinMap.get?_erase] at there
        split at there
        · contradiction
        · exact kept.last j other there
      · intro j member
        simp only [FinMap.keys_erase] at member
        exact kept.fresh j (List.mem_of_mem_erase member)
    simp only [step]
    cases s.links.get? k with
    | none => exact kept
    | some l =>
      dsimp only
      split
      · exact shrunk s.node
      · exact shrunk _

theorem exact_closes (kept : Kept s) (exact : PeersExact s) (k : Nat) :
    PeersExact (s.step (.closes k)) ↔ s.Sole (.closes k) := by
  simp only [step, Sole]
  cases found : s.links.get? k with
  | none => simpa using exact
  | some l =>
    have last := kept.last k l found
    have split : ∀ p, p ∈ s.node.peers ↔ p ∈ l.heard ∨ Hears (s.links.erase k) p :=
      fun p => (exact p).trans (hears_of_get? found)
    cases temp : l.tempPeerId with
    | none =>
      have silent : l.heard = [] := List.getLast?_eq_none_iff.mp (last.symm.trans temp)
      simp only [silent, List.not_mem_nil, false_or] at split
      simp only [temp, Option.mem_def, Option.some.injEq, forall_eq', silent, List.not_mem_nil,
        false_implies, implies_true, iff_true]
      exact split
    | some peer =>
      have heardPeer : peer ∈ l.heard := List.mem_of_getLast? (last.symm.trans temp)
      simp only [Option.mem_def, Option.some.injEq, forall_eq', temp, PeersExact, closed_peers,
        List.mem_filter, decide_eq_true_eq]
      constructor
      · intro after p heard
        have here := after p
        have member := (split p).mpr (.inl heard)
        constructor
        · rintro rfl hears
          exact (here.mpr hears).2 rfl
        · intro silent
          by_contra differs
          exact silent (here.mp ⟨member, fun same => differs same.symm⟩)
      · intro sole p
        constructor
        · rintro ⟨member, differs⟩
          rcases (split p).mp member with heard | hears
          · by_contra silent
            exact differs ((sole p heard).mpr silent).symm
          · exact hears
        · intro hears
          refine ⟨(split p).mpr (.inr hears), ?_⟩
          rintro rfl
          exact (sole p heardPeer).mp rfl hears

theorem exact_frame (exact : PeersExact s) (k : Nat) (known : Bool) (f : ClusterFrame) :
    PeersExact (s.step (.frame k known f)) := by
  simp only [step]
  cases found : s.links.get? k with
  | none => exact exact
  | some l =>
    intro p
    have old := (exact p).trans (hears_of_get? found)
    simp only [dispatchFrame_peers, hears_insert]
    cases f with
    | heartbeat nodeId =>
      simp only [Link.note, List.mem_append, List.mem_singleton]
      split
      · rename_i known
        have := (exact nodeId).trans (hears_of_get? found)
        constructor
        · intro member
          rcases old.mp member with heard | hears
          · exact .inl (.inl heard)
          · exact .inr hears
        · rintro ((heard | rfl) | hears)
          · exact old.mpr (.inl heard)
          · exact known
          · exact old.mpr (.inr hears)
      · rw [List.mem_append, List.mem_singleton, old]
        tauto
    | _ => exact old

theorem exact_step (kept : Kept s) (exact : PeersExact s) (e : LinkEvent) :
    PeersExact (s.step e) ↔ s.Sole e := by
  cases e with
  | opens inbound =>
    refine iff_of_true (fun p => (exact p).trans ?_) trivial
    have absent : s.opened ∉ s.links.keys := fun member => by
      have := kept.fresh _ member
      omega
    simp only [step, hears_insert, List.not_mem_nil, false_or]
    exact (hears_erase_absent absent).symm
  | frame k known f => exact iff_of_true (exact_frame exact k known f) trivial
  | closes k => exact exact_closes kept exact k
  | task t =>
    refine iff_of_true (fun p => ?_) trivial
    simp only [step, perform_peers]
    exact exact p

end LinkedNode

open LinkedNode

/-- The peers map is exact at every moment of exactly those runs in which every
    connection that closes is the only one of its peer. -/
theorem peers_exact_iff (nodeId : UInt64) (es : List LinkEvent) :
    (∀ before after, es = before ++ after →
      PeersExact (Run.run step (LinkedNode.start nodeId) before)) ↔
      Run.Along step Sole (LinkedNode.start nodeId) es := by
  have exact : PeersExact (LinkedNode.start nodeId) := fun p =>
    iff_of_false List.not_mem_nil fun hears => by
      obtain ⟨k, l, found, -⟩ := hears_iff.mp hears
      contradiction
  have kept : Kept (LinkedNode.start nodeId) := by
    constructor
    · intro k l found
      contradiction
    · intro k member
      contradiction
  exact Run.throughout_iff_along Kept exact kept (fun s e _ kept => kept_step kept e)
    fun s e _ kept exact => exact_step kept exact e

/-- Both nodes dial each other, and one of the two connections closes. -/
def dialledTwice : List LinkEvent :=
  [.opens false, .opens true, .frame 0 false (.heartbeat 2), .frame 1 false (.heartbeat 2),
    .closes 1]

theorem peer_forgotten : ¬ ∀ before after, dialledTwice = before ++ after →
    PeersExact (Run.run step (LinkedNode.start 1) before) := by
  intro always
  have exact := always dialledTwice [] rfl 2
  have open0 : Hears (Run.run step (LinkedNode.start 1) dialledTwice).links 2 := by
    decide +kernel
  have gone : 2 ∉ (Run.run step (LinkedNode.start 1) dialledTwice).node.peers := by
    decide +kernel
  exact gone (exact.mpr open0)

end RocketmqBroker
