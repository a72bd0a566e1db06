import Mathlib.Data.Finset.Card
import Mathlib.Data.List.Perm.Basic
import RocketmqBroker.Cluster.Tally

/-!
Elections in a cluster whose members and connections are fixed. Frames in flight
arrive in any order and as late as they like; what a node does between two waits is
one step. Two winners of a term would share a voter, as long as what a candidate
counts are votes: that is where a late pre-vote does harm.
-/
namespace RocketmqBroker

structure ClusterMessage where
  sender : UInt64
  receiver : UInt64
  frame : ClusterFrame
  deriving DecidableEq, Repr

def ClusterInput.messages (receiver : UInt64) : ClusterInput → List ClusterMessage
  | frame sender _ _ f => [⟨sender, receiver, f⟩]
  | _ => []

structure Cluster where
  nodes : UInt64 → Candidate
  net : List ClusterMessage

inductive ClusterEvent where
  | task (node : UInt64) (t : ClusterTask)
  /-- The frame at a position of the net arrives. -/
  | deliver (k : Nat) (inbound known : Bool)
  deriving DecidableEq, Repr

namespace Cluster

def arrival (ids : List UInt64) (s : Cluster) :
    ClusterEvent → Option (UInt64 × ClusterInput × List ClusterMessage)
  | .task node t => if node ∈ ids then some (node, .task t, s.net) else none
  | .deliver k inbound known => s.net[k]?.map fun m =>
    (m.receiver, .frame m.sender inbound known m.frame, s.net.eraseIdx k)

def act (s : Cluster) (x : UInt64) (i : ClusterInput) (rest : List ClusterMessage) : Cluster where
  nodes y := if y = x then (s.nodes x).step i else s.nodes y
  net := rest ++ ((s.nodes x).node.react i).sent.map fun m => ⟨x, m.1, m.2⟩

def step (ids : List UInt64) (s : Cluster) (e : ClusterEvent) : Cluster :=
  match s.arrival ids e with
  | none => s
  | some (x, i, rest) => s.act x i rest

/-- Every node is connected to all others, and leads itself. -/
def start (ids : List UInt64) : Cluster where
  nodes id :=
    { node := { Coordinator.new id with peers := ids.erase id }
      cast := []
      granted := []
      won := []
      published := []
      confirmed := [] }
  net := []

/-- Terms do not run out, and no pre-vote reaches a node while its election proper
    of that term is under way. -/
def Timely (ids : List UInt64) (s : Cluster) (e : ClusterEvent) : Prop :=
  ∀ a ∈ s.arrival ids e,
    (s.nodes a.1).node.currentTerm.toNat + 1 < 2 ^ 64 ∧ (s.nodes a.1).Timely a.2.1

instance (v : Candidate) (i : ClusterInput) : Decidable (v.Timely i) :=
  Option.decidableForallMem i.preVote

instance (ids : List UInt64) (s : Cluster) (e : ClusterEvent) : Decidable (s.Timely ids e) :=
  inferInstanceAs (Decidable (∀ a ∈ s.arrival ids e, _ ∧ _))

/-- The other nodes that have voted for `x` in term `t`. -/
def voters (ids : List UInt64) (s : Cluster) (t x : UInt64) : Finset UInt64 :=
  ids.toFinset.filter fun p => p ≠ x ∧ (t, x) ∈ (s.nodes p).cast

/-- All nodes that have voted for `x` in term `t`, with the candidate itself. -/
def supporters (ids : List UInt64) (s : Cluster) (t x : UInt64) : Finset UInt64 :=
  ids.toFinset.filter fun p => (t, x) ∈ (s.nodes p).cast

/-- The votes for `x` in term `t` that are in flight. -/
def inFlight (net : List ClusterMessage) (t x : UInt64) : Nat :=
  net.countP fun m => m.receiver = x ∧ m.frame = .requestVoteResponse t true

/-- The invariant of elections: a vote request is sent once and met by one vote,
    and a vote that is counted or in flight was cast. -/
structure Sound (ids : List UInt64) (s : Cluster) : Prop where
  members : ∀ x ∈ ids, (s.nodes x).node.nodeId = x ∧ (s.nodes x).node.peers = ids.erase x
  tallied : ∀ x ∈ ids, (s.nodes x).Tallied
  net : ∀ m ∈ s.net, m.receiver ∈ ids ∧ m.sender ∈ ids.erase m.receiver ∧ m.frame.Signed m.sender
  reached : ∀ x ∈ ids, ∀ p ∈ ids, ∀ t,
    (t, x) ∈ (s.nodes p).cast ∨ ⟨x, p, .requestVote t x⟩ ∈ s.net →
      t ≤ (s.nodes x).node.currentTerm
  once : ∀ x ∈ ids, ∀ p ∈ ids, ∀ t, s.net.count ⟨x, p, .requestVote t x⟩ ≤ 1 ∧
    (⟨x, p, .requestVote t x⟩ ∈ s.net → (t, x) ∉ (s.nodes p).cast)
  granted : ∀ x ∈ ids, ∀ t,
    (s.nodes x).granted.count t + inFlight s.net t x ≤ (s.voters ids t x).card

section
variable {ids : List UInt64} {s : Cluster} {x : UInt64} {i : ClusterInput}
  {rest : List ClusterMessage}

theorem inFlight_append (l r : List ClusterMessage) (t y : UInt64) :
    inFlight (l ++ r) t y = inFlight l t y + inFlight r t y := List.countP_append

theorem inFlight_messages (x : UInt64) (i : ClusterInput) (t y : UInt64) :
    inFlight (i.messages x) t y = if y = x then i.vote.toList.count t else 0 := by
  cases i with
  | frame sender inbound known f =>
    have single : inFlight [⟨sender, x, f⟩] t y =
        if x = y ∧ f = .requestVoteResponse t true then 1 else 0 := by
      simp [inFlight, List.countP_cons]
    refine Eq.trans single ?_
    by_cases same : y = x
    · subst same
      cases f with
      | requestVoteResponse term voteGranted =>
        cases voteGranted <;> simp [ClusterInput.vote, List.count_singleton]
      | _ => simp [ClusterInput.vote]
    · simp [same, Ne.symm same]
  | task | closed => simp [inFlight, ClusterInput.messages, ClusterInput.vote]

@[simp] theorem act_self : (s.act x i rest).nodes x = (s.nodes x).step i := if_pos rfl

theorem act_other {y : UInt64} (other : y ≠ x) : (s.act x i rest).nodes y = s.nodes y :=
  if_neg other

/-- What an event takes out of the net is what a member works on. -/
theorem arrival_spec (h : s.Sound ids) {e : ClusterEvent}
    (arrives : s.arrival ids e = some (x, i, rest)) :
    x ∈ ids ∧ i.Within (s.nodes x).node ∧ s.net.Perm (i.messages x ++ rest) := by
  cases e with
  | task node t =>
    simp only [arrival] at arrives
    split at arrives
    · rename_i member
      cases arrives
      exact ⟨member, trivial, List.Perm.refl _⟩
    · contradiction
  | deliver k inbound known =>
    obtain ⟨m, found, same⟩ := Option.map_eq_some_iff.mp arrives
    cases same
    obtain ⟨inside, rfl⟩ := List.getElem?_eq_some_iff.mp found
    obtain ⟨member, peer, signed⟩ := h.net _ (List.getElem_mem inside)
    refine ⟨member, ⟨?_, signed⟩, (List.getElem_cons_eraseIdx_perm inside).symm⟩
    rw [(h.members _ member).2]
    exact peer

structure Acting (ids : List UInt64) (s : Cluster) (x : UInt64) (i : ClusterInput)
    (rest : List ClusterMessage) : Prop where
  sound : s.Sound ids
  nodup : ids.Nodup
  member : x ∈ ids
  within : i.Within (s.nodes x).node
  perm : s.net.Perm (i.messages x ++ rest)
  room : (s.nodes x).node.currentTerm.toNat + 1 < 2 ^ 64

namespace Acting
variable (a : Acting ids s x i rest)
include a

theorem later : (s.nodes x).node.currentTerm < (s.nodes x).node.currentTerm + 1 :=
  lt_succ_of_room a.room

theorem election : ElectionStep (s.nodes x).node i ((s.nodes x).node.react i) :=
  electionStep_react a.later a.within

theorem rest_subset {m : ClusterMessage} (member : m ∈ rest) : m ∈ s.net :=
  a.perm.mem_iff.mpr (List.mem_append_right _ member)

theorem nodeId : (s.nodes x).node.nodeId = x := (a.sound.members x a.member).1

theorem peers : (s.nodes x).node.peers = ids.erase x := (a.sound.members x a.member).2

theorem mem_peers {y : UInt64} : y ∈ (s.nodes x).node.peers ↔ y ≠ x ∧ y ∈ ids := by
  rw [a.peers, a.nodup.mem_erase_iff]

theorem rises (y : UInt64) :
    (s.nodes y).node.currentTerm ≤ ((s.act x i rest).nodes y).node.currentTerm := by
  by_cases same : y = x
  · subst same
    rw [act_self]
    exact (voteStep_react a.room i).rises
  · rw [act_other same]
    exact UInt64.le_refl _

theorem mem_cast {y : UInt64} {p : UInt64 × UInt64} :
    p ∈ ((s.act x i rest).nodes y).cast ↔
      p ∈ (s.nodes y).cast ∨ (y = x ∧ ((s.nodes x).node.react i).cast = some p) := by
  by_cases same : y = x
  · subst same
    rw [act_self, Candidate.mem_cast_step]
    simp
  · rw [act_other same]
    simp [same]

theorem mem_net {m : ClusterMessage} : m ∈ (s.act x i rest).net ↔
    m ∈ rest ∨ (m.sender = x ∧ (m.receiver, m.frame) ∈ ((s.nodes x).node.react i).sent) := by
  show m ∈ rest ++ _ ↔ _
  rw [List.mem_append, List.mem_map]
  constructor
  · rintro (old | ⟨p, sent, rfl⟩)
    · exact .inl old
    · exact .inr ⟨rfl, sent⟩
  · rintro (old | ⟨rfl, sent⟩)
    · exact .inl old
    · exact .inr ⟨_, sent, rfl⟩

theorem asked {sender term candidateId : UInt64} {inbound known : Bool}
    (same : i = .frame sender inbound known (.requestVote term candidateId)) :
    candidateId = sender ∧ sender ≠ x ∧ sender ∈ ids ∧
      ⟨candidateId, x, .requestVote term candidateId⟩ ∈ s.net := by
  subst same
  obtain ⟨peer, rfl⟩ := a.within
  obtain ⟨other, member⟩ := a.mem_peers.mp peer
  exact ⟨rfl, other, member, a.perm.mem_iff.mpr (List.mem_append_left _ (by
    exact List.mem_singleton_self _))⟩

theorem sent_request {p t y : UInt64}
    (sent : (p, .requestVote t y) ∈ ((s.nodes x).node.react i).sent) :
    y = x ∧ t = (s.nodes x).node.currentTerm + 1 ∧ p ∈ (s.nodes x).node.peers ∧
      ((s.nodes x).node.react i).state.currentTerm = (s.nodes x).node.currentTerm + 1 ∧
      ((s.nodes x).node.react i).sent =
        (s.nodes x).node.broadcast (.requestVote ((s.nodes x).node.currentTerm + 1) x) := by
  cases a.election.ballots with
  | none nothing quiet => exact absurd (quiet _ sent) (by simp [ClusterFrame.isBallot])
  | opened term cast all tally stands =>
    rw [a.nodeId] at all
    have member := sent
    rw [all] at member
    obtain ⟨q, peer, same⟩ := List.mem_map.mp member
    cases same
    exact ⟨rfl, rfl, peer, term, all⟩
  | granted sender inbound known term candidateId asked cast all =>
    rw [all] at sent
    have same := congrArg Prod.snd (List.mem_singleton.mp sent)
    contradiction

theorem members_kept : ∀ y ∈ ids, ((s.act x i rest).nodes y).node.nodeId = y ∧
    ((s.act x i rest).nodes y).node.peers = ids.erase y := by
  intro y member
  by_cases same : y = x
  · subst same
    rw [act_self]
    exact ⟨(voteStep_react a.room i).nodeId.trans a.nodeId, a.election.peers.trans a.peers⟩
  · rw [act_other same]
    exact a.sound.members y member

theorem net_kept : ∀ m ∈ (s.act x i rest).net,
    m.receiver ∈ ids ∧ m.sender ∈ ids.erase m.receiver ∧ m.frame.Signed m.sender := by
  intro m member
  rcases a.mem_net.mp member with old | ⟨rfl, sent⟩
  · exact a.sound.net m (a.rest_subset old)
  · obtain ⟨addressed, signed⟩ := a.election.sent _ sent
    rw [a.nodeId] at signed
    have peer : m.receiver ∈ (s.nodes m.sender).node.peers := by
      rcases addressed with peer | back
      · exact peer
      · cases i with
        | frame sender inbound known f =>
          have here : sender = m.receiver := Option.some.inj back
          rw [← here]
          exact a.within.1
        | task | closed => contradiction
    obtain ⟨other, inside⟩ := a.mem_peers.mp peer
    exact ⟨inside, a.nodup.mem_erase_iff.mpr ⟨other.symm, a.member⟩, signed⟩

theorem reached_kept : ∀ y ∈ ids, ∀ p ∈ ids, ∀ t,
    (t, y) ∈ ((s.act x i rest).nodes p).cast ∨
      ⟨y, p, .requestVote t y⟩ ∈ (s.act x i rest).net →
    t ≤ ((s.act x i rest).nodes y).node.currentTerm := by
  intro y memberY p memberP t asked
  have fromOld : (t, y) ∈ (s.nodes p).cast ∨ ⟨y, p, .requestVote t y⟩ ∈ s.net →
      t ≤ ((s.act x i rest).nodes y).node.currentTerm := fun old =>
    UInt64.le_trans (a.sound.reached y memberY p memberP t old) (a.rises y)
  rcases asked with cast | flying
  · rcases a.mem_cast.mp cast with old | ⟨rfl, new⟩
    · exact fromOld (.inl old)
    · cases a.election.ballots with
      | none nothing => rw [nothing] at new; contradiction
      | opened term vote =>
        rw [vote, a.nodeId] at new
        cases new
        rw [act_self]
        exact UInt64.le_of_eq term.symm
      | granted sender inbound known term candidateId same vote =>
        rw [vote] at new
        cases new
        exact fromOld (.inr (a.asked same).2.2.2)
  · rcases a.mem_net.mp flying with old | ⟨sender, sent⟩
    · exact fromOld (.inr (a.rest_subset old))
    · obtain ⟨same, term, -, now, -⟩ := a.sent_request sent
      subst same
      rw [act_self, term]
      exact UInt64.le_of_eq now.symm

theorem unopened {p t : UInt64} (memberP : p ∈ ids)
    (next : t = (s.nodes x).node.currentTerm + 1) :
    (t, x) ∉ (s.nodes p).cast ∧ ⟨x, p, .requestVote t x⟩ ∉ s.net := by
  have notYet : ¬ t ≤ (s.nodes x).node.currentTerm := fun reached => ne_next a.later reached next
  constructor
  · intro cast
    exact notYet (a.sound.reached x a.member p memberP t (.inl cast))
  · intro flying
    exact notYet (a.sound.reached x a.member p memberP t (.inr flying))

theorem count_net (m : ClusterMessage) :
    s.net.count m = (i.messages x).count m + rest.count m := by
  rw [a.perm.count_eq, List.count_append]

theorem once_kept : ∀ y ∈ ids, ∀ p ∈ ids, ∀ t,
    (s.act x i rest).net.count ⟨y, p, .requestVote t y⟩ ≤ 1 ∧
      (⟨y, p, .requestVote t y⟩ ∈ (s.act x i rest).net →
        (t, y) ∉ ((s.act x i rest).nodes p).cast) := by
  intro y memberY p memberP t
  have split : (s.act x i rest).net.count ⟨y, p, .requestVote t y⟩ =
      rest.count ⟨y, p, .requestVote t y⟩ + (((s.nodes x).node.react i).sent.map
        fun m => (⟨x, m.1, m.2⟩ : ClusterMessage)).count ⟨y, p, .requestVote t y⟩ :=
    List.count_append
  obtain ⟨few, fresh⟩ := a.sound.once y memberY p memberP t
  have total := a.count_net ⟨y, p, .requestVote t y⟩
  by_cases sent : y = x ∧ (p, .requestVote t y) ∈ ((s.nodes x).node.react i).sent
  · -- the request is new: it opens a term that nobody has heard of
    obtain ⟨rfl, sent⟩ := sent
    obtain ⟨-, next, peer, -, all⟩ := a.sent_request sent
    obtain ⟨uncast, unflown⟩ := a.unopened memberP next
    have old : s.net.count ⟨y, p, .requestVote t y⟩ = 0 := List.count_eq_zero.mpr unflown
    constructor
    · rw [split, all]
      have distinct : ((s.nodes y).node.broadcast
          (.requestVote ((s.nodes y).node.currentTerm + 1) y)).map
          (fun m => (⟨y, m.1, m.2⟩ : ClusterMessage)) |>.Nodup := by
        unfold Coordinator.broadcast
        rw [List.map_map, a.peers]
        refine (a.nodup.erase y).map ?_
        intro q q' same
        exact congrArg ClusterMessage.receiver same
      have atMost := List.nodup_iff_count_le_one.mp distinct ⟨y, p, .requestVote t y⟩
      omega
    · intro _ cast
      rcases a.mem_cast.mp cast with before | ⟨same, -⟩
      · exact uncast before
      · exact (a.mem_peers.mp peer).1 same
  · have none : (((s.nodes x).node.react i).sent.map
        fun m => (⟨x, m.1, m.2⟩ : ClusterMessage)).count ⟨y, p, .requestVote t y⟩ = 0 := by
      rw [List.count_eq_zero]
      intro member
      obtain ⟨⟨q, f⟩, inside, same⟩ := List.mem_map.mp member
      cases same
      exact sent ⟨rfl, inside⟩
    constructor
    · omega
    · intro flying cast
      have left : ⟨y, p, .requestVote t y⟩ ∈ rest := by
        rcases a.mem_net.mp flying with old | new
        · exact old
        · exact absurd ⟨new.1, new.2⟩ sent
      rcases a.mem_cast.mp cast with before | ⟨rfl, new⟩
      · exact fresh (a.rest_subset left) before
      · -- the vote is new: the request that it answers has left the net
        cases a.election.ballots with
        | none nothing => rw [nothing] at new; contradiction
        | opened term vote =>
          rw [vote, a.nodeId] at new
          cases new
          exact (a.unopened memberP rfl).2 (a.rest_subset left)
        | granted sender inbound known term candidateId same vote =>
          rw [vote] at new
          cases new
          have own := (a.asked same).1
          have one : (i.messages p).count ⟨y, p, .requestVote t y⟩ = 1 := by
            rw [same, ← own]
            exact List.count_singleton_self
          have still := List.count_pos_iff.mpr left
          omega

theorem granted_count (y t : UInt64) :
    ((s.act x i rest).nodes y).granted.count t + inFlight rest t y =
      (s.nodes y).granted.count t + inFlight s.net t y := by
  have net : inFlight s.net t y = inFlight (i.messages x) t y + inFlight rest t y := by
    rw [← inFlight_append]
    exact a.perm.countP_eq _
  rw [net, inFlight_messages]
  by_cases same : y = x
  · subst same
    rw [act_self, if_pos rfl]
    have taken : ((s.nodes y).step i).granted.count t =
        (s.nodes y).granted.count t + i.vote.toList.count t := List.count_append
    omega
  · rw [act_other same, if_neg same]
    omega

theorem voters_subset (t y : UInt64) : s.voters ids t y ⊆ (s.act x i rest).voters ids t y := by
  intro p voter
  unfold voters at voter ⊢
  rw [Finset.mem_filter] at voter ⊢
  exact ⟨voter.1, voter.2.1, a.mem_cast.mpr (.inl voter.2.2)⟩

theorem voters_grow (t y : UInt64) :
    (s.voters ids t y).card + inFlight (((s.nodes x).node.react i).sent.map
        fun m => ⟨x, m.1, m.2⟩) t y ≤ ((s.act x i rest).voters ids t y).card := by
  have more := Finset.card_le_card (a.voters_subset t y)
  by_cases none : inFlight (((s.nodes x).node.react i).sent.map fun m => ⟨x, m.1, m.2⟩) t y = 0
  · omega
  · obtain ⟨m, member, granted⟩ := List.countP_pos_iff.mp (Nat.pos_of_ne_zero none)
    simp only [decide_eq_true_eq] at granted
    obtain ⟨⟨q, f⟩, sent, rfl⟩ := List.mem_map.mp member
    have receiver : q = y := granted.1
    have frame : f = .requestVoteResponse t true := granted.2
    subst receiver frame
    cases a.election.ballots with
    | none nothing quiet => exact absurd (quiet _ sent) (by simp [ClusterFrame.isBallot])
    | opened term cast all tally stands =>
      rw [all] at sent
      obtain ⟨q, peer, same⟩ := List.mem_map.mp sent
      have frames := congrArg Prod.snd same
      contradiction
    | granted sender inbound known term candidateId same cast all =>
      have here := sent
      rw [all] at here
      cases List.mem_singleton.mp here
      obtain ⟨rfl, other, memberY, flying⟩ := a.asked same
      have new : x ∉ s.voters ids t candidateId := by
        intro voter
        exact (a.sound.once _ memberY x a.member t).2 flying (Finset.mem_filter.mp voter).2.2
      have voted : x ∈ (s.act x i rest).voters ids t candidateId :=
        Finset.mem_filter.mpr ⟨List.mem_toFinset.mpr a.member, other.symm,
          a.mem_cast.mpr (.inr ⟨rfl, cast⟩)⟩
      have both : insert x (s.voters ids t candidateId) ⊆
          (s.act x i rest).voters ids t candidateId :=
        Finset.insert_subset voted (a.voters_subset t candidateId)
      have card := Finset.card_le_card both
      rw [Finset.card_insert_of_notMem new] at card
      have one : inFlight (((s.nodes x).node.react i).sent.map fun m => ⟨x, m.1, m.2⟩) t
          candidateId = 1 := by
        rw [all]
        simp [inFlight]
      omega

theorem granted_kept : ∀ y ∈ ids, ∀ t,
    ((s.act x i rest).nodes y).granted.count t + inFlight (s.act x i rest).net t y ≤
      ((s.act x i rest).voters ids t y).card := by
  intro y member t
  have net : inFlight (s.act x i rest).net t y = inFlight rest t y +
      inFlight (((s.nodes x).node.react i).sent.map fun m => ⟨x, m.1, m.2⟩) t y :=
    inFlight_append _ _ _ _
  have moved := a.granted_count y t
  have bound := a.sound.granted y member t
  have grow := a.voters_grow t y
  omega

theorem tallied_kept (real : 0 ∉ ids) (timely : (s.nodes x).Timely i) :
    ∀ y ∈ ids, ((s.act x i rest).nodes y).Tallied := by
  intro y member
  by_cases same : y = x
  · subst same
    rw [act_self]
    refine Candidate.tallied_step (a.sound.tallied y member) a.room a.within ?_ ?_ timely
    · intro self
      rw [a.nodeId] at self
      exact (a.mem_peers.mp self).1 rfl
    · intro p peer zero
      rw [zero] at peer
      exact real (a.mem_peers.mp peer).2
  · rw [act_other same]
    exact a.sound.tallied y member

end Acting

theorem sound_step (nodup : ids.Nodup) (real : 0 ∉ ids) (h : s.Sound ids) {e : ClusterEvent}
    (timely : s.Timely ids e) : (s.step ids e).Sound ids := by
  unfold step
  split
  · exact h
  · rename_i x i rest arrives
    obtain ⟨member, within, perm⟩ := arrival_spec h arrives
    obtain ⟨room, early⟩ := timely _ arrives
    have a : Acting ids s x i rest := ⟨h, nodup, member, within, perm, room⟩
    exact ⟨a.members_kept, a.tallied_kept real early, a.net_kept, a.reached_kept, a.once_kept,
      a.granted_kept⟩

theorem sound_start (real : 0 ∉ ids) : (start ids).Sound ids := by
  constructor
  · intro x _
    exact ⟨rfl, rfl⟩
  · intro x member
    have nonzero : x ≠ 0 := by
      rintro rfl
      exact real member
    constructor
    · exact ⟨nonzero, by simp [start], by simp [start]⟩
    all_goals simp [start, Coordinator.new]
  · simp [start]
  · simp [start]
  · simp [start]
  · simp [start, inFlight]

theorem sound_run (nodup : ids.Nodup) (real : 0 ∉ ids) {es : List ClusterEvent}
    (timely : Run.Along (step ids) (Timely ids) (start ids) es) :
    (Run.run (step ids) (start ids) es).Sound ids :=
  Run.invariant (fun _ s => s.Sound ids) (sound_start real)
    (fun _ _ _ allowed h => sound_step nodup real h allowed) timely

theorem supporters_subset (t y : UInt64) : s.supporters ids t y ⊆ ids.toFinset :=
  Finset.filter_subset _ _

/-- The winner of a term has the votes of a majority, its own among them. -/
theorem won_majority (h : s.Sound ids) (member : x ∈ ids) {t : UInt64}
    (won : t ∈ (s.nodes x).won) : ids.length / 2 + 1 ≤ (s.supporters ids t x).card := by
  obtain ⟨own, enough⟩ := (h.tallied x member).won t won
  obtain ⟨nodeId, peers⟩ := h.members x member
  rw [nodeId] at own
  have size : (s.nodes x).node.quorum = ids.length / 2 + 1 := by
    have one := List.length_erase_of_mem member
    have pos := List.length_pos_of_mem member
    unfold Coordinator.quorum Coordinator.clusterSize
    rw [peers]
    omega
  have bound := h.granted x member t
  have notVoter : x ∉ s.voters ids t x := by
    intro voter
    exact (Finset.mem_filter.mp voter).2.1 rfl
  have all : insert x (s.voters ids t x) ⊆ s.supporters ids t x := by
    intro p voter
    rcases Finset.mem_insert.mp voter with rfl | other
    · exact Finset.mem_filter.mpr ⟨List.mem_toFinset.mpr member, own⟩
    · obtain ⟨inside, -, cast⟩ := Finset.mem_filter.mp other
      exact Finset.mem_filter.mpr ⟨inside, cast⟩
  have card := Finset.card_le_card all
  rw [Finset.card_insert_of_notMem notVoter] at card
  omega

end

structure OneLeaderPerTerm (ids : List UInt64) (s : Cluster) : Prop where
  single : ∀ x ∈ ids, ∀ y ∈ ids, ∀ t, t ∈ (s.nodes x).won → t ∈ (s.nodes y).won → x = y

end Cluster

open Cluster

/-- Two winners have majorities behind them, and a node in both voted once. -/
theorem one_leader_per_term (ids : List UInt64) (nodup : ids.Nodup) (real : 0 ∉ ids)
    (es : List ClusterEvent) (timely : Run.Along (step ids) (Timely ids) (start ids) es) :
    OneLeaderPerTerm ids (Run.run (step ids) (start ids) es) := by
  have h := sound_run nodup real timely
  constructor
  intro x memberX y memberY t wonX wonY
  have majorityX := won_majority h memberX wonX
  have majorityY := won_majority h memberY wonY
  have total : ids.toFinset.card = ids.length := List.toFinset_card_of_nodup nodup
  obtain ⟨p, shared⟩ := Finset.inter_nonempty_of_card_lt_card_add_card
    (supporters_subset t x) (supporters_subset t y)
    (lt_of_lt_of_le (by omega) (Nat.add_le_add majorityX majorityY))
  obtain ⟨inX, inY⟩ := Finset.mem_inter.mp shared
  obtain ⟨member, castX⟩ := Finset.mem_filter.mp inX
  exact (h.tallied p (List.mem_toFinset.mp member)).backed.single t x y castX
    (Finset.mem_filter.mp inY).2

def following : List ClusterEvent :=
  [.task 3 .leaderHeartbeat, .deliver 0 true false, .deliver 0 true false]

def afterFollowing (es : List ClusterEvent) : Cluster :=
  Run.run (Cluster.step [1, 2, 3]) (.start [1, 2, 3]) (following ++ es)

/-- Both find the leader silent. The pre-votes of node 3 come in when node 1 has
    been elected. -/
def orderly : List ClusterEvent :=
  [.task 1 .electionTimeout, .task 2 .electionTimeout, .deliver 0 true false,
    .deliver 0 true false, .deliver 0 true false, .deliver 0 true false, .deliver 0 true false,
    .task 1 (.poll 0 false), .deliver 3 true false, .deliver 4 true false,
    .task 1 (.poll 0 false), .task 1 (.poll 0 false), .deliver 0 true false]

theorem one_leader_per_term_orderly :
    ((afterFollowing orderly).nodes 1).won = [2] ∧
      OneLeaderPerTerm [1, 2, 3] (afterFollowing orderly) := by
  have timely : Run.Along (step [1, 2, 3]) (Timely [1, 2, 3]) (start [1, 2, 3])
      (following ++ orderly) := by decide +kernel
  refine ⟨by decide +kernel, ?_⟩
  exact one_leader_per_term [1, 2, 3] (by decide) (by decide) _ timely

/-- Nodes 1 and 2 stand for term 2 with the pre-votes of each other, and then the
    pre-votes of node 3 come in. -/
def latePreVotes : List ClusterEvent :=
  [.task 1 .electionTimeout, .task 2 .electionTimeout, .deliver 0 true false,
    .deliver 0 true false, .deliver 0 true false, .deliver 0 true false, .deliver 0 true false,
    .deliver 1 true false, .task 1 (.poll 0 false), .task 2 (.poll 0 false),
    .deliver 0 true false, .deliver 0 true false, .task 1 (.poll 0 false),
    .task 1 (.poll 0 false), .task 2 (.poll 0 false), .task 2 (.poll 0 false)]

theorem pre_votes_elect_two :
    (((afterFollowing latePreVotes).nodes 1).won = [2] ∧
      ((afterFollowing latePreVotes).nodes 2).won = [2]) ∧
      ¬ OneLeaderPerTerm [1, 2, 3] (afterFollowing latePreVotes) := by
  have both : ((afterFollowing latePreVotes).nodes 1).won = [2] ∧
      ((afterFollowing latePreVotes).nodes 2).won = [2] := by decide +kernel
  refine ⟨both, ?_⟩
  intro one
  have same := one.single 1 (by decide) 2 (by decide) 2 (by rw [both.1]; decide)
    (by rw [both.2]; decide)
  exact absurd same (by decide)

end RocketmqBroker
