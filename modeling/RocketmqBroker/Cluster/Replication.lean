import Mathlib.Algebra.Order.Group.Multiset
import Mathlib.Data.Finset.Card
import RocketmqBroker.Cluster.Connections

/-!
Calls that replicate a message or an ack and wait for a quorum. Both kinds share
the two maps by message id, and a response carries the id and nothing else, so it
is credited to whatever call waits for that id. Here every request and response in
flight carries, for the record, the call that it belongs to.
-/
namespace RocketmqBroker

abbrev Report := UInt64 × Nat × UInt64

structure TracedFrame where
  sender : UInt64
  receiver : UInt64
  frame : ClusterFrame
  call : Option Nat
  deriving DecidableEq, Repr

def ClusterFrame.isRequest : ClusterFrame → Bool
  | replicatePublish _ _ _ _ _ => true
  | replicateAck _ _ _ _ => true
  | _ => false

def TracedFrame.share (m : TracedFrame) : Option Report :=
  match m.frame with
  | .replicatePublish _ _ _ _ _ => m.call.map (m.sender, ·, m.receiver)
  | .replicateAck _ _ _ _ => m.call.map (m.sender, ·, m.receiver)
  | .replicateResponse _ _ _ => m.call.map (m.receiver, ·, m.sender)
  | _ => none

def TracedFrame.reports (m : TracedFrame) : List Report :=
  match m.frame with
  | .replicateResponse _ _ true => m.share.toList
  | _ => []

def ClusterTask.replicates : ClusterTask → Bool
  | publish _ _ _ => true
  | ack _ _ => true
  | _ => false

def ClusterTask.isCall : ClusterTask → Bool
  | callReturns _ _ => true
  | t => t.replicates

structure ReplicationNet where
  nodes : UInt64 → Coordinator
  net : List TracedFrame
  reports : List Report

inductive ReplicationEvent where
  | task (node : UInt64) (t : ClusterTask)
  /-- The frame at a position of the net arrives. -/
  | deliver (k : Nat) (inbound known : Bool)
  /-- A node opens a connection and sends its heartbeat. -/
  | dial (node peer : UInt64)
  | closed (node peer : UInt64)
  deriving DecidableEq, Repr

namespace ReplicationNet

def start : ReplicationNet := ⟨Coordinator.new, [], []⟩

def act (s : ReplicationNet) (x : UInt64) (i : ClusterInput) (call : Option Nat)
    (rest : List TracedFrame) (reports : List Report) : ReplicationNet where
  nodes y := if y = x then ((s.nodes x).react i).state else s.nodes y
  net := rest ++ ((s.nodes x).react i).sent.map fun m => ⟨x, m.1, m.2, call⟩
  reports := reports

def step (s : ReplicationNet) : ReplicationEvent → ReplicationNet
  | .task x t =>
    s.act x (.task t) (if t.replicates then some (s.nodes x).nextCall else none) s.net s.reports
  | .deliver k inbound known =>
    match s.net[k]? with
    | none => s
    | some m =>
      s.act m.receiver (.frame m.sender inbound known m.frame)
        (if m.frame.isRequest then m.call else none) (s.net.eraseIdx k) (s.reports ++ m.reports)
  | .dial x y => { s with net := s.net ++ [⟨x, y, .heartbeat x, none⟩] }
  | .closed x peer => s.act x (.closed peer) none s.net s.reports

/-- The call that a step lets return true, with its node. -/
def returned (s : ReplicationNet) : ReplicationEvent → Option (UInt64 × Nat)
  | .task x t => ((s.nodes x).react (.task t)).confirmed.map (x, ·)
  | .deliver k inbound known => s.net[k]?.bind fun m =>
    ((s.nodes m.receiver).react (.frame m.sender inbound known m.frame)).confirmed.map
      (m.receiver, ·)
  | .dial _ _ => none
  | .closed x peer => ((s.nodes x).react (.closed peer)).confirmed.map (x, ·)

def reported (s : ReplicationNet) (x : UInt64) (call : Nat) : List UInt64 :=
  (s.reports.filter fun r => r.1 = x ∧ r.2.1 = call).map (·.2.2)

def reporters (s : ReplicationNet) (x : UInt64) (call : Nat) : Finset UInt64 :=
  (s.reported x call).toFinset

/-- A response of success that counts answers the very call that waits. -/
def Credited (s : ReplicationNet) : ReplicationEvent → Prop
  | .deliver k _ _ => ∀ m ∈ s.net[k]?,
    match m.frame with
    | .replicateResponse term msgId true => term = (s.nodes m.receiver).currentTerm →
      ∀ waiting ∈ (s.nodes m.receiver).pendingReplications.get? msgId, m.call = some waiting
    | _ => True
  | _ => True

instance (s : ReplicationNet) (e : ReplicationEvent) : Decidable (s.Credited e) := by
  cases e with
  | deliver k inbound known =>
    have each : ∀ m : TracedFrame, Decidable (match m.frame with
        | .replicateResponse term msgId true => term = (s.nodes m.receiver).currentTerm →
          ∀ waiting ∈ (s.nodes m.receiver).pendingReplications.get? msgId, m.call = some waiting
        | _ => True) := by
      intro m
      split <;> infer_instance
    exact Option.decidableForallMem s.net[k]?
  | task | dial | closed => exact isTrue trivial

/-- A call returns true only when enough distinct peers reported success for it. -/
structure CallsHonest (es : List ReplicationEvent) : Prop where
  quorum : ∀ before e after, es = before ++ e :: after →
    ∀ x call, (Run.run step start before).returned e = some (x, call) →
      ((Run.run step start before).nodes x).quorum - 1 ≤
        ((Run.run step start (before ++ [e])).reporters x call).card

def shares (s : ReplicationNet) : Multiset Report :=
  (s.net.filterMap TracedFrame.share : Multiset Report) + (s.reports : Multiset Report)

/-- Every peer is asked once for a call, and a vote that is counted for a waiting
    call was reported for it. -/
structure Sound (s : ReplicationNet) : Prop where
  peers : ∀ x, (s.nodes x).peers.Nodup
  issued : ∀ r ∈ s.shares, r.2.1 < (s.nodes r.1).nextCall
  once : s.shares.Nodup
  counted : ∀ x msgId call votes, (s.nodes x).pendingReplications.get? msgId = some call →
    (s.nodes x).replicationVotes.get? msgId = some votes →
    votes ≤ 1 + (s.reported x call).length

end ReplicationNet

structure Reaction.CallsKept (c : Coordinator) (r : Reaction) : Prop where
  pending : r.state.pendingReplications = c.pendingReplications
  votes : r.state.replicationVotes = c.replicationVotes
  nextCall : r.state.nextCall = c.nextCall
  confirmed : r.confirmed = none

section
variable {c : Coordinator}

theorem callsKept_startElection : Reaction.CallsKept c c.startElection := by
  unfold Coordinator.startElection
  simp only
  split <;> exact ⟨rfl, rfl, rfl, rfl⟩

theorem callsKept_poll (k : Nat) (expired : Bool) : Reaction.CallsKept c (c.poll k expired) := by
  unfold Coordinator.poll
  split
  · exact ⟨rfl, rfl, rfl, rfl⟩
  · split
    · exact ⟨rfl, rfl, rfl, rfl⟩
    · split <;> exact ⟨rfl, rfl, rfl, rfl⟩
  · exact ⟨rfl, rfl, rfl, rfl⟩
  · split
    · exact ⟨rfl, rfl, rfl, rfl⟩
    · split
      · exact ⟨rfl, rfl, rfl, rfl⟩
      · split <;> exact ⟨rfl, rfl, rfl, rfl⟩

theorem callsKept_closed (peer : UInt64) :
    Reaction.CallsKept c (c.react (.closed peer)) := by
  unfold Coordinator.react
  simp only
  split
  · obtain ⟨pending, votes, nextCall, confirmed⟩ :=
      callsKept_startElection (c := { c with peers := c.peers.filter (· ≠ peer) })
    exact ⟨pending, votes, nextCall, confirmed⟩
  · exact ⟨rfl, rfl, rfl, rfl⟩

def ClusterFrame.isResponse : ClusterFrame → Bool
  | replicateResponse _ _ _ => true
  | _ => false

theorem callsKept_dispatchFrame {f : ClusterFrame} (other : f.isResponse = false)
    (sender : UInt64) (inbound known : Bool) :
    Reaction.CallsKept c (c.dispatchFrame sender inbound known f) := by
  cases f with
  | replicateResponse => contradiction
  | heartbeat | preVote | nodeDown => exact ⟨rfl, rfl, rfl, rfl⟩
  | preVoteResponse term voteGranted => cases voteGranted <;> exact ⟨rfl, rfl, rfl, rfl⟩
  | requestVote term candidateId =>
    unfold Coordinator.dispatchFrame Coordinator.handleRequestVote
    simp only
    split
    · exact ⟨rfl, rfl, rfl, rfl⟩
    · split <;> split <;> exact ⟨rfl, rfl, rfl, rfl⟩
  | requestVoteResponse term voteGranted =>
    unfold Coordinator.dispatchFrame Coordinator.handleRequestVoteResponse
    simp only
    split
    · exact ⟨rfl, rfl, rfl, rfl⟩
    · split <;> exact ⟨rfl, rfl, rfl, rfl⟩
  | leaderHeartbeat term leaderId =>
    unfold Coordinator.dispatchFrame Coordinator.handleLeaderHeartbeat
    simp only
    split <;> exact ⟨rfl, rfl, rfl, rfl⟩
  | appendEntries f =>
    unfold Coordinator.dispatchFrame Coordinator.handleAppendEntries
    simp only
    split
    · exact ⟨rfl, rfl, rfl, rfl⟩
    · split <;> exact ⟨rfl, rfl, rfl, rfl⟩
  | appendEntriesResponse term success matchIndex =>
    unfold Coordinator.dispatchFrame Coordinator.handleAppendEntriesResponse
    simp only
    split <;> exact ⟨rfl, rfl, rfl, rfl⟩
  | replicatePublish term leaderId =>
    unfold Coordinator.dispatchFrame Coordinator.acceptTerm
    simp only
    split
    · exact ⟨rfl, rfl, rfl, rfl⟩
    · split <;> exact ⟨rfl, rfl, rfl, rfl⟩
  | replicateAck term leaderId =>
    unfold Coordinator.dispatchFrame Coordinator.acceptTerm
    simp only
    split
    · exact ⟨rfl, rfl, rfl, rfl⟩
    · split <;> exact ⟨rfl, rfl, rfl, rfl⟩

end

namespace ReplicationNet

section
variable {s : ReplicationNet} {x : UInt64} {i : ClusterInput} {call : Option Nat}
  {rest : List TracedFrame} {reports extra : List Report}

theorem act_self : (s.act x i call rest reports).nodes x = ((s.nodes x).react i).state :=
  if_pos rfl

theorem act_other {y : UInt64} (differs : y ≠ x) :
    (s.act x i call rest reports).nodes y = s.nodes y := if_neg differs

def sentShares (x : UInt64) (call : Option Nat) (sent : List (UInt64 × ClusterFrame)) :
    List Report :=
  (sent.map fun m => TracedFrame.mk x m.1 m.2 call).filterMap TracedFrame.share

theorem shares_act : (s.act x i call rest reports).shares =
    (rest.filterMap TracedFrame.share : Multiset Report) +
      (sentShares x call ((s.nodes x).react i).sent : Multiset Report) +
      (reports : Multiset Report) := by
  unfold shares act sentShares
  rw [List.filterMap_append, ← Multiset.coe_add]

theorem share_untagged {m : TracedFrame} (untagged : m.call = none) : m.share = none := by
  unfold TracedFrame.share
  rw [untagged]
  split <;> rfl

theorem sentShares_none (sent : List (UInt64 × ClusterFrame)) : sentShares x none sent = [] := by
  unfold sentShares
  rw [List.filterMap_eq_nil_iff]
  intro m member
  obtain ⟨pair, -, rfl⟩ := List.mem_map.mp member
  exact share_untagged rfl

theorem reported_append (s : ReplicationNet) {t : ReplicationNet}
    (more : t.reports = s.reports ++ extra) (y : UInt64) (k : Nat) :
    t.reported y k = s.reported y k ++
      (extra.filter fun r => r.1 = y ∧ r.2.1 = k).map (·.2.2) := by
  rw [reported, more, List.filter_append, List.map_append, reported]

theorem sound_act (h : Sound s) (asked : Multiset Report)
    (peers : ((s.nodes x).react i).state.peers.Nodup)
    (shares : (s.act x i call rest (s.reports ++ extra)).shares ≤ s.shares + asked)
    (grows : (s.nodes x).nextCall ≤ ((s.nodes x).react i).state.nextCall)
    (fresh : asked.Nodup ∧ ∀ r ∈ asked, r.1 = x ∧ r.2.1 = (s.nodes x).nextCall ∧
      r.2.1 < ((s.nodes x).react i).state.nextCall)
    (counted : ∀ msgId k votes,
      ((s.nodes x).react i).state.pendingReplications.get? msgId = some k →
      ((s.nodes x).react i).state.replicationVotes.get? msgId = some votes →
      votes ≤ 1 + ((s.act x i call rest (s.reports ++ extra)).reported x k).length) :
    Sound (s.act x i call rest (s.reports ++ extra)) := by
  have apart : Disjoint s.shares asked := by
    refine Multiset.disjoint_left.mpr ?_
    intro r old new
    obtain ⟨caller, number, -⟩ := fresh.2 r new
    have := h.issued r old
    rw [caller] at this
    omega
  have grown : ∀ y, (s.nodes y).nextCall ≤
      ((s.act x i call rest (s.reports ++ extra)).nodes y).nextCall := by
    intro y
    by_cases same : y = x
    · rw [same, act_self]
      exact grows
    · rw [act_other same]
  constructor
  · intro y
    by_cases same : y = x
    · rw [same, act_self]
      exact peers
    · rw [act_other same]
      exact h.peers y
  · intro r member
    rcases Multiset.mem_add.mp (Multiset.mem_of_le shares member) with old | new
    · exact lt_of_lt_of_le (h.issued r old) (grown r.1)
    · obtain ⟨caller, -, less⟩ := fresh.2 r new
      rw [caller, act_self]
      exact less
  · exact Multiset.nodup_of_le shares
      (Multiset.nodup_add.mpr ⟨h.once, fresh.1, apart⟩)
  · intro y msgId k votes
    by_cases same : y = x
    · rw [same, act_self]
      exact counted msgId k votes
    · rw [act_other same]
      intro pending voted
      have before := h.counted y msgId k votes pending voted
      rw [reported_append s rfl, List.length_append]
      omega

theorem sound_act_kept (h : Sound s) (peers : ((s.nodes x).react i).state.peers.Nodup)
    (kept : Reaction.CallsKept (s.nodes x) ((s.nodes x).react i))
    (shares : (s.act x i call rest s.reports).shares ≤ s.shares) :
    Sound (s.act x i call rest s.reports) := by
  have none : s.reports = s.reports ++ [] := (List.append_nil _).symm
  rw [none]
  refine sound_act h 0 peers ?_ kept.nextCall.ge ⟨Multiset.nodup_zero, by simp⟩ ?_
  · rw [← none, add_zero]
    exact shares
  · intro msgId k votes pending voted
    rw [kept.pending] at pending
    rw [kept.votes] at voted
    rw [← none]
    exact h.counted x msgId k votes pending voted

theorem share_request {f : ClusterFrame} (request : f.isRequest = true) (y : UInt64) (k : Nat) :
    TracedFrame.share ⟨x, y, f, some k⟩ = some (x, k, y) := by
  cases f with
  | replicatePublish => rfl
  | replicateAck => rfl
  | _ => contradiction

theorem sentShares_broadcast {f : ClusterFrame} (request : f.isRequest = true) (k : Nat)
    (peers : List UInt64) :
    sentShares x (some k) (peers.map (·, f)) = peers.map fun p => (x, k, p) := by
  induction peers with
  | nil => rfl
  | cons p ps ih =>
    unfold sentShares at ih ⊢
    rw [List.map_cons, List.map_cons, List.filterMap_cons_some (share_request request p k), ih,
      List.map_cons]

theorem sound_replicate (h : Sound s) {msgId : UInt64} {f : ClusterFrame}
    (request : f.isRequest = true)
    (calls : (s.nodes x).react i = (s.nodes x).replicate msgId f) :
    Sound (s.act x i (some (s.nodes x).nextCall) s.net s.reports) := by
  have none : s.reports = s.reports ++ [] := (List.append_nil _).symm
  have shares : (s.act x i (some (s.nodes x).nextCall) s.net s.reports).shares = _ := shares_act
  rw [none] at shares ⊢
  rw [calls] at shares
  by_cases alone : (s.nodes x).peers.isEmpty = true
  · have reaction : (s.nodes x).replicate msgId f =
        { state := { s.nodes x with nextCall := (s.nodes x).nextCall + 1 }
          confirmed := some (s.nodes x).nextCall } := if_pos alone
    rw [reaction] at calls shares
    refine sound_act h 0 ?_ ?_ ?_ ⟨Multiset.nodup_zero, by simp⟩ ?_
    · rw [calls]
      exact h.peers x
    · rw [shares, add_zero, none.symm]
      simp [sentShares, ReplicationNet.shares]
    · rw [calls]
      exact Nat.le_succ _
    · rw [calls, none.symm]
      exact h.counted x
  · have reaction : (s.nodes x).replicate msgId f =
        { state := { s.nodes x with
            nextCall := (s.nodes x).nextCall + 1
            pendingReplications :=
              (s.nodes x).pendingReplications.insert msgId (s.nodes x).nextCall
            replicationVotes := (s.nodes x).replicationVotes.insert msgId 1 }
          sent := (s.nodes x).broadcast f } := if_neg alone
    rw [reaction] at calls shares
    have asks := sentShares_broadcast (x := x) request (s.nodes x).nextCall (s.nodes x).peers
    refine sound_act h ((s.nodes x).peers.map fun p =>
      (x, (s.nodes x).nextCall, p) : List Report) ?_ ?_ ?_ ⟨?_, ?_⟩ ?_
    · rw [calls]
      exact h.peers x
    · rw [shares, ← asks, none.symm, ReplicationNet.shares, add_right_comm]
      exact le_refl _
    · rw [calls]
      exact Nat.le_succ _
    · refine Multiset.coe_nodup.mpr ((h.peers x).map ?_)
      intro p q same
      exact (Prod.mk.inj (Prod.mk.inj same).2).2
    · intro r member
      obtain ⟨p, -, rfl⟩ := List.mem_map.mp (Multiset.mem_coe.mp member)
      refine ⟨rfl, rfl, ?_⟩
      rw [calls]
      exact Nat.lt_succ_self _
    · rw [calls, none.symm]
      intro id k votes pending voted
      simp only [FinMap.get?_insert] at pending voted
      split at voted
      · cases voted
        omega
      · rename_i differs
        rw [if_neg differs] at pending
        exact h.counted x id k votes pending voted

theorem sound_callReturns (h : Sound s) (msgId : UInt64) (confirmed : Bool) :
    Sound (s.act x (.task (.callReturns msgId confirmed)) none s.net s.reports) := by
  have none : s.reports = s.reports ++ [] := (List.append_nil _).symm
  rw [none]
  refine sound_act h 0 (h.peers x) ?_ le_rfl ⟨Multiset.nodup_zero, by simp⟩ ?_
  · rw [shares_act, sentShares_none, add_zero, none.symm]
    simp [ReplicationNet.shares]
  · intro id k votes pending voted
    rw [none.symm]
    change (FinMap.get? (FinMap.erase _ msgId) id) = _ at voted
    rw [FinMap.get?_erase] at voted
    split at voted
    · contradiction
    rename_i differs
    have still : (s.nodes x).pendingReplications.get? id = some k := by
      change (FinMap.get? (if confirmed then _ else FinMap.erase _ msgId) id) = _ at pending
      cases confirmed with
      | true => exact pending
      | false =>
        rw [if_neg (by decide), FinMap.get?_erase, if_neg differs] at pending
        exact pending
    exact h.counted x id k votes still voted

theorem callsKept_perform {c : Coordinator} {t : ClusterTask} (other : t.isCall = false) :
    Reaction.CallsKept c (c.perform t) := by
  cases t with
  | publish | ack | callReturns => contradiction
  | electionTimeout =>
    show Reaction.CallsKept c (ite _ _ _)
    split
    · exact callsKept_startElection
    · exact ⟨rfl, rfl, rfl, rfl⟩
  | poll k expired => exact callsKept_poll k expired
  | leaderHeartbeat | peerDown | createGroup | appendLocal => exact ⟨rfl, rfl, rfl, rfl⟩

theorem shares_untagged : (s.act x i none s.net s.reports).shares ≤ s.shares := by
  rw [shares_act, sentShares_none]
  simp [ReplicationNet.shares]

theorem sound_task (h : Sound s) (x : UInt64) (t : ClusterTask) :
    Sound (s.step (.task x t)) := by
  have peers : ((s.nodes x).react (.task t)).state.peers.Nodup := by
    rw [show ((s.nodes x).react (.task t)).state.peers = (s.nodes x).peers from perform_peers t]
    exact h.peers x
  have kept : t.isCall = false →
      Reaction.CallsKept (s.nodes x) ((s.nodes x).react (.task t)) := callsKept_perform
  cases t with
  | publish queue msgId body => exact sound_replicate h rfl rfl
  | ack queue msgId => exact sound_replicate h rfl rfl
  | callReturns msgId confirmed => exact sound_callReturns h msgId confirmed
  | electionTimeout | poll | leaderHeartbeat | peerDown | createGroup | appendLocal =>
    exact sound_act_kept h peers (kept rfl) shares_untagged

theorem sound_closed (h : Sound s) (x peer : UInt64) : Sound (s.step (.closed x peer)) := by
  refine sound_act_kept h ?_ (callsKept_closed peer) shares_untagged
  rw [closed_peers]
  exact (h.peers x).filter _

theorem sound_dial (h : Sound s) (x y : UInt64) : Sound (s.step (.dial x y)) := by
  have shares : (s.step (.dial x y)).shares = s.shares := by
    show ((List.filterMap TracedFrame.share (s.net ++ [_]) : List Report) : Multiset Report) + _ =
      _
    have silent : TracedFrame.share ⟨x, y, .heartbeat x, none⟩ = none := rfl
    rw [List.filterMap_append, List.filterMap_cons_none silent, List.filterMap_nil,
      List.append_nil]
    rfl
  constructor
  · exact h.peers
  · rw [shares]
    exact h.issued
  · rw [shares]
    exact h.once
  · exact h.counted

theorem shares_arrive {k : Nat} {m : TracedFrame} (there : s.net[k]? = some m) :
    s.shares = (m.share.toList : Multiset Report) +
      ((s.net.eraseIdx k).filterMap TracedFrame.share : Multiset Report) +
      (s.reports : Multiset Report) := by
  obtain ⟨inside, rfl⟩ := List.getElem?_eq_some_iff.mp there
  have perm := (List.getElem_cons_eraseIdx_perm inside).symm.filterMap TracedFrame.share
  rw [ReplicationNet.shares]
  congr 1
  refine (Multiset.coe_eq_coe.mpr perm).trans ?_
  cases share : s.net[k].share with
  | none => simp [List.filterMap_cons_none share]
  | some r => simp [List.filterMap_cons_some share]

theorem share_response {m : TracedFrame} {term msgId : UInt64} {success : Bool}
    (response : m.frame = .replicateResponse term msgId success) :
    m.share = m.call.map (m.receiver, ·, m.sender) := by
  unfold TracedFrame.share
  rw [response]

theorem share_asked {m : TracedFrame} (request : m.frame.isRequest = true) :
    m.share = m.call.map (m.sender, ·, m.receiver) := by
  unfold TracedFrame.share
  cases frame : m.frame with
  | replicatePublish => rfl
  | replicateAck => rfl
  | _ => simp [frame, ClusterFrame.isRequest] at request

theorem reports_le {m : TracedFrame} :
    (m.reports : Multiset Report) ≤ (m.share.toList : Multiset Report) := by
  unfold TracedFrame.reports
  split
  · exact le_refl _
  · exact Multiset.zero_le _

theorem shares_deliver {k : Nat} {m : TracedFrame} (there : s.net[k]? = some m)
    (inbound known : Bool) : (s.step (.deliver k inbound known)).shares ≤ s.shares := by
  have before := shares_arrive there
  simp only [step, there]
  rw [shares_act, before]
  by_cases request : m.frame.isRequest = true
  · have silent : m.reports = [] := by
      unfold TracedFrame.reports
      cases frame : m.frame with
      | replicateResponse => simp [frame, ClusterFrame.isRequest] at request
      | _ => rfl
    have answer : sentShares m.receiver m.call
        ((s.nodes m.receiver).react (.frame m.sender inbound known m.frame)).sent =
        m.share.toList := by
      rw [share_asked request]
      cases frame : m.frame with
      | replicatePublish term leaderId queue msgId body =>
        show List.filterMap TracedFrame.share [TracedFrame.mk _ _ _ _] = _
        cases m.call <;> rfl
      | replicateAck term leaderId queue msgId =>
        show List.filterMap TracedFrame.share [TracedFrame.mk _ _ _ _] = _
        cases m.call <;> rfl
      | _ => simp [frame, ClusterFrame.isRequest] at request
    rw [if_pos request, answer, silent, List.append_nil,
      add_comm (m.share.toList : Multiset Report)]
  · rw [if_neg request, sentShares_none, ← Multiset.coe_add]
    have room := @reports_le m
    calc _ = (m.reports : Multiset Report) +
          ((s.net.eraseIdx k).filterMap TracedFrame.share : Multiset Report) +
          (s.reports : Multiset Report) := by
          rw [Multiset.coe_nil, add_zero, ← add_assoc, add_comm _ (m.reports : Multiset Report),
            ← add_assoc]
      _ ≤ _ := add_le_add (add_le_add room le_rfl) le_rfl

theorem dispatch_peers_nodup {c : Coordinator} (nodup : c.peers.Nodup) (sender : UInt64)
    (inbound known : Bool) (f : ClusterFrame) :
    (c.dispatchFrame sender inbound known f).state.peers.Nodup := by
  rw [dispatchFrame_peers]
  split
  · rename_i nodeId
    split
    · exact nodup
    · rename_i fresh
      exact List.nodup_append.mpr ⟨nodup, List.nodup_singleton _, by
        intro p member q single same
        rw [List.mem_singleton.mp single] at same
        exact fresh (same ▸ member)⟩
  · exact nodup

section
variable {c : Coordinator} {msgId id : UInt64} {k votes : Nat}

theorem voteReplication_pending
    (pending : (c.voteReplication msgId).state.pendingReplications.get? id = some k) :
    c.pendingReplications.get? id = some k := by
  unfold Coordinator.voteReplication at pending
  split at pending
  · exact pending
  simp only at pending
  split at pending
  · split at pending
    · exact pending
    · simp only [FinMap.get?_erase] at pending
      split at pending
      · contradiction
      · exact pending
  · exact pending

theorem voteReplication_votes
    (voted : (c.voteReplication msgId).state.replicationVotes.get? id = some votes) :
    if id = msgId then ∃ old, c.replicationVotes.get? id = some old ∧ votes = old + 1
    else c.replicationVotes.get? id = some votes := by
  unfold Coordinator.voteReplication at voted
  split at voted
  · rename_i none
    split
    · rename_i same
      rw [same, none] at voted
      contradiction
    · exact voted
  rename_i count found
  have counts : (c.replicationVotes.insert msgId (count + 1)).get? id = some votes := by
    simp only at voted
    split at voted
    · split at voted <;> exact voted
    · exact voted
  rw [FinMap.get?_insert] at counts
  split at counts
  · rename_i same
    rw [if_pos same, same]
    exact ⟨count, found, (Option.some.inj counts).symm⟩
  · rename_i differs
    rw [if_neg differs]
    exact counts

theorem voteReplication_confirmed (confirmed : (c.voteReplication msgId).confirmed = some k) :
    c.pendingReplications.get? msgId = some k ∧
      ∃ old, c.replicationVotes.get? msgId = some old ∧ c.quorum ≤ old + 1 := by
  unfold Coordinator.voteReplication at confirmed
  split at confirmed
  · contradiction
  rename_i count found
  simp only at confirmed
  split at confirmed
  · rename_i enough
    split at confirmed
    · contradiction
    · rename_i call waiting
      cases confirmed
      exact ⟨waiting, count, found, enough⟩
  · contradiction

theorem voteReplication_nextCall : (c.voteReplication msgId).state.nextCall = c.nextCall := by
  unfold Coordinator.voteReplication
  split
  · rfl
  simp only
  split
  · split <;> rfl
  · rfl

end

theorem dispatchFrame_response (c : Coordinator) (sender : UInt64) (inbound known : Bool)
    (term msgId : UInt64) (success : Bool) :
    c.dispatchFrame sender inbound known (.replicateResponse term msgId success) =
      if term = c.currentTerm ∧ success then c.voteReplication msgId else { state := c } := rfl

theorem reported_credited {m : TracedFrame} {term msgId : UInt64} {k : Nat}
    (response : m.frame = .replicateResponse term msgId true) (credited : m.call = some k)
    {t : ReplicationNet} (more : t.reports = s.reports ++ m.reports) :
    (t.reported m.receiver k).length = (s.reported m.receiver k).length + 1 := by
  have single : m.reports = [(m.receiver, k, m.sender)] := by
    unfold TracedFrame.reports
    rw [share_response response, response, credited]
    rfl
  rw [reported_append s more, List.length_append, single]
  simp

theorem counted_response (h : Sound s) {m : TracedFrame} {term msgId : UInt64} {success : Bool}
    (response : m.frame = .replicateResponse term msgId success)
    (credited : success = true → term = (s.nodes m.receiver).currentTerm →
      ∀ waiting ∈ (s.nodes m.receiver).pendingReplications.get? msgId, m.call = some waiting)
    {t : ReplicationNet} (more : t.reports = s.reports ++ m.reports) (inbound known : Bool)
    {id : UInt64} {k votes : Nat}
    (pending : ((s.nodes m.receiver).dispatchFrame m.sender inbound known
      m.frame).state.pendingReplications.get? id = some k)
    (voted : ((s.nodes m.receiver).dispatchFrame m.sender inbound known
      m.frame).state.replicationVotes.get? id = some votes) :
    votes ≤ 1 + (t.reported m.receiver k).length := by
  have grown : (s.reported m.receiver k).length ≤ (t.reported m.receiver k).length := by
    rw [reported_append s more, List.length_append]
    exact Nat.le_add_right _ _
  rw [response, dispatchFrame_response] at pending voted
  split at pending
  · rename_i counts
    rw [if_pos counts] at voted
    have waiting := voteReplication_pending pending
    have tally := voteReplication_votes voted
    split at tally
    · rename_i same
      obtain ⟨old, found, rfl⟩ := tally
      have before := h.counted m.receiver id k old waiting found
      rw [same] at waiting
      have own := credited counts.2 counts.1 k waiting
      rw [counts.2] at response
      rw [reported_credited response own more]
      omega
    · have before := h.counted m.receiver id k votes waiting tally
      omega
  · rename_i ignored
    rw [if_neg ignored] at voted
    have before := h.counted m.receiver id k votes pending voted
    omega

theorem sound_deliver (h : Sound s) {k : Nat} {inbound known : Bool}
    (credited : s.Credited (.deliver k inbound known)) :
    Sound (s.step (.deliver k inbound known)) := by
  cases there : s.net[k]? with
  | none =>
    simp only [step, there]
    exact h
  | some m =>
    have shares := shares_deliver there inbound known
    have peers := dispatch_peers_nodup (h.peers m.receiver) m.sender inbound known m.frame
    have own := credited m there
    simp only [step, there] at shares ⊢
    by_cases response : m.frame.isResponse = true
    · cases frame : m.frame with
      | replicateResponse term msgId success =>
        have calls : ((s.nodes m.receiver).dispatchFrame m.sender inbound known
            m.frame).state.nextCall = (s.nodes m.receiver).nextCall := by
          rw [frame, dispatchFrame_response]
          split
          · exact voteReplication_nextCall
          · rfl
        rw [← frame]
        refine sound_act h 0 peers ?_ calls.ge ⟨Multiset.nodup_zero, by simp⟩ ?_
        · rw [add_zero]
          exact shares
        · intro id call votes pending voted
          refine counted_response h frame ?_ rfl inbound known pending voted
          intro success'
          subst success'
          rw [frame] at own
          exact own
      | _ => simp [frame, ClusterFrame.isResponse] at response
    · have silent : m.reports = [] := by
        unfold TracedFrame.reports
        cases frame : m.frame with
        | replicateResponse => simp [frame, ClusterFrame.isResponse] at response
        | _ => rfl
      rw [silent, List.append_nil] at shares ⊢
      exact sound_act_kept h peers
        (callsKept_dispatchFrame (Bool.eq_false_iff.mpr response) m.sender inbound known) shares

theorem sound_step (h : Sound s) {e : ReplicationEvent} (credited : s.Credited e) :
    Sound (s.step e) := by
  cases e with
  | task x t => exact sound_task h x t
  | deliver k inbound known => exact sound_deliver h credited
  | dial x y => exact sound_dial h x y
  | closed x peer => exact sound_closed h x peer

theorem sound_start : Sound start := by
  constructor
  · intro x
    exact List.nodup_nil
  · intro r member
    contradiction
  · exact Multiset.nodup_zero
  · intro x msgId call votes pending
    contradiction

theorem card_reporters (h : Sound s) (x : UInt64) (k : Nat) :
    (s.reporters x k).card = (s.reported x k).length := by
  refine List.toFinset_card_of_nodup ?_
  have distinct : s.reports.Nodup :=
    Multiset.coe_nodup.mp (Multiset.nodup_of_le (Multiset.le_add_left _ _) h.once)
  refine List.Nodup.map_on ?_ (distinct.filter _)
  intro a first b second same
  obtain ⟨-, here⟩ := List.mem_filter.mp first
  obtain ⟨-, there⟩ := List.mem_filter.mp second
  simp only [decide_eq_true_eq] at here there
  exact Prod.ext (here.1.trans there.1.symm) (Prod.ext (here.2.trans there.2.symm) same)

theorem replicate_confirmed {c : Coordinator} {msgId : UInt64} {f : ClusterFrame} {k : Nat}
    (confirmed : (c.replicate msgId f).confirmed = some k) : c.quorum = 1 := by
  unfold Coordinator.replicate at confirmed
  simp only at confirmed
  split at confirmed
  · rename_i alone
    unfold Coordinator.quorum Coordinator.clusterSize
    rw [List.isEmpty_iff.mp alone]
    rfl
  · contradiction

theorem task_confirmed {c : Coordinator} {t : ClusterTask} {k : Nat}
    (confirmed : (c.perform t).confirmed = some k) : c.quorum = 1 := by
  have kept : t.isCall = false → Reaction.CallsKept c (c.perform t) := callsKept_perform
  cases t with
  | publish queue msgId body => exact replicate_confirmed confirmed
  | ack queue msgId => exact replicate_confirmed confirmed
  | callReturns => contradiction
  | electionTimeout | poll | leaderHeartbeat | peerDown | createGroup | appendLocal =>
    rw [(kept rfl).confirmed] at confirmed
    contradiction

/-- The step that lets a call return true has the reports of a quorum. -/
theorem returned_quorum (h : Sound s) {e : ReplicationEvent} (credited : s.Credited e)
    {x : UInt64} {call : Nat} (returned : s.returned e = some (x, call)) :
    (s.nodes x).quorum - 1 ≤ ((s.step e).reporters x call).card := by
  rw [card_reporters (sound_step h credited)]
  cases e with
  | dial => contradiction
  | task y t =>
    obtain ⟨k, confirmed, same⟩ := Option.map_eq_some_iff.mp returned
    obtain ⟨rfl, rfl⟩ := Prod.mk.inj same
    rw [task_confirmed confirmed]
    exact Nat.zero_le _
  | closed y peer =>
    obtain ⟨k, confirmed, -⟩ := Option.map_eq_some_iff.mp returned
    rw [(callsKept_closed peer).confirmed] at confirmed
    contradiction
  | deliver i inbound known =>
    obtain ⟨m, there, answered⟩ := Option.bind_eq_some_iff.mp returned
    obtain ⟨k, confirmed, same⟩ := Option.map_eq_some_iff.mp answered
    obtain ⟨rfl, rfl⟩ := Prod.mk.inj same
    have own := credited m there
    have calls : ((s.nodes m.receiver).dispatchFrame m.sender inbound known
      m.frame).confirmed = some k := confirmed
    by_cases response : m.frame.isResponse = true
    · cases frame : m.frame with
      | replicateResponse term msgId success =>
        rw [frame, dispatchFrame_response] at calls
        split at calls
        · rename_i counts
          obtain ⟨current, rfl⟩ := counts
          rw [frame] at own
          obtain ⟨waiting, old, found, enough⟩ := voteReplication_confirmed calls
          have before := h.counted m.receiver msgId k old waiting found
          have more : (s.step (.deliver i inbound known)).reports = s.reports ++ m.reports := by
            simp only [step, there]
            rfl
          rw [reported_credited frame (own current k waiting) more]
          omega
        · contradiction
      | _ => simp [frame, ClusterFrame.isResponse] at response
    · rw [(callsKept_dispatchFrame (Bool.eq_false_iff.mpr response) ..).confirmed] at calls
      contradiction

end

end ReplicationNet

open ReplicationNet

/-- Calls, answers, connections and everything else in any order, as long as the
    responses that count answer the call that waits. -/
theorem calls_honest (es : List ReplicationEvent) (credited : Run.Along step Credited start es) :
    CallsHonest es := by
  constructor
  rintro before e after rfl x call returned
  obtain ⟨past, now, -⟩ := Run.along_append.mp credited
  have sound : Sound (Run.run step start before) :=
    Run.invariant (fun _ s => Sound s) sound_start (fun _ s e ok h => sound_step h ok) past
  rw [Run.run_append]
  exact returned_quorum sound now returned

def threeNodes : List ReplicationEvent :=
  [.dial 2 1, .deliver 0 true false, .deliver 0 false false, .dial 3 1, .deliver 0 true false,
    .deliver 0 false false]

/-- A message is replicated, then its ack, one after the other. -/
def oneByOne : List ReplicationEvent :=
  threeNodes ++ [.task 1 (.publish "q" 7 []), .deliver 0 true true, .deliver 0 true true,
    .deliver 0 true true, .task 1 (.callReturns 7 true), .deliver 0 true true,
    .task 1 (.ack "q" 7), .deliver 0 true true, .deliver 1 true true]

theorem calls_honest_one_by_one :
    (Run.run step start oneByOne).reports = [(1, 0, 2), (1, 0, 3), (1, 1, 2)] ∧
      CallsHonest oneByOne := by
  refine ⟨by decide +kernel, ?_⟩
  exact calls_honest oneByOne (by decide +kernel)

/-- The ack starts while the publish waits for the same message. -/
def overlapping : List ReplicationEvent :=
  threeNodes ++ [.task 1 (.publish "q" 7 []), .task 1 (.ack "q" 7), .deliver 0 true true]

/-- The answer to the publish lets the ack return true, which no peer has seen. -/
theorem answer_credited_elsewhere : ¬ CallsHonest (overlapping ++ [.deliver 3 true true]) := by
  intro honest
  have returned : (Run.run step start overlapping).returned (.deliver 3 true true) =
      some (1, 1) := by decide +kernel
  have needed : ((Run.run step start overlapping).nodes 1).quorum = 2 := by decide +kernel
  have none : (Run.run step start (overlapping ++ [.deliver 3 true true])).reporters 1 1 = ∅ := by
    decide +kernel
  have few := honest.quorum overlapping _ [] rfl 1 1 returned
  rw [needed, none] at few
  contradiction

end RocketmqBroker
