import RocketmqBroker.Cluster.Election

/-!
Quorums are counted among the nodes that are connected when they are needed, and
the members that a node knows of play no part. Each side of a partition is then a
cluster of its own, and every side with a node in it has quorums.
-/
namespace RocketmqBroker
namespace Cluster

def Decides (group : List UInt64) (s : Cluster) : Prop :=
  ∃ x ∈ group, (s.nodes x).won ≠ [] ∨
    ∃ call ∈ (s.nodes x).published, call ∈ (s.nodes x).confirmed

/-- As a cluster of its own, where its nodes are connected with each other only. -/
def CanDecide (group : List UInt64) : Prop :=
  ∃ es, (Run.run (step group) (start group) es).Decides group

/-- At most one side can decide, and a quorum on either side is a majority of all
    members. -/
structure PartitionSafe (members left right : List UInt64) : Prop where
  exclusive : ¬ (CanDecide left ∧ CanDecide right)
  majority : ∀ group ∈ [left, right], ∀ x ∈ group,
    members.length < 2 * ((start group).nodes x).node.quorum

section
variable {ids : List UInt64} {s : Cluster} {x msgId : UInt64} {queue : String} {body : Bytes}

def arriveNext : ClusterEvent := .deliver 0 true true

theorem step_arriveNext {m : ClusterMessage} {rest : List ClusterMessage}
    (net : s.net = m :: rest) :
    s.step ids arriveNext = s.act m.receiver (.frame m.sender true true m.frame) rest := by
  unfold step arrival arriveNext
  rw [net]
  rfl

def request (x term : UInt64) (queue : String) (msgId : UInt64) (body : Bytes) (p : UInt64) :
    ClusterMessage := ⟨x, p, .replicatePublish term x queue msgId body⟩

def answer (x term msgId p : UInt64) : ClusterMessage := ⟨p, x, .replicateResponse term msgId true⟩

theorem step_request {p : UInt64} {rest : List ClusterMessage} {term : UInt64}
    (net : s.net = request x term queue msgId body p :: rest)
    (current : (s.nodes p).node.currentTerm = term) :
    s.step ids arriveNext = ⟨s.nodes, rest ++ [answer x term msgId p]⟩ := by
  have reaction : (s.nodes p).node.react (.frame x true true
      (.replicatePublish term x queue msgId body)) =
      { state := (s.nodes p).node, sent := [(x, .replicateResponse term msgId true)] } := by
    unfold Coordinator.react Coordinator.dispatchFrame Coordinator.acceptTerm
    subst current
    have notLess := UInt64.lt_irrefl (s.nodes p).node.currentTerm
    simp only [notLess, if_false, Bool.and_self]
  have unchanged : (s.nodes p).step (.frame x true true
      (.replicatePublish term x queue msgId body)) = s.nodes p := by
    unfold Candidate.step Voter.step
    simp [reaction, ClusterInput.vote, ClusterInput.isPublish]
  rw [step_arriveNext net]
  unfold act request answer
  simp only [unchanged, reaction]
  congr 1
  funext y
  split
  · rename_i same
    rw [same]
  · rfl

theorem run_requests {nodes : UInt64 → Candidate} {term : UInt64} (ps : List UInt64)
    (current : ∀ p ∈ ps, (nodes p).node.currentTerm = term) (acc : List ClusterMessage) :
    Run.run (step ids) ⟨nodes, ps.map (request x term queue msgId body) ++ acc⟩
      (List.replicate ps.length arriveNext) = ⟨nodes, acc ++ ps.map (answer x term msgId)⟩ := by
  induction ps generalizing acc with
  | nil => simp [Run.run]
  | cons p ps ih =>
    have first : step ids ⟨nodes, (p :: ps).map (request x term queue msgId body) ++ acc⟩
        arriveNext = ⟨nodes, ps.map (request x term queue msgId body) ++
          (acc ++ [answer x term msgId p])⟩ := by
      refine (step_request rfl (current p (List.mem_cons_self ..))).trans ?_
      rw [← List.append_assoc]
      rfl
    have others := ih (fun q member => current q (List.mem_cons_of_mem _ member))
      (acc ++ [answer x term msgId p])
    unfold Run.run at others ⊢
    rw [List.length_cons, List.replicate_succ, List.foldl_cons, first, others, List.append_assoc]
    rfl

structure Awaiting (v : Candidate) (term msgId : UInt64) (call count : Nat) : Prop where
  current : v.node.currentTerm = term
  votes : v.node.replicationVotes.get? msgId = some count
  pending : v.node.pendingReplications.get? msgId = some call
  published : call ∈ v.published

theorem voteReplication_eq {c : Coordinator} {call count : Nat}
    (votes : c.replicationVotes.get? msgId = some count)
    (pending : c.pendingReplications.get? msgId = some call) :
    c.voteReplication msgId =
      if c.quorum ≤ count + 1 then
        { state := { c with
            pendingReplications := c.pendingReplications.erase msgId
            replicationVotes := c.replicationVotes.insert msgId (count + 1) }
          confirmed := some call }
      else
        { state := { c with
            replicationVotes := c.replicationVotes.insert msgId (count + 1) } } := by
  unfold Coordinator.voteReplication
  rw [votes]
  simp only [pending]
  rfl

theorem react_answer {v : Candidate} {term : UInt64} {call count : Nat}
    (h : Awaiting v term msgId call count) (p : UInt64) :
    v.node.react (.frame p true true (.replicateResponse term msgId true)) =
      v.node.voteReplication msgId := if_pos ⟨h.current.symm, rfl⟩

theorem awaiting_step {v : Candidate} {term : UInt64} {call count : Nat}
    (h : Awaiting v term msgId call count) (p : UInt64) :
    let v' := v.step (.frame p true true (.replicateResponse term msgId true))
    if v.node.quorum ≤ count + 1 then call ∈ v'.published ∧ call ∈ v'.confirmed
    else Awaiting v' term msgId call (count + 1) ∧ v'.node.quorum = v.node.quorum := by
  intro v'
  have reaction := (react_answer h p).trans (voteReplication_eq h.votes h.pending)
  have node : v'.node = Reaction.state _ := congrArg Reaction.state reaction
  split
  · rename_i enough
    rw [if_pos enough] at reaction
    refine ⟨h.published, List.mem_append_right _ ?_⟩
    rw [reaction]
    exact List.mem_singleton_self _
  · rename_i few
    rw [if_neg few] at node
    refine ⟨⟨?_, ?_, ?_, h.published⟩, ?_⟩
    · rw [node]
      exact h.current
    · rw [node]
      exact FinMap.get?_insert_self _ _ _
    · rw [node]
      exact h.pending
    · rw [node]
      rfl

theorem run_answers {term : UInt64} {call count : Nat} (ps : List UInt64)
    (net : s.net = ps.map (answer x term msgId))
    (h : Awaiting (s.nodes x) term msgId call count) (few : count < (s.nodes x).node.quorum)
    (enough : (s.nodes x).node.quorum ≤ count + ps.length) :
    ∃ es, call ∈ ((Run.run (step ids) s es).nodes x).published ∧
      call ∈ ((Run.run (step ids) s es).nodes x).confirmed := by
  induction ps generalizing s count with
  | nil =>
    rw [List.length_nil] at enough
    omega
  | cons p ps ih =>
    have arrives : s.step ids arriveNext = s.act x (.frame p true true
        (.replicateResponse term msgId true)) (ps.map (answer x term msgId)) :=
      step_arriveNext net
    have node : (s.step ids arriveNext).nodes x =
        (s.nodes x).step (.frame p true true (.replicateResponse term msgId true)) := by
      rw [arrives, act_self]
    have next := awaiting_step h p
    simp only [← node] at next
    split at next
    · exact ⟨[arriveNext], next⟩
    · rename_i more
      obtain ⟨waiting, quorum⟩ := next
      have left : (s.step ids arriveNext).net = ps.map (answer x term msgId) := by
        rw [arrives]
        unfold act
        simp only [react_answer h p, voteReplication_eq h.votes h.pending, if_neg more,
          List.map_nil, List.append_nil]
      rw [List.length_cons] at enough
      obtain ⟨es, done⟩ := ih left waiting (by omega) (by omega)
      exact ⟨arriveNext :: es, done⟩

theorem publish_awaits (v : Candidate) (queue : String) (msgId : UInt64) (body : Bytes)
    (connected : v.node.peers.isEmpty = false) :
    Awaiting (v.step (.task (.publish queue msgId body))) v.node.currentTerm msgId
        v.node.nextCall 1 ∧
      (v.step (.task (.publish queue msgId body))).node.peers = v.node.peers ∧
      (v.node.react (.task (.publish queue msgId body))).sent = v.node.broadcast
        (.replicatePublish v.node.currentTerm v.node.nodeId queue msgId body) := by
  have reaction : v.node.react (.task (.publish queue msgId body)) =
      { state := { v.node with
          nextCall := v.node.nextCall + 1
          pendingReplications := v.node.pendingReplications.insert msgId v.node.nextCall
          replicationVotes := v.node.replicationVotes.insert msgId 1 }
        sent := v.node.broadcast
          (.replicatePublish v.node.currentTerm v.node.nodeId queue msgId body) } := by
    unfold Coordinator.react Coordinator.perform Coordinator.replicatePublish
      Coordinator.replicate
    simp only [connected, Bool.false_eq_true, if_false]
    rfl
  have node : (v.step (.task (.publish queue msgId body))).node = Reaction.state _ :=
    congrArg Reaction.state reaction
  refine ⟨⟨?_, ?_, ?_, ?_⟩, ?_, congrArg Reaction.sent reaction⟩
  · rw [node]
  · rw [node]
    exact FinMap.get?_insert_self _ _ _
  · rw [node]
    exact FinMap.get?_insert_self _ _ _
  · exact List.mem_append_right _ (List.mem_singleton_self _)
  · rw [node]

theorem step_task (member : x ∈ ids) (t : ClusterTask) :
    s.step ids (.task x t) = s.act x (.task t) s.net := by
  unfold step
  simp only [arrival, member, if_true]

theorem publish_confirms (member : x ∈ ids) (idle : s.net = [])
    (nodeId : (s.nodes x).node.nodeId = x)
    (connected : (s.nodes x).node.peers.isEmpty = false)
    (current : ∀ p ∈ (s.nodes x).node.peers,
      (s.nodes p).node.currentTerm = (s.nodes x).node.currentTerm) :
    ∃ es, ∃ call ∈ ((Run.run (step ids) s es).nodes x).published,
      call ∈ ((Run.run (step ids) s es).nodes x).confirmed := by
  obtain ⟨waiting, peers, sent⟩ := publish_awaits (s.nodes x) "" 1 [] connected
  let asked : Cluster := s.act x (.task (.publish "" 1 [])) []
  have self : asked.nodes x = (s.nodes x).step (.task (.publish "" 1 [])) := act_self
  have opens : s.step ids (.task x (.publish "" 1 [])) = asked := by
    rw [step_task member, idle]
  have inTerm : ∀ p ∈ (s.nodes x).node.peers,
      (asked.nodes p).node.currentTerm = (s.nodes x).node.currentTerm := by
    intro p peer
    by_cases same : p = x
    · rw [same, self]
      exact waiting.current
    · rw [show asked.nodes p = s.nodes p from act_other same]
      exact current p peer
  have requests : asked = ⟨asked.nodes, (s.nodes x).node.peers.map
      (request x (s.nodes x).node.currentTerm "" 1 []) ++ []⟩ := by
    have net : asked.net = (s.nodes x).node.peers.map
        (request x (s.nodes x).node.currentTerm "" 1 []) := by
      show [] ++ List.map _ _ = _
      rw [sent, Coordinator.broadcast, List.map_map, nodeId]
      rfl
    rw [List.append_nil, ← net]
  let answered : Cluster :=
    ⟨asked.nodes, (s.nodes x).node.peers.map (answer x (s.nodes x).node.currentTerm 1)⟩
  have answers : Run.run (step ids) asked
      (List.replicate (s.nodes x).node.peers.length arriveNext) = answered :=
    (congrArg (fun c => Run.run (step ids) c _) requests).trans (run_requests _ inTerm [])
  have positive : 0 < (s.nodes x).node.peers.length := by
    cases list : (s.nodes x).node.peers with
    | nil => simp [list] at connected
    | cons => simp
  have size : (answered.nodes x).node.quorum = ((s.nodes x).node.peers.length + 1) / 2 + 1 := by
    show (asked.nodes x).node.quorum = _
    rw [self]
    unfold Coordinator.quorum Coordinator.clusterSize
    rw [peers]
  have waits : Awaiting (answered.nodes x) (s.nodes x).node.currentTerm 1
      (s.nodes x).node.nextCall 1 := by
    show Awaiting (asked.nodes x) _ _ _ _
    rw [self]
    exact waiting
  obtain ⟨es, published, confirmed⟩ : ∃ es, (s.nodes x).node.nextCall ∈
      ((Run.run (step ids) answered es).nodes x).published ∧ (s.nodes x).node.nextCall ∈
      ((Run.run (step ids) answered es).nodes x).confirmed :=
    run_answers (s.nodes x).node.peers rfl waits (by omega) (by omega)
  have whole : Run.run (step ids) s (.task x (.publish "" 1 []) ::
      (List.replicate (s.nodes x).node.peers.length arriveNext ++ es)) =
      Run.run (step ids) answered es := by
    show Run.run (step ids) (s.step ids (.task x (.publish "" 1 []))) _ = _
    rw [opens, Run.run_append, answers]
  exact ⟨_, _, by rw [whole]; exact published, by rw [whole]; exact confirmed⟩

theorem canDecide_single (x : UInt64) : CanDecide [x] := by
  have opens : (start [x]).step [x] (.task x (.publish "" 1 [])) =
      (start [x]).act x (.task (.publish "" 1 [])) [] := step_task (List.mem_singleton_self x) _
  have peers : ((start [x]).nodes x).node.peers = [] := List.erase_cons_head ..
  have confirmed : (((start [x]).nodes x).node.react (.task (.publish "" 1 []))).confirmed =
      some 0 := by
    show (Coordinator.replicate _ _ _).confirmed = some 0
    unfold Coordinator.replicate
    simp only [peers, List.isEmpty_nil, if_true]
    rfl
  refine ⟨[.task x (.publish "" 1 [])], x, List.mem_singleton_self x, .inr ⟨0, ?_, ?_⟩⟩
  · show 0 ∈ (Cluster.nodes (step _ _ _) x).published
    rw [opens, act_self]
    exact List.mem_singleton_self _
  · show 0 ∈ (Cluster.nodes (step _ _ _) x).confirmed
    rw [opens, act_self]
    refine List.mem_append_right _ ?_
    rw [confirmed]
    exact List.mem_singleton_self _

theorem canDecide_cons (x : UInt64) (ps : List UInt64) : CanDecide (x :: ps) := by
  cases ps with
  | nil => exact canDecide_single x
  | cons p ps =>
    have peers : ((start (x :: p :: ps)).nodes x).node.peers = p :: ps :=
      List.erase_cons_head ..
    obtain ⟨es, call, published, confirmed⟩ : ∃ es, ∃ call ∈
        ((Run.run (step (x :: p :: ps)) (start (x :: p :: ps)) es).nodes x).published,
        call ∈ ((Run.run (step (x :: p :: ps)) (start (x :: p :: ps)) es).nodes x).confirmed :=
      publish_confirms (List.mem_cons_self ..) rfl rfl (by rw [peers]; rfl) (fun _ _ => rfl)
    exact ⟨es, x, List.mem_cons_self .., .inr ⟨call, published, confirmed⟩⟩

theorem not_canDecide_nil : ¬ CanDecide [] := by
  rintro ⟨es, x, member, -⟩
  contradiction

theorem quorum_start (member : x ∈ ids) :
    ((start ids).nodes x).node.quorum = ids.length / 2 + 1 := by
  have one := List.length_erase_of_mem member
  have pos := List.length_pos_of_mem member
  show ((ids.erase x).length + 1) / 2 + 1 = _
  omega

end

end Cluster

open Cluster

/-- A partition is safe only when it is none. -/
theorem partition_safe_iff (members left right : List UInt64)
    (parts : members.Perm (left ++ right)) :
    PartitionSafe members left right ↔ left = [] ∨ right = [] := by
  constructor
  · intro safe
    cases left with
    | nil => exact .inl rfl
    | cons x ps =>
      cases right with
      | nil => exact .inr rfl
      | cons y qs => exact absurd ⟨canDecide_cons x ps, canDecide_cons y qs⟩ safe.exclusive
  · have total : members.length = left.length + right.length := by
      rw [parts.length_eq, List.length_append]
    intro whole
    constructor
    · rintro ⟨decidesLeft, decidesRight⟩
      rcases whole with rfl | rfl
      · exact not_canDecide_nil decidesLeft
      · exact not_canDecide_nil decidesRight
    · intro group side x member
      have size : members.length = group.length := by
        have positive := List.length_pos_of_mem member
        have which : group = left ∨ group = right := by simpa using side
        rcases whole with rfl | rfl
        · rcases which with rfl | rfl
          · simp at positive
          · simpa using total
        · rcases which with rfl | rfl
          · simpa using total
          · simp at positive
      rw [quorum_start member]
      omega

theorem partition_safe_iff_whole : PartitionSafe [1, 2, 3] [1, 2, 3] [] :=
  (partition_safe_iff [1, 2, 3] [1, 2, 3] [] (by simp)).mpr (.inr rfl)

/-- The publish of a node that is cut off, and the same on the other side. -/
theorem both_sides_confirm : ¬ PartitionSafe [1, 2, 3] [1] [2, 3] := by
  intro safe
  refine safe.exclusive ⟨⟨[.task 1 (.publish "q" 1 [])], ?_⟩,
    ⟨[.task 2 (.publish "q" 1 []), arriveNext, arriveNext], ?_⟩⟩
  · exact ⟨1, by decide, .inr ⟨0, by decide +kernel, by decide +kernel⟩⟩
  · exact ⟨2, by decide, .inr ⟨0, by decide +kernel, by decide +kernel⟩⟩

end RocketmqBroker
