import RocketmqBroker.Cluster.Coordinator
import RocketmqBroker.Lib.Run

/-!
Who leads a quorum queue (cluster/manager.rs, cluster/network.rs,
protocol/amqp/handlers/queue.rs). A node that declares such a queue, takes over
its declaration from another node or hears of a failure names nobody but itself,
so every node that is alive leads every queue.
-/
namespace RocketmqBroker

/-- `is_queue_leader`: a queue without a group counts as local. -/
def Coordinator.isQueueLeader (c : Coordinator) (queue : String) : Bool :=
  match c.queueRaftGroups.get? queue with
  | some g => g.leaderId == some c.nodeId
  | none => true

structure QueueLeadership where
  queueType : QueueType
  leaderNode : Option UInt64
  deriving DecidableEq, Repr

structure QuorumNode where
  coordinator : Coordinator
  queues : FinMap String QueueLeadership

inductive LeadershipFrame where
  | declareQueue (name : String) (queueType : QueueType) (groupSize : Nat)
  | nodeDown (nodeId detectedBy : UInt64)
  deriving DecidableEq, Repr

namespace QuorumNode
variable (n : QuorumNode)

def new (nodeId : UInt64) (peers : List UInt64) : QuorumNode :=
  ⟨{ Coordinator.new nodeId with peers }, ∅⟩

/-- The declaration of a new queue by a client, and whether it was new. -/
def declareQueue (name : String) (queueType : QueueType) (groupSize : Nat) : QuorumNode × Bool :=
  if n.queues.contains name then (n, false)
  else if queueType = .quorum then
    ({ coordinator := n.coordinator.createQueueRaftGroup name groupSize
       queues := n.queues.insert name ⟨queueType, some n.coordinator.nodeId⟩ }, true)
  else ({ n with queues := n.queues.insert name ⟨queueType, none⟩ }, true)

def handleDeclareQueue (name : String) (queueType : QueueType) : QuorumNode :=
  if n.queues.contains name then n
  else
    let leaderNode := if queueType = .quorum then some n.coordinator.nodeId else none
    { n with queues := n.queues.insert name ⟨queueType, leaderNode⟩ }

def promotions (downedNodeId : UInt64) : List String :=
  n.coordinator.queueRaftGroups.keys.filter fun name =>
    (n.coordinator.queueRaftGroups.get? name).any (·.leaderId == some downedNodeId)

def handleNodeDown (downedNodeId : UInt64) : QuorumNode where
  coordinator := n.coordinator.failoverQueuesForNode downedNodeId
  queues := (n.promotions downedNodeId).foldl (fun queues name => queues.modify name fun q =>
    { q with leaderNode := some n.coordinator.nodeId }) n.queues

def handleFrame : LeadershipFrame → QuorumNode
  | .declareQueue name queueType _ => n.handleDeclareQueue name queueType
  | .nodeDown nodeId _ => n.handleNodeDown nodeId

def ConsidersItselfLeader (queue : String) : Prop :=
  ((n.queues.get? queue).bind (·.leaderNode) = some n.coordinator.nodeId) ∨
    n.coordinator.isQueueLeader queue = true

end QuorumNode

structure QuorumCluster where
  nodes : UInt64 → QuorumNode
  live : List UInt64
  net : List (UInt64 × LeadershipFrame)

inductive QuorumEvent where
  | declare (node : UInt64) (name : String) (queueType : QueueType) (groupSize : Nat)
  /-- The frame at a position of the net arrives. -/
  | deliver (k : Nat)
  /-- The failure detector of a node gives a peer up. -/
  | peerDown (node peer : UInt64)
  | crash (node : UInt64)
  deriving DecidableEq, Repr

namespace QuorumCluster

def start (ids : List UInt64) : QuorumCluster :=
  ⟨fun x => .new x (ids.erase x), ids, []⟩

def update (s : QuorumCluster) (x : UInt64) (n : QuorumNode)
    (net : List (UInt64 × LeadershipFrame)) : QuorumCluster :=
  { s with nodes := fun y => if y = x then n else s.nodes y, net }

def broadcast (s : QuorumCluster) (x : UInt64) (f : LeadershipFrame) :
    List (UInt64 × LeadershipFrame) := s.net ++ (s.nodes x).coordinator.peers.map (·, f)

/-- Nodes that are not alive do nothing, and frames to them are lost. -/
def step (s : QuorumCluster) : QuorumEvent → QuorumCluster
  | .declare x name queueType groupSize =>
    if x ∉ s.live then s
    else
      let (n, isNew) := (s.nodes x).declareQueue name queueType groupSize
      s.update x n (if isNew then s.broadcast x (.declareQueue name queueType groupSize) else s.net)
  | .deliver k =>
    match s.net[k]? with
    | none => s
    | some (x, f) =>
      if x ∉ s.live then { s with net := s.net.eraseIdx k }
      else s.update x ((s.nodes x).handleFrame f) (s.net.eraseIdx k)
  | .peerDown x peer =>
    if x ∉ s.live then s
    else s.update x ((s.nodes x).handleNodeDown peer) (s.broadcast x (.nodeDown peer x))
  | .crash x => { s with live := s.live.erase x }

structure LedByOne (s : QuorumCluster) (queue : String) : Prop where
  unique : ∀ x ∈ s.live, ∀ y ∈ s.live, (s.nodes x).ConsidersItselfLeader queue →
    (s.nodes y).ConsidersItselfLeader queue → x = y

def Alone (s : QuorumCluster) : Prop := ∀ x ∈ s.live, ∀ y ∈ s.live, x = y

end QuorumCluster

structure QuorumNode.SelfLed (n : QuorumNode) (x : UInt64) : Prop where
  nodeId : n.coordinator.nodeId = x
  groups : ∀ queue g, n.coordinator.queueRaftGroups.get? queue = some g → g.leaderId = some x
  queues : ∀ queue q, n.queues.get? queue = some q → q.queueType = .quorum →
    q.leaderNode = some x

namespace QuorumNode
variable {n : QuorumNode} {x : UInt64}

theorem selfLed_declareQueue (h : n.SelfLed x) (name : String) (queueType : QueueType)
    (groupSize : Nat) : (n.declareQueue name queueType groupSize).1.SelfLed x := by
  unfold declareQueue
  split
  · exact h
  split
  · constructor
    · exact h.nodeId
    · intro queue g found
      simp only [Coordinator.createQueueRaftGroup, FinMap.get?_insert] at found
      split at found
      · cases found
        exact congrArg some h.nodeId
      · exact h.groups queue g found
    · intro queue q found quorum
      simp only [FinMap.get?_insert] at found
      split at found
      · cases found
        exact congrArg some h.nodeId
      · exact h.queues queue q found quorum
  · rename_i classic
    refine ⟨h.nodeId, h.groups, ?_⟩
    intro queue q found quorum
    simp only [FinMap.get?_insert] at found
    split at found
    · cases found
      exact absurd quorum classic
    · exact h.queues queue q found quorum

theorem selfLed_handleDeclareQueue (h : n.SelfLed x) (name : String) (queueType : QueueType) :
    (n.handleDeclareQueue name queueType).SelfLed x := by
  unfold handleDeclareQueue
  split
  · exact h
  · refine ⟨h.nodeId, h.groups, ?_⟩
    intro queue q found quorum
    simp only [FinMap.get?_insert] at found
    split at found
    · cases found
      rw [if_pos quorum, h.nodeId]
    · exact h.queues queue q found quorum

theorem promoted_queues (names : List String) {queues : FinMap String QueueLeadership}
    (h : ∀ queue q, queues.get? queue = some q → q.queueType = .quorum → q.leaderNode = some x) :
    ∀ queue q, (names.foldl (fun queues name => queues.modify name fun q =>
      { q with leaderNode := some x }) queues).get? queue = some q →
      q.queueType = .quorum → q.leaderNode = some x := by
  induction names generalizing queues with
  | nil => exact h
  | cons name names ih =>
    refine ih ?_
    intro queue q found quorum
    rw [FinMap.get?_modify] at found
    split at found
    · obtain ⟨old, -, rfl⟩ := Option.map_eq_some_iff.mp found
      rfl
    · exact h queue q found quorum

theorem selfLed_handleNodeDown (h : n.SelfLed x) (downed : UInt64) :
    (n.handleNodeDown downed).SelfLed x := by
  constructor
  · exact h.nodeId
  · intro queue g found
    simp only [handleNodeDown, Coordinator.failoverQueuesForNode, FinMap.get?_mapVals] at found
    obtain ⟨old, present, rfl⟩ := Option.map_eq_some_iff.mp found
    split
    · exact h.groups queue old present
    · exact congrArg some h.nodeId
  · have promoted := promoted_queues (n.promotions downed) h.queues
    simp only [handleNodeDown, h.nodeId]
    exact promoted

theorem selfLed_handleFrame (h : n.SelfLed x) (f : LeadershipFrame) :
    (n.handleFrame f).SelfLed x := by
  cases f with
  | declareQueue name queueType groupSize => exact selfLed_handleDeclareQueue h name queueType
  | nodeDown nodeId detectedBy => exact selfLed_handleNodeDown h nodeId

theorem SelfLed.considersItselfLeader (h : n.SelfLed x) (queue : String) :
    n.ConsidersItselfLeader queue := by
  refine .inr ?_
  unfold Coordinator.isQueueLeader
  split
  · rename_i g found
    rw [h.groups queue g found, h.nodeId]
    exact beq_self_eq_true _
  · rfl

end QuorumNode

namespace QuorumCluster
variable {s : QuorumCluster}

theorem selfLed_update (h : ∀ y, (s.nodes y).SelfLed y) {x : UInt64} {n : QuorumNode}
    (here : n.SelfLed x) (net : List (UInt64 × LeadershipFrame)) (y : UInt64) :
    ((s.update x n net).nodes y).SelfLed y := by
  simp only [update]
  split
  · rename_i same
    rw [same]
    exact here
  · exact h y

theorem selfLed_step (h : ∀ y, (s.nodes y).SelfLed y) (e : QuorumEvent) (y : UInt64) :
    ((s.step e).nodes y).SelfLed y := by
  cases e with
  | declare x name queueType groupSize =>
    simp only [step]
    split
    · exact h y
    · exact selfLed_update h (QuorumNode.selfLed_declareQueue (h x) ..) _ y
  | deliver k =>
    simp only [step]
    split
    · exact h y
    · rename_i x f _
      split
      · exact h y
      · exact selfLed_update h (QuorumNode.selfLed_handleFrame (h x) f) _ y
  | peerDown x peer =>
    simp only [step]
    split
    · exact h y
    · exact selfLed_update h (QuorumNode.selfLed_handleNodeDown (h x) peer) _ y
  | crash x => exact h y

theorem selfLed_run (h : ∀ y, (s.nodes y).SelfLed y) (es : List QuorumEvent) (y : UInt64) :
    ((Run.run step s es).nodes y).SelfLed y := by
  induction es generalizing s with
  | nil => exact h y
  | cons e es ih => exact ih (selfLed_step h e)

theorem selfLed_start (ids : List UInt64) (y : UInt64) : ((start ids).nodes y).SelfLed y := by
  constructor
  · rfl
  · intro queue g found
    contradiction
  · intro queue q found
    contradiction

end QuorumCluster

open QuorumCluster

/-- A queue has one leader only where one node is left. -/
theorem led_by_one_iff (ids : List UInt64) (es : List QuorumEvent) (queue : String) :
    LedByOne (Run.run step (start ids) es) queue ↔ Alone (Run.run step (start ids) es) := by
  have leads := fun y =>
    (selfLed_run (selfLed_start ids) es y).considersItselfLeader queue
  constructor
  · intro one x alive y alive'
    exact one.unique x alive y alive' (leads x) (leads y)
  · intro alone
    exact ⟨fun x alive y alive' _ _ => alone x alive y alive'⟩

/-- The declaration of a quorum queue reaches the other node. -/
def synchronised : List QuorumEvent := [.declare 1 "q" .quorum 3, .deliver 0]

theorem two_nodes_lead :
    ([1, 2].map fun x => ((Run.run step (start [1, 2]) synchronised).nodes x).queues.get? "q") =
        [some ⟨.quorum, some 1⟩, some ⟨.quorum, some 2⟩] ∧
      ¬ LedByOne (Run.run step (start [1, 2]) synchronised) "q" := by
  have both : ([1, 2].map fun x =>
      ((Run.run step (start [1, 2]) synchronised).nodes x).queues.get? "q") =
      [some ⟨.quorum, some 1⟩, some ⟨.quorum, some 2⟩] := by decide +kernel
  refine ⟨both, fun one => ?_⟩
  have leads := fun y =>
    (selfLed_run (selfLed_start [1, 2]) synchronised y).considersItselfLeader "q"
  have same : (1 : UInt64) = 2 :=
    one.unique 1 (by decide +kernel) 2 (by decide +kernel) (leads 1) (leads 2)
  exact absurd same (by decide)

end RocketmqBroker
