import RocketmqBroker.Lib.FinMap
import RocketmqBroker.Lib.Run

/-!
When a node pauses (cluster/partition.rs and cluster/manager.rs). The members that a node
knows only become more; the peers are those that it is connected to. The size of the
cluster is taken from the peers, so a node is never in a minority of it.
-/
namespace RocketmqBroker

inductive PartitionStrategy where
  | pauseMinority
  | autoheal
  | ignore
  deriving DecidableEq, Repr

def PartitionStrategy.fromStr : String → PartitionStrategy
  | "pause-minority" | "pause_minority" => .pauseMinority
  | "autoheal" | "auto-heal" => .autoheal
  | "ignore" => .ignore
  | _ => .pauseMinority

structure PartitionState where
  paused : Bool
  strategy : PartitionStrategy
  deriving DecidableEq, Repr

namespace PartitionState

def new (strategy : PartitionStrategy) : PartitionState := ⟨false, strategy⟩

def evaluate (ps : PartitionState) (visibleNodes totalNodes : Nat) : PartitionState :=
  match ps.strategy with
  | .pauseMinority => { ps with paused := decide (visibleNodes * 2 ≤ totalNodes) }
  | .autoheal => { ps with paused := false }
  | .ignore => { ps with paused := false }

theorem evaluate_minority {ps : PartitionState} (minority : ps.strategy = .pauseMinority)
    (visibleNodes totalNodes : Nat) :
    (ps.evaluate visibleNodes totalNodes).paused = true ↔ 2 * visibleNodes ≤ totalNodes := by
  unfold evaluate
  rw [minority]
  dsimp only
  rw [decide_eq_true_iff, Nat.mul_comm]

theorem evaluate_strategy (ps : PartitionState) (visibleNodes totalNodes : Nat) :
    (ps.evaluate visibleNodes totalNodes).strategy = ps.strategy := by
  unfold evaluate
  split <;> rfl

end PartitionState

structure MemberInfo where
  nodeId : UInt64
  listenAddr : String
  lastSeen : Nat
  isActive : Bool
  deriving DecidableEq, Repr

/-- Of a coordinator, who it knows, who it is connected to (by address), and if it is paused. -/
structure Membership where
  nodeId : UInt64
  listenAddr : String
  peers : FinMap UInt64 String
  members : FinMap UInt64 MemberInfo
  partitionState : PartitionState

inductive MembershipEvent where
  | heartbeat (nodeId : UInt64) (listenAddr : String) (now : Nat)
  | gossip (infos : List MemberInfo)
  | closed (peer : UInt64)
  | evaluatePartition

namespace Membership

/-- A node knows itself; the strategy is configured by name. -/
def new (nodeId : UInt64) (listenAddr partitionHandling : String) (now : Nat) : Membership where
  nodeId := nodeId
  listenAddr := listenAddr
  peers := ∅
  members := (∅ : FinMap UInt64 MemberInfo).insert nodeId ⟨nodeId, listenAddr, now, true⟩
  partitionState := .new (.fromStr partitionHandling)

variable (m : Membership)

def clusterSize : Nat := m.peers.keys.length + 1

def handleHeartbeat (nodeId : UInt64) (listenAddr : String) (now : Nat) : Membership :=
  { m with
    members := m.members.insert nodeId ⟨nodeId, listenAddr, now, true⟩
    peers := m.peers.insert nodeId listenAddr }

def handleGossip (infos : List MemberInfo) : Membership :=
  { m with
    members := infos.foldl (fun members info =>
      if info.nodeId ≠ m.nodeId then members.insert info.nodeId info else members) m.members }

def closePeer (peer : UInt64) : Membership := { m with peers := m.peers.erase peer }

def evaluatePartition : Membership :=
  let visible := m.peers.keys.length + 1
  let total := m.clusterSize
  { m with partitionState := m.partitionState.evaluate visible total }

def isPaused : Bool := m.partitionState.paused

def step : MembershipEvent → Membership
  | .heartbeat nodeId listenAddr now => m.handleHeartbeat nodeId listenAddr now
  | .gossip infos => m.handleGossip infos
  | .closed peer => m.closePeer peer
  | .evaluatePartition => m.evaluatePartition

/-- The node and the peers that it reaches are no strict majority of those it knows. -/
def InMinority : Prop := 2 * (m.peers.keys.length + 1) ≤ m.members.keys.length

instance : Decidable m.InMinority := Nat.decLe _ _

def PeersKnown : Prop := ∀ p ∈ m.peers.keys, p ∈ m.members.keys

variable {m}

theorem gossip_keeps {nodeId k : UInt64} (infos : List MemberInfo)
    {members : FinMap UInt64 MemberInfo} (known : k ∈ members.keys) :
    k ∈ (infos.foldl (fun members info =>
      if info.nodeId ≠ nodeId then members.insert info.nodeId info else members) members).keys := by
  induction infos generalizing members with
  | nil => exact known
  | cons info infos ih =>
    rw [List.foldl_cons]
    split
    · exact ih (FinMap.mem_keys_insert.mpr (.inr known))
    · exact ih known

theorem PeersKnown.step (known : m.PeersKnown) (e : MembershipEvent) : (m.step e).PeersKnown := by
  cases e with
  | heartbeat nodeId listenAddr now =>
    intro p connected
    refine FinMap.mem_keys_insert.mpr ?_
    exact (FinMap.mem_keys_insert.mp connected).imp_right (known p)
  | gossip infos => exact fun p connected => gossip_keeps infos (known p connected)
  | closed peer =>
    intro p connected
    have before : p ∈ m.peers.keys.erase peer := by rwa [← FinMap.keys_erase]
    exact known p (List.mem_of_mem_erase before)
  | evaluatePartition => exact known

theorem step_strategy (m : Membership) (e : MembershipEvent) :
    (m.step e).partitionState.strategy = m.partitionState.strategy := by
  cases e with
  | heartbeat | gossip | closed => rfl
  | evaluatePartition => exact m.partitionState.evaluate_strategy _ _

/-- The number of peers is compared with itself. -/
theorem never_paused (minority : m.partitionState.strategy = .pauseMinority) :
    m.evaluatePartition.isPaused = false := by
  rw [← Bool.not_eq_true]
  intro paused
  have half := (PartitionState.evaluate_minority minority _ _).mp paused
  unfold clusterSize at half
  omega

end Membership

/-- In a run the strategy stays the configured one, and whoever is connected is known. -/
theorem Membership.run_known (nodeId : UInt64) (listenAddr partitionHandling : String) (now : Nat)
    (events : List MembershipEvent) :
    let start := Membership.new nodeId listenAddr partitionHandling now
    (Run.run step start events).PeersKnown ∧
      (Run.run step start events).partitionState.strategy = .fromStr partitionHandling := by
  intro start
  have begins : start.PeersKnown := nofun
  refine Run.invariant (fun _ (m : Membership) => m.PeersKnown ∧
    m.partitionState.strategy = .fromStr partitionHandling) ⟨begins, rfl⟩ ?_
    (Run.along_true _ events)
  intro past m e _ kept
  exact ⟨kept.1.step e, (m.step_strategy e).trans kept.2⟩

/-- A node that is to pause in a minority is paused as it should be, after it has looked,
    exactly where it is in no minority. -/
theorem pause_minority_iff (m : Membership)
    (minority : m.partitionState.strategy = .pauseMinority) :
    (m.evaluatePartition.isPaused = true ↔ m.InMinority) ↔ ¬ m.InMinority := by
  rw [Membership.never_paused minority]
  simp only [Bool.false_eq_true, false_iff]

/-- Two peers are heard, and then both connections close. -/
def leftAlone : Membership := Run.run Membership.step (.new 1 "a:1" "pause-minority" 0)
  [.heartbeat 2 "b:1" 1, .heartbeat 3 "c:1" 2, .closed 2, .closed 3]

/-- Two peers are heard, and the connection to one of them closes. -/
def leftPaired : Membership := Run.run Membership.step (.new 1 "a:1" "pause-minority" 0)
  [.heartbeat 2 "b:1" 1, .heartbeat 3 "c:1" 2, .closed 3, .evaluatePartition]

theorem pause_minority_iff_paired :
    (leftPaired.peers.keys = [2] ∧ leftPaired.members.keys.length = 3) ∧
      (leftPaired.evaluatePartition.isPaused = true ↔ leftPaired.InMinority) := by
  refine ⟨by decide +kernel, ?_⟩
  exact (pause_minority_iff leftPaired rfl).mpr (by decide +kernel)

/-- The node sees itself of three, and goes on. -/
theorem minority_not_paused : leftAlone.members.keys.length = 3 ∧
    leftAlone.peers.keys.length = 0 ∧ leftAlone.evaluatePartition.isPaused = false ∧
    ¬ (leftAlone.evaluatePartition.isPaused = true ↔ leftAlone.InMinority) := by
  refine ⟨by decide +kernel, by decide +kernel, by decide +kernel, ?_⟩
  decide +kernel

end RocketmqBroker
