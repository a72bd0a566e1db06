import RocketmqBroker.Cluster.PauseMinority
import Mathlib.Logic.Function.Basic

/-!
The connections of a whole cluster (cluster/network.rs, cluster/manager.rs). Every node dials its
seeds and the members that it has been told of, says who it is and whom it knows, and gives up
the peers that it has not heard for too long. What a node believes rests on what others send.
-/
namespace RocketmqBroker

inductive NodeStatus where
  | active
  | suspect
  | down
  deriving DecidableEq, Repr

inductive MeshFrame where
  | heartbeat (nodeId : UInt64) (listenAddr : String)
  | gossip (members : List MemberInfo)
  | leaderHeartbeat (term leaderId : UInt64)
  deriving DecidableEq, Repr

structure MeshNode extends Membership where
  currentTerm : UInt64
  leaderId : UInt64
  /-- The connection that frames for a peer go out on, and the end of it. -/
  tx : FinMap UInt64 (Nat × Bool)
  nodeHealth : FinMap UInt64 (Nat × NodeStatus)

namespace MeshNode

def new (nodeId : UInt64) (listenAddr partitionHandling : String) (now : Nat) : MeshNode where
  toMembership := .new nodeId listenAddr partitionHandling now
  currentTerm := 1
  leaderId := nodeId
  tx := ∅
  nodeHealth := ∅

variable (m : MeshNode)

def isLeader : Bool := m.leaderId == m.nodeId

def recordPeerHeartbeat (peerId : UInt64) (now : Nat) : MeshNode :=
  { m with nodeHealth := m.nodeHealth.insert peerId (now, .active) }

def hearHeartbeat (tx : Nat × Bool) (nodeId : UInt64) (listenAddr : String) (now : Nat) :
    MeshNode :=
  { m.recordPeerHeartbeat nodeId now with
    toMembership := m.toMembership.handleHeartbeat nodeId listenAddr now
    tx := m.tx.insert nodeId tx }

def hearGossip (infos : List MemberInfo) : MeshNode :=
  { m with toMembership := m.toMembership.handleGossip infos }

def hearLeader (term leaderId : UInt64) (now : Nat) : MeshNode :=
  if term ≥ m.currentTerm then
    { m.recordPeerHeartbeat leaderId now with currentTerm := term, leaderId := leaderId }
  else m

def losePeer (peer : UInt64) : MeshNode :=
  { m with toMembership := m.toMembership.closePeer peer, tx := m.tx.erase peer }

def lastSeen (peerId : UInt64) (now : Nat) : Nat :=
  ((m.nodeHealth.get? peerId).map Prod.fst).getD now

def statusOf (timeout : Nat) (peerId : UInt64) (now : Nat) : NodeStatus :=
  let elapsed := now - m.lastSeen peerId now
  if elapsed > timeout then .down
  else if elapsed > timeout / 3 then .suspect
  else .active

def updateNodeHealth (timeout : Nat) (peerId : UInt64) (now : Nat) : MeshNode × NodeStatus :=
  let status := m.statusOf timeout peerId now
  ({ m with nodeHealth := m.nodeHealth.insert peerId (m.lastSeen peerId now, status) }, status)

def examine (timeout now : Nat) (downed : List UInt64) (peerId : UInt64) : MeshNode × List UInt64 :=
  let (m, status) := m.updateNodeHealth timeout peerId now
  (m, if status = .down then downed ++ [peerId] else downed)

def detectFailedNodes (timeout now : Nat) : MeshNode × List UInt64 :=
  m.peers.keys.foldl (fun a peerId => a.1.examine timeout now a.2 peerId) (m, [])

def peersToConnect (seeds : List String) : List String :=
  m.members.entries.foldl (fun list e =>
    if e.2.nodeId ≠ m.nodeId ∧ e.2.listenAddr ∉ list then list ++ [e.2.listenAddr]
    else list) seeds

def isConnected (addr : String) : Bool := m.peers.entries.any (·.2 == addr)

end MeshNode

structure Port where
  node : UInt64
  inbox : List MeshFrame
  tempPeerId : Option UInt64
  isOpen : Bool

structure Wire where
  port : Bool → Port

namespace Wire

def between (dialer acceptor : UInt64) : Wire :=
  ⟨fun inbound => ⟨if inbound then acceptor else dialer, [], none, true⟩⟩

def modify (w : Wire) (inbound : Bool) (f : Port → Port) : Wire :=
  ⟨Function.update w.port inbound (f (w.port inbound))⟩

end Wire

/-- The nodes of a cluster as they are configured, each with an address of its own. -/
structure Topology where
  nodes : List UInt64
  listenAddr : UInt64 → String
  seeds : UInt64 → List String
  partitionHandling : String
  failoverTimeout : Nat
  distinct : ∀ a ∈ nodes, ∀ b ∈ nodes, listenAddr a = listenAddr b → a = b

def Topology.listener (t : Topology) (addr : String) : Option UInt64 :=
  t.nodes.find? (t.listenAddr · == addr)

/-- All nodes, the addresses that they are dialing, all connections there ever were and, for the
    record, which node heard which other and when, the last first. -/
structure Mesh where
  node : UInt64 → MeshNode
  dialing : List (UInt64 × String)
  wires : List Wire
  heard : List (UInt64 × UInt64 × Nat)

inductive MeshEvent where
  /-- The connector of a node dials an address. -/
  | dial (n : UInt64) (addr : String)
  | connect (n : UInt64) (addr : String)
  /-- An end of a connection reads the next frame. -/
  | deliver (i : Nat) (inbound : Bool) (now : Nat)
  | close (i : Nat) (inbound : Bool)
  | gossip (n : UInt64)
  | leaderHeartbeat (n : UInt64)
  /-- The connector of a node looks for failed peers. -/
  | sweep (n : UInt64) (now : Nat)
  /-- An election, or a frame that is about something else. -/
  | term (n : UInt64) (currentTerm leaderId : UInt64)
  | restart (n : UInt64) (now : Nat)
  deriving DecidableEq, Repr

namespace Mesh

def start (t : Topology) : Mesh where
  node n := .new n (t.listenAddr n) t.partitionHandling 0
  dialing := []
  wires := []
  heard := []

variable (t : Topology) (m : Mesh)

def modifyNode (n : UInt64) (f : MeshNode → MeshNode) : Mesh :=
  { m with node := Function.update m.node n (f (m.node n)) }

def modifyPort (i : Nat) (inbound : Bool) (f : Port → Port) : Mesh :=
  { m with wires := m.wires.modify i (·.modify inbound f) }

/-- What goes in at one end comes out at the other. -/
def send (tx : Nat × Bool) (frame : MeshFrame) : Mesh :=
  m.modifyPort tx.1 (!tx.2) fun a => { a with inbox := a.inbox ++ [frame] }

def broadcast (n : UInt64) (frame : MeshFrame) : Mesh :=
  (m.node n).tx.entries.foldl (fun m e => m.send e.2 frame) m

def heartbeatOf (n : UInt64) : MeshFrame := .heartbeat (m.node n).nodeId (m.node n).listenAddr

def dial (n : UInt64) (addr : String) : Mesh :=
  if n ∈ t.nodes ∧ addr ∈ (m.node n).peersToConnect (t.seeds n) ∧
      (m.node n).isConnected addr = false then
    { m with dialing := m.dialing ++ [(n, addr)] }
  else m

def openWire (n k : UInt64) : Mesh := { m with wires := m.wires ++ [Wire.between n k] }

/-- An outbound connection begins with a heartbeat. -/
def connect (n : UInt64) (addr : String) : Mesh :=
  if (n, addr) ∈ m.dialing then
    let m := { m with dialing := m.dialing.erase (n, addr) }
    match t.listener addr with
    | none => m
    | some k => (m.openWire n k).send (m.wires.length, false) (m.heartbeatOf n)
  else m

def note (n k : UInt64) (now : Nat) : Mesh := { m with heard := (n, k, now) :: m.heard }

/-- A frame that `k` sent is read by `n`, on its end of the connection. -/
def dispatch (i : Nat) (inbound : Bool) (n k : UInt64) (now : Nat) : MeshFrame → Mesh
  | .heartbeat nodeId listenAddr =>
    let m := (m.modifyPort i inbound fun a => { a with tempPeerId := some nodeId }).modifyNode n
      (·.hearHeartbeat (i, inbound) nodeId listenAddr now)
    (if inbound then m.send (i, inbound) (m.heartbeatOf n) else m).note n k now
  | .gossip infos => m.modifyNode n (·.hearGossip infos)
  | .leaderHeartbeat term leaderId =>
    let m' := m.modifyNode n (·.hearLeader term leaderId now)
    if term ≥ (m.node n).currentTerm then m'.note n k now else m'

def deliver (i : Nat) (inbound : Bool) (now : Nat) : Mesh :=
  match m.wires[i]? with
  | none => m
  | some w =>
    match (w.port inbound).isOpen, (w.port inbound).inbox with
    | true, frame :: rest =>
      (m.modifyPort i inbound fun a => { a with inbox := rest }).dispatch i inbound
        (w.port inbound).node (w.port !inbound).node now frame
    | _, _ => m

def close (i : Nat) (inbound : Bool) : Mesh :=
  match m.wires[i]? with
  | none => m
  | some w =>
    if (w.port inbound).isOpen then
      let m := m.modifyPort i inbound fun a => { a with isOpen := false }
      match (w.port inbound).tempPeerId with
      | none => m
      | some peer => m.modifyNode (w.port inbound).node (·.losePeer peer)
    else m

def gossip (n : UInt64) : Mesh :=
  m.broadcast n (.gossip ((m.node n).members.entries.map (·.2)))

def leaderHeartbeat (n : UInt64) : Mesh :=
  if (m.node n).isLeader then
    m.broadcast n (.leaderHeartbeat (m.node n).currentTerm (m.node n).nodeId)
  else m

/-- A new process knows nobody, and its connections are gone. -/
def restart (n : UInt64) (now : Nat) : Mesh where
  node := Function.update m.node n (.new n (t.listenAddr n) t.partitionHandling now)
  dialing := m.dialing.filter (·.1 ≠ n)
  wires := m.wires.map fun w => ⟨fun inbound =>
    { w.port inbound with isOpen := (w.port inbound).isOpen && (w.port inbound).node != n }⟩
  heard := m.heard.filter (·.1 ≠ n)

def step : MeshEvent → Mesh
  | .dial n addr => m.dial t n addr
  | .connect n addr => m.connect t n addr
  | .deliver i inbound now => m.deliver i inbound now
  | .close i inbound => m.close i inbound
  | .gossip n => m.gossip n
  | .leaderHeartbeat n => m.leaderHeartbeat n
  | .sweep n now => m.modifyNode n fun node => (node.detectFailedNodes t.failoverTimeout now).1
  | .term n currentTerm leaderId => m.modifyNode n fun node => { node with currentTerm, leaderId }
  | .restart n now => m.restart t n now

def after (es : List MeshEvent) : Mesh := Run.run (step t) (start t) es

/-- When `n` heard `k` last. -/
def lastHeard (n k : UInt64) : Option Nat :=
  (m.heard.find? fun h => h.1 = n ∧ h.2.1 = k).map (·.2.2)

def pairs : List (UInt64 × UInt64) := m.wires.map fun w => ((w.port false).node, (w.port true).node)

end Mesh

def MemberInfo.Real (t : Topology) (info : MemberInfo) : Prop :=
  info.nodeId ∈ t.nodes ∧ info.listenAddr = t.listenAddr info.nodeId

/-- A frame that `k` may send. -/
def MeshFrame.From (t : Topology) (k : UInt64) : MeshFrame → Prop
  | heartbeat nodeId listenAddr => nodeId = k ∧ listenAddr = t.listenAddr k
  | gossip members => ∀ info ∈ members, info.Real t
  | leaderHeartbeat _ leaderId => leaderId = k

structure MeshNode.Real (t : Topology) (n : UInt64) (m : MeshNode) : Prop where
  nodeId : m.nodeId = n
  listenAddr : m.listenAddr = t.listenAddr n
  members : ∀ k info, m.members.get? k = some info → info.nodeId = k ∧ info.Real t
  peers : ∀ k addr, m.peers.get? k = some addr → k ∈ t.nodes ∧ addr = t.listenAddr k
  own : n ∈ m.members.keys

/-- An end of a connection to `k`. -/
structure Port.Real (t : Topology) (k : UInt64) (a : Port) : Prop where
  node : a.node ∈ t.nodes
  inbox : ∀ frame ∈ a.inbox, frame.From t k
  peer : ∀ p ∈ a.tempPeerId, p = k

def Wire.Real (t : Topology) (w : Wire) : Prop :=
  ∀ inbound, (w.port inbound).Real t (w.port !inbound).node

def Mesh.Owns (m : Mesh) (n : UInt64) (tx : Nat × Bool) : Prop :=
  ∃ w, m.wires[tx.1]? = some w ∧ (w.port tx.2).node = n

structure Mesh.Real (t : Topology) (m : Mesh) : Prop where
  nodes : ∀ n ∈ t.nodes, (m.node n).Real t n
  wires : ∀ w ∈ m.wires, w.Real t
  tx : ∀ n k tx, (m.node n).tx.get? k = some tx → m.Owns n tx
  dialing : ∀ d ∈ m.dialing, d.1 ∈ t.nodes

section
variable {t : Topology} {m : Mesh} {w : Wire} {i : Nat} {inbound : Bool} {f : Port → Port}

theorem listener_some {addr : String} {k : UInt64} (found : t.listener addr = some k) :
    k ∈ t.nodes ∧ t.listenAddr k = addr := by
  have accepts : (t.listenAddr k == addr) = true :=
    List.find?_some (p := (t.listenAddr · == addr)) found
  exact ⟨List.mem_of_find?_eq_some found, eq_of_beq accepts⟩

theorem port_modify (w : Wire) (inbound b : Bool) (f : Port → Port) :
    (w.modify inbound f).port b = if b = inbound then f (w.port inbound) else w.port b :=
  Function.update_apply _ _ _ _

theorem node_modify (still : ∀ a, (f a).node = a.node) (b : Bool) :
    ((w.modify inbound f).port b).node = (w.port b).node := by
  rw [port_modify]
  split
  · rename_i same
    rw [still, same]
  · rfl

theorem Wire.Real.modify (real : w.Real t) (still : ∀ a, (f a).node = a.node)
    (port : (f (w.port inbound)).Real t (w.port !inbound).node) : (w.modify inbound f).Real t := by
  intro b
  rw [node_modify still, port_modify]
  split
  · rename_i same
    rw [same]
    exact port
  · exact real b

theorem node_modifyNode (n k : UInt64) (f : MeshNode → MeshNode) :
    (m.modifyNode n f).node k = if k = n then f (m.node n) else m.node k :=
  Function.update_apply _ _ _ _

theorem pairs_modifyPort (still : ∀ a, (f a).node = a.node) :
    (m.modifyPort i inbound f).pairs = m.pairs := by
  refine List.ext_getElem? fun j => ?_
  unfold Mesh.pairs Mesh.modifyPort
  rw [List.getElem?_map, List.getElem?_map, List.getElem?_modify]
  cases m.wires[j]? with
  | none => rfl
  | some w =>
    dsimp only [Option.map_eq_map, Option.map_some]
    split
    · rw [node_modify still, node_modify still]
    · rfl

theorem wires_modifyPort (here : m.wires[i]? = some w) :
    (m.modifyPort i inbound f).wires[i]? = some (w.modify inbound f) := by
  rw [Mesh.modifyPort, List.getElem?_modify_eq, here]
  rfl

theorem owns_modifyPort (still : ∀ a, (f a).node = a.node) {n : UInt64} {tx : Nat × Bool}
    (owns : m.Owns n tx) : (m.modifyPort i inbound f).Owns n tx := by
  obtain ⟨w, here, node⟩ := owns
  refine ⟨_, (List.getElem?_modify _ _ _ _).trans (congrArg _ here), ?_⟩
  dsimp only
  split
  · rw [node_modify still]
    exact node
  · exact node

theorem deliver_cases (m : Mesh) (i : Nat) (inbound : Bool) (now : Nat) :
    m.deliver i inbound now = m ∨
      ∃ w frame rest, m.wires[i]? = some w ∧ (w.port inbound).inbox = frame :: rest ∧
        m.deliver i inbound now =
          (m.modifyPort i inbound fun a => { a with inbox := rest }).dispatch i inbound
            (w.port inbound).node (w.port !inbound).node now frame := by
  unfold Mesh.deliver
  split
  · exact .inl rfl
  · rename_i w here
    split
    · rename_i frame rest readable waiting
      exact .inr ⟨w, frame, rest, here, waiting, rfl⟩
    · exact .inl rfl

theorem close_cases (m : Mesh) (i : Nat) (inbound : Bool) :
    m.close i inbound = m ∨ ∃ w, m.wires[i]? = some w ∧
      (m.close i inbound = m.modifyPort i inbound (fun a => { a with isOpen := false }) ∨
        ∃ peer, m.close i inbound =
          (m.modifyPort i inbound fun a => { a with isOpen := false }).modifyNode
            (w.port inbound).node (·.losePeer peer)) := by
  unfold Mesh.close
  split
  · exact .inl rfl
  · rename_i w here
    split
    · refine .inr ⟨w, here, ?_⟩
      dsimp only
      split
      · exact .inl rfl
      · rename_i peer heard
        exact .inr ⟨peer, rfl⟩
    · exact .inl rfl

theorem leaderHeartbeat_cases (m : Mesh) (n : UInt64) :
    m.leaderHeartbeat n = m ∨ m.leaderHeartbeat n =
      m.broadcast n (.leaderHeartbeat (m.node n).currentTerm (m.node n).nodeId) := by
  unfold Mesh.leaderHeartbeat
  split
  · exact .inr rfl
  · exact .inl rfl

theorem Mesh.Real.modifyPort (real : m.Real t) (here : m.wires[i]? = some w)
    (still : ∀ a, (f a).node = a.node)
    (port : (f (w.port inbound)).Real t (w.port !inbound).node) :
    (m.modifyPort i inbound f).Real t where
  nodes := real.nodes
  wires := by
    intro w' member
    obtain ⟨j, found⟩ := List.mem_iff_getElem?.mp member
    rw [Mesh.modifyPort, List.getElem?_modify] at found
    obtain ⟨old, there, rfl⟩ := Option.map_eq_some_iff.mp found
    have before : old.Real t := real.wires old (List.mem_of_getElem? there)
    split
    · rename_i same
      rw [same] at here
      cases here.symm.trans there
      exact before.modify still port
    · exact before
  tx n k tx found := owns_modifyPort still (real.tx n k tx found)
  dialing := real.dialing

theorem Mesh.Real.modifyNode (real : m.Real t) {n : UInt64} {f : MeshNode → MeshNode}
    (node : n ∈ t.nodes → (f (m.node n)).Real t n)
    (tx : ∀ k tx, (f (m.node n)).tx.get? k = some tx → m.Owns n tx) :
    (m.modifyNode n f).Real t where
  nodes k member := by
    rw [node_modifyNode]
    split
    · rename_i same
      rw [same]
      exact node (same ▸ member)
    · exact real.nodes k member
  wires := real.wires
  tx n' k tx' found := by
    rw [node_modifyNode] at found
    split at found
    · rename_i same
      rw [same]
      exact tx k tx' found
    · exact real.tx n' k tx' found
  dialing := real.dialing

theorem owns_send {n : UInt64} {tx tx' : Nat × Bool} {frame : MeshFrame} (owns : m.Owns n tx) :
    (m.send tx' frame).Owns n tx := owns_modifyPort (fun _ => by rfl) owns

theorem Mesh.Real.send (real : m.Real t) {n : UInt64} {tx : Nat × Bool} {frame : MeshFrame}
    (owns : m.Owns n tx) (sent : n ∈ t.nodes → frame.From t n) : (m.send tx frame).Real t := by
  obtain ⟨w, here, rfl⟩ := owns
  have known : w.Real t := real.wires w (List.mem_of_getElem? here)
  have far := known !tx.2
  rw [Bool.not_not] at far
  refine real.modifyPort here (fun _ => rfl) ⟨far.node, ?_, ?_⟩
  · intro frame' member
    rw [Bool.not_not]
    cases List.mem_append.mp member with
    | inl old => exact far.inbox frame' old
    | inr new =>
      rw [List.mem_singleton.mp new]
      exact sent (known tx.2).node
  · intro p peer
    rw [Bool.not_not]
    exact far.peer p peer

theorem Mesh.Real.broadcast (real : m.Real t) {n : UInt64} {frame : MeshFrame}
    (sent : n ∈ t.nodes → frame.From t n) : (m.broadcast n frame).Real t := by
  have all : ∀ e ∈ (m.node n).tx.entries, m.Owns n e.2 := by
    intro e member
    exact real.tx n e.1 e.2 (FinMap.get?_eq_some_iff_mem.mpr member)
  unfold Mesh.broadcast
  generalize (m.node n).tx.entries = es at all
  induction es generalizing m with
  | nil => exact real
  | cons e es ih =>
    exact ih (real.send (all e List.mem_cons_self) sent) fun e' member =>
      owns_send (all e' (List.mem_cons_of_mem _ member))

theorem MeshNode.Real.new {n : UInt64} (member : n ∈ t.nodes) (now : Nat) :
    (MeshNode.new n (t.listenAddr n) t.partitionHandling now).Real t n where
  nodeId := rfl
  listenAddr := rfl
  members k info found := by
    have found : ((∅ : FinMap UInt64 MemberInfo).insert n
        ⟨n, t.listenAddr n, now, true⟩).get? k = some info := found
    rw [FinMap.get?_insert] at found
    split at found
    · rename_i self
      cases found
      exact ⟨self.symm, member, rfl⟩
    · contradiction
  peers k addr found := by contradiction
  own := FinMap.mem_keys_insert.mpr (.inl rfl)

theorem MeshNode.Real.sendsHeartbeat {n : UInt64} {node : MeshNode} (real : node.Real t n) :
    MeshFrame.From t n (.heartbeat node.nodeId node.listenAddr) := ⟨real.nodeId, real.listenAddr⟩

theorem MeshNode.Real.knows {n : UInt64} {node : MeshNode} (real : node.Real t n) :
    ∀ info ∈ node.members.entries.map (·.2), info.Real t := by
  intro info member
  obtain ⟨e, inside, rfl⟩ := List.mem_map.mp member
  exact (real.members e.1 e.2 (FinMap.get?_eq_some_iff_mem.mpr inside)).2

theorem MeshNode.Real.hearHeartbeat {n k : UInt64} {node : MeshNode} (real : node.Real t n)
    (member : k ∈ t.nodes) (tx : Nat × Bool) (now : Nat) :
    (node.hearHeartbeat tx k (t.listenAddr k) now).Real t n where
  nodeId := real.nodeId
  listenAddr := real.listenAddr
  members k' info found := by
    have found : (node.members.insert k ⟨k, t.listenAddr k, now, true⟩).get? k' = some info := found
    rw [FinMap.get?_insert] at found
    split at found
    · rename_i same
      cases found
      exact ⟨same.symm, member, rfl⟩
    · exact real.members k' info found
  peers k' addr found := by
    have found : (node.peers.insert k (t.listenAddr k)).get? k' = some addr := found
    rw [FinMap.get?_insert] at found
    split at found
    · rename_i same
      cases found
      rw [same]
      exact ⟨member, rfl⟩
    · exact real.peers k' addr found
  own := FinMap.mem_keys_insert.mpr (.inr real.own)

theorem MeshNode.Real.hearGossip {n : UInt64} {node : MeshNode} {infos : List MemberInfo}
    (real : node.Real t n) (said : ∀ info ∈ infos, info.Real t) :
    (node.hearGossip infos).Real t n where
  nodeId := real.nodeId
  listenAddr := real.listenAddr
  members := by
    change ∀ k info, (infos.foldl _ node.members).get? k = some info → _
    have known := real.members
    generalize node.members = members at known
    induction infos generalizing members with
    | nil => exact known
    | cons info infos ih =>
      refine ih (fun i inside => said i (List.mem_cons_of_mem _ inside)) _ fun k found here => ?_
      dsimp only at here
      split at here
      · rw [FinMap.get?_insert] at here
        split at here
        · rename_i same
          cases here
          exact ⟨same.symm, said info List.mem_cons_self⟩
        · exact known k found here
      · exact known k found here
  peers := real.peers
  own := Membership.gossip_keeps infos real.own

theorem MeshNode.Real.losePeer {n : UInt64} {node : MeshNode} (real : node.Real t n)
    (peer : UInt64) : (node.losePeer peer).Real t n where
  nodeId := real.nodeId
  listenAddr := real.listenAddr
  members := real.members
  peers k addr found := by
    have found : (node.peers.erase peer).get? k = some addr := found
    rw [FinMap.get?_erase] at found
    split at found
    · contradiction
    · exact real.peers k addr found
  own := real.own

theorem detectFailedNodes_fst (node : MeshNode) (timeout now : Nat) :
    ∃ nodeHealth, (node.detectFailedNodes timeout now).1 = { node with nodeHealth } := by
  suffices general : ∀ (peerIds : List UInt64) (health : FinMap UInt64 (Nat × NodeStatus))
      (downed : List UInt64), ∃ nodeHealth,
        (peerIds.foldl (fun a peerId => MeshNode.examine a.1 timeout now a.2 peerId)
          ({ node with nodeHealth := health }, downed)).1 = { node with nodeHealth } from
    general _ node.nodeHealth []
  intro peerIds
  induction peerIds with
  | nil => exact fun health downed => ⟨health, rfl⟩
  | cons peerId peerIds ih => exact fun health downed => ih _ _

theorem Mesh.Real.dispatch (real : m.Real t) (here : m.wires[i]? = some w) {n k : UInt64}
    (near : (w.port inbound).node = n) (far : (w.port !inbound).node = k) (now : Nat)
    {frame : MeshFrame} (sent : frame.From t k) :
    (m.dispatch i inbound n k now frame).Real t := by
  have known : w.Real t := real.wires w (List.mem_of_getElem? here)
  have owns : m.Owns n (i, inbound) := ⟨w, here, near⟩
  cases frame with
  | heartbeat nodeId listenAddr =>
    obtain ⟨rfl, rfl⟩ := sent
    have member : nodeId ∈ t.nodes := by
      rw [← far]
      exact (known !inbound).node
    have port := known inbound
    rw [far] at port
    have noted : (m.modifyPort i inbound fun a => { a with tempPeerId := some nodeId }).Real t := by
      refine real.modifyPort here (fun _ => rfl) ⟨port.node, ?_, ?_⟩
      · rw [far]
        exact port.inbox
      · rw [far]
        exact fun p same => (Option.some.inj same).symm
    have heard := noted.modifyNode (n := n)
      (f := (·.hearHeartbeat (i, inbound) nodeId (t.listenAddr nodeId) now))
      (fun inside => (noted.nodes n inside).hearHeartbeat member _ _) fun k tx found => ?_
    · have mine : (m.modifyPort i inbound fun a => { a with tempPeerId := some nodeId }).Owns n
          (i, inbound) := owns_modifyPort (fun _ => by rfl) owns
      unfold Mesh.dispatch
      cases inbound with
      | false => exact ⟨heard.nodes, heard.wires, heard.tx, heard.dialing⟩
      | true =>
        have replied := heard.send mine fun inside => (heard.nodes n inside).sendsHeartbeat
        exact ⟨replied.nodes, replied.wires, replied.tx, replied.dialing⟩
    · have found : ((m.node n).tx.insert nodeId (i, inbound)).get? k = some tx := found
      rw [FinMap.get?_insert] at found
      split at found
      · cases found
        exact owns_modifyPort (fun _ => by rfl) owns
      · exact owns_modifyPort (fun _ => by rfl) (real.tx n k tx found)
  | gossip infos =>
    exact real.modifyNode (f := (·.hearGossip infos))
      (fun inside => (real.nodes n inside).hearGossip sent) (real.tx n)
  | leaderHeartbeat term leaderId =>
    have heard := real.modifyNode (n := n) (f := (·.hearLeader term leaderId now))
      (fun inside => ?_) fun k tx found => ?_
    · unfold Mesh.dispatch
      dsimp only
      split
      · exact ⟨heard.nodes, heard.wires, heard.tx, heard.dialing⟩
      · exact heard
    · have node := real.nodes n inside
      unfold MeshNode.hearLeader
      split
      · exact ⟨node.nodeId, node.listenAddr, node.members, node.peers, node.own⟩
      · exact node
    · unfold MeshNode.hearLeader at found
      split at found
      · exact real.tx n k tx found
      · exact real.tx n k tx found

theorem Mesh.Real.sent (real : m.Real t) (here : m.wires[i]? = some w) {frame : MeshFrame}
    {rest : List MeshFrame} (waiting : (w.port inbound).inbox = frame :: rest) :
    frame.From t (w.port !inbound).node := by
  refine (real.wires w (List.mem_of_getElem? here) inbound).inbox frame ?_
  rw [waiting]
  exact List.mem_cons_self

theorem Mesh.Real.deliver (real : m.Real t) (i : Nat) (inbound : Bool) (now : Nat) :
    (m.deliver i inbound now).Real t := by
  obtain same | ⟨w, frame, rest, here, waiting, same⟩ := deliver_cases m i inbound now
  · rw [same]
    exact real
  · rw [same]
    have port := real.wires w (List.mem_of_getElem? here) inbound
    have sent := real.sent here waiting
    have taken : (m.modifyPort i inbound fun a => { a with inbox := rest }).Real t := by
      refine real.modifyPort here (fun _ => rfl)
        ⟨port.node, fun frame' member => port.inbox frame' ?_, port.peer⟩
      rw [waiting]
      exact List.mem_cons_of_mem _ member
    have near : ((w.modify inbound fun a => { a with inbox := rest }).port inbound).node =
        (w.port inbound).node := node_modify (fun _ => by rfl) inbound
    have far : ((w.modify inbound fun a => { a with inbox := rest }).port !inbound).node =
        (w.port !inbound).node := node_modify (fun _ => by rfl) _
    exact taken.dispatch (wires_modifyPort here) near far now sent

theorem Mesh.Real.close (real : m.Real t) (i : Nat) (inbound : Bool) :
    (m.close i inbound).Real t := by
  obtain same | ⟨w, here, same⟩ := close_cases m i inbound
  · rw [same]
    exact real
  · have port := real.wires w (List.mem_of_getElem? here) inbound
    have closed : (m.modifyPort i inbound fun a => { a with isOpen := false }).Real t :=
      real.modifyPort here (fun _ => rfl) ⟨port.node, port.inbox, port.peer⟩
    obtain same | ⟨peer, same⟩ := same
    · rw [same]
      exact closed
    · rw [same]
      refine closed.modifyNode (fun inside => (closed.nodes _ inside).losePeer peer)
        fun k tx found => ?_
      have found : ((m.node (w.port inbound).node).tx.erase peer).get? k = some tx := found
      rw [FinMap.get?_erase] at found
      split at found
      · contradiction
      · exact closed.tx _ k tx found

theorem Mesh.Real.connect (real : m.Real t) (n : UInt64) (addr : String) :
    (m.connect t n addr).Real t := by
  unfold Mesh.connect
  split
  · rename_i dialed
    have member : n ∈ t.nodes := real.dialing _ dialed
    have waits : ∀ d ∈ m.dialing.erase (n, addr), d.1 ∈ t.nodes := fun d inside =>
      real.dialing d (List.mem_of_mem_erase inside)
    dsimp only
    split
    · exact ⟨real.nodes, real.wires, real.tx, waits⟩
    · rename_i k found
      have accepts : k ∈ t.nodes := (listener_some found).1
      have opened : Mesh.Real t
          ({ m with dialing := m.dialing.erase (n, addr) }.openWire n k) := by
        refine ⟨real.nodes, fun w inside => ?_, fun n k tx found => ?_, waits⟩
        · cases List.mem_append.mp inside with
          | inl old => exact real.wires w old
          | inr new =>
            rw [List.mem_singleton.mp new]
            intro inbound
            refine ⟨?_, fun frame none => absurd none List.not_mem_nil,
              fun p none => absurd none (Option.not_mem_none p)⟩
            cases inbound with
            | false => exact member
            | true => exact accepts
        · obtain ⟨w, here, node⟩ := real.tx n k tx found
          exact ⟨w, List.getElem?_append_left (List.getElem?_eq_some_iff.mp here).1 ▸ here, node⟩
      refine opened.send (n := n) ⟨.between n k, ?_, rfl⟩ fun inside =>
        (real.nodes n inside).sendsHeartbeat
      exact List.getElem?_concat_length
  · exact real

theorem Mesh.Real.restart (real : m.Real t) (n : UInt64) (now : Nat) :
    (m.restart t n now).Real t where
  nodes k member := by
    change MeshNode.Real t k (Function.update m.node n _ k)
    rw [Function.update_apply]
    split
    · rename_i same
      rw [same]
      exact .new (same ▸ member) now
    · exact real.nodes k member
  wires := by
    intro w' member
    obtain ⟨w, inside, rfl⟩ := List.mem_map.mp member
    intro inbound
    have port := real.wires w inside inbound
    exact ⟨port.node, port.inbox, port.peer⟩
  tx n' k tx found := by
    have found : (Function.update m.node n _ n').tx.get? k = some tx := found
    rw [Function.update_apply] at found
    split at found
    · contradiction
    · obtain ⟨w, here, node⟩ := real.tx n' k tx found
      refine ⟨_, (List.getElem?_map ..).trans (congrArg _ here), node⟩
  dialing d member := real.dialing d (List.mem_filter.mp member).1

theorem Mesh.Real.step (real : m.Real t) (e : MeshEvent) : (m.step t e).Real t := by
  cases e with
  | dial n addr =>
    unfold Mesh.step Mesh.dial
    dsimp only
    split
    · rename_i wanted
      refine ⟨real.nodes, real.wires, real.tx, fun d member => ?_⟩
      cases List.mem_append.mp member with
      | inl old => exact real.dialing d old
      | inr new => exact List.mem_singleton.mp new ▸ wanted.1
    · exact real
  | connect n addr => exact real.connect n addr
  | deliver i inbound now => exact real.deliver i inbound now
  | close i inbound => exact real.close i inbound
  | gossip n => exact real.broadcast fun inside => (real.nodes n inside).knows
  | leaderHeartbeat n =>
    change (m.leaderHeartbeat n).Real t
    obtain same | same := leaderHeartbeat_cases m n
    · rw [same]
      exact real
    · rw [same]
      exact real.broadcast fun inside => (real.nodes n inside).nodeId
  | sweep n now =>
    obtain ⟨nodeHealth, same⟩ := detectFailedNodes_fst (m.node n) t.failoverTimeout now
    refine real.modifyNode (n := n) (f := fun node =>
      (node.detectFailedNodes t.failoverTimeout now).1) (fun inside => ?_) fun k tx found => ?_
    · rw [same]
      have node := real.nodes n inside
      exact ⟨node.nodeId, node.listenAddr, node.members, node.peers, node.own⟩
    · rw [same] at found
      exact real.tx n k tx found
  | term n currentTerm leaderId =>
    refine real.modifyNode (n := n) (f := fun node => { node with currentTerm, leaderId })
      (fun inside => ?_) (real.tx n)
    have node := real.nodes n inside
    exact ⟨node.nodeId, node.listenAddr, node.members, node.peers, node.own⟩
  | restart n now => exact real.restart n now

theorem Mesh.Real.start (t : Topology) : (Mesh.start t).Real t where
  nodes n member := .new member 0
  wires w member := by contradiction
  tx n k tx found := by contradiction
  dialing d member := by contradiction

theorem Mesh.Real.after (t : Topology) (es : List MeshEvent) : (Mesh.after t es).Real t :=
  Run.keeps (fun _ e (_ : True) before => before.step e) (fun _ _ => trivial) (.start t)

theorem broadcast_still (m : Mesh) (n : UInt64) (frame : MeshFrame) :
    ∃ wires, m.broadcast n frame = { m with wires } ∧
      (m.broadcast n frame).pairs = m.pairs := by
  suffices general : ∀ (es : List (Sigma fun _ : UInt64 => Nat × Bool)) (m : Mesh), ∃ wires,
      es.foldl (fun m e => m.send e.2 frame) m = { m with wires } ∧
        (es.foldl (fun m e => m.send e.2 frame) m).pairs = m.pairs from general _ m
  intro es
  induction es with
  | nil => exact fun m => ⟨m.wires, rfl, rfl⟩
  | cons e es ih =>
    intro m
    obtain ⟨wires, same, pairs⟩ := ih (m.send e.2 frame)
    refine ⟨wires, same, pairs.trans ?_⟩
    exact pairs_modifyPort fun _ => by rfl

end

end RocketmqBroker
