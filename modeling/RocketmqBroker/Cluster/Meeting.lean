import RocketmqBroker.Cluster.Mesh

/-!
Whom a node takes for a member or a peer, in any run of the whole cluster.
-/
namespace RocketmqBroker

/-- The node is not connected to itself, and does not try to be. -/
structure Mesh.Apart (t : Topology) (n : UInt64) (m : Mesh) : Prop where
  pairs : (n, n) ∉ m.pairs
  dialing : ∀ d ∈ m.dialing, d.1 = n → d.2 ≠ t.listenAddr n
  peers : (m.node n).peers.get? n = none

section
variable {t : Topology} {m : Mesh} {w : Wire} {n : UInt64} {i : Nat} {inbound : Bool}
variable {f : Port → Port}

theorem mem_peersToConnect {node : MeshNode} {seeds : List String} {addr : String}
    (wanted : addr ∈ node.peersToConnect seeds) : addr ∈ seeds ∨
      ∃ k info, node.members.get? k = some info ∧ info.nodeId ≠ node.nodeId ∧
        info.listenAddr = addr := by
  have all : ∀ e ∈ node.members.entries, node.members.get? e.1 = some e.2 := fun e member =>
    FinMap.get?_eq_some_iff_mem.mpr member
  unfold MeshNode.peersToConnect at wanted
  generalize node.members.entries = es at wanted all
  induction es generalizing seeds with
  | nil => exact .inl wanted
  | cons e es ih =>
    have later := ih wanted fun e' member => all e' (List.mem_cons_of_mem _ member)
    refine later.elim (fun seeded => ?_) .inr
    dsimp only at seeded
    split at seeded
    · rename_i other
      cases List.mem_append.mp seeded with
      | inl old => exact .inl old
      | inr new =>
        exact .inr ⟨e.1, e.2, all e List.mem_cons_self, other.1, (List.mem_singleton.mp new).symm⟩
    · exact .inl seeded

theorem Mesh.Apart.still {m' : Mesh} (apart : m.Apart t n) (pairs : m'.pairs = m.pairs)
    (dialing : m'.dialing = m.dialing) (peers : (m'.node n).peers.get? n = none) :
    m'.Apart t n where
  pairs := by
    rw [pairs]
    exact apart.pairs
  dialing := by
    rw [dialing]
    exact apart.dialing
  peers := peers

theorem Mesh.Apart.modifyNode (apart : m.Apart t n) (n' : UInt64) {f : MeshNode → MeshNode}
    (peers : n' = n → (f (m.node n)).peers.get? n = none) : (m.modifyNode n' f).Apart t n := by
  refine apart.still rfl rfl ?_
  rw [node_modifyNode]
  split
  · rename_i same
    rw [← same]
    exact peers same.symm
  · exact apart.peers

theorem Mesh.Apart.modifyPort (apart : m.Apart t n) (still : ∀ a, (f a).node = a.node) :
    (m.modifyPort i inbound f).Apart t n :=
  apart.still (pairs_modifyPort still) rfl apart.peers

theorem Mesh.Apart.send (apart : m.Apart t n) (tx : Nat × Bool) (frame : MeshFrame) :
    (m.send tx frame).Apart t n :=
  apart.modifyPort fun _ => by rfl

theorem Mesh.Apart.broadcast (apart : m.Apart t n) (n' : UInt64) (frame : MeshFrame) :
    (m.broadcast n' frame).Apart t n := by
  obtain ⟨wires, same, pairs⟩ := broadcast_still m n' frame
  refine apart.still pairs ?_ ?_
  · rw [same]
  · rw [same]
    exact apart.peers

theorem Mesh.Apart.note (apart : m.Apart t n) (n' k : UInt64) (now : Nat) :
    (m.note n' k now).Apart t n :=
  apart.still rfl rfl apart.peers

theorem Mesh.Apart.far (apart : m.Apart t n) (here : m.wires[i]? = some w)
    (near : (w.port inbound).node = n) : (w.port !inbound).node ≠ n := by
  intro far
  refine apart.pairs (List.mem_map.mpr ⟨w, List.mem_of_getElem? here, ?_⟩)
  cases inbound with
  | false => exact Prod.ext near far
  | true => exact Prod.ext far near

theorem Mesh.Apart.dispatch (apart : m.Apart t n) {n' k : UInt64} (other : n' = n → k ≠ n)
    (i : Nat) (inbound : Bool) (now : Nat) {frame : MeshFrame} (sent : frame.From t k) :
    (m.dispatch i inbound n' k now frame).Apart t n := by
  cases frame with
  | heartbeat nodeId listenAddr =>
    obtain ⟨rfl, -⟩ := sent
    have noted : (m.modifyPort i inbound fun a => { a with tempPeerId := some nodeId }).Apart t n :=
      apart.modifyPort fun _ => by rfl
    have heard := noted.modifyNode n'
      (f := (·.hearHeartbeat (i, inbound) nodeId listenAddr now)) fun same => ?_
    · unfold Mesh.dispatch
      cases inbound with
      | false => exact heard.note n' nodeId now
      | true => exact (heard.send (i, true) _).note n' nodeId now
    · change ((m.node n).peers.insert nodeId listenAddr).get? n = none
      rw [FinMap.get?_insert, if_neg fun self => other same self.symm]
      exact apart.peers
  | gossip infos => exact apart.modifyNode n' (f := (·.hearGossip infos)) fun _ => apart.peers
  | leaderHeartbeat term leaderId =>
    have heard := apart.modifyNode n' (f := (·.hearLeader term leaderId now)) fun _ => ?_
    · unfold Mesh.dispatch
      dsimp only
      split
      · exact heard.note n' k now
      · exact heard
    · unfold MeshNode.hearLeader
      split
      · exact apart.peers
      · exact apart.peers

theorem Mesh.Apart.deliver (apart : m.Apart t n) (real : m.Real t) (i : Nat) (inbound : Bool)
    (now : Nat) : (m.deliver i inbound now).Apart t n := by
  obtain same | ⟨w, frame, rest, here, waiting, same⟩ := deliver_cases m i inbound now
  · rw [same]
    exact apart
  · rw [same]
    have taken : (m.modifyPort i inbound fun a => { a with inbox := rest }).Apart t n :=
      apart.modifyPort fun _ => by rfl
    exact taken.dispatch (apart.far here) i inbound now (real.sent here waiting)

theorem Mesh.Apart.close (apart : m.Apart t n) (i : Nat) (inbound : Bool) :
    (m.close i inbound).Apart t n := by
  have closed : (m.modifyPort i inbound fun a => { a with isOpen := false }).Apart t n :=
    apart.modifyPort fun _ => by rfl
  obtain same | ⟨w, -, same | ⟨peer, same⟩⟩ := close_cases m i inbound
  · rw [same]
    exact apart
  · rw [same]
    exact closed
  · rw [same]
    refine closed.modifyNode _ (f := (·.losePeer peer)) fun _ => ?_
    change ((m.node n).peers.erase peer).get? n = none
    rw [FinMap.get?_erase]
    split
    · rfl
    · exact apart.peers

theorem Mesh.Apart.connect (apart : m.Apart t n) (n' : UInt64) (addr : String) :
    (m.connect t n' addr).Apart t n := by
  unfold Mesh.connect
  split
  · rename_i dialed
    have waits : ∀ d ∈ m.dialing.erase (n', addr), d.1 = n → d.2 ≠ t.listenAddr n :=
      fun d inside => apart.dialing d (List.mem_of_mem_erase inside)
    dsimp only
    split
    · exact ⟨apart.pairs, waits, apart.peers⟩
    · rename_i k found
      have opened : Mesh.Apart t n
          ({ m with dialing := m.dialing.erase (n', addr) }.openWire n' k) := by
        refine ⟨fun self => ?_, waits, apart.peers⟩
        change (n, n) ∈ List.map _ (m.wires ++ [Wire.between n' k]) at self
        rw [List.map_append] at self
        cases List.mem_append.mp self with
        | inl old => exact apart.pairs old
        | inr new =>
          obtain ⟨rfl, rfl⟩ := Prod.mk.inj (List.mem_singleton.mp new)
          exact apart.dialing _ dialed rfl (listener_some found).2.symm
      exact opened.send _ _
  · exact apart

theorem Mesh.Apart.dial (apart : m.Apart t n) (real : m.Real t) (member : n ∈ t.nodes)
    (seeds : t.listenAddr n ∉ t.seeds n) (n' : UInt64) (addr : String) :
    (m.dial t n' addr).Apart t n := by
  unfold Mesh.dial
  split
  · rename_i wanted
    refine ⟨apart.pairs, fun d inside => ?_, apart.peers⟩
    cases List.mem_append.mp inside with
    | inl old => exact apart.dialing d old
    | inr new =>
      rw [List.mem_singleton.mp new]
      intro (same : n' = n) (own : addr = t.listenAddr n)
      subst same own
      have node := real.nodes n' member
      cases mem_peersToConnect wanted.2.1 with
      | inl seeded => exact seeds seeded
      | inr known =>
        obtain ⟨k, info, found, other, addr⟩ := known
        have said := (node.members k info found).2
        rw [node.nodeId] at other
        exact other (t.distinct _ said.1 _ member (said.2.symm.trans addr))
  · exact apart

theorem Mesh.Apart.step (apart : m.Apart t n) (real : m.Real t) (member : n ∈ t.nodes)
    (seeds : t.listenAddr n ∉ t.seeds n) (e : MeshEvent) : (m.step t e).Apart t n := by
  cases e with
  | dial n' addr => exact apart.dial real member seeds n' addr
  | connect n' addr => exact apart.connect n' addr
  | deliver i inbound now => exact apart.deliver real i inbound now
  | close i inbound => exact apart.close i inbound
  | gossip n' => exact apart.broadcast n' _
  | leaderHeartbeat n' =>
    change (m.leaderHeartbeat n').Apart t n
    obtain same | same := leaderHeartbeat_cases m n'
    · rw [same]
      exact apart
    · rw [same]
      exact apart.broadcast n' _
  | sweep n' now =>
    refine apart.modifyNode n' (f := fun node =>
      (node.detectFailedNodes t.failoverTimeout now).1) fun _ => ?_
    obtain ⟨nodeHealth, same⟩ := detectFailedNodes_fst (m.node n) t.failoverTimeout now
    rw [same]
    exact apart.peers
  | term n' currentTerm leaderId =>
    exact apart.modifyNode n' (f := fun node => { node with currentTerm, leaderId })
      fun _ => apart.peers
  | restart n' now =>
    refine ⟨fun self => ?_, fun d inside => ?_, ?_⟩
    · have still : (m.restart t n' now).pairs = m.pairs := List.map_map
      exact apart.pairs (still ▸ self)
    · exact apart.dialing d (List.mem_filter.mp inside).1
    · change (Function.update m.node n' _ n).peers.get? n = none
      rw [Function.update_apply]
      split
      · rfl
      · exact apart.peers

theorem Mesh.Apart.start (t : Topology) (n : UInt64) : (Mesh.start t).Apart t n where
  pairs none := by contradiction
  dialing d none := by contradiction
  peers := rfl

theorem Mesh.Apart.after (member : n ∈ t.nodes) (seeds : t.listenAddr n ∉ t.seeds n)
    (es : List MeshEvent) : (Mesh.after t es).Apart t n :=
  (Run.keeps (P := fun m => Mesh.Real t m ∧ Mesh.Apart t n m)
    (fun _ e (_ : True) before => ⟨before.1.step e, before.2.step before.1 member seeds e⟩)
    (fun _ _ => trivial) ⟨.start t, .start t n⟩).2

end

/-- In every run what a node believes of the members, itself among them, and of its peers is what
    is configured. If it is not among its own seeds, it never is its own peer. -/
theorem members_real (t : Topology) (es : List MeshEvent) :
    let m := Mesh.after t es
    ∀ n ∈ t.nodes,
      (∀ k info, (m.node n).members.get? k = some info →
        info.nodeId = k ∧ k ∈ t.nodes ∧ info.listenAddr = t.listenAddr k) ∧
      ((m.node n).members.get? n).isSome = true ∧
      (∀ k addr, (m.node n).peers.get? k = some addr → k ∈ t.nodes ∧ addr = t.listenAddr k) ∧
      (t.listenAddr n ∉ t.seeds n → (n, n) ∉ m.pairs ∧ (m.node n).peers.get? n = none) := by
  intro m n member
  have node := (Mesh.Real.after t es).nodes n member
  refine ⟨fun k info found => ?_, FinMap.contains_iff_mem_keys.mpr node.own, node.peers,
    fun seeds => ?_⟩
  · obtain ⟨same, known, addr⟩ := node.members k info found
    rw [same] at known addr
    exact ⟨same, known, addr⟩
  · have apart := Mesh.Apart.after member seeds es
    exact ⟨apart.pairs, apart.peers⟩

def trioAddr : UInt64 → String
  | 1 => "10.0.0.1:5680"
  | 2 => "10.0.0.2:5680"
  | _ => "10.0.0.3:5680"

theorem trio_distinct (a : UInt64) (first : a ∈ [(1 : UInt64), 2, 3]) (b : UInt64)
    (second : b ∈ [(1 : UInt64), 2, 3]) (same : trioAddr a = trioAddr b) : a = b := by
  have apart : ([1, 2, 3].map trioAddr).Nodup := by decide
  exact List.inj_on_of_nodup_map apart first second same

/-- Two nodes are told of the first, and of each other by it. -/
def trio : Topology where
  nodes := [1, 2, 3]
  listenAddr := trioAddr
  seeds n := if n = 1 then [] else [trioAddr 1]
  partitionHandling := "ignore"
  failoverTimeout := 10000
  distinct := trio_distinct

def meeting : List MeshEvent :=
  [.dial 2 (trioAddr 1), .connect 2 (trioAddr 1), .deliver 0 true 5, .deliver 0 false 6,
    .dial 3 (trioAddr 1), .connect 3 (trioAddr 1), .deliver 1 true 7, .deliver 1 false 8,
    .gossip 1, .deliver 1 false 9, .dial 3 (trioAddr 2), .connect 3 (trioAddr 2),
    .deliver 2 true 10, .deliver 2 false 11]

theorem members_real_trio :
    let m := Mesh.after trio meeting
    (m.node 3).peers.keys = [2, 1] ∧ ((m.node 3).members.get? 2).isSome = true ∧
      ((m.node 3).members.get? 3).isSome = true ∧
      (∀ info ∈ (m.node 3).members.get? 2, info.listenAddr = "10.0.0.2:5680") ∧
      (3, 3) ∉ m.pairs ∧ (m.node 3).peers.get? 3 = none := by
  have facts := members_real trio meeting 3 (by decide)
  exact ⟨by decide +kernel, by decide +kernel, facts.2.1,
    fun info found => (facts.1 2 info found).2.2, facts.2.2.2 (by decide)⟩

end RocketmqBroker
