import RocketmqBroker.Cluster.Mesh

/-!
When a node gives up a peer, in any run of the whole cluster: the records of its failure detector
are the times at which it heard the others.
-/
namespace RocketmqBroker

def MeshNode.recordOf (m : MeshNode) (peerId : UInt64) : Option Nat :=
  (m.nodeHealth.get? peerId).map Prod.fst

structure Mesh.Timed (m : Mesh) : Prop where
  records : ∀ n k, (m.node n).recordOf k = m.lastHeard n k
  peers : ∀ n k, (m.node n).peers.contains k = true → ((m.node n).recordOf k).isSome = true

section
variable {t : Topology} {m : Mesh} {n : UInt64}

theorem recordOf_recordPeerHeartbeat (node : MeshNode) (peerId k : UInt64) (now : Nat) :
    (node.recordPeerHeartbeat peerId now).recordOf k =
      if k = peerId then some now else node.recordOf k := by
  unfold MeshNode.recordOf MeshNode.recordPeerHeartbeat
  dsimp only
  rw [FinMap.get?_insert]
  split
  · rfl
  · rfl

theorem recordOf_updateNodeHealth {node : MeshNode} {peerId : UInt64}
    (known : (node.recordOf peerId).isSome = true) (timeout now : Nat) (k : UInt64) :
    (node.updateNodeHealth timeout peerId now).1.recordOf k = node.recordOf k := by
  obtain ⟨seen, found⟩ := Option.isSome_iff_exists.mp known
  unfold MeshNode.updateNodeHealth MeshNode.recordOf
  dsimp only
  rw [FinMap.get?_insert]
  split
  · rename_i same
    rw [same]
    change some (node.lastSeen peerId now) = node.recordOf peerId
    unfold MeshNode.lastSeen
    change some ((node.recordOf peerId).getD now) = _
    rw [found]
    rfl
  · rfl

theorem statusOf_congr {node node' : MeshNode} {k : UInt64}
    (same : node'.recordOf k = node.recordOf k) (timeout now : Nat) :
    node'.statusOf timeout k now = node.statusOf timeout k now := by
  have seen : node'.lastSeen k now = node.lastSeen k now := congrArg (·.getD now) same
  unfold MeshNode.statusOf
  rw [seen]

theorem detectFailedNodes_spec {node : MeshNode}
    (known : ∀ k, node.peers.contains k = true → (node.recordOf k).isSome = true)
    (timeout now : Nat) :
    (∀ k, (node.detectFailedNodes timeout now).1.recordOf k = node.recordOf k) ∧
      (node.detectFailedNodes timeout now).2 =
        node.peers.keys.filter fun k => node.statusOf timeout k now = .down := by
  suffices general : ∀ (peerIds : List UInt64) (node' : MeshNode) (downed : List UInt64),
      (∀ k, node'.recordOf k = node.recordOf k) →
      (∀ k ∈ peerIds, (node.recordOf k).isSome = true) →
      (∀ k, (peerIds.foldl (fun a peerId => MeshNode.examine a.1 timeout now a.2 peerId)
        (node', downed)).1.recordOf k = node.recordOf k) ∧
      (peerIds.foldl (fun a peerId => MeshNode.examine a.1 timeout now a.2 peerId)
        (node', downed)).2 =
          downed ++ peerIds.filter fun k => node.statusOf timeout k now = .down from
    general _ node [] (fun _ => rfl) fun k member =>
      known k (FinMap.contains_iff_mem_keys.mpr member)
  intro peerIds
  induction peerIds with
  | nil => exact fun node' downed same _ => ⟨same, (List.append_nil downed).symm⟩
  | cons peerId peerIds ih =>
    intro node' downed same known
    have here : (node'.recordOf peerId).isSome = true := by
      rw [same]
      exact known peerId List.mem_cons_self
    have status : node'.statusOf timeout peerId now = node.statusOf timeout peerId now :=
      statusOf_congr (same peerId) timeout now
    have next := ih (node'.updateNodeHealth timeout peerId now).1
      (if node'.statusOf timeout peerId now = .down then downed ++ [peerId] else downed)
      (fun k => (recordOf_updateNodeHealth here timeout now k).trans (same k))
      fun k member => known k (List.mem_cons_of_mem _ member)
    refine ⟨next.1, next.2.trans ?_⟩
    rw [List.filter_cons, status]
    split
    · rename_i down
      rw [if_pos (decide_eq_true down), List.append_assoc, List.singleton_append]
    · rename_i up
      rw [if_neg fun down => up (of_decide_eq_true down)]

theorem lastHeard_note (m : Mesh) (n k n' k' : UInt64) (now : Nat) :
    (m.note n k now).lastHeard n' k' =
      if n' = n ∧ k' = k then some now else m.lastHeard n' k' := by
  unfold Mesh.lastHeard Mesh.note
  rw [List.find?_cons]
  by_cases same : n' = n ∧ k' = k
  · rw [if_pos same, same.1, same.2]
    simp
  · rw [if_neg same]
    simp [show ¬(n = n' ∧ k = k') from fun back => same ⟨back.1.symm, back.2.symm⟩]

theorem lastHeard_restart (m : Mesh) (n n' k : UInt64) (now : Nat) :
    (m.restart t n now).lastHeard n' k = if n' = n then none else m.lastHeard n' k := by
  unfold Mesh.lastHeard Mesh.restart
  dsimp only
  rw [List.find?_filter]
  split
  · rename_i same
    rw [List.find?_eq_none.mpr fun h _ => ?_]
    · rfl
    · grind
  · rename_i other
    refine congrArg (fun p => (m.heard.find? p).map (·.2.2)) (funext fun h => ?_)
    grind

theorem Mesh.Timed.modifyNode (timed : m.Timed) {f : MeshNode → MeshNode}
    (records : ∀ k, (f (m.node n)).recordOf k = (m.node n).recordOf k)
    (peers : ∀ k, (f (m.node n)).peers.contains k = true → (m.node n).peers.contains k = true) :
    (m.modifyNode n f).Timed where
  records n' k := by
    rw [node_modifyNode]
    split
    · rename_i same
      rw [records, same]
      exact timed.records n k
    · exact timed.records n' k
  peers n' k := by
    rw [node_modifyNode]
    split
    · rw [records]
      exact fun connected => timed.peers n k (peers k connected)
    · exact timed.peers n' k

theorem Mesh.Timed.hears (timed : m.Timed) {f : MeshNode → MeshNode} (k : UInt64) (now : Nat)
    (records : ∀ k', (f (m.node n)).recordOf k' =
      if k' = k then some now else (m.node n).recordOf k')
    (peers : ∀ k', (f (m.node n)).peers.contains k' = true →
      k' = k ∨ (m.node n).peers.contains k' = true) :
    ((m.modifyNode n f).note n k now).Timed where
  records n' k' := by
    rw [lastHeard_note]
    change ((m.modifyNode n f).node n').recordOf k' = _
    rw [node_modifyNode]
    split
    · rename_i same
      rw [records, same]
      by_cases heard : k' = k
      · rw [if_pos heard, if_pos ⟨rfl, heard⟩]
      · rw [if_neg heard, if_neg fun both => heard both.2]
        exact timed.records n k'
    · rename_i other
      rw [if_neg fun both => other both.1]
      exact timed.records n' k'
  peers n' k' := by
    change ((m.modifyNode n f).node n').peers.contains k' = true →
      (((m.modifyNode n f).node n').recordOf k').isSome = true
    rw [node_modifyNode]
    split
    · intro connected
      rw [records]
      split
      · rfl
      · rename_i other
        exact timed.peers n k' ((peers k' connected).resolve_left other)
    · exact timed.peers n' k'

theorem Mesh.Timed.dispatch (timed : m.Timed) (i : Nat) (inbound : Bool) (n k : UInt64) (now : Nat)
    {frame : MeshFrame} (sent : frame.From t k) : (m.dispatch i inbound n k now frame).Timed := by
  cases frame with
  | heartbeat nodeId listenAddr =>
    obtain ⟨rfl, -⟩ := sent
    have noted : (m.modifyPort i inbound fun a => { a with tempPeerId := some nodeId }).Timed :=
      ⟨timed.records, timed.peers⟩
    have heard := noted.hears (n := n) nodeId now
      (f := (·.hearHeartbeat (i, inbound) nodeId listenAddr now))
      (fun k' => recordOf_recordPeerHeartbeat _ nodeId k' now) fun k' connected => ?_
    · unfold Mesh.dispatch
      cases inbound with
      | false => exact heard
      | true => exact ⟨heard.records, heard.peers⟩
    · change ((m.node n).peers.insert nodeId listenAddr).contains k' = true at connected
      rw [FinMap.contains_iff_mem_keys] at connected ⊢
      exact FinMap.mem_keys_insert.mp connected
  | gossip infos =>
    exact timed.modifyNode (f := (·.hearGossip infos)) (fun _ => rfl) fun _ connected => connected
  | leaderHeartbeat term leaderId =>
    have same : leaderId = k := sent
    unfold Mesh.dispatch
    dsimp only
    split
    · rename_i current
      have follows : (m.node n).hearLeader term leaderId now =
          { (m.node n).recordPeerHeartbeat leaderId now with
            currentTerm := term, leaderId := leaderId } := if_pos current
      refine timed.hears (f := (·.hearLeader term leaderId now)) k now (fun k' => ?_)
        fun k' connected => ?_
      · rw [follows, ← same]
        exact recordOf_recordPeerHeartbeat (m.node n) leaderId k' now
      · rw [follows] at connected
        exact .inr connected
    · rename_i old
      have still : (m.node n).hearLeader term leaderId now = m.node n := if_neg old
      refine timed.modifyNode (f := (·.hearLeader term leaderId now)) (fun k' => ?_)
        fun k' connected => ?_
      · rw [still]
      · rw [still] at connected
        exact connected

theorem Mesh.Timed.broadcast (timed : m.Timed) (n : UInt64) (frame : MeshFrame) :
    (m.broadcast n frame).Timed := by
  obtain ⟨wires, same, -⟩ := broadcast_still m n frame
  rw [same]
  exact ⟨timed.records, timed.peers⟩

theorem Mesh.Timed.deliver (timed : m.Timed) (real : m.Real t) (i : Nat) (inbound : Bool)
    (now : Nat) : (m.deliver i inbound now).Timed := by
  obtain same | ⟨w, frame, rest, here, waiting, same⟩ := deliver_cases m i inbound now
  · rw [same]
    exact timed
  · rw [same]
    have taken : (m.modifyPort i inbound fun a => { a with inbox := rest }).Timed :=
      ⟨timed.records, timed.peers⟩
    exact taken.dispatch i inbound _ _ now (real.sent here waiting)

theorem Mesh.Timed.close (timed : m.Timed) (i : Nat) (inbound : Bool) :
    (m.close i inbound).Timed := by
  have closed : (m.modifyPort i inbound fun a => { a with isOpen := false }).Timed :=
    ⟨timed.records, timed.peers⟩
  obtain same | ⟨w, -, same | ⟨peer, same⟩⟩ := close_cases m i inbound
  · rw [same]
    exact timed
  · rw [same]
    exact closed
  · rw [same]
    refine closed.modifyNode (f := (·.losePeer peer)) (fun _ => rfl) fun k connected => ?_
    change ((m.node (w.port inbound).node).peers.erase peer).contains k = true at connected
    exact (FinMap.contains_erase.mp connected).2

theorem Mesh.Timed.restart (timed : m.Timed) (n : UInt64) (now : Nat) :
    (m.restart t n now).Timed where
  records n' k := by
    rw [lastHeard_restart]
    change (Function.update m.node n _ n').recordOf k = _
    rw [Function.update_apply]
    split
    · rfl
    · exact timed.records n' k
  peers n' k := by
    change (Function.update m.node n _ n').peers.contains k = true →
      ((Function.update m.node n _ n').recordOf k).isSome = true
    rw [Function.update_apply]
    split
    · exact fun connected => by contradiction
    · exact timed.peers n' k

theorem Mesh.Timed.step (timed : m.Timed) (real : m.Real t) (e : MeshEvent) :
    (m.step t e).Timed := by
  cases e with
  | dial n addr =>
    unfold Mesh.step Mesh.dial
    dsimp only
    split
    · exact ⟨timed.records, timed.peers⟩
    · exact timed
  | connect n addr =>
    unfold Mesh.step Mesh.connect
    dsimp only
    split
    · split
      · exact ⟨timed.records, timed.peers⟩
      · exact ⟨timed.records, timed.peers⟩
    · exact timed
  | deliver i inbound now => exact timed.deliver real i inbound now
  | close i inbound => exact timed.close i inbound
  | gossip n => exact timed.broadcast n _
  | leaderHeartbeat n =>
    change (m.leaderHeartbeat n).Timed
    obtain same | same := leaderHeartbeat_cases m n
    · rw [same]
      exact timed
    · rw [same]
      exact timed.broadcast n _
  | sweep n now =>
    refine timed.modifyNode (f := fun node =>
      (node.detectFailedNodes t.failoverTimeout now).1)
      (detectFailedNodes_spec (timed.peers n) t.failoverTimeout now).1 fun k connected => ?_
    obtain ⟨nodeHealth, same⟩ := detectFailedNodes_fst (m.node n) t.failoverTimeout now
    rw [same] at connected
    exact connected
  | term n currentTerm leaderId =>
    exact timed.modifyNode (f := fun node => { node with currentTerm, leaderId })
      (fun _ => rfl) fun _ connected => connected
  | restart n now => exact timed.restart n now

theorem Mesh.Timed.start (t : Topology) : (Mesh.start t).Timed where
  records n k := rfl
  peers n k connected := by contradiction

theorem Mesh.Timed.after (t : Topology) (es : List MeshEvent) : (Mesh.after t es).Timed :=
  (Run.keeps (P := fun m => Mesh.Real t m ∧ Mesh.Timed m)
    (fun _ e (_ : True) before => ⟨before.1.step e, before.2.step before.1 e⟩)
    (fun _ _ => trivial) ⟨.start t, .start t⟩).2

theorem statusOf_down {node : MeshNode} {k : UInt64} {timeout now : Nat} :
    node.statusOf timeout k now = .down ↔
      ∃ seen, node.recordOf k = some seen ∧ timeout < now - seen := by
  have late : node.statusOf timeout k now = .down ↔ timeout < now - node.lastSeen k now := by
    unfold MeshNode.statusOf
    dsimp only
    split
    · exact iff_of_true rfl ‹_›
    · split
      · exact iff_of_false nofun ‹_›
      · exact iff_of_false nofun ‹_›
  rw [late]
  change timeout < now - (node.recordOf k).getD now ↔ _
  cases node.recordOf k with
  | none => simp
  | some seen => simp

/-- In every run a node gives up those peers that it has not heard for the whole timeout, and no
    others. -/
theorem given_up_iff_silent (t : Topology) (es : List MeshEvent) (n k : UInt64) (now : Nat) :
    let m := Mesh.after t es
    k ∈ ((m.node n).detectFailedNodes t.failoverTimeout now).2 ↔
      (m.node n).peers.contains k = true ∧
        ∃ seen, m.lastHeard n k = some seen ∧ t.failoverTimeout < now - seen := by
  intro m
  have timed : m.Timed := .after t es
  rw [(detectFailedNodes_spec (timed.peers n) t.failoverTimeout now).2, List.mem_filter,
    ← FinMap.contains_iff_mem_keys, decide_eq_true_iff, statusOf_down, timed.records]

end

end RocketmqBroker
