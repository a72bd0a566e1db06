import RocketmqBroker.Delivery.Outstanding
import RocketmqBroker.Lib.Registry

/-!
The three delivery registries: the index from tags to queues, the messages in
flight in each queue and the deliveries of each connection. They agree as long as
a tag is only settled by the connection it went to, a message goes in flight only
with an id that is not in the index, and a queue goes only when what is in flight
in it went to the connection that is closing.
-/
namespace RocketmqBroker
open Run.Program

def BrokerState.deliveriesOf (s : BrokerState) (connId : UInt64) : List (String × UInt64) :=
  (s.connDeliveries.get? connId).getD []

/-- A tag is indexed under a queue exactly when it is in flight there, and exactly
    when one connection has it, once. -/
def BrokerState.RegistriesAgree (s : BrokerState) : Prop :=
  ∀ tag queue,
    (s.deliveryIndex.get? tag = some queue ↔ s.inFlight queue tag = true) ∧
    (s.deliveryIndex.get? tag = some queue ↔
      ∃ connId, (s.deliveriesOf connId).count (queue, tag) = 1 ∧
        ∀ other, other ≠ connId → (queue, tag) ∉ s.deliveriesOf other)

def BrokerState.Entitled (s : BrokerState) (connId tag : UInt64) : Prop :=
  ∀ queue ∈ s.deliveryIndex.get? tag, (queue, tag) ∈ s.deliveriesOf connId

instance (s : BrokerState) (connId tag : UInt64) : Decidable (s.Entitled connId tag) :=
  Option.decidableForallMem (s.deliveryIndex.get? tag)

/-- A message goes in flight with an id that the index does not have, and a queue
    goes with nothing in flight but what went to the connection that is closing. -/
def Spares (closing : Option UInt64) (s : BrokerState) : Effect → Prop
  | .pop queue .hold => ∀ q ∈ s.queues.get? queue, ∀ front ∈ q.messages.popFront,
      s.deliveryIndex.get? front.1.id = none
  | .removeQueue name => ∀ q ∈ s.queues.get? name, ∀ tag ∈ q.inflight.keys,
      closing.any (fun connId => (name, tag) ∈ s.deliveriesOf connId) = true
  | _ => True

instance (closing : Option UInt64) (s : BrokerState) (e : Effect) :
    Decidable (Spares closing s e) := by
  apply Effect.casesOn (motive := fun e => Decidable (Spares closing s e)) e
  case pop =>
    intro queue fate
    apply Fate.casesOn (motive := fun fate => Decidable (Spares closing s (.pop queue fate))) fate
    case hold =>
      have front (q : QueueState) : Decidable (∀ front ∈ q.messages.popFront,
          s.deliveryIndex.get? front.1.id = none) := Option.decidableForallMem q.messages.popFront
      exact Option.decidableForallMem _
    all_goals exact isTrue trivial
  case removeQueue =>
    intro name
    have all (q : QueueState) : Decidable (∀ tag ∈ q.inflight.keys,
        closing.any (fun connId => (name, tag) ∈ s.deliveriesOf connId) = true) :=
      List.decidableBAll _ _
    exact Option.decidableForallMem _
  all_goals
    intros
    exact isTrue trivial

def Op.closing : Op → Option UInt64
  | disconnect connId => some connId
  | _ => none

def BrokerState.settles (s : BrokerState) : Op → List (UInt64 × UInt64)
  | .basicAck connId _ tag => [(connId, tag)]
  | .basicReject connId _ tag _ => [(connId, tag)]
  | .basicNack connId _ tag _ => [(connId, tag)]
  | .txCommit connId => (s.bufferedAcks connId).map fun tag => (connId, tag)
  | _ => []

structure TrackedStep (env : Env) (s : BrokerState) (op : Op) : Prop where
  entitled : ∀ d ∈ s.settles op, s.Entitled d.1 d.2
  spares : Run.Along (exec env) (Spares op.closing) s ((handle op : Act env (List Frame)).steps s)

instance (env : Env) (s : BrokerState) (op : Op) : Decidable (TrackedStep env s op) :=
  have : Decidable (∀ d ∈ s.settles op, s.Entitled d.1 d.2) := List.decidableBAll _ _
  decidable_of_iff ((∀ d ∈ s.settles op, s.Entitled d.1 d.2) ∧
    Run.Along (exec env) (Spares op.closing) s ((handle op : Act env (List Frame)).steps s))
    ⟨fun h => ⟨h.1, h.2⟩, fun h => ⟨h.entitled, h.spares⟩⟩

namespace DeliveryView

def registers (v : DeliveryView) : Registers UInt64 String UInt64 where
  index := v.deliveryIndex
  held queue tag := ((v.queue queue).inflight tag).isSome = true
  owned := v.connDeliveries

def Tracked (v : DeliveryView) (leaving : UInt64 → Prop) : Prop :=
  ∃ table, v.registers.Tracks table leaving

theorem registers_hold (v : DeliveryView) (queue : String) (m : Message) (connId : UInt64) :
    (v.hold queue queue m connId).registers = v.registers.enter queue m.id connId := by
  refine Registers.eq_of_held rfl (fun name tag => ?_) rfl
  simp only [registers, hold, track, take, Registers.enter, Function.update_apply]
  by_cases here : name = queue
  · subst here
    by_cases same : tag = m.id <;> simp [same]
  · simp [here]

theorem registers_leave (v : DeliveryView) (queue : String) (tag connId : UInt64) :
    (((v.forget tag).release queue tag).untrack connId tag).registers =
      v.registers.leave queue tag connId := by
  refine Registers.eq_of_held rfl (fun name t => ?_) rfl
  simp only [registers, forget, release, untrack, Registers.leave, Function.update_apply]
  by_cases here : name = queue
  · subst here
    by_cases same : t = tag <;> simp [same]
  · simp [here]

theorem registers_dropQueue (v : DeliveryView) (name : String) :
    (v.dropQueue name).registers = v.registers.drop name := by
  refine Registers.eq_of_held rfl (fun other tag => ?_) rfl
  simp only [registers, dropQueue, Registers.drop, Function.update_apply]
  by_cases here : other = name
  · simp [here, QueueView.missing]
  · simp [here]

theorem registers_requeueConnection (v : DeliveryView) (connId : UInt64) :
    (v.requeueConnection connId).registers = v.registers.release connId := by
  obtain ⟨index, inflight, conns, -⟩ := view_requeueAll
    { v with connDeliveries := Function.update v.connDeliveries connId [] }
    (v.connDeliveries connId)
  refine Registers.eq_of_held (funext index) (fun name tag => ?_) conns
  simp only [registers, requeueConnection, Registers.release, inflight]
  split
  · rename_i listed
    simp [listed]
  · rename_i other
    simp [other]

end DeliveryView

section
variable {env : Env} {s : BrokerState} {closing : Option UInt64} {leaving : UInt64 → Prop}

theorem view_held {s : BrokerState} {queue : String} {tag : UInt64} :
    s.view.registers.held queue tag ↔
      ∃ q ∈ s.queues.get? queue, tag ∈ q.inflight.keys := by
  simp only [DeliveryView.registers, BrokerState.view, BrokerState.queueView]
  cases s.queues.get? queue with
  | none => simp [QueueView.missing]
  | some q => simp [QueueState.view, ← FinMap.contains_iff_mem_keys, FinMap.contains]

theorem view_agrees (s : BrokerState) : s.view.registers.Agree ↔ s.RegistriesAgree := by
  unfold Registers.Agree BrokerState.RegistriesAgree
  refine forall_congr' fun tag => forall_congr' fun queue => ?_
  have held : s.view.registers.held queue tag ↔ s.inFlight queue tag = true := by
    rw [view_held, BrokerState.inFlight]
    cases s.queues.get? queue <;> simp [FinMap.contains_iff_mem_keys]
  rw [held]
  exact Iff.rfl

theorem tracked_hold {v : DeliveryView} (tracked : v.Tracked leaving) {m : Message}
    (fresh : v.deliveryIndex m.id = none) (queue : String) (connId : UInt64) :
    (v.hold queue queue m connId).Tracked leaving := by
  obtain ⟨table, tracks⟩ := tracked
  have free : table m.id = none := by
    have indexed := tracks.index m.id
    change v.deliveryIndex m.id = _ at indexed
    rw [fresh] at indexed
    exact Option.map_eq_none_iff.mp indexed.symm
  have entered := tracks.enter free queue connId
  rw [← DeliveryView.registers_hold] at entered
  exact ⟨_, entered⟩

theorem fresh_of_spares {queue : String} {m : Message}
    (spares : Spares closing s (.pop queue .hold)) (front : s.Fronts env queue m) :
    s.view.deliveryIndex m.id = none := by
  obtain ⟨q, ⟨qm, rest⟩, found, popped, resolved⟩ := front
  rw [QueueMessage.resolve_id resolved]
  exact spares q found (qm, rest) popped

theorem tracked_settle {v : DeliveryView} (tracked : v.Tracked fun _ => False)
    {connId tag : UInt64}
    (entitled : ∀ queue ∈ v.deliveryIndex tag, (queue, tag) ∈ v.connDeliveries connId) :
    (v.settle connId tag).Tracked fun _ => False := by
  obtain ⟨table, tracks⟩ := tracked
  unfold DeliveryView.settle
  cases known : v.known tag with
  | none =>
    have absent : v.deliveryIndex tag = none := by
      cases indexed : v.deliveryIndex tag with
      | none => rfl
      | some queue =>
        have held := ((tracks.agree tag queue).1.mp indexed)
        unfold DeliveryView.known at known
        rw [indexed] at known
        change ((v.queue queue).inflight tag).isSome = true at held
        simp [Option.filter, held] at known
    refine ⟨table, ?_⟩
    have same : (v.forget tag).registers = v.registers := by
      refine Registers.eq_of_held ?_ (fun _ _ => Iff.rfl) rfl
      exact Function.update_eq_self_iff.mpr absent.symm
    dsimp only
    rw [same]
    exact tracks
  | some queue =>
    dsimp only
    have indexed : v.deliveryIndex tag = some queue := by
      unfold DeliveryView.known at known
      exact (Option.filter_eq_some_iff.mp known).1
    have left := tracks.leave (tracks.owned queue tag connId (entitled queue indexed))
    rw [← DeliveryView.registers_leave] at left
    exact ⟨_, left⟩

theorem Drops.tracked {v w : DeliveryView} (drops : Drops (Spares closing) v w)
    (leaves : ∀ connId ∈ closing, leaving connId) (tracked : v.Tracked leaving) :
    w.Tracked leaving := by
  refine drops.invariant (fun v => v.Tracked leaving) ?_ tracked
  rintro s name spares ⟨table, tracks⟩
  have dropped : (s.view.registers.drop name).Tracks table leaving := by
    refine tracks.drop fun tag held => ?_
    obtain ⟨q, found, member⟩ := view_held.mp held
    have own := spares q found tag member
    cases closing with
    | none => cases own
    | some connId => exact ⟨connId, leaves connId rfl, of_decide_eq_true own⟩
  rw [← DeliveryView.registers_dropQueue] at dropped
  exact ⟨table, dropped⟩

theorem settle_index (v : DeliveryView) (connId tag : UInt64) :
    (v.settle connId tag).deliveryIndex = Function.update v.deliveryIndex tag none := by
  unfold DeliveryView.settle
  split <;> rfl

theorem settle_keeps {v : DeliveryView} {connId tag other : UInt64} {queue : String}
    (listed : (queue, other) ∈ v.connDeliveries connId) (differs : other ≠ tag) :
    (queue, other) ∈ (v.settle connId tag).connDeliveries connId := by
  unfold DeliveryView.settle
  split
  · exact listed
  · simp only [DeliveryView.untrack, Function.update_self]
    exact List.mem_filter.mpr ⟨listed, by simpa using differs⟩

theorem tracked_settleAll (connId : UInt64) (tags : List UInt64) {v : DeliveryView}
    (tracked : v.Tracked fun _ => False)
    (entitled : ∀ tag ∈ tags, ∀ queue ∈ v.deliveryIndex tag,
      (queue, tag) ∈ v.connDeliveries connId) :
    (tags.foldl (fun v tag => v.settle connId tag) v).Tracked fun _ => False := by
  induction tags generalizing v with
  | nil => exact tracked
  | cons tag tags ih =>
    refine ih (tracked_settle tracked (entitled tag List.mem_cons_self)) fun other member => ?_
    intro queue indexed
    rw [settle_index, Function.update_apply] at indexed
    split at indexed
    · cases indexed
    · rename_i differs
      exact settle_keeps (entitled other (List.mem_cons_of_mem _ member) queue indexed) differs

theorem Serves.tracked {op : Op} {frames : List Frame} {w : DeliveryView}
    (serves : Serves env (Spares op.closing) s op frames w)
    (entitled : ∀ d ∈ s.settles op, s.Entitled d.1 d.2) (named : s.view.Named)
    (tracked : s.view.Tracked fun _ => False) : w.Tracked fun _ => False := by
  cases serves with
  | quiet | connect | closed | unknown | reopened | opened | channelClose | limited | aborted =>
    exact tracked
  | disconnect connId first rest =>
    rename_i v
    have closed : (s.view.closeConnection connId).Tracked (· = connId) := by
      obtain ⟨table, tracks⟩ := tracked
      exact ⟨table, tracks.weaken fun _ never => never.elim⟩
    have gone := first.tracked (fun _ closes => (Option.some.inj closes).symm) closed
    have back : (v.requeueConnection connId).Tracked (· = connId) := by
      obtain ⟨table, tracks⟩ := gone
      obtain ⟨table', released⟩ := tracks.release
      rw [← DeliveryView.registers_requeueConnection] at released
      exact ⟨table', released.weaken fun _ never => never.elim⟩
    have last : w.Tracked (· = connId) :=
      rest.tracked (fun _ closes => (Option.some.inj closes).symm) back
    have nothing : w.connDeliveries connId = [] := by
      refine rest.invariant (fun v => v.connDeliveries connId = []) (fun _ _ _ h => h) ?_
      have conns := congrArg (fun r => r.owned connId) (v.registers_requeueConnection connId)
      exact conns.trans (v.registers.release_owned connId)
    obtain ⟨table, tracks⟩ := last
    exact ⟨table, tracks.gone nothing⟩
  | dropped frames drops gone =>
    have none : op.closing = none := by cases op <;> cases drops <;> rfl
    exact gone.tracked (by rw [none]; simp) tracked
  | consumed connId channel args subscribe =>
    cases subscribe with
    | failed => exact tracked
    | added =>
      obtain ⟨table, tracks⟩ := tracked
      have same : (s.view.consume args.queue (s.consumerTagFor connId args) connId channel
          args.noAck).registers = s.view.registers := by
        refine Registers.eq_of_held rfl (fun name tag => ?_) rfl
        simp only [DeliveryView.registers, DeliveryView.consume, Function.update_apply]
        split
        · rename_i here
          rw [here]
        · rfl
      rw [← same] at tracks
      exact ⟨table, tracks⟩
  | settled connId channel tag settles =>
    refine tracked_settle (v := s.view.spend connId channel) tracked ?_
    have own : (connId, tag) ∈ s.settles op := by
      cases op <;> cases settles <;> exact List.mem_singleton.mpr rfl
    exact entitled (connId, tag) own
  | fetched connId queue noAck fetch =>
    cases fetch with
    | failed | empty | unacked => exact tracked
    | held m count acks front spares =>
      exact tracked_hold tracked (fresh_of_spares spares front) queue connId
  | committed connId =>
    refine tracked_settleAll connId _ tracked fun tag member => ?_
    exact entitled (connId, tag) (List.mem_map.mpr ⟨tag, member, rfl⟩)
  | delivered queue answers now turns =>
    have both := turns.keeps (fun v => v.Named ∧ v.Tracked fun _ => False) ?_ ⟨named, tracked⟩
    · exact both.2
    rintro v frames w turn ⟨named, tracked⟩
    cases turn with
    | idle | unacked => exact ⟨named, tracked⟩
    | held t c m listed acks front turn room spares =>
      refine ⟨named_hold named queue (t.view.queue queue).nameArc m c.connId, ?_⟩
      rw [named queue]
      exact tracked_hold tracked (fresh_of_spares spares front) queue c.connId
  | restarted =>
    refine ⟨fun _ => none,
      Registers.IsEmpty.tracks ⟨fun _ => rfl, fun _ _ held => ?_, fun _ => rfl⟩ _⟩
    cases held

theorem tracked_step {op : Op} (step : TrackedStep env s op)
    (h : s.view.Named ∧ s.view.Tracked fun _ => False) :
    (served env s op).view.Named ∧ (served env s op).view.Tracked fun _ => False := by
  have serves := serves op step.spares
  exact ⟨serves.named h.1, serves.tracked step.entitled h.1 h.2⟩

/-- The registries agree in every state of a run whose steps are all tracked. -/
theorem registries_agree (env : Env) (auth : AuthBackend) (cluster : Option ClusterCoordinator)
    (ops : List Op)
    (tracked : Run.Along (served env) (TrackedStep env) (install env auth cluster) ops)
    (before after : List Op) (split : ops = before ++ after) :
    (reached env auth cluster before).RegistriesAgree := by
  rw [split, Run.along_append] at tracked
  have start : (install env auth cluster).view.Named ∧
      (install env auth cluster).view.Tracked fun _ => False := by
    refine ⟨fun _ => rfl, fun _ => none,
      Registers.IsEmpty.tracks ⟨fun _ => rfl, ?_, fun _ => rfl⟩ _⟩
    exact fun _ _ held => by cases held
  obtain ⟨-, table, tracks⟩ := Run.invariant
    (fun _ s => s.view.Named ∧ s.view.Tracked fun _ => False) start
    (fun _ _ _ step h => tracked_step step h) tracked.1
  rw [reached_eq_run]
  exact (view_agrees _).mp tracks.agree

/-- A client fetches a message and consumes another one, acknowledges the first and
    leaves. -/
def ownAckRun : List Op := session "q" ++
  [publishTo "q" false [1], publishTo "q" false [2], .basicGet 1 "q" false,
    .basicConsume 1 1 ⟨"q", "t", false, false, false, []⟩, .deliverRound "q" [true, true] 0,
    .basicAck 1 1 1, .disconnect 1]

theorem registries_agree_own_ack :
    (reached (plainEnv 64 1) guestOnly none ownAckRun).RegistriesAgree :=
  registries_agree (plainEnv 64 1) guestOnly none ownAckRun (by decide +kernel) ownAckRun []
    (by rfl)

def strangerAckRun : List Op := session "q" ++
  [publishTo "q" false [1], .basicGet 1 "q" false, .connect "127.0.0.1:50001" "guest" "/",
    .basicAck 2 1 1]

theorem stranger_ack_disagrees :
    ¬ (reached (plainEnv 64 1) guestOnly none strangerAckRun).RegistriesAgree := by
  intro agree
  have index : (reached (plainEnv 64 1) guestOnly none strangerAckRun).deliveryIndex.get? 1 =
      none := by decide +kernel
  have own : (reached (plainEnv 64 1) guestOnly none strangerAckRun).deliveriesOf 1 =
      [("q", 1)] := by decide +kernel
  have conns : (reached (plainEnv 64 1) guestOnly none strangerAckRun).connDeliveries.keys =
      [1] := by decide +kernel
  have once := (agree 1 "q").2.mpr ⟨1, by rw [own]; rfl, fun other differs member => ?_⟩
  · rw [index] at once
    cases once
  · unfold BrokerState.deliveriesOf at member
    cases found :
      (reached (plainEnv 64 1) guestOnly none strangerAckRun).connDeliveries.get? other with
    | none =>
      rw [found] at member
      cases member
    | some ds =>
      have listed := FinMap.mem_keys_iff.mpr ⟨ds, found⟩
      rw [conns] at listed
      exact differs (List.mem_singleton.mp listed)

end
end RocketmqBroker
