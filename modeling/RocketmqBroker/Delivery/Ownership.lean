import RocketmqBroker.Delivery.Outstanding

/-!
Who may settle a delivery. An acknowledgement is looked up by its tag alone, so it
settles whatever is in flight under the tag: that is a message of the channel it
comes on unless the tag was delivered on another one.
-/
namespace RocketmqBroker
open Run.Program

inductive Settlement where
  | ack
  | reject (requeue : Bool)
  | nack (requeue : Bool)
  deriving DecidableEq, Repr

def Settlement.op (connId : UInt64) (channel : UInt16) (tag : UInt64) : Settlement → Op
  | ack => .basicAck connId channel tag
  | reject requeue => .basicReject connId channel tag requeue
  | nack requeue => .basicNack connId channel tag requeue

namespace Observed

def DeliveredOn (o : Observed) (queue : String) (tag connId : UInt64) (channel : UInt16) : Prop :=
  ∃ d ∈ o.outstanding.get? (queue, tag), d.connId = connId ∧ d.channel = channel

/-- A settlement takes a message out of flight only if it was delivered on the channel
    it comes on, and changes nothing when the tag is not one delivered there. -/
structure SettlesOwn (env : Env) (o : Observed) (how : Settlement) (connId : UInt64)
    (channel : UInt16) (tag : UInt64) : Prop where
  own : ∀ queue other, o.broker.inFlight queue other = true →
    (served env o.broker (how.op connId channel tag)).inFlight queue other = false →
    o.DeliveredOn queue other connId channel
  others : (∀ queue, ¬ o.DeliveredOn queue tag connId channel) →
    (served env o.broker (how.op connId channel tag)).queues = o.broker.queues ∧
    (served env o.broker (how.op connId channel tag)).wal = o.broker.wal

/-- What the index knows under the tag is in flight after a delivery on another
    channel or to another connection. -/
def HeldElsewhere (o : Observed) (connId : UInt64) (channel : UInt16) (tag : UInt64) : Prop :=
  ∃ queue ∈ o.broker.deliveryIndex.get? tag, o.broker.inFlight queue tag = true ∧
    ∃ d ∈ o.outstanding.get? (queue, tag), ¬ (d.connId = connId ∧ d.channel = channel)

end Observed

section
variable {env : Env} {s : BrokerState}

theorem view_settlement (how : Settlement) (connId : UInt64) (channel : UInt16) (tag : UInt64) :
    (served env s (how.op connId channel tag)).view =
      (s.view.spend connId channel).settle connId tag := by
  cases how with
  | ack => exact view_basicAck connId channel tag
  | reject requeue => exact view_basicReject connId channel tag requeue
  | nack requeue => exact view_basicNack connId channel tag requeue

theorem settlement_unknown (env : Env) (how : Settlement) (connId : UInt64) (channel : UInt16)
    {tag : UInt64} (unknown : s.view.known tag = none) :
    (served env s (how.op connId channel tag)).queues = s.queues ∧
      (served env s (how.op connId channel tag)).wal = s.wal := by
  have taken : (takeDelivery tag : Act env (Option String)).result
      ((decrementUnacked connId channel : Act env Unit).final s) = none := by
    rw [result_takeDelivery, view_spend]
    exact unknown
  cases how with
  | ack =>
    change ((basicAck connId channel tag : Act env (List Frame)).final s).queues = _ ∧
      ((basicAck connId channel tag : Act env (List Frame)).final s).wal = _
    unfold basicAck
    rw [final_bind, final_bind, taken]
    exact ⟨rfl, rfl⟩
  | reject requeue =>
    change ((basicReject connId channel tag requeue : Act env (List Frame)).final s).queues = _ ∧
      ((basicReject connId channel tag requeue : Act env (List Frame)).final s).wal = _
    unfold basicReject resolveNegativeDelivery
    rw [final_bind, final_bind, final_bind, taken]
    exact ⟨rfl, rfl⟩
  | nack requeue =>
    change ((basicNack connId channel tag requeue : Act env (List Frame)).final s).queues = _ ∧
      ((basicNack connId channel tag requeue : Act env (List Frame)).final s).wal = _
    unfold basicNack resolveNegativeDelivery
    rw [final_bind, final_bind, final_bind, taken]
    exact ⟨rfl, rfl⟩

theorem settlement_known {how : Settlement} {connId : UInt64} {channel : UInt16} {tag : UInt64}
    {queue : String} (known : s.view.known tag = some queue) (name : String) (other : UInt64) :
    (served env s (how.op connId channel tag)).inFlight name other =
      if name = queue ∧ other = tag then false else s.inFlight name other := by
  have known' : (s.view.spend connId channel).known tag = some queue := known
  rw [← view_inflight, ← view_inflight, view_settlement, DeliveryView.inflight_settle known']
  split
  · rfl
  · rfl

end

/-- In every state that a run reaches, a settlement with any tag meets the rule
    exactly when the tag is not one that is in flight elsewhere. -/
theorem settles_own_iff (env : Env) (auth : AuthBackend) (cluster : Option ClusterCoordinator)
    (rs : List Request) (how : Settlement) (connId : UInt64) (channel : UInt16) (tag : UInt64) :
    (Observed.after env auth cluster rs).SettlesOwn env how connId channel tag ↔
      ¬ (Observed.after env auth cluster rs).HeldElsewhere connId channel tag := by
  have covered := Observed.covered_after env auth cluster rs
  generalize Observed.after env auth cluster rs = o at covered
  have known_iff (queue : String) : o.broker.view.known tag = some queue ↔
      o.broker.deliveryIndex.get? tag = some queue ∧ o.broker.inFlight queue tag = true := by
    rw [view_known]
    exact Option.filter_eq_some_iff
  constructor
  · rintro settles ⟨queue, indexed, held, d, found, elsewhere⟩
    have known := (known_iff queue).mpr ⟨indexed, held⟩
    obtain ⟨d', found', here⟩ := settles.own queue tag held (by
      rw [settlement_known known, if_pos ⟨rfl, rfl⟩])
    rw [found] at found'
    obtain rfl := Option.some.inj found'
    exact elsewhere here
  · intro nowhere
    have own (queue : String) (known : o.broker.view.known tag = some queue) :
        o.DeliveredOn queue tag connId channel := by
      obtain ⟨indexed, held⟩ := (known_iff queue).mp known
      obtain ⟨d, found⟩ := Option.isSome_iff_exists.mp (covered queue tag held)
      refine ⟨d, found, Decidable.byContradiction fun elsewhere => ?_⟩
      exact nowhere ⟨queue, indexed, held, d, found, elsewhere⟩
    constructor
    · intro queue other before after
      cases known : o.broker.view.known tag with
      | none =>
        have queues := (settlement_unknown env how connId channel known).1
        unfold BrokerState.inFlight at before after
        rw [queues, before] at after
        cases after
      | some name =>
        rw [settlement_known known] at after
        split at after
        · rename_i here
          obtain ⟨rfl, rfl⟩ := here
          exact own queue known
        · rw [before] at after
          cases after
    · intro others
      refine settlement_unknown env how connId channel ?_
      cases known : o.broker.view.known tag with
      | none => rfl
      | some queue => exact absurd (own queue known) (others queue)

/-- A client fetches the only message of a queue, and another one connects. -/
def fetchedByOne : List Request := Request.onFirstChannel (session "q" ++
  [publishTo "q" false [1], .basicGet 1 "q" false, .connect "127.0.0.1:50001" "guest" "/",
    .channelOpen 2 1])

theorem stranger_settles : ¬ (Observed.after (plainEnv 64 1) guestOnly none fetchedByOne).SettlesOwn
    (plainEnv 64 1) .ack 2 1 1 := by
  intro settles
  have before : (Observed.after (plainEnv 64 1) guestOnly none fetchedByOne).broker.inFlight "q" 1 =
      true := by decide +kernel
  have after : (served (plainEnv 64 1) (Observed.after (plainEnv 64 1) guestOnly none
      fetchedByOne).broker (.basicAck 2 1 1)).inFlight "q" 1 = false := by decide +kernel
  have holder : (Observed.after (plainEnv 64 1) guestOnly none fetchedByOne).outstanding.get?
      ("q", 1) = some ⟨1, 1, 0⟩ := by decide +kernel
  obtain ⟨d, found, here, -⟩ := settles.own "q" 1 before after
  rw [holder] at found
  obtain rfl := Option.some.inj found
  exact absurd here (by decide)

end RocketmqBroker
