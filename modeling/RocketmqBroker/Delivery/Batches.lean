import RocketmqBroker.Delivery.Ownership
import RocketmqBroker.Protocol.Codec

/-!
Acknowledgements with the multiple flag. The handlers read it and settle the one delivery that the
tag is indexed under, so that the method does what it says when it asks for no other one.
-/
namespace RocketmqBroker
open Run.Program
open ByteReader

/-- The tag and the flags of Basic.Ack and Basic.Nack. What cannot be read is zero. -/
def parseSettleArgs (args : Bytes) : UInt64 × UInt8 :=
  let read := readWord 8 args
  (UInt64.ofNat ((read.map Prod.fst).getD 0), ((read.map Prod.snd).getD []).headD 0)

inductive SettleMethod where
  | ack (args : Bytes)
  | nack (args : Bytes)
  deriving DecidableEq, Repr

namespace SettleMethod

def args : SettleMethod → Bytes
  | ack args => args
  | nack args => args

def deliveryTag (m : SettleMethod) : UInt64 := (parseSettleArgs m.args).1

def multiple (m : SettleMethod) : Bool := (parseSettleArgs m.args).2 &&& 0x01 != 0

/-- `handle_ack` and `handle_nack`, which do not look at `_multiple`. -/
def settlement : SettleMethod → Settlement
  | ack _ => .ack
  | nack args => .nack ((parseSettleArgs args).2 &&& 0x02 != 0)

def op (m : SettleMethod) (connId : UInt64) (channel : UInt16) : Op :=
  m.settlement.op connId channel m.deliveryTag

/-- The tags that the method is about: one, or all up to one, or all. -/
def AsksFor (m : SettleMethod) (tag : UInt64) : Prop :=
  if m.multiple then m.deliveryTag = 0 ∨ tag ≤ m.deliveryTag else tag = m.deliveryTag

instance (m : SettleMethod) (tag : UInt64) : Decidable (m.AsksFor tag) :=
  inferInstanceAs (Decidable (if m.multiple then _ else _))

theorem asksFor_deliveryTag (m : SettleMethod) : m.AsksFor m.deliveryTag := by
  unfold AsksFor
  split
  · exact .inr (UInt64.le_refl _)
  · rfl

end SettleMethod

namespace Observed
variable (env : Env) (o : Observed) (m : SettleMethod) (connId : UInt64) (channel : UInt16)

/-- The method settles what it asks for of the deliveries of its channel, and nothing else; a Nack
    that requeues has each of them ready again. -/
structure SettlesBatch : Prop where
  every : ∀ queue tag, o.DeliveredOn queue tag connId channel → m.AsksFor tag →
    (served env o.broker (m.op connId channel)).inFlight queue tag = false
  others : ∀ queue tag, o.broker.inFlight queue tag = true →
    (served env o.broker (m.op connId channel)).inFlight queue tag = false →
    m.AsksFor tag ∧ (m.multiple = true → o.DeliveredOn queue tag connId channel)
  requeued : m.settlement = .nack true → ∀ queue tag, o.DeliveredOn queue tag connId channel →
    m.AsksFor tag → ∀ q, o.broker.queues.get? queue = some q → ∀ msg,
      q.inflight.get? tag = some msg →
      ∃ q', (served env o.broker (m.op connId channel)).queues.get? queue = some q' ∧
        .full { msg with redelivered := true, deliveryCount := msg.deliveryCount + 1 } ∈
          q'.messages.ready

/-- Of the deliveries of its channel the method asks for none but the one under its own tag, which
    the index knows; and with the flag that tag is not in flight elsewhere. -/
structure AsksForOne : Prop where
  alone : ∀ queue tag, o.DeliveredOn queue tag connId channel → m.AsksFor tag →
    tag = m.deliveryTag ∧ o.broker.deliveryIndex.get? tag = some queue
  own : m.multiple = true → ¬ o.HeldElsewhere connId channel m.deliveryTag

end Observed

def Observed.Current (o : Observed) : Prop :=
  ∀ queue tag, (o.outstanding.get? (queue, tag)).isSome = true →
    o.broker.inFlight queue tag = true

theorem current_step {env : Env} (o : Observed) (r : Request) : (o.step env r).Current := by
  intro queue tag found
  obtain ⟨d, noted⟩ := Option.isSome_iff_exists.mp found
  rw [Observed.outstanding_step] at noted
  exact (Option.filter_eq_some_iff.mp noted).2

theorem current_after (env : Env) (auth : AuthBackend) (cluster : Option ClusterCoordinator)
    (rs : List Request) : (Observed.after env auth cluster rs).Current := by
  refine Run.invariant (fun _ => Observed.Current) ?_ (fun _ o r _ _ => current_step o r)
    (Run.along_true _ _)
  intro queue tag found
  cases found

section
variable {env : Env} {s : BrokerState} {connId : UInt64} {channel : UInt16} {queue : String}
  {tag : UInt64}

theorem leaves_change (b : Bookkeeping) : Leaves BrokerState.queues (change b : Act env Unit) :=
  leaves_perform fun t => (exec_memory env t (.books b)).1.trans (b.queues t)

theorem requeued_known (known : s.view.known tag = some queue) :
    (served env s (.basicNack connId channel tag true)).queues =
      s.queues.modify queue (·.putBack tag true) := by
  have taken : (takeDelivery tag : Act env (Option String)).result
      ((decrementUnacked connId channel : Act env Unit).final s) = some queue := by
    rw [result_takeDelivery, view_spend]
    exact known
  change ((basicNack connId channel tag true : Act env (List Frame)).final s).queues = _
  unfold basicNack resolveNegativeDelivery
  rw [final_bind, final_bind, final_bind, taken]
  dsimp only
  rw [final_bind, final_pure]
  have spent : Leaves BrokerState.queues (decrementUnacked connId channel : Act env Unit) :=
    leaves_change _
  have looked : Leaves BrokerState.queues (takeDelivery tag : Act env (Option String)) :=
    (leaves_read _).bind fun _ => (leaves_change _).bind fun _ => leaves_read _
  have untracked : Leaves BrokerState.queues (untrackDelivery connId tag : Act env Unit) :=
    leaves_change _
  refine (exec_memory env _ (.requeue queue tag true)).1.trans ?_
  unfold Effect.inMemory BrokerState.modifyQueue
  dsimp only
  rw [untracked, looked, spent]

theorem putBack_ready {q : QueueState} {msg : Message} (held : q.inflight.get? tag = some msg) :
    .full { msg with redelivered := true, deliveryCount := msg.deliveryCount + 1 } ∈
      (q.putBack tag true).messages.ready := by
  obtain ⟨front, back, -, after, -⟩ := PriorityQueue.ready_pushFront q.messages
    (.full { msg with redelivered := true, deliveryCount := msg.deliveryCount + 1 })
  unfold QueueState.putBack
  rw [held]
  dsimp only
  rw [if_pos rfl, after]
  exact List.mem_append_right _ List.mem_cons_self

theorem view_known_iff : s.view.known tag = some queue ↔
    s.deliveryIndex.get? tag = some queue ∧ s.inFlight queue tag = true := by
  rw [view_known]
  exact Option.filter_eq_some_iff

theorem settled_own {m : SettleMethod} (before : s.inFlight queue tag = true)
    (after : (served env s (m.op connId channel)).inFlight queue tag = false) :
    tag = m.deliveryTag ∧ s.deliveryIndex.get? tag = some queue := by
  cases known : s.view.known m.deliveryTag with
  | none =>
    have queues := (settlement_unknown env m.settlement connId channel known).1
    unfold BrokerState.inFlight at before after
    rw [SettleMethod.op, queues, before] at after
    cases after
  | some name =>
    rw [SettleMethod.op, settlement_known known] at after
    split at after
    · rename_i here
      obtain ⟨rfl, rfl⟩ := here
      exact ⟨rfl, (view_known_iff.mp known).1⟩
    · rw [before] at after
      cases after

theorem own_settled {m : SettleMethod} (indexed : s.deliveryIndex.get? m.deliveryTag = some queue)
    (before : s.inFlight queue m.deliveryTag = true) :
    (served env s (m.op connId channel)).inFlight queue m.deliveryTag = false := by
  rw [SettleMethod.op, settlement_known (view_known_iff.mpr ⟨indexed, before⟩), if_pos ⟨rfl, rfl⟩]

end

section
variable {env : Env} {o : Observed} {m : SettleMethod} {connId : UInt64} {channel : UInt16}

theorem Observed.Current.held (current : o.Current) {queue : String} {tag : UInt64}
    (there : o.DeliveredOn queue tag connId channel) : o.broker.inFlight queue tag = true := by
  obtain ⟨d, found, -⟩ := there
  exact current queue tag (Option.isSome_of_mem found)

theorem asksForOne_of_settles (current : o.Current)
    (settles : o.SettlesBatch env m connId channel) : o.AsksForOne m connId channel where
  alone queue tag there asked :=
    settled_own (current.held there) (settles.every queue tag there asked)
  own := by
    rintro flagged ⟨queue, indexed, before, d, found, elsewhere⟩
    have gone := @own_settled env o.broker connId channel queue m indexed before
    obtain ⟨d', found', here⟩ := (settles.others queue m.deliveryTag before gone).2 flagged
    rw [found] at found'
    obtain rfl := Option.some.inj found'
    exact elsewhere here

theorem settles_of_asksForOne (current : o.Current) (covered : o.Covered)
    (one : o.AsksForOne m connId channel) : o.SettlesBatch env m connId channel where
  every queue tag there asked := by
    obtain ⟨rfl, indexed⟩ := one.alone queue tag there asked
    exact own_settled indexed (current.held there)
  others queue tag before after := by
    obtain ⟨rfl, indexed⟩ := settled_own before after
    refine ⟨m.asksFor_deliveryTag, fun flagged => ?_⟩
    obtain ⟨d, found⟩ := Option.isSome_iff_exists.mp (covered queue m.deliveryTag before)
    refine ⟨d, found, Decidable.byContradiction fun elsewhere => ?_⟩
    exact one.own flagged ⟨queue, indexed, before, d, found, elsewhere⟩
  requeued requeues queue tag there asked q found msg inflight := by
    obtain ⟨rfl, indexed⟩ := one.alone queue tag there asked
    have queues : (served env o.broker (m.op connId channel)).queues =
        o.broker.queues.modify queue (·.putBack m.deliveryTag true) := by
      rw [SettleMethod.op, requeues]
      exact requeued_known (view_known_iff.mpr ⟨indexed, current.held there⟩)
    refine ⟨q.putBack m.deliveryTag true, ?_, putBack_ready inflight⟩
    rw [queues, FinMap.get?_modify, if_pos rfl, found]
    rfl

end

/-- In every state that a run reaches, the method meets the rule exactly when it asks for no
    delivery but the one of its tag. -/
theorem settles_batch_iff (env : Env) (auth : AuthBackend) (cluster : Option ClusterCoordinator)
    (rs : List Request) (m : SettleMethod) (connId : UInt64) (channel : UInt16) :
    (Observed.after env auth cluster rs).SettlesBatch env m connId channel ↔
      (Observed.after env auth cluster rs).AsksForOne m connId channel := by
  have covered := Observed.covered_after env auth cluster rs
  have current := current_after env auth cluster rs
  exact ⟨asksForOne_of_settles current, settles_of_asksForOne current covered⟩

/-- Two messages delivered to a consumer, none of them settled. -/
def deliveredTwo : List Request := Request.onFirstChannel (session "q" ++
  [publishTo "q" false [1], publishTo "q" false [2],
    .basicConsume 1 1 ⟨"q", "t", false, false, false, []⟩, .deliverRound "q" [true, true] 0])

/-- The first of them is still in flight after an Ack of both, and after a Nack of all. -/
theorem first_left_in_flight :
    ¬ (Observed.after (plainEnv 64 1) guestOnly none deliveredTwo).SettlesBatch (plainEnv 64 1)
      (.ack (BigEndian.toBeBytes 8 2 ++ [0x01])) 1 1 ∧
    ¬ (Observed.after (plainEnv 64 1) guestOnly none deliveredTwo).SettlesBatch (plainEnv 64 1)
      (.nack (BigEndian.toBeBytes 8 0 ++ [0x03])) 1 1 := by
  have delivered : (Observed.after (plainEnv 64 1) guestOnly none deliveredTwo).DeliveredOn "q" 1 1
      1 := ⟨⟨1, 1, 0⟩, by decide +kernel, rfl, rfl⟩
  constructor
  · intro settles
    have left := settles.every "q" 1 delivered (by decide)
    exact absurd left (by decide +kernel)
  · intro settles
    have left := settles.every "q" 1 delivered (by decide)
    exact absurd left (by decide +kernel)

end RocketmqBroker
