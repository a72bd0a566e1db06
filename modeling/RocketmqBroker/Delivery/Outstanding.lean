import RocketmqBroker.Delivery.Served

/-!
What clients have been sent and not settled yet. A request comes on a channel of a
connection, or from no client at all. A delivery that asks for an acknowledgement
is outstanding, under its queue and tag, for as long as its message is in flight.
-/
namespace RocketmqBroker

def Op.client? : Op → Option UInt64
  | channelOpen connId _ => some connId
  | channelClose connId _ => some connId
  | channelFlow connId _ _ => some connId
  | exchangeDeclare connId _ => some connId
  | queueDeclare connId _ _ => some connId
  | queueDelete connId _ _ _ _ => some connId
  | basicPublish connId _ _ _ => some connId
  | basicConsume connId _ _ => some connId
  | basicCancel connId _ _ => some connId
  | basicAck connId _ _ => some connId
  | basicReject connId _ _ _ => some connId
  | basicNack connId _ _ _ => some connId
  | basicGet connId _ _ => some connId
  | basicQos connId _ _ _ => some connId
  | txSelect connId => some connId
  | txCommit connId => some connId
  | txRollback connId => some connId
  | confirmSelect connId _ _ => some connId
  | _ => none

def Op.channel? : Op → Option UInt16
  | channelOpen _ channel => some channel
  | channelClose _ channel => some channel
  | channelFlow _ channel _ => some channel
  | basicPublish _ channel _ _ => some channel
  | basicConsume _ channel _ => some channel
  | basicAck _ channel _ => some channel
  | basicReject _ channel _ _ => some channel
  | basicNack _ channel _ _ => some channel
  | basicQos _ channel _ _ => some channel
  | confirmSelect _ channel _ => some channel
  | _ => none

def Op.isRound : Op → Bool
  | deliverRound _ _ _ => true
  | _ => false

def Op.delivers : Op → Bool
  | deliverRound _ _ _ => true
  | basicGet _ _ _ => true
  | _ => false

structure Request where
  op : Op
  origin : Option (UInt64 × UInt16)
  client : op.client? = none ∨ origin.map Prod.fst = op.client?
  channel : op.channel? = none ∨ origin.map Prod.snd = op.channel?

namespace Request

/-- A request of a client on the channel that it names, or else on this one. -/
def arriving (channel : UInt16) (op : Op) : Request where
  op
  origin := op.client?.map fun connId => (connId, op.channel?.getD channel)
  client := by cases op <;> first | exact .inl rfl | exact .inr rfl
  channel := by cases op <;> first | exact .inl rfl | exact .inr rfl

def onFirstChannel (ops : List Op) : List Request := ops.map (arriving 1)

def channelOf (r : Request) : UInt16 := (r.origin.map Prod.snd).getD 0

end Request

structure Unsettled where
  connId : UInt64
  channel : UInt16
  /-- The prefetch count in force when it was made. -/
  prefetchCount : UInt16
  deriving DecidableEq, Repr

abbrev Deliveries := FinMap (String × UInt64) Unsettled

def BrokerState.inFlight (s : BrokerState) (queue : String) (tag : UInt64) : Bool :=
  (s.queues.get? queue).any fun q => q.inflight.contains tag

def BrokerState.prefetchOf (s : BrokerState) (connId : UInt64) (channel : UInt16) : UInt16 :=
  ((s.channel? connId channel).map (·.prefetchCount)).getD 0

def BrokerState.consumersOf (s : BrokerState) (queue : String) : List Consumer :=
  ((s.queues.get? queue).map (·.activeConsumers)).getD []

namespace Deliveries

/-- One frame of an answer: a delivery to a consumer that acknowledges, or a message
    fetched with the promise to do so. -/
def note (s : BrokerState) (r : Request) (out : Deliveries) (f : Frame) : Deliveries :=
  match r.op, f with
  | .deliverRound queue _ _, .basicDeliver connId channel tag m =>
    if ⟨tag, connId, channel, false⟩ ∈ s.consumersOf queue then
      out.insert (queue, m.id) ⟨connId, channel, s.prefetchOf connId channel⟩
    else out
  | .basicGet connId queue false, .basicGetOk tag _ _ _ _ _ =>
    out.insert (queue, tag) ⟨connId, r.channelOf, s.prefetchOf connId r.channelOf⟩
  | _, _ => out

end Deliveries

theorem silent_of_quiet {op : Op} (quiet : op.isQuiet = true) : op.delivers = false := by
  cases op <;> first | rfl | cases quiet

theorem silent_of_drops {op : Op} (drops : op.drops = true) : op.delivers = false := by
  cases op <;> first | rfl | cases drops

theorem silent_of_settles {op : Op} {d : UInt64 × UInt16 × UInt64}
    (settles : op.settles? = some d) : op.delivers = false := by
  cases op <;> first | rfl | cases settles

structure Observed where
  broker : BrokerState
  outstanding : Deliveries

namespace Observed

def step (env : Env) (o : Observed) (r : Request) : Observed where
  broker := served env o.broker r.op
  outstanding :=
    FinMap.retain ((answer env o.broker r.op).foldl (Deliveries.note o.broker r) o.outstanding)
      fun k _ => (served env o.broker r.op).inFlight k.1 k.2

def start (env : Env) (auth : AuthBackend) (cluster : Option ClusterCoordinator) : Observed :=
  ⟨install env auth cluster, ∅⟩

def after (env : Env) (auth : AuthBackend) (cluster : Option ClusterCoordinator)
    (rs : List Request) : Observed := Run.run (step env) (start env auth cluster) rs

variable {env : Env} {auth : AuthBackend} {cluster : Option ClusterCoordinator}

theorem broker_after (rs : List Request) :
    (after env auth cluster rs).broker = reached env auth cluster (rs.map (·.op)) := by
  rw [reached_eq_run, after]
  suffices general : ∀ o : Observed, (Run.run (step env) o rs).broker =
      Run.run (served env) o.broker (rs.map (·.op)) from general _
  induction rs with
  | nil => exact fun _ => rfl
  | cons r rs ih => exact fun o => ih (step env o r)

end Observed

section
variable {env : Env} {allowed : BrokerState → Effect → Prop} {s : BrokerState}

theorem view_inflight (s : BrokerState) (queue : String) (tag : UInt64) :
    ((s.view.queue queue).inflight tag).isSome = s.inFlight queue tag := by
  simp only [BrokerState.view, BrokerState.queueView, BrokerState.inFlight]
  cases s.queues.get? queue <;> rfl

theorem view_consumers (s : BrokerState) (queue : String) :
    (s.view.queue queue).activeConsumers = s.consumersOf queue := by
  simp only [BrokerState.view, BrokerState.queueView, BrokerState.consumersOf]
  cases s.queues.get? queue <;> rfl

theorem view_limits (s : BrokerState) (connId : UInt64) (channel : UInt16) :
    s.view.limits connId channel =
      (s.channel? connId channel).map fun ch => (ch.prefetchCount, ch.unackedCount) := rfl

theorem view_known (s : BrokerState) (tag : UInt64) :
    s.view.known tag = (s.deliveryIndex.get? tag).filter fun queue => s.inFlight queue tag := by
  unfold DeliveryView.known
  congr 1
  funext queue
  exact view_inflight s queue tag

namespace DeliveryView

/-- Nothing is in flight in one state that is not in flight in the other. -/
def Within (w v : DeliveryView) : Prop :=
  ∀ queue tag, ((w.queue queue).inflight tag).isSome = true →
    ((v.queue queue).inflight tag).isSome = true

theorem within_refl (v : DeliveryView) : v.Within v := fun _ _ h => h

theorem within_release (v : DeliveryView) (queue : String) (tag : UInt64) :
    (v.release queue tag).Within v := by
  intro name t held
  rw [inflight_release] at held
  split at held
  · cases held
  · exact held

theorem within_settle (v : DeliveryView) (connId tag : UInt64) :
    (v.settle connId tag).Within v := by
  unfold settle
  split
  · exact within_refl v
  · exact within_release (v.forget tag) _ tag

theorem within_requeueAll (v : DeliveryView) (deliveries : List (String × UInt64)) :
    (v.requeueAll deliveries).Within v := by
  unfold requeueAll
  induction deliveries generalizing v with
  | nil => exact within_refl v
  | cons d ds ih =>
    intro queue tag held
    exact within_release (v.forget d.2) d.1 d.2 queue tag (ih _ queue tag held)

theorem within_requeueConnection (v : DeliveryView) (connId : UInt64) :
    ((v.requeueConnection connId).dropListeners connId).Within v :=
  within_requeueAll { v with connDeliveries := Function.update v.connDeliveries connId [] } _

theorem of_take {v : DeliveryView} {name queue : String} {tag : UInt64} {m : Message}
    (held : (((v.take name m).queue queue).inflight tag).isSome = true) :
    (queue = name ∧ tag = m.id) ∨ ((v.queue queue).inflight tag).isSome = true := by
  simp only [take, Function.update_apply] at held
  by_cases here : queue = name
  · subst here
    by_cases same : tag = m.id
    · exact .inl ⟨rfl, same⟩
    · exact .inr (by simpa [same] using held)
  · exact .inr (by simpa [here] using held)

theorem within_dropQueue (v : DeliveryView) (name : String) : (v.dropQueue name).Within v := by
  intro queue tag
  simp only [dropQueue, Function.update_apply]
  by_cases here : queue = name <;> simp [here, QueueView.missing]

theorem within_consume (v : DeliveryView) (queue tag : String) (connId : UInt64)
    (channel : UInt16) (noAck : Bool) :
    (v.consume queue tag connId channel noAck).Within v := by
  intro name t
  simp only [consume, Function.update_apply]
  by_cases here : name = queue <;> simp [here]

end DeliveryView

theorem Drops.within {allowed : BrokerState → Effect → Prop} {v w : DeliveryView}
    (drops : Drops allowed v w) : w.Within v := by
  refine drops.invariant (fun u => u.Within v) ?_ (v.within_refl)
  intro s name _ within queue tag held
  exact within queue tag (s.view.within_dropQueue name queue tag held)

namespace Deliveries
variable {s : BrokerState} {r : Request}

theorem note_silent {r : Request} (silent : r.op.delivers = false) (out : Deliveries) (f : Frame) :
    note s r out f = out := by
  unfold note
  split
  · rename_i same
    rw [same] at silent
    cases silent
  · rename_i same
    rw [same] at silent
    cases silent
  · rfl

theorem foldl_note_silent {r : Request} (silent : r.op.delivers = false) (frames : List Frame)
    (out : Deliveries) : frames.foldl (note s r) out = out := by
  induction frames generalizing out with
  | nil => rfl
  | cons f fs ih => rw [List.foldl_cons, note_silent silent, ih]

theorem note_keeps {out : Deliveries} {k : String × UInt64} (known : (out.get? k).isSome = true)
    (f : Frame) : ((note s r out f).get? k).isSome = true := by
  have inserted (k' : String × UInt64) (d : Unsettled) :
      ((out.insert k' d).get? k).isSome = true := by
    rw [FinMap.get?_insert]
    split
    · rfl
    · exact known
  unfold note
  split
  · split
    · exact inserted _ _
    · exact known
  · exact inserted _ _
  · exact known

theorem foldl_note_keeps {out : Deliveries} {k : String × UInt64}
    (known : (out.get? k).isSome = true) (frames : List Frame) :
    ((frames.foldl (note s r) out).get? k).isSome = true := by
  induction frames generalizing out with
  | nil => exact known
  | cons f fs ih => exact ih (note_keeps known f)

end Deliveries

def Observed.Covered (o : Observed) : Prop :=
  ∀ queue tag, o.broker.inFlight queue tag = true →
    (o.outstanding.get? (queue, tag)).isSome = true

section
variable {env : Env} {allowed : BrokerState → Effect → Prop} {s : BrokerState}

theorem Serves.covers {r : Request} {frames : List Frame} {w : DeliveryView}
    (serves : Serves env allowed s r.op frames w) (out : Deliveries)
    (covered : ∀ queue tag, ((s.view.queue queue).inflight tag).isSome = true →
      (out.get? (queue, tag)).isSome = true) (queue : String) (tag : UInt64)
    (held : ((w.queue queue).inflight tag).isSome = true) :
    ((frames.foldl (Deliveries.note s r) out).get? (queue, tag)).isSome = true := by
  have old (before : ((s.view.queue queue).inflight tag).isSome = true) :
      ((frames.foldl (Deliveries.note s r) out).get? (queue, tag)).isSome = true :=
    Deliveries.foldl_note_keeps (covered queue tag before) frames
  generalize op : r.op = asked at serves
  cases serves with
  | quiet | connect | closed | unknown | reopened | opened | channelClose | limited | aborted =>
    exact old held
  | disconnect connId first rest =>
    refine old (first.within queue tag ?_)
    exact DeliveryView.within_requeueConnection _ connId queue tag (rest.within queue tag held)
  | dropped frames drops gone => exact old (gone.within queue tag held)
  | consumed connId channel args subscribe =>
    cases subscribe with
    | failed => exact old held
    | added => exact old (DeliveryView.within_consume _ _ _ _ _ _ queue tag held)
  | settled connId channel tag' =>
    exact old (DeliveryView.within_settle (s.view.spend connId channel) connId tag' queue tag held)
  | fetched connId name noAck fetch =>
    cases fetch with
    | failed | empty | unacked => exact old held
    | held m count acks =>
      subst acks
      cases DeliveryView.of_take held with
      | inr before => exact old before
      | inl new =>
        simp [Deliveries.note, op, new]
  | committed connId =>
    refine old ?_
    generalize s.bufferedAcks connId = tags at held
    revert held
    generalize s.view = v
    induction tags generalizing v with
    | nil => exact id
    | cons t ts ih =>
      intro held
      exact DeliveryView.within_settle v connId t queue tag (ih _ held)
  | delivered name answers now turns =>
    refine turns.invariant (fun (out : Deliveries) v => ∀ queue tag,
      ((v.queue queue).inflight tag).isSome = true → (out.get? (queue, tag)).isSome = true)
      (Deliveries.note s r) ?_ out covered queue tag held
    intro out v frames w turn covered queue tag held
    cases turn with
    | idle => exact covered queue tag held
    | unacked => exact Deliveries.foldl_note_keeps (covered queue tag held) _
    | held t c m listed acks =>
      rw [view_consumers] at listed
      have here : (⟨c.tag, c.connId, c.channel, false⟩ : Consumer) ∈ s.consumersOf name := by
        rw [← acks]
        exact listed
      cases DeliveryView.of_take held with
      | inr before => exact Deliveries.foldl_note_keeps (covered queue tag before) _
      | inl new => simp [Deliveries.note, op, here, new]
  | restarted => cases held

end

namespace Observed
variable {env : Env}

theorem outstanding_step (o : Observed) (r : Request) (k : String × UInt64) :
    (o.step env r).outstanding.get? k =
      (((answer env o.broker r.op).foldl (Deliveries.note o.broker r) o.outstanding).get? k).filter
        fun _ => (served env o.broker r.op).inFlight k.1 k.2 := FinMap.get?_retain _ _ k

theorem covered_step {o : Observed} (covered : o.Covered) (r : Request) :
    (o.step env r).Covered := by
  intro queue tag held
  change (served env o.broker r.op).inFlight queue tag = true at held
  have noted := (serves_any env o.broker r.op).covers o.outstanding
    (fun queue tag before => covered queue tag (by rwa [← view_inflight]))
    queue tag (by rwa [view_inflight])
  rw [outstanding_step]
  obtain ⟨d, found⟩ := Option.isSome_iff_exists.mp noted
  rw [found, Option.filter_some, if_pos held]
  rfl

theorem covered_after (env : Env) (auth : AuthBackend) (cluster : Option ClusterCoordinator)
    (rs : List Request) : (after env auth cluster rs).Covered := by
  refine Run.invariant (fun _ => Covered) ?_ (fun _ o r _ covered => covered_step covered r)
    (Run.along_true _ _)
  intro queue tag held
  cases held

end Observed

end
end RocketmqBroker
