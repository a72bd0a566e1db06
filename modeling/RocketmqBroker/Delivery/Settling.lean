import RocketmqBroker.Delivery.Rounds

/-!
What the other requests do to the registries: acknowledgements of either kind,
Basic.Get, consuming, channels that open and close, queues and connections that go.
-/
namespace RocketmqBroker
open Run.Program

namespace DeliveryView

def known (v : DeliveryView) (tag : UInt64) : Option String :=
  (v.deliveryIndex tag).filter fun queue => ((v.queue queue).inflight tag).isSome

def forget (v : DeliveryView) (tag : UInt64) : DeliveryView :=
  { v with deliveryIndex := Function.update v.deliveryIndex tag none }

def release (v : DeliveryView) (queue : String) (tag : UInt64) : DeliveryView :=
  { v with queue := Function.update v.queue queue { v.queue queue with
      inflight := Function.update (v.queue queue).inflight tag none } }

def untrack (v : DeliveryView) (connId tag : UInt64) : DeliveryView :=
  { v with
    connDeliveries := Function.update v.connDeliveries connId
      ((v.connDeliveries connId).filter fun d => d.2 != tag) }

/-- A tag is settled by a connection, whoever the message went to. -/
def settle (v : DeliveryView) (connId tag : UInt64) : DeliveryView :=
  match v.known tag with
  | none => v.forget tag
  | some queue => ((v.forget tag).release queue tag).untrack connId tag

def spend (v : DeliveryView) (connId : UInt64) (channel : UInt16) : DeliveryView :=
  { v with limits := fun c h =>
      if c = connId ∧ h = channel then
        (v.limits c h).map fun l => (l.1, if l.2 > 0 then l.2 - 1 else l.2)
      else v.limits c h }

def dropQueue (v : DeliveryView) (queue : String) : DeliveryView :=
  { v with queue := Function.update v.queue queue (.missing queue) }

def closeConnection (v : DeliveryView) (connId : UInt64) : DeliveryView :=
  { v with limits := fun c h => if c = connId then none else v.limits c h }

def closeChannel (v : DeliveryView) (connId : UInt64) (channel : UInt16) : DeliveryView :=
  { v with limits := fun c h => if c = connId ∧ h = channel then none else v.limits c h }

def openChannel (v : DeliveryView) (connId : UInt64) (channel : UInt16) : DeliveryView :=
  { v with limits := fun c h => if c = connId ∧ h = channel then some (0, 0) else v.limits c h }

/-- Another prefetch count for one channel or for all of a connection. -/
def limit (v : DeliveryView) (connId : UInt64) (channel prefetchCount : UInt16)
    (globally : Bool) : DeliveryView :=
  { v with limits := fun c h =>
      if c = connId ∧ (globally = true ∨ h = channel) then
        (v.limits c h).map fun l => (prefetchCount, l.2)
      else v.limits c h }

def requeueAll (v : DeliveryView) (deliveries : List (String × UInt64)) : DeliveryView :=
  deliveries.foldl (fun v d => (v.forget d.2).release d.1 d.2) v

def requeueConnection (v : DeliveryView) (connId : UInt64) : DeliveryView :=
  requeueAll { v with connDeliveries := Function.update v.connDeliveries connId [] }
    (v.connDeliveries connId)

def dropListeners (v : DeliveryView) (connId : UInt64) : DeliveryView :=
  { v with queue := fun name => { v.queue name with
      listeners := (v.queue name).listeners.filter fun l => l.1 != connId
      consumerTags := (v.queue name).consumerTags.retain fun _ c => c.1 != connId } }

def consume (v : DeliveryView) (queue tag : String) (connId : UInt64) (channel : UInt16)
    (noAck : Bool) : DeliveryView :=
  let q := v.queue queue
  let consumerTags := q.consumerTags.insert tag (connId, channel, noAck)
  { v with queue := Function.update v.queue queue { q with
      listeners :=
        if q.listeners.contains (connId, channel) then q.listeners
        else q.listeners ++ [(connId, channel)]
      consumerTags
      activeConsumers := QueueState.snapshotConsumers consumerTags } }

theorem inflight_release (v : DeliveryView) (queue : String) (tag : UInt64) (name : String)
    (other : UInt64) : ((v.release queue tag).queue name).inflight other =
      if name = queue ∧ other = tag then none else (v.queue name).inflight other := by
  simp only [release, Function.update_apply]
  by_cases here : name = queue
  · subst here
    by_cases same : other = tag <;> simp [same]
  · simp [here]

theorem settle_known {v : DeliveryView} {tag : UInt64} {queue : String}
    (known : v.known tag = some queue) (connId : UInt64) :
    v.settle connId tag = ((v.forget tag).release queue tag).untrack connId tag := by
  unfold settle
  rw [known]

theorem inflight_settle {v : DeliveryView} {tag : UInt64} {queue : String}
    (known : v.known tag = some queue) (connId : UInt64) (name : String) (other : UInt64) :
    ((v.settle connId tag).queue name).inflight other =
      if name = queue ∧ other = tag then none else (v.queue name).inflight other := by
  rw [settle_known known]
  exact inflight_release (v.forget tag) queue tag name other

end DeliveryView

def Effect.releases : Effect → Option (String × UInt64)
  | settle queue tag => some (queue, tag)
  | discard queue tag => some (queue, tag)
  | requeue queue tag _ => some (queue, tag)
  | _ => none

section
variable {env : Env} {s : BrokerState}

theorem view_modifyQueue_eq {queue : String} {f : QueueState → QueueState}
    {g : QueueView → QueueView} (same : ∀ q, (f q).view = g q.view)
    (missing : g (.missing queue) = .missing queue) :
    (s.modifyQueue queue f).view =
      { s.view with queue := Function.update s.view.queue queue (g (s.view.queue queue)) } := by
  have queues : (s.modifyQueue queue f).queueView =
      Function.update s.queueView queue (g (s.queueView queue)) := by
    funext name
    rw [queueView_modifyQueue, Function.update_apply]
    split
    · unfold BrokerState.queueView
      cases s.queues.get? queue with
      | none => exact missing.symm
      | some q => exact same q
    · rfl
  unfold BrokerState.view
  rw [queues]
  rfl

theorem view_release {e : Effect} {queue : String} {tag : UInt64}
    (releases : e.releases = some (queue, tag)) :
    (exec env s e).view = s.view.release queue tag := by
  have missing : { QueueView.missing queue with
      inflight := Function.update (QueueView.missing queue).inflight tag none } =
      QueueView.missing queue := by
    unfold QueueView.missing
    rw [Function.update_eq_self_iff.mpr rfl]
  have erased (q : QueueState) : (q.release tag).view =
      { q.view with inflight := Function.update q.view.inflight tag none } := by
    unfold QueueState.view QueueState.release
    congr 1
    funext t
    rw [FinMap.get?_erase, Function.update_apply]
  have putBack (q : QueueState) (counted : Bool) : (q.putBack tag counted).view =
      { q.view with inflight := Function.update q.view.inflight tag none } := by
    unfold QueueState.putBack
    split
    · rename_i absent
      unfold QueueState.view
      rw [Function.update_eq_self_iff.mpr absent.symm]
    · exact erased q
  rw [view_inMemory]
  cases e with
  | settle queue' tag' | discard queue' tag' =>
    obtain ⟨rfl, rfl⟩ := Prod.mk.inj (Option.some.inj releases)
    exact view_modifyQueue_eq (g := fun q => { q with
      inflight := Function.update q.inflight tag' none }) erased missing
  | requeue queue' tag' counted =>
    obtain ⟨rfl, rfl⟩ := Prod.mk.inj (Option.some.inj releases)
    exact view_modifyQueue_eq (g := fun q => { q with
      inflight := Function.update q.inflight tag' none }) (fun q => putBack q counted) missing
  | _ => cases releases

theorem view_removeQueue (name : String) :
    (exec env s (.removeQueue name)).view = s.view.dropQueue name := by
  rw [view_inMemory]
  have queues : BrokerState.queueView { s with queues := s.queues.erase name } =
      Function.update s.queueView name (.missing name) := by
    funext other
    unfold BrokerState.queueView
    simp only [FinMap.get?_erase, Function.update_apply]
    split
    · rename_i same
      rw [same]
      rfl
    · rfl
  change BrokerState.view { s with queues := s.queues.erase name } = _
  unfold BrokerState.view
  rw [queues]
  rfl

theorem view_forget (tag : UInt64) :
    BrokerState.view { s with deliveryIndex := s.deliveryIndex.erase tag } =
      s.view.forget tag := by
  unfold BrokerState.view DeliveryView.forget
  congr 1
  funext t
  rw [FinMap.get?_erase, Function.update_apply]

theorem view_untrack (connId tag : UInt64) :
    ((untrackDelivery connId tag : Act env Unit).final s).view = s.view.untrack connId tag := by
  change (exec env s (.books _)).view = _
  rw [view_inMemory]
  change BrokerState.view { s with
    connDeliveries := s.connDeliveries.modify connId (List.filter fun d => d.2 != tag) } = _
  unfold BrokerState.view DeliveryView.untrack
  congr 1
  funext c
  rw [FinMap.get?_modify, Function.update_apply]
  split
  · dsimp only
    cases s.connDeliveries.get? connId <;> rfl
  · rfl

theorem view_spend (connId : UInt64) (channel : UInt16) :
    ((decrementUnacked connId channel : Act env Unit).final s).view =
      s.view.spend connId channel := by
  change (exec env s (.books _)).view = _
  rw [view_inMemory]
  change (s.modifyChannel connId channel _).view = _
  have limits (f : ChannelState → ChannelState) (g : UInt16 × UInt16 → UInt16 × UInt16)
      (same : ∀ ch, ((f ch).prefetchCount, (f ch).unackedCount) =
        g (ch.prefetchCount, ch.unackedCount)) :
      (s.modifyChannel connId channel f).limits = fun c h =>
        if c = connId ∧ h = channel then (s.limits c h).map g else s.limits c h := by
    funext c h
    unfold BrokerState.limits
    rw [channel?_modifyChannel]
    split
    · rename_i here
      obtain ⟨rfl, rfl⟩ := here
      cases s.channel? c h <;> simp [same]
    · rfl
  unfold BrokerState.view
  rw [limits _ (fun l => (l.1, if l.2 > 0 then l.2 - 1 else l.2)) fun ch => by split <;> rfl]
  rfl

theorem view_takeDelivery (tag : UInt64) :
    ((takeDelivery tag : Act env (Option String)).final s).view = s.view.forget tag := by
  change (exec env s (.books _)).view = _
  rw [view_inMemory]
  exact view_forget tag

theorem result_takeDelivery (tag : UInt64) :
    (takeDelivery tag : Act env (Option String)).result s = s.view.known tag := by
  change (s.deliveryIndex.get? tag).filter (fun name =>
    (s.queues.get? name).any fun q => q.inflight.contains tag) = _
  unfold DeliveryView.known
  congr 1
  funext name
  change _ = ((s.queueView name).inflight tag).isSome
  unfold BrokerState.queueView
  cases s.queues.get? name <;> rfl

theorem view_basicAck (connId : UInt64) (channel : UInt16) (tag : UInt64) :
    ((basicAck connId channel tag : Act env (List Frame)).final s).view =
      (s.view.spend connId channel).settle connId tag := by
  unfold basicAck
  rw [final_bind, final_bind, result_takeDelivery, view_spend]
  unfold DeliveryView.settle
  cases (s.view.spend connId channel).known tag with
  | none =>
    change ((takeDelivery tag : Act env _).final _).view = _
    rw [view_takeDelivery, view_spend]
  | some queue =>
    dsimp only
    rw [final_bind, final_bind, final_pure, view_untrack]
    change (exec env _ (.settle queue tag)).view.untrack _ _ = _
    rw [view_release rfl, view_takeDelivery, view_spend]

theorem view_resolveNegativeDelivery (connId tag : UInt64) (requeue : Bool) :
    ((resolveNegativeDelivery connId tag requeue : Act env Unit).final s).view =
      s.view.settle connId tag := by
  unfold resolveNegativeDelivery
  rw [final_bind, result_takeDelivery]
  unfold DeliveryView.settle
  cases s.view.known tag with
  | none => exact view_takeDelivery tag
  | some queue =>
    dsimp only
    rw [final_bind]
    have released (e : Effect) (releases : e.releases = some (queue, tag)) :
        ((perform e : Act env Unit).final ((untrackDelivery connId tag : Act env Unit).final
          ((takeDelivery tag : Act env _).final s))).view =
        ((s.view.forget tag).release queue tag).untrack connId tag := by
      change (exec env _ e).view = _
      rw [view_release releases, view_untrack, view_takeDelivery]
      rfl
    split
    · exact released _ rfl
    · exact released _ rfl

theorem view_basicReject (connId : UInt64) (channel : UInt16) (tag : UInt64) (requeue : Bool) :
    ((basicReject connId channel tag requeue : Act env (List Frame)).final s).view =
      (s.view.spend connId channel).settle connId tag := by
  unfold basicReject
  rw [final_bind, final_bind, final_pure, view_resolveNegativeDelivery, view_spend]

theorem view_basicNack (connId : UInt64) (channel : UInt16) (tag : UInt64) (requeue : Bool) :
    ((basicNack connId channel tag requeue : Act env (List Frame)).final s).view =
      (s.view.spend connId channel).settle connId tag := view_basicReject connId channel tag requeue

theorem view_applyTxOp (connId : UInt64) (op : PendingOp) :
    ((applyTxOp connId op : Act env Unit).final s).view =
      match op with
      | .publish _ _ _ _ => s.view
      | .ack msgId => s.view.settle connId msgId := by
  cases op with
  | publish exchange routingKey headers body =>
    exact view_quiet (e := .enqueueFull routingKey exchange routingKey headers body) rfl
  | ack tag =>
    unfold applyTxOp
    dsimp only
    rw [final_bind, result_takeDelivery]
    unfold DeliveryView.settle
    cases s.view.known tag with
    | none => exact view_takeDelivery tag
    | some queue =>
      dsimp only
      rw [final_bind, view_untrack]
      change (exec env _ (.settle queue tag)).view.untrack _ _ = _
      rw [view_release rfl, view_takeDelivery]

variable {allowed : BrokerState → Effect → Prop}

inductive Fetch (env : Env) (allowed : BrokerState → Effect → Prop) (connId : UInt64)
    (queue : String) (noAck : Bool) (s : BrokerState) : List Frame → DeliveryView → Prop
  | failed (code : Nat) (text : String) (classId methodId : Nat) :
      Fetch env allowed connId queue noAck s (closeFrames code text classId methodId) s.view
  | empty : Fetch env allowed connId queue noAck s [.basicGetEmpty] s.view
  | unacked (m : Message) (count : Nat) : noAck = true →
      Fetch env allowed connId queue noAck s
        [.basicGetOk m.id m.redelivered m.exchange m.routingKey count m.body] s.view
  | held (m : Message) (count : Nat) : noAck = false → s.Fronts env queue m →
      allowed s (.pop queue .hold) →
      Fetch env allowed connId queue noAck s
        [.basicGetOk m.id m.redelivered m.exchange m.routingKey count m.body]
        (s.view.hold queue queue m connId)

theorem basicGet_fetches (connId : UInt64) (queue : String) (noAck : Bool) :
    Triple allowed (· = s) (basicGet connId queue noAck : Act env (List Frame))
      fun frames t => Fetch env allowed connId queue noAck s frames t.view := by
  unfold basicGet
  refine Triple.bind (R := fun found t => found = s.queues.get? queue ∧ t = s)
    (triple_read ?_) fun found => ?_
  · rintro t rfl
    exact ⟨rfl, rfl⟩
  by_cases here : found = s.queues.get? queue
  case neg => exact fun t h => absurd h.1 here
  cases found with
  | none =>
    refine triple_pure ?_
    rintro t ⟨-, rfl⟩
    exact .failed _ _ _ _
  | some q =>
    dsimp only
    cases popped : q.messages.popFront with
    | none =>
      refine triple_pure ?_
      rintro t ⟨-, rfl⟩
      exact .empty
    | some front =>
      obtain ⟨qm, rest⟩ := front
      dsimp only
      refine Triple.bind (R := fun resolved t => resolved = qm.resolve env.crc32 s.wal ∧ t = s)
        (triple_read ?_) fun resolved => ?_
      · rintro t ⟨-, rfl⟩
        exact ⟨rfl, rfl⟩
      cases resolved with
      | error err =>
        refine Triple.bind (R := fun _ t => t.view = s.view) (triple_perform ?_) fun _ => ?_
        · rintro t ⟨-, rfl⟩ -
          exact view_quiet rfl
        · refine triple_pure fun t still => ?_
          rw [still]
          exact .empty
      | ok m =>
        cases noAck with
        | true =>
          refine Triple.bind (R := fun _ t => t.view = s.view) (triple_perform ?_) fun _ => ?_
          · rintro t ⟨-, rfl⟩ -
            exact view_quiet rfl
          · refine triple_pure fun t still => ?_
            rw [still]
            exact .unacked m _ rfl
        | false =>
          rintro t ⟨resolved, rfl⟩ along
          have front : t.Fronts env queue m := ⟨q, _, here.symm, popped, resolved.symm⟩
          have held : ((trackDelivery connId queue m.id : Act env Unit).final
              (exec env t (.pop queue .hold))).view = t.view.hold queue queue m connId := by
            rw [view_trackDelivery, view_pop_hold front]
            rfl
          change Fetch env allowed connId queue false t _
            ((trackDelivery connId queue m.id : Act env Unit).final
              (exec env t (.pop queue .hold))).view
          rw [held]
          exact .held m _ rfl front along.1

/-- Queues go one after the other: `allowed` holds of each step that removes one. -/
inductive Drops (allowed : BrokerState → Effect → Prop) : DeliveryView → DeliveryView → Prop
  | done (v : DeliveryView) : Drops allowed v v
  | next {v : DeliveryView} (s : BrokerState) (name : String) :
      allowed s (.removeQueue name) → Drops allowed (s.view.dropQueue name) v →
      Drops allowed s.view v

theorem Drops.invariant (Inv : DeliveryView → Prop) {v w : DeliveryView}
    (keeps : ∀ s name, allowed s (.removeQueue name) → Inv s.view → Inv (s.view.dropQueue name))
    (drops : Drops allowed v w) (start : Inv v) : Inv w := by
  induction drops with
  | done v => exact start
  | next s name ok rest ih => exact ih (keeps s name ok start)

theorem Drops.trans {u v w : DeliveryView} (first : Drops allowed u v) (rest : Drops allowed v w) :
    Drops allowed u w := by
  induction first with
  | done v => exact rest
  | next s name ok more ih => exact .next s name ok (ih rest)

theorem removeQueue_drops (name : String) :
    Triple allowed (· = s) (perform (.removeQueue name) : Act env Unit)
      fun _ t => Drops allowed s.view t.view := by
  rintro t rfl along
  change Drops allowed t.view (exec env t (.removeQueue name)).view
  rw [view_removeQueue]
  exact .next t name along.1 (.done _)

theorem removeQueues_drops (names : List String) :
    Triple allowed (· = s) (removeQueues names : Act env Unit)
      fun _ t => Drops allowed s.view t.view := by
  induction names generalizing s with
  | nil =>
    rintro t rfl -
    exact .done _
  | cons name names ih =>
    rintro t rfl along
    have rest := ih (s := exec env t (.removeQueue name)) _ rfl along.2
    rw [view_removeQueue] at rest
    exact .next t name along.1 rest

theorem queueDelete_drops (connId : UInt64) (name : String) (ifUnused ifEmpty noWait : Bool) :
    Triple allowed (· = s) (queueDelete connId name ifUnused ifEmpty noWait : Act env (List Frame))
      fun _ t => Drops allowed s.view t.view := by
  unfold queueDelete
  refine Triple.bind (R := fun _ t => t = s) (triple_read fun _ h => h) fun found => ?_
  have still (t : BrokerState) (same : t = s) : Drops allowed s.view t.view := by
    rw [same]
    exact .done _
  split
  · exact triple_pure still
  · split
    · exact triple_pure still
    · split
      · exact triple_pure still
      · refine Triple.bind (removeQueue_drops name) fun _ => ?_
        refine Triple.bind (R := fun _ t => Drops allowed s.view t.view) ?_ fun _ =>
          triple_pure fun _ h => h
        intro t drops _
        rw [quiet_change (fun _ => rfl) t]
        exact drops

theorem deleteQueue_drops (name : String) :
    Triple allowed (· = s) (deleteQueue name : Act env (List Frame))
      fun _ t => Drops allowed s.view t.view :=
  Triple.bind (R := fun _ t => t = s) (triple_read fun _ h => h) fun _ =>
    Triple.bind (removeQueue_drops name) fun _ => triple_pure fun _ h => h

theorem clusterDeleteQueue_drops (name : String) :
    Triple allowed (· = s) (clusterDeleteQueue name : Act env (List Frame))
      fun _ t => Drops allowed s.view t.view :=
  Triple.bind (removeQueue_drops name) fun _ => triple_pure fun _ h => h

theorem queueTtlTask_drops (now : Instant) :
    Triple allowed (· = s) (queueTtlTask now : Act env Unit)
      fun _ t => Drops allowed s.view t.view :=
  Triple.bind (R := fun _ t => t = s) (triple_read fun _ h => h) fun _ => removeQueues_drops _

theorem view_dropConnection (connId : UInt64) :
    ((change (.dropConnection connId) : Act env Unit).final s).view =
      s.view.closeConnection connId := by
  change (exec env s (.books _)).view = _
  rw [view_inMemory]
  change BrokerState.view { s with
    connections := s.connections.erase connId
    connState := s.connState.erase connId } = _
  unfold BrokerState.view DeliveryView.closeConnection
  congr 1
  funext c h
  unfold BrokerState.limits BrokerState.channel?
  simp only [FinMap.get?_erase]
  split <;> rfl

theorem view_requeueDelivery (delivery : String × UInt64) :
    ((requeueDelivery delivery : Act env Unit).final s).view =
      (s.view.forget delivery.2).release delivery.1 delivery.2 := by
  unfold requeueDelivery
  rw [final_bind]
  change (exec env _ (.requeue delivery.1 delivery.2 false)).view = _
  rw [view_release rfl]
  change (exec env s (.books _)).view.release _ _ = _
  rw [view_inMemory]
  exact congrArg (fun v => DeliveryView.release v delivery.1 delivery.2) (view_forget delivery.2)

theorem view_requeueDeliveries (deliveries : List (String × UInt64)) :
    ((deliveries.forM requeueDelivery : Act env PUnit).final s).view =
      s.view.requeueAll deliveries := by
  induction deliveries generalizing s with
  | nil => rfl
  | cons d ds ih =>
    change ((requeueDelivery d >>= fun _ => ds.forM requeueDelivery : Act env PUnit).final s).view =
      _
    rw [final_bind, ih, view_requeueDelivery]
    rfl

theorem view_dropListeners (connId : UInt64) :
    (exec env s (.tuneAll (dropListeners connId))).view = s.view.dropListeners connId := by
  rw [view_inMemory]
  have queues : BrokerState.queueView { s with
      queues := s.queues.mapVals fun _ q => (dropListeners connId).apply q } =
      (s.view.dropListeners connId).queue := by
    funext name
    unfold BrokerState.queueView DeliveryView.dropListeners
    simp only [FinMap.get?_mapVals, BrokerState.view, BrokerState.queueView]
    cases s.queues.get? name <;> rfl
  change BrokerState.view { s with
    queues := s.queues.mapVals fun _ q => (dropListeners connId).apply q } = _
  unfold BrokerState.view
  rw [queues]
  rfl

/-- A connection goes: its exclusive queues, what was delivered to it, its consumers,
    and then the queues it owned or left unused. -/
theorem removeConnection_drops (connId : UInt64) :
    Triple allowed (· = s) (removeConnection connId : Act env Unit)
      fun _ t => ∃ v, Drops allowed (s.view.closeConnection connId) v ∧
        Drops allowed ((v.requeueConnection connId).dropListeners connId) t.view := by
  unfold removeConnection
  refine Triple.bind (R := fun _ t => t.view = s.view.closeConnection connId) ?_ fun _ => ?_
  · rintro t rfl -
    exact view_dropConnection connId
  refine Triple.bind (R := fun _ t => t.view = s.view.closeConnection connId)
    (triple_read fun _ h => h) fun exclusive => ?_
  refine Triple.bind (R := fun _ t => t.view = s.view.closeConnection connId) ?_ fun _ => ?_
  · intro t closed _
    rw [quiet_change (fun _ => rfl) t]
    exact closed
  refine Triple.bind (R := fun _ t => Drops allowed (s.view.closeConnection connId) t.view) ?_
    fun _ => ?_
  · intro t closed along
    rw [← closed]
    exact removeQueues_drops exclusive t rfl along
  refine Triple.bind (R := fun deliveries t =>
    Drops allowed (s.view.closeConnection connId) t.view ∧
      deliveries = t.view.connDeliveries connId)
    (triple_read fun _ h => ⟨h, rfl⟩) fun deliveries => ?_
  refine Triple.bind (R := fun _ t => ∃ v, Drops allowed (s.view.closeConnection connId) v ∧
    deliveries = v.connDeliveries connId ∧
    t.view = { v with connDeliveries := Function.update v.connDeliveries connId [] })
    (triple_perform ?_) fun _ => ?_
  · rintro t ⟨drops, listed⟩ -
    refine ⟨t.view, drops, listed, ?_⟩
    rw [view_inMemory]
    change BrokerState.view { t with connDeliveries := t.connDeliveries.erase connId } = _
    unfold BrokerState.view
    congr 1
    funext c
    rw [FinMap.get?_erase, Function.update_apply]
    split <;> rfl
  refine Triple.bind (R := fun _ t => ∃ v, Drops allowed (s.view.closeConnection connId) v ∧
    t.view = v.requeueConnection connId) ?_ fun _ => ?_
  · rintro t ⟨v, drops, rfl, erased⟩ -
    refine ⟨v, drops, ?_⟩
    rw [view_requeueDeliveries, erased]
    rfl
  refine Triple.bind (R := fun _ t => ∃ v, Drops allowed (s.view.closeConnection connId) v ∧
    t.view = v.requeueConnection connId) (triple_read fun _ h => h) fun tags => ?_
  refine Triple.bind (R := fun _ t => ∃ v, Drops allowed (s.view.closeConnection connId) v ∧
    t.view = v.requeueConnection connId) ?_ fun _ => ?_
  · rintro t ⟨v, drops, same⟩ -
    refine ⟨v, drops, ?_⟩
    rw [quiet_change (fun _ => rfl) t]
    exact same
  refine Triple.bind (R := fun _ t => ∃ v, Drops allowed (s.view.closeConnection connId) v ∧
    t.view = (v.requeueConnection connId).dropListeners connId) (triple_perform ?_) fun _ => ?_
  · rintro t ⟨v, drops, same⟩ -
    refine ⟨v, drops, ?_⟩
    rw [view_dropListeners, same]
  refine Triple.bind (R := fun _ t => ∃ v, Drops allowed (s.view.closeConnection connId) v ∧
    t.view = (v.requeueConnection connId).dropListeners connId) (triple_read fun _ h => h)
    fun owned => ?_
  refine Triple.bind (R := fun _ t => ∃ v, Drops allowed (s.view.closeConnection connId) v ∧
    Drops allowed ((v.requeueConnection connId).dropListeners connId) t.view) ?_ fun _ => ?_
  · rintro t ⟨v, drops, same⟩ along
    refine ⟨v, drops, ?_⟩
    rw [← same]
    exact removeQueues_drops owned t rfl along
  refine Triple.bind (R := fun _ t => ∃ v, Drops allowed (s.view.closeConnection connId) v ∧
    Drops allowed ((v.requeueConnection connId).dropListeners connId) t.view)
    (triple_read fun _ h => h) fun unused => ?_
  rintro t ⟨v, drops, drops'⟩ along
  exact ⟨v, drops, drops'.trans (removeQueues_drops unused t rfl along)⟩

def BrokerState.consumerTagFor (s : BrokerState) (connId : UInt64) (args : ConsumeArgs) : String :=
  if args.consumerTag.isEmpty then
    "ctag-" ++ toString connId ++ "-" ++ toString s.nextConsumerTag
  else args.consumerTag

inductive Subscribe (connId : UInt64) (channel : UInt16) (args : ConsumeArgs) (s : BrokerState) :
    List Frame → DeliveryView → Prop
  | failed (code : Nat) (text : String) (classId methodId : Nat) :
      Subscribe connId channel args s (closeFrames code text classId methodId) s.view
  | added : Subscribe connId channel args s
      (if args.noWait then [] else [.basicConsumeOk (s.consumerTagFor connId args)])
      (s.view.consume args.queue (s.consumerTagFor connId args) connId channel args.noAck)

theorem view_addConsumer {queue : String} (known : s.queues.contains queue = true)
    (connId : UInt64) (channel : UInt16) (tag : String) (noAck : Bool) :
    (exec env s (.tune queue { apply := fun q => q.addConsumer connId channel tag noAck })).view =
      s.view.consume queue tag connId channel noAck := by
  obtain ⟨q, found⟩ := Option.isSome_iff_exists.mp known
  have queues : (s.modifyQueue queue fun q => q.addConsumer connId channel tag noAck).queueView =
      (s.view.consume queue tag connId channel noAck).queue := by
    funext name
    rw [queueView_modifyQueue]
    simp only [DeliveryView.consume, BrokerState.view, BrokerState.queueView,
      Function.update_apply, found]
    split
    · simp [QueueState.addConsumer, QueueState.view]
    · rfl
  rw [view_inMemory]
  change BrokerState.view (s.modifyQueue queue _) = _
  unfold BrokerState.view
  rw [queues]
  rfl

theorem validateConsumerSchema_leaves {τ : Type} {view : BrokerState → τ}
    (numbered : ∀ (s : BrokerState) id, view { s with nextSchemaId := id } = view s)
    (args : ConsumeArgs) : Leaves view (validateConsumerSchema args : Act env (Option String)) := by
  unfold validateConsumerSchema
  split
  · exact leaves_pure _
  · split
    · exact leaves_pure _
    · refine (leaves_read _).bind fun found => ?_
      have first : Leaves view (change (.setNextSchemaId found.1) : Act env Unit) :=
        fun s => numbered s found.1
      refine first.bind fun _ => ?_
      split
      · exact leaves_pure _
      · exact (leaves_read _).bind fun _ => leaves_pure _

theorem basicConsume_subscribes (connId : UInt64) (channel : UInt16) (args : ConsumeArgs) :
    Triple allowed (· = s) (basicConsume connId channel args : Act env (List Frame))
      fun frames t => Subscribe connId channel args s frames t.view := by
  unfold basicConsume
  have failed {t : BrokerState} (still : t.view = s.view) (code : Nat) (text : String)
      (classId methodId : Nat) :
      Subscribe connId channel args s (closeFrames code text classId methodId) t.view := by
    rw [still]
    exact .failed code text classId methodId
  refine Triple.bind (R := fun _ t => t = s) (triple_read fun _ h => h) fun busy => ?_
  refine Triple.bind (R := fun _ t => t = s) (triple_read fun _ h => h) fun refused => ?_
  split
  · exact triple_pure fun t same => failed (by rw [same]) _ _ _ _
  split
  · exact triple_pure fun t same => failed (by rw [same]) _ _ _ _
  refine Triple.bind (R := fun _ t => t.view = s.view ∧ t.nextConsumerTag = s.nextConsumerTag)
    ?_ fun failure => ?_
  · rintro t rfl -
    exact Prod.mk.inj (@validateConsumerSchema_leaves env _
      (fun s => (s.view, s.nextConsumerTag)) (fun _ _ => rfl) args t)
  cases failure with
  | some text => exact triple_pure fun t same => failed same.1 _ _ _ _
  | none =>
    dsimp only
    refine Triple.bind (R := fun known t => known = t.queues.contains args.queue ∧
      t.view = s.view ∧ t.nextConsumerTag = s.nextConsumerTag) (triple_read ?_) fun known => ?_
    · rintro t still
      exact ⟨rfl, still⟩
    cases known with
    | false => exact triple_pure fun t same => failed same.2.1 _ _ _ _
    | true =>
      refine Triple.bind (R := fun tag t => t.queues.contains args.queue = true ∧
        t.view = s.view ∧ tag = s.consumerTagFor connId args) ?_ fun tag => ?_
      · rintro t ⟨known, still, next⟩ -
        unfold basicConsume.assignTag BrokerState.consumerTagFor
        split
        · refine ⟨known.symm, ?_, ?_⟩
          · exact (quiet_change (fun _ => rfl) t).trans still
          · exact congrArg (fun n => "ctag-" ++ toString connId ++ "-" ++ toString n) next
        · exact ⟨known.symm, still, rfl⟩
      refine Triple.bind (R := fun _ t =>
        t.view = s.view.consume args.queue tag connId channel args.noAck ∧
        tag = s.consumerTagFor connId args) (triple_perform ?_) fun _ => ?_
      · rintro t ⟨known, still, assigned⟩ -
        refine ⟨?_, assigned⟩
        rw [← still]
        exact view_addConsumer known connId channel tag args.noAck
      refine Triple.bind (R := fun _ t =>
        t.view = s.view.consume args.queue tag connId channel args.noAck ∧
        tag = s.consumerTagFor connId args) ?_ fun _ => ?_
      · rintro t ⟨added, assigned⟩ -
        exact ⟨(quiet_change (fun _ => rfl) t).trans added, assigned⟩
      · refine triple_pure ?_
        rintro t ⟨added, rfl⟩
        rw [added]
        exact .added

theorem view_withConnState {connId : UInt64} {f : ConnectionState → ConnectionState}
    {limits : UInt64 → UInt16 → Option (UInt16 × UInt16)}
    (here : ∀ h, ((s.connState.get? connId).bind fun cs => (f cs).channels.get? h).map
      (fun ch => (ch.prefetchCount, ch.unackedCount)) = limits connId h)
    (others : ∀ c h, c ≠ connId → s.limits c h = limits c h) :
    ((withConnState connId f : Act env Unit).final s).view = { s.view with limits } := by
  change (exec env s (.books _)).view = _
  rw [view_inMemory]
  have same : (s.modifyConn connId f).limits = limits := by
    funext c h
    by_cases conn : c = connId
    · rw [conn, ← here h]
      unfold BrokerState.limits BrokerState.channel? BrokerState.modifyConn
      simp only [FinMap.get?_modify, if_true]
      cases s.connState.get? connId <;> rfl
    · rw [← others c h conn]
      unfold BrokerState.limits BrokerState.channel? BrokerState.modifyConn
      simp only [FinMap.get?_modify, if_neg conn]
  change BrokerState.view (s.modifyConn connId f) = _
  unfold BrokerState.view
  rw [same]
  rfl

theorem limits_of_conn {connId : UInt64} {cs : ConnectionState}
    (conn : s.connState.get? connId = some cs) (h : UInt16) :
    s.view.limits connId h =
      (cs.channels.get? h).map fun ch => (ch.prefetchCount, ch.unackedCount) := by
  change s.limits connId h = _
  rw [BrokerState.limits, BrokerState.channel?, conn]
  rfl

theorem limits_of_no_conn {connId : UInt64} (conn : s.connState.get? connId = none)
    (h : UInt16) : s.view.limits connId h = none := by
  change s.limits connId h = _
  rw [BrokerState.limits, BrokerState.channel?, conn]
  rfl

theorem view_channelOpen (env : Env) (s : BrokerState) (connId : UInt64) (channel : UInt16) :
    ((channelOpen connId channel : Act env (List Frame)).final s).view = s.view ∨
      s.view.limits connId channel = none ∧
        ((channelOpen connId channel : Act env (List Frame)).final s).view =
          s.view.openChannel connId channel := by
  unfold channelOpen
  rw [final_bind, final_pure]
  cases conn : s.connState.get? connId with
  | none =>
    refine .inl (view_withConnState (fun h => ?_) fun _ _ _ => rfl)
    rw [conn]
    exact (limits_of_no_conn conn h).symm
  | some cs =>
    have here := limits_of_conn conn channel
    cases present : cs.channels.get? channel with
    | some ch =>
      refine .inl (view_withConnState (fun h => ?_) fun _ _ _ => rfl)
      rw [conn, Option.bind_some, FinMap.get?_orInsert]
      refine Eq.trans ?_ (limits_of_conn conn h).symm
      split
      · rename_i same
        rw [same, present]
        rfl
      · rfl
    | none =>
      refine .inr ⟨by rw [here, present]; rfl, view_withConnState (fun h => ?_) fun c h other => ?_⟩
      · rw [conn, limits_of_conn conn, Option.bind_some, FinMap.get?_orInsert]
        by_cases same : h = channel
        · rw [if_pos same, if_pos ⟨rfl, same⟩, present]
          rfl
        · rw [if_neg same, if_neg fun same' => same same'.2]
      · rw [if_neg fun same => other same.1]
        rfl

theorem view_channelClose (connId : UInt64) (channel : UInt16) :
    ((channelClose connId channel : Act env (List Frame)).final s).view =
      s.view.closeChannel connId channel := by
  unfold channelClose
  rw [final_bind, final_pure]
  refine view_withConnState (fun h => ?_) fun c h other => ?_
  · cases conn : s.connState.get? connId with
    | none =>
      rw [limits_of_no_conn conn, ite_self]
      rfl
    | some cs =>
      rw [limits_of_conn conn, Option.bind_some, FinMap.get?_erase]
      by_cases same : h = channel
      · rw [if_pos same, if_pos ⟨rfl, same⟩]
        rfl
      · rw [if_neg same, if_neg fun same' => same same'.2]
  · rw [if_neg fun same => other same.1]
    rfl

theorem view_basicQos (connId : UInt64) (channel prefetchCount : UInt16) (globally : Bool) :
    ((basicQos connId channel prefetchCount globally : Act env (List Frame)).final s).view =
      s.view.limit connId channel prefetchCount globally := by
  unfold basicQos
  rw [final_bind, final_pure]
  refine view_withConnState (fun h => ?_) fun c h other => ?_
  · cases conn : s.connState.get? connId with
    | none =>
      rw [limits_of_no_conn conn, Option.map_none, ite_self]
      rfl
    | some cs =>
      rw [limits_of_conn conn, Option.bind_some]
      cases globally with
      | true =>
        rw [if_pos rfl, if_pos ⟨rfl, .inl rfl⟩, FinMap.get?_mapVals]
        cases cs.channels.get? h <;> rfl
      | false =>
        rw [if_neg Bool.false_ne_true, FinMap.get?_modify]
        by_cases same : h = channel
        · rw [if_pos same, if_pos ⟨rfl, .inr same⟩, same]
          cases cs.channels.get? channel <;> rfl
        · rw [if_neg same, if_neg fun same' => same (same'.2.resolve_left Bool.false_ne_true)]
  · rw [if_neg fun same => other same.1]
    rfl

theorem view_connect (addr username vhost : String) :
    ((connect addr username vhost : Act env UInt64).final s).view =
      s.view.closeConnection s.nextConnId := by
  unfold connect
  rw [final_bind]
  change (exec env s (.books _)).view = _
  rw [view_inMemory]
  change BrokerState.view { s with
    nextConnId := s.nextConnId + 1
    connections := s.connections.insert s.nextConnId addr
    connState := s.connState.insert s.nextConnId
      { ConnectionState.new with username, vhost } } = _
  unfold BrokerState.view DeliveryView.closeConnection
  congr 1
  funext c h
  unfold BrokerState.limits BrokerState.channel?
  simp only [FinMap.get?_insert]
  split <;> rfl

theorem view_closeConnection (env : Env) (s : BrokerState) (connId : UInt64) :
    ((closeConnection connId : Act env (List Frame)).final s).view = s.view ∨
      ((closeConnection connId : Act env (List Frame)).final s).view =
        s.view.closeConnection connId := by
  unfold closeConnection
  rw [final_bind]
  split
  · exact .inr (view_dropConnection connId)
  · exact .inl rfl

theorem view_requeueAll (v : DeliveryView) (deliveries : List (String × UInt64)) :
    (∀ tag, (v.requeueAll deliveries).deliveryIndex tag =
      if tag ∈ deliveries.map Prod.snd then none else v.deliveryIndex tag) ∧
    (∀ name tag, ((v.requeueAll deliveries).queue name).inflight tag =
      if (name, tag) ∈ deliveries then none else (v.queue name).inflight tag) ∧
    (v.requeueAll deliveries).connDeliveries = v.connDeliveries ∧
    (v.requeueAll deliveries).limits = v.limits := by
  unfold DeliveryView.requeueAll
  induction deliveries generalizing v with
  | nil => simp
  | cons d ds ih =>
    obtain ⟨index, inflight, conns, limits⟩ := ih ((v.forget d.2).release d.1 d.2)
    rw [List.foldl_cons]
    refine ⟨fun tag => ?_, fun name tag => ?_, conns, limits⟩
    · rw [index tag, List.map_cons]
      by_cases same : tag = d.2
      · simp [same, DeliveryView.release, DeliveryView.forget]
      · simp only [DeliveryView.release, DeliveryView.forget, Function.update_of_ne same,
          List.mem_cons, same, false_or]
    · rw [inflight name tag]
      by_cases here : name = d.1
      · by_cases same : tag = d.2 <;>
          simp [here, same, DeliveryView.release, DeliveryView.forget, Prod.ext_iff]
      · simp [here, DeliveryView.release, DeliveryView.forget, Prod.ext_iff]

end
end RocketmqBroker
