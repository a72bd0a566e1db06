import RocketmqBroker.Delivery.Settling

/-!
One request, as far as deliveries are concerned: what it can do to the registries
and what it answers. Every invariant of deliveries is derived from this.
-/
namespace RocketmqBroker
open Run.Program

def Op.drops : Op → Bool
  | queueDelete _ _ _ _ _ => true
  | deleteQueue _ => true
  | clusterDeleteQueue _ => true
  | queueTtlTask _ => true
  | _ => false

def Op.settles? : Op → Option (UInt64 × UInt16 × UInt64)
  | basicAck connId channel tag => some (connId, channel, tag)
  | basicReject connId channel tag _ => some (connId, channel, tag)
  | basicNack connId channel tag _ => some (connId, channel, tag)
  | _ => none

def BrokerState.bufferedAcks (s : BrokerState) (connId : UInt64) : List UInt64 :=
  match (s.connState.get? connId).filter (·.txMode) with
  | none => []
  | some cs => cs.txBuffer.filterMap fun
    | .publish _ _ _ _ => none
    | .ack msgId => some msgId

inductive Serves (env : Env) (allowed : BrokerState → Effect → Prop) (s : BrokerState) :
    Op → List Frame → DeliveryView → Prop
  | quiet {op : Op} (frames : List Frame) : op.isQuiet = true →
    Serves env allowed s op frames s.view
  | connect (addr username vhost : String) : Serves env allowed s (.connect addr username vhost) []
      (s.view.closeConnection s.nextConnId)
  | disconnect (connId : UInt64) {v w : DeliveryView} :
      Drops allowed (s.view.closeConnection connId) v →
      Drops allowed ((v.requeueConnection connId).dropListeners connId) w →
      Serves env allowed s (.disconnect connId) [] w
  | closed (connId : UInt64) (frames : List Frame) :
      Serves env allowed s (.closeConnection connId) frames (s.view.closeConnection connId)
  | unknown (connId : UInt64) (frames : List Frame) :
      Serves env allowed s (.closeConnection connId) frames s.view
  | reopened (connId : UInt64) (channel : UInt16) :
      Serves env allowed s (.channelOpen connId channel) [.channelOpenOk] s.view
  | opened (connId : UInt64) (channel : UInt16) : s.view.limits connId channel = none →
      Serves env allowed s (.channelOpen connId channel) [.channelOpenOk]
        (s.view.openChannel connId channel)
  | channelClose (connId : UInt64) (channel : UInt16) :
      Serves env allowed s (.channelClose connId channel) [.channelCloseOk]
        (s.view.closeChannel connId channel)
  | limited (connId : UInt64) (channel prefetchCount : UInt16) (globally : Bool) :
      Serves env allowed s (.basicQos connId channel prefetchCount globally) [.basicQosOk]
        (s.view.limit connId channel prefetchCount globally)
  | dropped {op : Op} {w : DeliveryView} (frames : List Frame) : op.drops = true →
      Drops allowed s.view w → Serves env allowed s op frames w
  | consumed (connId : UInt64) (channel : UInt16) (args : ConsumeArgs) {frames : List Frame}
      {w : DeliveryView} : Subscribe connId channel args s frames w →
      Serves env allowed s (.basicConsume connId channel args) frames w
  | settled {op : Op} (connId : UInt64) (channel : UInt16) (tag : UInt64) :
      op.settles? = some (connId, channel, tag) →
      Serves env allowed s op [] ((s.view.spend connId channel).settle connId tag)
  | fetched (connId : UInt64) (queue : String) (noAck : Bool) {frames : List Frame}
      {w : DeliveryView} : Fetch env allowed connId queue noAck s frames w →
      Serves env allowed s (.basicGet connId queue noAck) frames w
  | committed (connId : UInt64) :
      Serves env allowed s (.txCommit connId) [.txCommitOk]
        ((s.bufferedAcks connId).foldl (fun v tag => v.settle connId tag) s.view)
  | aborted (connId : UInt64) (code : Nat) (text : String) (classId methodId : Nat) :
      Serves env allowed s (.txCommit connId) (closeFrames code text classId methodId) s.view
  | delivered (queue : String) (answers : List Bool) (now : Instant) {frames : List Frame}
      {w : DeliveryView} :
      Run.Emits (Turn env allowed queue (s.view.queue queue).activeConsumers) s.view frames w →
      Serves env allowed s (.deliverRound queue answers now) frames w
  | restarted (now : Instant) (auth : AuthBackend) (cluster : Option ClusterCoordinator) :
      Serves env allowed s (.restart now auth cluster) [] .empty

section
variable {env : Env} {allowed : BrokerState → Effect → Prop} {s : BrokerState}

theorem view_applyTxOps (connId : UInt64) (ops : List PendingOp) :
    ((ops.forM (applyTxOp connId) : Act env PUnit).final s).view =
      (ops.filterMap fun
        | .publish _ _ _ _ => none
        | .ack msgId => some msgId).foldl (fun v tag => v.settle connId tag) s.view := by
  induction ops generalizing s with
  | nil => rfl
  | cons op ops ih =>
    change ((applyTxOp connId op >>= fun _ => ops.forM (applyTxOp connId) :
      Act env PUnit).final s).view = _
    rw [final_bind, ih, view_applyTxOp]
    cases op <;> rfl

theorem drainTxBuffer_drains (connId : UInt64) :
    Triple allowed (· = s) (drainTxBuffer connId : Act env (Option (List PendingOp)))
      fun drained t => t.view = s.view ∧
        drained = ((s.connState.get? connId).filter (·.txMode)).map (·.txBuffer) := by
  rintro t rfl -
  exact ⟨quiet_drainTxBuffer connId t, result_drainTxBuffer connId⟩

theorem txCommit_serves (connId : UInt64) :
    Triple allowed (· = s) (txCommit connId : Act env (List Frame))
      fun frames t => Serves env allowed s (.txCommit connId) frames t.view := by
  have aborted {t : BrokerState} (still : t.view = s.view) (code : Nat) (text : String)
      (classId methodId : Nat) : Serves env allowed s (.txCommit connId)
        (closeFrames code text classId methodId) t.view := by
    rw [still]
    exact .aborted connId code text classId methodId
  unfold txCommit
  refine Triple.bind (drainTxBuffer_drains connId) fun drained => ?_
  cases drained with
  | none => exact triple_pure fun t h => aborted h.1 _ _ _ _
  | some ops =>
    dsimp only
    refine Triple.bind (R := fun _ t => t.view = s.view ∧
      some ops = ((s.connState.get? connId).filter (·.txMode)).map (·.txBuffer))
      (triple_read fun _ h => h) fun failure => ?_
    split
    · exact triple_pure fun t h => aborted h.1 _ _ _ _
    · refine Triple.bind (R := fun _ t => t.view =
        (s.bufferedAcks connId).foldl (fun v tag => v.settle connId tag) s.view) ?_ fun _ => ?_
      · rintro t ⟨still, buffered⟩ -
        rw [view_applyTxOps, still]
        obtain ⟨cs, inTx, rfl⟩ := Option.map_eq_some_iff.mp buffered.symm
        unfold BrokerState.bufferedAcks
        rw [inTx]
      · refine triple_pure fun t committed => ?_
        rw [committed]
        exact .committed connId

theorem result_basicAck (connId : UInt64) (channel : UInt16) (tag : UInt64) :
    (basicAck connId channel tag : Act env (List Frame)).result s = [] := by
  unfold basicAck
  rw [result_bind, result_bind]
  split <;> rfl

theorem serves (op : Op)
    (along : Run.Along (exec env) allowed s ((handle op : Act env (List Frame)).steps s)) :
    Serves env allowed s op (answer env s op) (served env s op).view := by
  have silence {α : Type} (act : Act env α) {op : Op}
      (serves : Triple allowed (· = s) act fun _ t => Serves env allowed s op [] t.view)
      (along : Run.Along (exec env) allowed s ((silent act).steps s)) :
      Serves env allowed s op ((silent act).result s) ((silent act).final s).view :=
    Triple.bind (Q := fun frames (t : BrokerState) => Serves env allowed s op frames t.view) serves
      (fun _ => triple_pure fun _ h => h) s rfl along
  have dropping {act : Act env (List Frame)} {op : Op} (drops : op.drops = true)
      (serves : Triple allowed (· = s) act fun _ t => Drops allowed s.view t.view)
      (along : Run.Along (exec env) allowed s (act.steps s)) :
      Serves env allowed s op (act.result s) (act.final s).view :=
    .dropped _ drops (serves s rfl along)
  by_cases quiet : op.isQuiet = true
  · rw [view_served_quiet quiet]
    exact .quiet _ quiet
  cases op with
  | connect addr username vhost =>
    refine silence (connect addr username vhost) ?_ along
    rintro t rfl -
    rw [view_connect]
    exact .connect addr username vhost
  | disconnect connId =>
    refine silence (removeConnection connId) ?_ along
    rintro t rfl along
    obtain ⟨v, first, rest⟩ := removeConnection_drops connId t rfl along
    exact .disconnect connId first rest
  | closeConnection connId =>
    have view := view_closeConnection env s connId
    change Serves env allowed s (.closeConnection connId) _
      ((closeConnection connId : Act env (List Frame)).final s).view
    cases view with
    | inl still =>
      rw [still]
      exact .unknown connId _
    | inr gone =>
      rw [gone]
      exact .closed connId _
  | channelOpen connId channel =>
    change Serves env allowed s (.channelOpen connId channel) _
      ((channelOpen connId channel : Act env (List Frame)).final s).view
    cases view_channelOpen env s connId channel with
    | inl still =>
      rw [still]
      exact .reopened connId channel
    | inr new =>
      rw [new.2]
      exact .opened connId channel new.1
  | channelClose connId channel =>
    change Serves env allowed s (.channelClose connId channel) _
      ((channelClose connId channel : Act env (List Frame)).final s).view
    rw [view_channelClose]
    exact .channelClose connId channel
  | basicQos connId channel prefetchCount globally =>
    change Serves env allowed s (.basicQos connId channel prefetchCount globally) _
      ((basicQos connId channel prefetchCount globally : Act env (List Frame)).final s).view
    rw [view_basicQos]
    exact .limited connId channel prefetchCount globally
  | queueDelete connId name ifUnused ifEmpty noWait =>
    exact dropping rfl (queueDelete_drops connId name ifUnused ifEmpty noWait) along
  | deleteQueue name => exact dropping rfl (deleteQueue_drops name) along
  | clusterDeleteQueue name => exact dropping rfl (clusterDeleteQueue_drops name) along
  | queueTtlTask now =>
    refine silence (queueTtlTask now) ?_ along
    exact (queueTtlTask_drops now).weaken (fun _ h => h) fun _ _ drops => .dropped [] rfl drops
  | basicConsume connId channel args =>
    exact .consumed connId channel args (basicConsume_subscribes connId channel args s rfl along)
  | basicAck connId channel tag =>
    change Serves env allowed s (.basicAck connId channel tag)
      ((basicAck connId channel tag : Act env (List Frame)).result s)
      ((basicAck connId channel tag : Act env (List Frame)).final s).view
    rw [result_basicAck, view_basicAck]
    exact .settled connId channel tag rfl
  | basicReject connId channel tag requeue =>
    change Serves env allowed s (.basicReject connId channel tag requeue) []
      ((basicReject connId channel tag requeue : Act env (List Frame)).final s).view
    rw [view_basicReject]
    exact .settled connId channel tag rfl
  | basicNack connId channel tag requeue =>
    change Serves env allowed s (.basicNack connId channel tag requeue) []
      ((basicNack connId channel tag requeue : Act env (List Frame)).final s).view
    rw [view_basicNack]
    exact .settled connId channel tag rfl
  | basicGet connId queue noAck =>
    exact .fetched connId queue noAck (basicGet_fetches connId queue noAck s rfl along)
  | txCommit connId => exact txCommit_serves connId s rfl along
  | deliverRound queue answers now =>
    exact .delivered queue answers now (deliverRound_turns queue answers now s rfl along)
  | restart now auth cluster =>
    refine silence (perform (.restart now auth cluster)) ?_ along
    rintro t rfl -
    change Serves env allowed t _ _ (exec env t (.restart now auth cluster)).view
    rw [view_restart]
    exact .restarted now auth cluster
  | _ => exact absurd rfl quiet

theorem serves_any (env : Env) (s : BrokerState) (op : Op) :
    Serves env (fun _ _ => True) s op (answer env s op) (served env s op).view :=
  serves op (Run.along_true _ _)

/-- What holds of a queue that does not exist and stays when messages enter or leave
    flight, when a connection leaves and when a consumer comes. -/
structure QueueRule (Inv : String → QueueView → Prop) : Prop where
  missing : ∀ name, Inv name (.missing name)
  inflight : ∀ name q inflight, Inv name q → Inv name { q with inflight }
  left : ∀ name q (connId : UInt64), Inv name q → Inv name { q with
    listeners := q.listeners.filter fun l => l.1 != connId
    consumerTags := q.consumerTags.retain fun _ c => c.1 != connId }
  consumed : ∀ name q connId channel tag noAck, Inv name q → Inv name { q with
    listeners := if q.listeners.contains (connId, channel) then q.listeners
      else q.listeners ++ [(connId, channel)]
    consumerTags := q.consumerTags.insert tag (connId, channel, noAck)
    activeConsumers :=
      QueueState.snapshotConsumers (q.consumerTags.insert tag (connId, channel, noAck)) }

def DeliveryView.Each (v : DeliveryView) (Inv : String → QueueView → Prop) : Prop :=
  ∀ name, Inv name (v.queue name)

section
variable {Inv : String → QueueView → Prop} {v w : DeliveryView}

theorem each_update (each : v.Each Inv) {queue : String} {q : QueueView} (kept : Inv queue q) :
    DeliveryView.Each { v with queue := Function.update v.queue queue q } Inv := by
  intro name
  simp only [Function.update_apply]
  split
  · rename_i here
    rw [here]
    exact kept
  · exact each name

theorem each_release (rule : QueueRule Inv) (each : v.Each Inv) (queue : String) (tag : UInt64) :
    (v.release queue tag).Each Inv := each_update each (rule.inflight _ _ _ (each queue))

theorem each_settle (rule : QueueRule Inv) (each : v.Each Inv) (connId tag : UInt64) :
    (v.settle connId tag).Each Inv := by
  unfold DeliveryView.settle
  split
  · exact each
  · exact each_release rule (v := v.forget tag) each _ tag

theorem each_requeueAll (rule : QueueRule Inv) (each : v.Each Inv)
    (deliveries : List (String × UInt64)) : (v.requeueAll deliveries).Each Inv := by
  unfold DeliveryView.requeueAll
  induction deliveries generalizing v with
  | nil => exact each
  | cons d ds ih => exact ih (each_release rule (v := v.forget d.2) each d.1 d.2)

theorem each_hold (rule : QueueRule Inv) (each : v.Each Inv) (queue name : String) (m : Message)
    (connId : UInt64) : (v.hold queue name m connId).Each Inv :=
  each_update each (rule.inflight _ _ _ (each queue))

theorem Drops.each (rule : QueueRule Inv) (drops : Drops allowed v w) (each : v.Each Inv) :
    w.Each Inv :=
  drops.invariant (DeliveryView.Each · Inv)
    (fun _ name _ each => each_update each (rule.missing name)) each

theorem Serves.each (rule : QueueRule Inv) {op : Op} {frames : List Frame}
    (serves : Serves env allowed s op frames w) (each : s.view.Each Inv) : w.Each Inv := by
  cases serves with
  | quiet | connect | closed | unknown | reopened | opened | channelClose | limited | aborted =>
    exact each
  | disconnect connId first rest =>
    rename_i v
    have gone : v.Each Inv := first.each rule each
    have back : (v.requeueConnection connId).Each Inv :=
      each_requeueAll rule (v := { v with
        connDeliveries := Function.update v.connDeliveries connId [] }) gone _
    exact rest.each rule fun name => rule.left name _ connId (back name)
  | dropped frames drops gone => exact gone.each rule each
  | consumed connId channel args subscribe =>
    cases subscribe with
    | failed => exact each
    | added => exact each_update each (rule.consumed _ _ _ _ _ _ (each args.queue))
  | settled connId channel tag =>
    exact each_settle rule (v := s.view.spend connId channel) each connId tag
  | fetched connId queue noAck fetch =>
    cases fetch with
    | failed | empty | unacked => exact each
    | held m count => exact each_hold rule each queue queue m connId
  | committed connId =>
    generalize s.bufferedAcks connId = tags
    generalize s.view = v at each
    induction tags generalizing v with
    | nil => exact each
    | cons tag tags ih => exact ih _ (each_settle rule each connId tag)
  | delivered queue answers now turns =>
    refine turns.keeps (DeliveryView.Each · Inv) (fun v frames w turn each => ?_) each
    cases turn with
    | idle | unacked => exact each
    | held t c m => exact each_hold rule each queue (t.view.queue queue).nameArc m c.connId
  | restarted => exact rule.missing

end

def DeliveryView.Named (v : DeliveryView) : Prop := ∀ name, (v.queue name).nameArc = name

theorem named_rule : QueueRule fun name q => q.nameArc = name where
  missing _ := rfl
  inflight _ _ _ named := named
  left _ _ _ named := named
  consumed _ _ _ _ _ _ named := named

theorem named_hold {v : DeliveryView} (named : v.Named) (queue name : String) (m : Message)
    (connId : UInt64) : (v.hold queue name m connId).Named :=
  each_hold named_rule named queue name m connId

theorem Serves.named {op : Op} {frames : List Frame} {w : DeliveryView}
    (serves : Serves env allowed s op frames w) (named : s.view.Named) : w.Named :=
  serves.each named_rule named

structure FewerConsumers (after before : String → QueueView) : Prop where
  active : ∀ name, (after name).activeConsumers.Sublist (before name).activeConsumers
  tags : ∀ name tag c, (after name).consumerTags.get? tag = some c →
    (before name).consumerTags.get? tag = some c
  listeners : ∀ name, (after name).listeners.Sublist (before name).listeners

theorem fewerConsumers_refl (queues : String → QueueView) : FewerConsumers queues queues :=
  ⟨fun _ => .refl _, fun _ _ _ h => h, fun _ => .refl _⟩

theorem FewerConsumers.trans {u v w : String → QueueView} (h : FewerConsumers w v)
    (h' : FewerConsumers v u) : FewerConsumers w u :=
  ⟨fun name => (h.active name).trans (h'.active name),
    fun name tag c found => h'.tags name tag c (h.tags name tag c found),
    fun name => (h.listeners name).trans (h'.listeners name)⟩

theorem fewerConsumers_of_eq {v w : String → QueueView}
    (same : ∀ name, (w name).activeConsumers = (v name).activeConsumers ∧
      (w name).consumerTags = (v name).consumerTags ∧
      (w name).listeners = (v name).listeners) : FewerConsumers w v := by
  refine ⟨fun name => ?_, fun name tag c found => ?_, fun name => ?_⟩
  · rw [(same name).1]
  · rw [← (same name).2.1]
    exact found
  · rw [(same name).2.2]

theorem fewerConsumers_release (v : DeliveryView) (queue : String) (tag : UInt64) :
    FewerConsumers (v.release queue tag).queue v.queue := by
  refine fewerConsumers_of_eq fun name => ?_
  simp only [DeliveryView.release, Function.update_apply]
  split
  · rename_i here
    rw [here]
    exact ⟨rfl, rfl, rfl⟩
  · exact ⟨rfl, rfl, rfl⟩

theorem fewerConsumers_settle (v : DeliveryView) (connId tag : UInt64) :
    FewerConsumers (v.settle connId tag).queue v.queue := by
  unfold DeliveryView.settle
  split
  · exact fewerConsumers_refl v.queue
  · exact fewerConsumers_release (v.forget tag) _ tag

theorem fewerConsumers_requeueAll (v : DeliveryView) (deliveries : List (String × UInt64)) :
    FewerConsumers (v.requeueAll deliveries).queue v.queue := by
  unfold DeliveryView.requeueAll
  induction deliveries generalizing v with
  | nil => exact fewerConsumers_refl v.queue
  | cons d ds ih => exact (ih _).trans (fewerConsumers_release (v.forget d.2) d.1 d.2)

theorem fewerConsumers_dropListeners (v : DeliveryView) (connId : UInt64) :
    FewerConsumers (v.dropListeners connId).queue v.queue := by
  refine ⟨fun name => .refl _, fun name tag c found => ?_, fun name => List.filter_sublist⟩
  change ((v.queue name).consumerTags.retain fun _ c => c.1 != connId).get? tag = some c at found
  rw [FinMap.get?_retain] at found
  exact (Option.filter_eq_some_iff.mp found).1

theorem fewerConsumers_dropQueue (v : DeliveryView) (queue : String) :
    FewerConsumers (v.dropQueue queue).queue v.queue := by
  refine ⟨fun name => ?_, fun name tag c => ?_, fun name => ?_⟩
  all_goals
    simp only [DeliveryView.dropQueue, Function.update_apply]
    split
  · exact List.nil_sublist _
  · exact .refl _
  · intro found
    cases found
  · exact id
  · exact List.nil_sublist _
  · exact .refl _

theorem fewerConsumers_hold (v : DeliveryView) (queue name : String) (m : Message)
    (connId : UInt64) : FewerConsumers (v.hold queue name m connId).queue v.queue := by
  refine fewerConsumers_of_eq fun other => ?_
  simp only [DeliveryView.hold, DeliveryView.track, DeliveryView.take, Function.update_apply]
  split
  · rename_i here
    rw [here]
    exact ⟨rfl, rfl, rfl⟩
  · exact ⟨rfl, rfl, rfl⟩

theorem Drops.fewerConsumers {v w : DeliveryView} (drops : Drops allowed v w) :
    FewerConsumers w.queue v.queue :=
  drops.invariant (fun u => FewerConsumers u.queue v.queue)
    (fun s name _ fewer => (fewerConsumers_dropQueue s.view name).trans fewer)
    (fewerConsumers_refl v.queue)

theorem emits_fewerConsumers {queue : String} {consumers : List Consumer} {v w : DeliveryView}
    {frames : List Frame} (turns : Run.Emits (Turn env allowed queue consumers) v frames w) :
    FewerConsumers w.queue v.queue := by
  refine turns.keeps (fun u => FewerConsumers u.queue v.queue) (fun u frames w turn fewer => ?_)
    (fewerConsumers_refl v.queue)
  cases turn with
  | idle | unacked => exact fewer
  | held t c m =>
    exact (fewerConsumers_hold t.view queue (t.view.queue queue).nameArc m c.connId).trans fewer

theorem Serves.fewerConsumers {op : Op} {frames : List Frame} {w : DeliveryView}
    (serves : Serves env allowed s op frames w)
    (other : ∀ connId channel args, op ≠ .basicConsume connId channel args) :
    FewerConsumers w.queue s.view.queue := by
  cases serves with
  | quiet | connect | closed | unknown | reopened | opened | channelClose | limited | aborted =>
    exact fewerConsumers_refl s.view.queue
  | disconnect connId first rest =>
    rename_i v
    have back : FewerConsumers (v.requeueConnection connId).queue v.queue :=
      fewerConsumers_requeueAll { v with
        connDeliveries := Function.update v.connDeliveries connId [] } _
    have gone := (fewerConsumers_dropListeners _ connId).trans back
    exact (rest.fewerConsumers.trans gone).trans first.fewerConsumers
  | dropped frames drops gone => exact gone.fewerConsumers
  | consumed connId channel args => exact absurd rfl (other connId channel args)
  | settled connId channel tag =>
    exact fewerConsumers_settle (s.view.spend connId channel) connId tag
  | fetched connId queue noAck fetch =>
    cases fetch with
    | failed | empty | unacked => exact fewerConsumers_refl s.view.queue
    | held m count => exact fewerConsumers_hold s.view queue queue m connId
  | committed connId =>
    generalize s.bufferedAcks connId = tags
    generalize s.view = v
    induction tags generalizing v with
    | nil => exact fewerConsumers_refl v.queue
    | cons tag tags ih => exact (ih _).trans (fewerConsumers_settle v connId tag)
  | delivered queue answers now turns => exact emits_fewerConsumers turns
  | restarted =>
    refine ⟨fun _ => List.nil_sublist _, fun _ _ _ found => ?_, fun _ => List.nil_sublist _⟩
    cases found

end
end RocketmqBroker
