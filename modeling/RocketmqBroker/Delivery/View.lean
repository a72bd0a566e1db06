import RocketmqBroker.Durability.LogView

/-!
What deliveries depend on: the registries of what was delivered to whom, the
consumers of every queue and the limits of every channel. Most requests leave all
of that as it is, whatever else they do.
-/
namespace RocketmqBroker

structure QueueView where
  inflight : UInt64 → Option Message
  nameArc : String
  consumerTags : FinMap String (UInt64 × UInt16 × Bool)
  activeConsumers : List Consumer
  listeners : List (UInt64 × UInt16)

/-- A queue that does not exist looks like one that nobody has used. -/
def QueueView.missing (name : String) : QueueView := ⟨fun _ => none, name, ∅, [], []⟩

def QueueState.view (q : QueueState) : QueueView :=
  ⟨q.inflight.get?, q.nameArc, q.consumerTags, q.activeConsumers, q.listeners⟩

structure DeliveryView where
  deliveryIndex : UInt64 → Option String
  connDeliveries : UInt64 → List (String × UInt64)
  queue : String → QueueView
  /-- Prefetch count and unacked count of an open channel. -/
  limits : UInt64 → UInt16 → Option (UInt16 × UInt16)

namespace BrokerState

def queueView (s : BrokerState) (name : String) : QueueView :=
  (s.queues.get? name).elim (.missing name) QueueState.view

def limits (s : BrokerState) (connId : UInt64) (channel : UInt16) : Option (UInt16 × UInt16) :=
  (s.channel? connId channel).map fun ch => (ch.prefetchCount, ch.unackedCount)

def view (s : BrokerState) : DeliveryView :=
  ⟨s.deliveryIndex.get?, fun connId => (s.connDeliveries.get? connId).getD [], s.queueView,
    s.limits⟩

end BrokerState

def DeliveryView.empty : DeliveryView :=
  ⟨fun _ => none, fun _ => [], QueueView.missing, fun _ _ => none⟩

/-- The steps that change no more than ready messages, exchanges and the log. -/
def Effect.isQuiet : Effect → Bool
  | alloc => true
  | createExchange _ _ _ _ => true
  | removeExchange _ => true
  | bind _ _ _ => true
  | appendBinding _ _ => true
  | unbind _ _ _ => true
  | enqueue _ _ _ => true
  | enqueueFull _ _ _ _ _ => true
  | pushFull _ _ => true
  | replicatePublish _ _ _ => true
  | replicateAck _ _ => true
  | pop _ fate => fate != .hold
  | popOldest _ => true
  | purge _ => true
  | compact => true
  | _ => false

section
variable {env : Env} {s : BrokerState} {e : Effect}

theorem view_inMemory (env : Env) (s : BrokerState) (e : Effect) :
    (exec env s e).view = (e.inMemory env s).view := by
  cases e <;> rfl

theorem queueView_modifyQueue (s : BrokerState) (queue name : String)
    (f : QueueState → QueueState) :
    (s.modifyQueue queue f).queueView name =
      if name = queue then (s.queues.get? queue).elim (.missing queue) fun q => (f q).view
      else s.queueView name := by
  unfold BrokerState.queueView
  rw [get?_modifyQueue]
  by_cases same : name = queue
  · subst same
    rw [if_pos rfl, if_pos rfl]
    cases s.queues.get? name <;> rfl
  · rw [if_neg same, if_neg same]

theorem view_modifyQueue {queue : String} {f : QueueState → QueueState}
    (still : ∀ q, (f q).view = q.view) : (s.modifyQueue queue f).view = s.view := by
  have queues : (s.modifyQueue queue f).queueView = s.queueView := by
    funext name
    rw [queueView_modifyQueue]
    split
    · rename_i same
      rw [same, BrokerState.queueView]
      simp only [still]
    · rfl
  unfold BrokerState.view
  rw [queues]
  rfl

theorem view_popTo {wal : SegmentCoordinator} {fate : Fate} (kept : fate ≠ .hold)
    (q : QueueState) : (q.popTo env wal fate).view = q.view := by
  unfold QueueState.popTo
  split
  · rfl
  · split
    · rfl
    · rfl
    · contradiction
    · rfl
    · rfl

theorem view_dropOldest (q : QueueState) : q.dropOldest.view = q.view := by
  unfold QueueState.dropOldest
  split <;> rfl

theorem view_quiet (quiet : e.isQuiet = true) : (exec env s e).view = s.view := by
  rw [view_inMemory]
  cases e with
  | enqueue queue ctx now =>
    exact view_modifyQueue (s := s.allocMsgId.2) (f := fun q =>
      let priority := capPriority ctx.priority q.options.maxPriority
      let diskRef := persistIfDurable env s.wal q queue s.nextMsgId ctx
      { q.pushBack (buildQueueMessage s.nextMsgId priority
        (resolveTtl q.options.messageTtl ctx.perMsgTtl now) diskRef ctx) with
        lastActivity := now }) fun q => rfl
  | enqueueFull queue exchange routingKey headers body =>
    exact view_modifyQueue (s := s.allocMsgId.2) (f := fun q =>
      q.pushBack (.full (.newRouted s.nextMsgId headers body exchange routingKey))) fun q => rfl
  | pushFull queue m => exact view_modifyQueue fun q => rfl
  | replicatePublish queue msgId body => exact view_modifyQueue fun q => rfl
  | replicateAck queue msgId => exact view_modifyQueue fun q => rfl
  | purge queue => exact view_modifyQueue fun q => rfl
  | popOldest queue => exact view_modifyQueue view_dropOldest
  | pop queue fate =>
    have kept : fate ≠ .hold := by
      rintro rfl
      contradiction
    exact view_modifyQueue fun q => view_popTo kept q
  | alloc | createExchange | removeExchange | bind | appendBinding | unbind | compact => rfl
  | books | tune | tuneAll | createQueue | removeQueue | settle | discard | requeue | restart =>
    contradiction

theorem view_orInsert {name : String} {q : QueueState} (unused : q.view = .missing name) :
    BrokerState.view { s with queues := s.queues.orInsert name q } = s.view := by
  have queues : BrokerState.queueView { s with queues := s.queues.orInsert name q } =
      s.queueView := by
    funext other
    unfold BrokerState.queueView
    simp only [FinMap.get?_orInsert]
    split
    · rename_i same
      subst same
      cases s.queues.get? other with
      | none => exact unused
      | some old => rfl
    · rfl
  unfold BrokerState.view
  rw [queues]
  rfl

theorem view_createQueue {name : String} {q : NewQueue} (logs : Bool)
    (schema : Option CompiledSchema) (unused : q.state.view = .missing name) :
    (exec env s (.createQueue name q logs schema)).view = s.view := by
  rw [view_inMemory]
  cases logs with
  | false => exact view_orInsert (s := s) unused
  | true => exact view_orInsert (s := s) unused

theorem view_apply (env : Env) (now : Instant) (acked : List UInt64) (s : BrokerState)
    (r : LogRecord) : (r.apply env now acked s).view = s.view := by
  cases r with
  | declareQueue name durable =>
    dsimp only [LogRecord.apply]
    split
    · exact view_orInsert (s := s) rfl
    · rfl
  | enqueue queue msgId exchange routingKey headers body =>
    dsimp only [LogRecord.apply]
    split
    · rfl
    · exact view_modifyQueue fun q => rfl
  | setQueueSchema schemaId queue rawProto descriptorSetBytes messageName =>
    dsimp only [LogRecord.apply]
    split
    · exact view_modifyQueue fun q => rfl
    · rfl
  | declareExchange name kindByte durable =>
    dsimp only [LogRecord.apply]
    split
    · split <;> rfl
    · rfl
  | ack | bind | raft => rfl

theorem view_restart (now : Instant) (auth : AuthBackend) (cluster : Option ClusterCoordinator) :
    (exec env s (.restart now auth cluster)).view = .empty := by
  change (RocketmqBroker.restart env now s.wal.dir auth cluster).view = .empty
  unfold RocketmqBroker.restart
  rw [recover_eq_replay, replay_eq_replayRecords]
  unfold replayRecords
  generalize ackedOf _ = acked
  generalize List.filterMap _ _ = rs
  suffices general : ∀ s : BrokerState,
      (rs.foldl (LogRecord.apply env now acked) s).view = s.view by
    rw [general]
    rfl
  induction rs with
  | nil => exact fun _ => rfl
  | cons r rs ih =>
    intro s
    rw [List.foldl_cons, ih, view_apply]

theorem channel?_modifyChannel (s : BrokerState) (c c' : UInt64) (h h' : UInt16)
    (f : ChannelState → ChannelState) :
    (s.modifyChannel c h f).channel? c' h' =
      if c' = c ∧ h' = h then (s.channel? c h).map f else s.channel? c' h' := by
  unfold BrokerState.modifyChannel BrokerState.modifyConn BrokerState.channel?
  simp only [FinMap.get?_modify]
  by_cases conn : c' = c
  · subst conn
    cases s.connState.get? c' with
    | none => simp
    | some cs =>
      by_cases same : h' = h
      · subst same
        simp [FinMap.get?_modify]
      · simp [FinMap.get?_modify, same]
  · simp [conn]

theorem view_modifyChannel {c : UInt64} {h : UInt16} {f : ChannelState → ChannelState}
    (still : ∀ ch, (f ch).prefetchCount = ch.prefetchCount ∧
      (f ch).unackedCount = ch.unackedCount) :
    (s.modifyChannel c h f).view = s.view := by
  have limits : (s.modifyChannel c h f).limits = s.limits := by
    funext c' h'
    unfold BrokerState.limits
    rw [channel?_modifyChannel]
    split
    · rename_i same
      obtain ⟨rfl, rfl⟩ := same
      cases s.channel? c' h' with
      | none => rfl
      | some ch => simp [still ch]
    · rfl
  unfold BrokerState.view
  rw [limits]
  rfl

theorem view_modifyConn {c : UInt64} {f : ConnectionState → ConnectionState}
    (still : ∀ cs, (f cs).channels = cs.channels) : (s.modifyConn c f).view = s.view := by
  have limits : (s.modifyConn c f).limits = s.limits := by
    funext c' h'
    unfold BrokerState.limits BrokerState.channel? BrokerState.modifyConn
    simp only [FinMap.get?_modify]
    split
    · rename_i same
      subst same
      cases s.connState.get? c' with
      | none => rfl
      | some cs => simp [still cs]
    · rfl
  unfold BrokerState.view
  rw [limits]
  rfl

end

end RocketmqBroker
