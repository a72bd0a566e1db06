import RocketmqBroker.Delivery.Rounds

/-!
What requests have to do with the sessions of connections. A request looks at no session but
that of its own connection, and at no index of consumers: it does the same in states that
differ in other sessions.
-/
namespace RocketmqBroker
open Run.Program

namespace BrokerState

def withSessions (s t : BrokerState) : BrokerState :=
  { s with
    connections := t.connections
    connState := t.connState
    connConsumers := t.connConsumers
    consumerIndex := t.consumerIndex }

structure SameSession (s t : BrokerState) (connId : UInt64) : Prop where
  session : t.connState.get? connId = s.connState.get? connId
  sink : t.connections.get? connId = s.connections.get? connId

/-- The states differ in the sessions of these connections at most, and in the indices of
    consumers. -/
structure EqualBut (away : UInt64 → Prop) (s t : BrokerState) : Prop where
  rest : t = s.withSessions t
  sessions : ∀ connId, ¬ away connId → s.SameSession t connId

variable {away : UInt64 → Prop} {s t u : BrokerState} {connId : UInt64}

theorem SameSession.refl : s.SameSession s connId := ⟨rfl, rfl⟩

theorem SameSession.trans (first : s.SameSession t connId) (second : t.SameSession u connId) :
    s.SameSession u connId :=
  ⟨second.session.trans first.session, second.sink.trans first.sink⟩

theorem SameSession.get? (same : s.SameSession t connId) :
    (s.withSessions t).connState.get? connId = s.connState.get? connId := same.session

theorem EqualBut.queues (equal : s.EqualBut away t) : t.queues = s.queues := by
  rw [equal.rest]
  rfl

theorem EqualBut.nextConnId (equal : s.EqualBut away t) : t.nextConnId = s.nextConnId := by
  rw [equal.rest]
  rfl

theorem EqualBut.refl : s.EqualBut away s := ⟨rfl, fun _ _ => .refl⟩

theorem EqualBut.symm (equal : s.EqualBut away t) : t.EqualBut away s := by
  refine ⟨?_, fun connId other => ?_⟩
  · rw [equal.rest]
    rfl
  · have same := equal.sessions connId other
    exact ⟨same.session.symm, same.sink.symm⟩

theorem EqualBut.trans (first : s.EqualBut away t) (second : t.EqualBut away u) :
    s.EqualBut away u := by
  refine ⟨?_, fun connId other => ?_⟩
  · rw [second.rest, first.rest]
    rfl
  · exact (first.sessions connId other).trans (second.sessions connId other)

end BrokerState

section
variable {env : Env} {away : UInt64 → Prop} {connId : UInt64}

abbrev Overlooks {α : Type} (away : UInt64 → Prop) (p : Act env α) : Prop :=
  Couples (BrokerState.EqualBut away) p

theorem overlooks_look {α : Type} {f : BrokerState → α}
    (blind : ∀ s t, f (s.withSessions t) = f s) : Overlooks away (look f : Act env α) := by
  refine couples_read fun s t equal => ?_
  rw [equal.rest]
  exact (blind _ _).symm

theorem overlooks_own {α : Type} {f : BrokerState → α} (other : ¬ away connId)
    (blind : ∀ s t, BrokerState.SameSession s t connId → f (s.withSessions t) = f s) :
    Overlooks away (look f : Act env α) := by
  refine couples_read fun s t equal => ?_
  rw [equal.rest]
  exact (blind s t (equal.sessions connId other)).symm

/-- Not a change of the books, and no restart. -/
def Effect.onObjects : Effect → Bool
  | books _ | restart .. => false
  | _ => true

theorem exec_withSessions {e : Effect} (objects : e.onObjects = true) (s t : BrokerState) :
    exec env (s.withSessions t) e = (exec env s e).withSessions t := by
  cases e with
  | createQueue name q logs schema => cases logs <;> rfl
  | books | restart => cases objects
  | _ => rfl

theorem sameSession_exec {e : Effect} (objects : e.onObjects = true) (s : BrokerState) :
    s.SameSession (exec env s e) connId := by
  cases e with
  | createQueue name q logs schema => cases logs <;> exact ⟨rfl, rfl⟩
  | books | restart => cases objects
  | _ => exact ⟨rfl, rfl⟩

theorem overlooks_perform {e : Effect} (objects : e.onObjects = true) :
    Overlooks away (perform e : Act env Unit) := by
  refine couples_perform fun s t equal => ?_
  have moved := @exec_withSessions env _ objects s t
  rw [← equal.rest] at moved
  refine ⟨?_, fun connId other => ?_⟩
  · rw [moved]
    rfl
  · have same := equal.sessions connId other
    have before := @sameSession_exec env connId _ objects s
    have behind := @sameSession_exec env connId _ objects t
    exact ⟨behind.session.trans (same.session.trans before.session.symm),
      behind.sink.trans (same.sink.trans before.sink.symm)⟩

theorem overlooks_change {b : Bookkeeping}
    (moved : ∀ s t, b.apply (BrokerState.withSessions s t) =
      (b.apply s).withSessions (b.apply (s.withSessions t)))
    (sessions : ∀ s t : BrokerState, ∀ connId, ¬ away connId → s.SameSession t connId →
      (b.apply s).SameSession (b.apply t) connId) :
    Overlooks away (change b : Act env Unit) := by
  refine couples_perform fun s t equal => ?_
  rw [exec_books, exec_books]
  refine ⟨?_, fun connId other => sessions s t connId other (equal.sessions connId other)⟩
  have same := moved s t
  rwa [← equal.rest] at same

def Bookkeeping.OfOthers (b : Bookkeeping) : Prop :=
  ∀ s t, b.apply (BrokerState.withSessions s t) =
    (b.apply s).withSessions (b.apply (s.withSessions t)) ∧
      (b.apply s).connState = s.connState ∧ (b.apply s).connections = s.connections

theorem overlooks_books {b : Bookkeeping} (others : b.OfOthers) :
    Overlooks away (change b : Act env Unit) := by
  refine overlooks_change (fun s t => (others s t).1) fun s t connId _ same => ?_
  obtain ⟨-, sessions, sinks⟩ := others s t
  obtain ⟨-, sessions', sinks'⟩ := others t s
  constructor
  · rw [sessions, sessions', same.session]
  · rw [sinks, sinks', same.sink]

theorem behind_look {α β : Type} {f : BrokerState → α} {g : α → Act env β}
    (blind : ∀ s t, f (s.withSessions t) = f s) (rest : ∀ a, Overlooks away (g a)) :
    Overlooks away (look f >>= g) :=
  (overlooks_look blind).bind rest

theorem behind_perform {α : Type} {e : Effect} {p : Act env α} (objects : e.onObjects = true)
    (rest : Overlooks away p) : Overlooks away (perform e >>= fun _ => p) :=
  (overlooks_perform objects).bind fun _ => rest

theorem behind_change {α : Type} {b : Bookkeeping} {p : Act env α} (others : b.OfOthers)
    (rest : Overlooks away p) : Overlooks away (change b >>= fun _ => p) :=
  (overlooks_books others).bind fun _ => rest

theorem overlooks_withConnState (connId : UInt64) (f : ConnectionState → ConnectionState) :
    Overlooks away (withConnState connId f : Act env Unit) := by
  refine overlooks_change (fun _ _ => rfl) fun s t c _ same => ⟨?_, same.sink⟩
  change (t.connState.modify connId f).get? c = (s.connState.modify connId f).get? c
  rw [FinMap.get?_modify, FinMap.get?_modify]
  split
  · rename_i here
    rw [← here, same.session]
  · exact same.session

theorem overlooks_withChannel (connId : UInt64) (channel : UInt16)
    (f : ChannelState → ChannelState) :
    Overlooks away (withChannel connId channel f : Act env Unit) :=
  overlooks_withConnState connId _

theorem checkPermission_withSessions {s t : BrokerState} (same : s.SameSession t connId)
    (extractor : Permission → String) (resource : String) :
    checkPermission env (s.withSessions t) connId extractor resource =
      checkPermission env s connId extractor resource := by
  unfold checkPermission
  rw [same.get?]
  rfl

theorem overlooks_denied (other : ¬ away connId) (extractor : Permission → String)
    (resource : String) : Overlooks away (denied connId extractor resource : Act env Bool) :=
  overlooks_own other fun _ _ same => by
    rw [checkPermission_withSessions same]

/-! Exchanges and bindings. -/

theorem overlooks_exchangeDeclare (other : ¬ away connId) (args : ExchangeDeclareArgs) :
    Overlooks away (exchangeDeclare connId args : Act env (List Frame)) := by
  unfold exchangeDeclare
  split
  · refine behind_look (fun _ _ => rfl) fun known => ?_
    split <;> exact couples_pure _
  · refine Couples.bind ?_ fun failed => ?_
    · unfold declareActiveExchange
      split
      · exact Couples.bind (couples_pure _) fun _ => couples_pure _
      · refine (overlooks_denied other _ _).bind fun refused => ?_
        split
        · exact Couples.bind (couples_pure _) fun _ => couples_pure _
        · split
          · exact Couples.bind (couples_pure _) fun _ => couples_pure _
          · exact behind_look (fun _ _ => rfl) fun _ => behind_perform rfl (couples_pure _)
    · cases failed <;> exact couples_pure _

theorem overlooks_exchangeDelete (name : String) (noWait : Bool) :
    Overlooks away (exchangeDelete name noWait : Act env (List Frame)) := by
  unfold exchangeDelete
  split
  · exact couples_pure _
  · exact behind_perform rfl (couples_pure _)

theorem overlooks_queueBind (queue exchange routingKey : String) (noWait : Bool) :
    Overlooks away (queueBind queue exchange routingKey noWait : Act env (List Frame)) := by
  unfold queueBind
  refine behind_look (fun _ _ => rfl) fun known => ?_
  split
  · exact couples_pure _
  · refine behind_look (fun _ _ => rfl) fun known => ?_
    split
    · exact couples_pure _
    · exact behind_perform rfl (couples_pure _)

theorem overlooks_queueUnbind (queue exchange routingKey : String) :
    Overlooks away (queueUnbind queue exchange routingKey : Act env (List Frame)) := by
  unfold queueUnbind
  refine behind_look (fun _ _ => rfl) fun known => ?_
  split
  · exact couples_pure _
  · refine behind_look (fun _ _ => rfl) fun known => ?_
    split
    · exact couples_pure _
    · exact behind_perform rfl (couples_pure _)

/-! Queues. -/

theorem overlooks_compileQueueSchema (opts : QueueOptions) : Overlooks away
    (compileQueueSchema opts : Act env (Except SchemaError (Option CompiledSchema))) := by
  unfold compileQueueSchema
  split
  · exact couples_pure _
  · dsimp only
    split
    · exact couples_pure _
    · split
      · exact couples_pure _
      · refine behind_look (fun _ _ => rfl) fun found => ?_
        refine behind_change (fun _ _ => ⟨rfl, rfl, rfl⟩) ?_
        split <;> exact couples_pure _

theorem overlooks_declareSchema (name : String) (arguments : FieldTable)
    (compiled : Option CompiledSchema) :
    Overlooks away (declareSchema name arguments compiled : Act env (Option String)) := by
  unfold declareSchema
  split
  · exact behind_perform rfl (couples_pure _)
  · split
    · exact couples_pure _
    · refine behind_look (fun _ _ => rfl) fun conflict => ?_
      split
      · exact couples_pure _
      · exact behind_perform rfl (couples_pure _)

theorem overlooks_sendDeclareOk (name : String) (noWait : Bool) :
    Overlooks away (sendDeclareOk name noWait : Act env (List Frame)) := by
  unfold sendDeclareOk
  split
  · exact couples_pure _
  · exact overlooks_look fun _ _ => rfl

theorem overlooks_declareActive (connId : UInt64) (name : String) (args : QueueDeclareArgs)
    (now : Instant) :
    Overlooks away (declareActive connId name args now : Act env (List Frame)) := by
  refine behind_look (fun _ _ => rfl) fun found => ?_
  dsimp only
  split
  · exact couples_pure _
  · refine (overlooks_compileQueueSchema _).bind fun result => ?_
    split
    · exact couples_pure _
    · have declared (compiled : Option CompiledSchema)
          {rest : Option String → Act env (List Frame)}
          (refused : ∀ text, Overlooks away (rest (some text)))
          (bound : Overlooks away (rest none)) :
          Overlooks away (declareSchema name args.arguments compiled >>= rest) := by
        refine (overlooks_declareSchema name args.arguments compiled).bind fun failed => ?_
        cases failed with
        | some text => exact refused text
        | none => exact bound
      have bound : Overlooks away (do
          perform (.bind "" ⟨name, name, none⟩ false)
          sendDeclareOk name args.noWait : Act env (List Frame)) :=
        behind_perform rfl (overlooks_sendDeclareOk name args.noWait)
      split
      · refine behind_perform rfl ?_
        split
        · refine behind_change (fun _ _ => ⟨rfl, rfl, rfl⟩) ?_
          exact declared _ (fun _ => couples_pure _) bound
        · exact declared _ (fun _ => couples_pure _) bound
      · exact declared _ (fun _ => couples_pure _) bound

theorem overlooks_queueDeclare (other : ¬ away connId) (args : QueueDeclareArgs)
    (now : Instant) : Overlooks away (queueDeclare connId args now : Act env (List Frame)) := by
  have named (name : String) : Overlooks away
      (queueDeclare.declareNamed connId args now name : Act env (List Frame)) := by
    unfold queueDeclare.declareNamed
    split
    · refine behind_look (fun _ _ => rfl) fun known => ?_
      split
      · exact overlooks_sendDeclareOk name args.noWait
      · exact couples_pure _
    · refine (overlooks_denied other _ _).bind fun refused => ?_
      split
      · exact couples_pure _
      · exact overlooks_declareActive connId name args now
  unfold queueDeclare
  split
  · exact behind_look (fun _ _ => rfl) fun _ => behind_perform rfl (named _)
  · split
    · exact couples_pure _
    · exact named _

theorem overlooks_queueDelete (connId : UInt64) (name : String) (ifUnused ifEmpty noWait : Bool) :
    Overlooks away (queueDelete connId name ifUnused ifEmpty noWait : Act env (List Frame)) := by
  refine behind_look (fun _ _ => rfl) fun found => ?_
  split
  · exact couples_pure _
  · split
    · exact couples_pure _
    · split
      · exact couples_pure _
      · exact behind_perform rfl (behind_change (fun _ _ => ⟨rfl, rfl, rfl⟩) (couples_pure _))

theorem overlooks_queuePurge (name : String) (noWait : Bool) :
    Overlooks away (queuePurge name noWait : Act env (List Frame)) := by
  refine behind_look (fun _ _ => rfl) fun found => ?_
  split
  · exact couples_pure _
  · exact behind_perform rfl (couples_pure _)

/-! Publishing. -/

theorem overlooks_allocConfirmTag (other : ¬ away connId) (channel : UInt16) :
    Overlooks away (allocConfirmTag connId channel : Act env (Option UInt64)) := by
  refine (overlooks_own other fun s t same => ?_).bind fun found => ?_
  · unfold BrokerState.channel?
    rw [same.get?]
  · split
    · exact couples_pure _
    · split
      · exact couples_pure _
      · exact (overlooks_withChannel _ _ _).bind fun _ => couples_pure _

theorem overlooks_bufferTxPublish (other : ¬ away connId) (args : PublishArgs) :
    Overlooks away (bufferTxPublish connId args : Act env Bool) := by
  refine (overlooks_own other fun s t same => ?_).bind fun txMode => ?_
  · rw [same.get?]
  · split
    · exact (overlooks_withConnState _ _).bind fun _ => couples_pure _
    · exact couples_pure _

theorem overlooks_evictOverflow (queue : String) (maxLen fuel : Nat) :
    Overlooks away (evictOverflow queue maxLen fuel : Act env Unit) := by
  induction fuel with
  | zero => exact couples_pure _
  | succ fuel ih =>
    refine behind_look (fun _ _ => rfl) fun tooLong => ?_
    split
    · exact behind_perform rfl ih
    · exact couples_pure _

theorem overlooks_enqueueSingle (queue : String) (ctx : EnqueueCtx) (now : Instant) :
    Overlooks away (enqueueSingle queue ctx now : Act env Unit) := by
  refine behind_look (fun _ _ => rfl) fun found => ?_
  split
  · exact overlooks_perform rfl
  · split
    · exact (overlooks_evictOverflow _ _ _).bind fun _ => overlooks_perform rfl
    · exact overlooks_perform rfl

theorem overlooks_basicPublish (other : ¬ away connId) (channel : UInt16) (args : PublishArgs)
    (now : Instant) :
    Overlooks away (basicPublish connId channel args now : Act env (List Frame)) := by
  unfold basicPublish
  refine (overlooks_denied other _ _).bind fun refused => ?_
  split
  · exact couples_pure _
  · refine (overlooks_allocConfirmTag other channel).bind fun tag => ?_
    refine (overlooks_bufferTxPublish other args).bind fun buffered => ?_
    split
    · exact couples_pure _
    · refine behind_look (fun _ _ => rfl) fun found => ?_
      split
      · exact couples_pure _
      · dsimp only
        split
        · exact couples_pure _
        · refine behind_look (fun _ _ => rfl) fun failure => ?_
          split
          · exact Couples.bind (couples_pure _) fun _ => couples_pure _
          · exact (Couples.forM _ fun _ => overlooks_enqueueSingle _ _ _).bind fun _ =>
              couples_pure _

/-! Consuming and settling. -/

theorem overlooks_validateConsumerSchema (args : ConsumeArgs) :
    Overlooks away (validateConsumerSchema args : Act env (Option String)) := by
  unfold validateConsumerSchema
  split
  · exact couples_pure _
  · split
    · exact couples_pure _
    · refine behind_look (fun _ _ => rfl) fun compiled => ?_
      refine behind_change (fun _ _ => ⟨rfl, rfl, rfl⟩) ?_
      split
      · exact couples_pure _
      · exact behind_look (fun _ _ => rfl) fun failure => couples_pure _

theorem overlooks_assignTag (connId : UInt64) (args : ConsumeArgs) :
    Overlooks away (basicConsume.assignTag connId args : Act env String) := by
  unfold basicConsume.assignTag
  split
  · refine behind_look (fun _ _ => rfl) fun seq => ?_
    exact behind_change (fun _ _ => ⟨rfl, rfl, rfl⟩) (couples_pure _)
  · exact couples_pure _

theorem overlooks_basicConsume (other : ¬ away connId) (channel : UInt16) (args : ConsumeArgs) :
    Overlooks away (basicConsume connId channel args : Act env (List Frame)) := by
  unfold basicConsume
  refine behind_look (fun _ _ => rfl) fun busy => ?_
  refine (overlooks_denied other _ _).bind fun refused => ?_
  split
  · exact couples_pure _
  · split
    · exact couples_pure _
    · refine (overlooks_validateConsumerSchema args).bind fun failed => ?_
      split
      · exact couples_pure _
      · refine behind_look (fun _ _ => rfl) fun known => ?_
        split
        · exact couples_pure _
        · refine (overlooks_assignTag connId args).bind fun tag => ?_
          exact behind_perform rfl (behind_change (fun _ _ => ⟨rfl, rfl, rfl⟩) (couples_pure _))

theorem overlooks_basicCancel (connId : UInt64) (tag : String) (noWait : Bool) :
    Overlooks away (basicCancel connId tag noWait : Act env (List Frame)) := by
  unfold basicCancel
  exact behind_change (fun _ _ => ⟨rfl, rfl, rfl⟩) (couples_pure _)

theorem overlooks_takeDelivery (tag : UInt64) :
    Overlooks away (takeDelivery tag : Act env (Option String)) := by
  unfold takeDelivery
  refine behind_look (fun _ _ => rfl) fun queue => behind_change (fun _ _ => ⟨rfl, rfl, rfl⟩) ?_
  exact overlooks_look fun _ _ => rfl

theorem overlooks_untrackDelivery (connId tag : UInt64) :
    Overlooks away (untrackDelivery connId tag : Act env Unit) := by
  unfold untrackDelivery
  exact overlooks_books fun _ _ => ⟨rfl, rfl, rfl⟩

theorem overlooks_trackDelivery (connId : UInt64) (queue : String) (tag : UInt64) :
    Overlooks away (trackDelivery connId queue tag : Act env Unit) := by
  unfold trackDelivery
  exact overlooks_books fun _ _ => ⟨rfl, rfl, rfl⟩

theorem overlooks_basicAck (connId : UInt64) (channel : UInt16) (tag : UInt64) :
    Overlooks away (basicAck connId channel tag : Act env (List Frame)) := by
  refine (overlooks_withChannel _ _ _).bind fun _ => ?_
  refine (overlooks_takeDelivery tag).bind fun found => ?_
  split
  · exact couples_pure _
  · exact behind_perform rfl ((overlooks_untrackDelivery _ _).bind fun _ => couples_pure _)

theorem overlooks_resolveNegativeDelivery (connId tag : UInt64) (requeue : Bool) :
    Overlooks away (resolveNegativeDelivery connId tag requeue : Act env Unit) := by
  refine (overlooks_takeDelivery tag).bind fun found => ?_
  split
  · exact couples_pure _
  · refine (overlooks_untrackDelivery _ _).bind fun _ => ?_
    split <;> exact overlooks_perform rfl

theorem overlooks_basicNack (connId : UInt64) (channel : UInt16) (tag : UInt64) (requeue : Bool) :
    Overlooks away (basicNack connId channel tag requeue : Act env (List Frame)) :=
  (overlooks_withChannel _ _ _).bind fun _ =>
    (overlooks_resolveNegativeDelivery _ _ _).bind fun _ => couples_pure _

theorem overlooks_basicGet (connId : UInt64) (queue : String) (noAck : Bool) :
    Overlooks away (basicGet connId queue noAck : Act env (List Frame)) := by
  refine behind_look (fun _ _ => rfl) fun found => ?_
  split
  · exact couples_pure _
  · split
    · exact couples_pure _
    · refine behind_look (fun _ _ => rfl) fun resolved => ?_
      split
      · exact behind_perform rfl (couples_pure _)
      · split
        · exact behind_perform rfl (couples_pure _)
        · exact behind_perform rfl ((overlooks_trackDelivery _ _ _).bind fun _ => couples_pure _)

/-! Transactions. -/

theorem overlooks_drainTxBuffer (other : ¬ away connId) :
    Overlooks away (drainTxBuffer connId : Act env (Option (List PendingOp))) := by
  refine (overlooks_own other fun s t same => ?_).bind fun found => ?_
  · rw [same.get?]
  · split
    · exact couples_pure _
    · exact (overlooks_withConnState _ _).bind fun _ => couples_pure _

theorem overlooks_applyTxOp (connId : UInt64) (op : PendingOp) :
    Overlooks away (applyTxOp connId op : Act env Unit) := by
  cases op with
  | publish => exact overlooks_perform rfl
  | ack msgId =>
    refine (overlooks_takeDelivery msgId).bind fun found => ?_
    split
    · exact couples_pure _
    · exact behind_perform rfl (overlooks_untrackDelivery _ _)

theorem overlooks_txCommit (other : ¬ away connId) :
    Overlooks away (txCommit connId : Act env (List Frame)) := by
  refine (overlooks_drainTxBuffer other).bind fun drained => ?_
  split
  · exact couples_pure _
  · refine behind_look (fun _ _ => rfl) fun failure => ?_
    split
    · exact couples_pure _
    · exact (Couples.forM _ fun _ => overlooks_applyTxOp _ _).bind fun _ => couples_pure _

theorem overlooks_txRollback (other : ¬ away connId) :
    Overlooks away (txRollback connId : Act env (List Frame)) := by
  refine (overlooks_drainTxBuffer other).bind fun drained => ?_
  split <;> exact couples_pure _

/-! Connections. -/

theorem overlooks_removeQueues (names : List String) :
    Overlooks away (removeQueues names : Act env Unit) :=
  Couples.forM _ fun _ => overlooks_perform rfl

theorem overlooks_requeueDelivery (delivery : String × UInt64) :
    Overlooks away (requeueDelivery delivery : Act env Unit) := by
  unfold requeueDelivery
  exact behind_change (fun _ _ => ⟨rfl, rfl, rfl⟩) (overlooks_perform rfl)

theorem overlooks_dropConnection (connId : UInt64) :
    Overlooks away (change (.dropConnection connId) : Act env Unit) := by
  refine overlooks_change (fun _ _ => rfl) fun s t c _ same => ?_
  constructor
  · change (t.connState.erase connId).get? c = (s.connState.erase connId).get? c
    rw [FinMap.get?_erase, FinMap.get?_erase, same.session]
  · change (t.connections.erase connId).get? c = (s.connections.erase connId).get? c
    rw [FinMap.get?_erase, FinMap.get?_erase, same.sink]

theorem overlooks_removeConnection (connId : UInt64) :
    Overlooks away (removeConnection connId : Act env Unit) := by
  refine (overlooks_dropConnection connId).bind fun _ => ?_
  refine behind_look (fun _ _ => rfl) fun exclusive => ?_
  refine behind_change (fun _ _ => ⟨rfl, rfl, rfl⟩) ((overlooks_removeQueues _).bind fun _ => ?_)
  refine behind_look (fun _ _ => rfl) fun deliveries => ?_
  refine behind_change (fun _ _ => ⟨rfl, rfl, rfl⟩) ?_
  refine (Couples.forM _ fun _ => overlooks_requeueDelivery _).bind fun _ => ?_
  refine behind_look (fun _ _ => rfl) fun tags => ?_
  refine behind_change (fun _ _ => ⟨rfl, rfl, rfl⟩) (behind_perform rfl ?_)
  refine behind_look (fun _ _ => rfl) fun owned => (overlooks_removeQueues _).bind fun _ => ?_
  exact behind_look (fun _ _ => rfl) fun unused => overlooks_removeQueues _

theorem overlooks_closeConnection (other : ¬ away connId) :
    Overlooks away (closeConnection connId : Act env (List Frame)) := by
  refine (overlooks_own other fun s t same => ?_).bind fun known => ?_
  · exact congrArg Option.isSome same.sink
  · split
    · exact (overlooks_dropConnection connId).bind fun _ => couples_pure _
    · exact couples_pure _

theorem final_connect (s : BrokerState) (addr username vhost : String) :
    (connect addr username vhost : Act env UInt64).final s = { s with
      nextConnId := s.nextConnId + 1
      connections := s.connections.insert s.nextConnId addr
      connState := s.connState.insert s.nextConnId
        { ConnectionState.new with username, vhost } } := rfl

theorem equalBut_connect {fewer : UInt64 → Prop} {s t : BrokerState} (equal : s.EqualBut away t)
    (others : ∀ c, away c → c ≠ s.nextConnId → fewer c) (addr username vhost : String) :
    ((connect addr username vhost : Act env UInt64).final s).EqualBut fewer
      ((connect addr username vhost : Act env UInt64).final t) := by
  rw [final_connect, final_connect, equal.nextConnId]
  refine ⟨?_, fun c present => ?_⟩
  · rw [equal.rest]
    rfl
  · by_cases new : c = s.nextConnId
    · constructor
      · simp [new]
      · simp [new]
    · have same := equal.sessions c fun gone => present (others c gone new)
      constructor
      · simpa [FinMap.get?_insert, new] using same.session
      · simpa [FinMap.get?_insert, new] using same.sink

/-! Management, other members of the cluster, and timers. -/

theorem overlooks_getMessages (queue : String) (count : Nat) (ackMode : String) :
    Overlooks away (getMessages queue count ackMode : Act env (List Frame)) := by
  refine behind_look (fun _ _ => rfl) fun found => ?_
  split
  · exact couples_pure _
  · refine (Couples.mapM _ fun _ => ?_).bind fun _ => couples_pure _
    refine behind_look (fun _ _ => rfl) fun front => ?_
    split
    · exact couples_pure _
    · refine behind_look (fun _ _ => rfl) fun resolved => ?_
      split
      · exact behind_perform rfl (couples_pure _)
      · exact behind_perform rfl (couples_pure _)

theorem overlooks_publishMessage (exchange routingKey : String) (payload : Bytes) :
    Overlooks away (publishMessage exchange routingKey payload : Act env (List Frame)) := by
  refine behind_look (fun _ _ => rfl) fun msgId => behind_perform rfl ?_
  refine behind_look (fun _ _ => rfl) fun found => ?_
  split
  · exact couples_pure _
  · exact (Couples.forM _ fun _ => overlooks_perform rfl).bind fun _ => couples_pure _

theorem overlooks_clusterDeclareQueue (name : String) (durable exclusive autoDelete : Bool)
    (queueType : String) (now : Instant) : Overlooks away
      (clusterDeclareQueue name durable exclusive autoDelete queueType now :
        Act env (List Frame)) := by
  refine behind_look (fun _ _ => rfl) fun known => ?_
  dsimp only
  split
  · exact behind_perform rfl (behind_perform rfl (couples_pure _))
  · exact couples_pure _

theorem overlooks_acceptTerm (term leaderId : UInt64) :
    Overlooks away (acceptTerm term leaderId : Act env Bool) := by
  refine behind_look (fun _ _ => rfl) fun cluster => ?_
  split
  · exact couples_pure _
  · split
    · exact couples_pure _
    · dsimp only
      split
      · exact behind_change (fun _ _ => ⟨rfl, rfl, rfl⟩) (couples_pure _)
      · exact couples_pure _

theorem overlooks_replicatePublish (term leaderId : UInt64) (queue : String) (msgId : UInt64)
    (body : Bytes) :
    Overlooks away (replicatePublish term leaderId queue msgId body : Act env (List Frame)) := by
  refine (overlooks_acceptTerm term leaderId).bind fun accepted => ?_
  refine behind_look (fun _ _ => rfl) fun known => ?_
  dsimp only
  split
  · exact behind_perform rfl (couples_pure _)
  · exact couples_pure _

theorem overlooks_replicateAck (term leaderId : UInt64) (queue : String) (msgId : UInt64) :
    Overlooks away (replicateAck term leaderId queue msgId : Act env (List Frame)) := by
  refine (overlooks_acceptTerm term leaderId).bind fun accepted => ?_
  split
  · refine behind_look (fun _ _ => rfl) fun ready => ?_
    dsimp only
    split
    · exact behind_perform rfl (couples_pure _)
    · exact couples_pure _
  · exact couples_pure _

theorem overlooks_dropExpired (queue : String) (now : Instant) (fuel : Nat) :
    Overlooks away (dropExpired queue now fuel : Act env Unit) := by
  induction fuel with
  | zero => exact couples_pure _
  | succ fuel ih =>
    refine behind_look (fun _ _ => rfl) fun expired => ?_
    split
    · exact behind_perform rfl ih
    · exact couples_pure _

theorem overlooks_messageTtlTask (now : Instant) :
    Overlooks away (messageTtlTask now : Act env Unit) :=
  behind_look (fun _ _ => rfl) fun _ => Couples.forM _ fun _ => overlooks_dropExpired _ _ _

theorem overlooks_restart (now : Instant) (auth : AuthBackend)
    (cluster : Option ClusterCoordinator) :
    Overlooks away (perform (.restart now auth cluster) : Act env Unit) := by
  refine couples_perform fun s t equal => ?_
  have wal : t.wal = s.wal := by
    rw [equal.rest]
    rfl
  change (restart env now s.wal.dir auth cluster).EqualBut away
    (restart env now t.wal.dir auth cluster)
  rw [wal]
  exact .refl

/-! Requests. -/

def Op.connection? : Op → Option UInt64
  | disconnect connId | channelOpen connId _ | channelClose connId _ | channelFlow connId _ _
  | exchangeDeclare connId _ | queueDeclare connId _ _ | queueDelete connId _ _ _ _
  | basicPublish connId _ _ _ | basicConsume connId _ _ | basicCancel connId _ _
  | basicAck connId _ _ | basicReject connId _ _ _ | basicNack connId _ _ _ | basicGet connId _ _
  | basicQos connId _ _ _ | txSelect connId | txCommit connId | txRollback connId
  | confirmSelect connId _ _ | closeConnection connId => some connId
  | _ => none

theorem overlooks_handle {op : Op} (other : ∀ connId ∈ op.connection?, ¬ away connId)
    (delivers : ∀ queue answers now, op ≠ .deliverRound queue answers now) :
    Overlooks away (handle op : Act env (List Frame)) := by
  have silently {α : Type} {p : Act env α} (overlooks : Overlooks away p) :
      Overlooks away (silent p) := overlooks.bind fun _ => couples_pure _
  have session (connId : UInt64) (f : ConnectionState → ConnectionState) (frames : List Frame) :
      Overlooks away (do withConnState connId f; return frames : Act env (List Frame)) :=
    (overlooks_withConnState connId f).bind fun _ => couples_pure _
  cases op with
  | connect addr username vhost =>
    exact silently fun s t equal =>
      ⟨equal.nextConnId.symm, equalBut_connect equal (fun _ gone _ => gone) addr username vhost⟩
  | disconnect connId => exact silently (overlooks_removeConnection connId)
  | channelOpen | channelClose | channelFlow | basicQos | txSelect | confirmSelect =>
    exact session _ _ _
  | exchangeDeclare connId args => exact overlooks_exchangeDeclare (other connId rfl) args
  | exchangeDelete name noWait => exact overlooks_exchangeDelete name noWait
  | exchangeBind | exchangeUnbind | createQueueVhost | createExchangeVhost | clusterDeleteQueue
  | clusterPurgeQueue | clusterBindQueue => exact behind_perform rfl (couples_pure _)
  | deleteQueue | deleteExchangeVhost | createBindingEq | deleteBindingEq =>
    exact behind_look (fun _ _ => rfl) fun _ => behind_perform rfl (couples_pure _)
  | queueDeclare connId args now => exact overlooks_queueDeclare (other connId rfl) args now
  | queueDelete => exact overlooks_queueDelete _ _ _ _ _
  | queuePurge => exact overlooks_queuePurge _ _
  | queueBind => exact overlooks_queueBind _ _ _ _
  | queueUnbind => exact overlooks_queueUnbind _ _ _
  | basicPublish connId => exact overlooks_basicPublish (other connId rfl) _ _ _
  | basicConsume connId => exact overlooks_basicConsume (other connId rfl) _ _
  | basicCancel => exact overlooks_basicCancel _ _ _
  | basicAck => exact overlooks_basicAck _ _ _
  | basicReject | basicNack => exact overlooks_basicNack _ _ _ _
  | basicGet => exact overlooks_basicGet _ _ _
  | basicRecover => exact couples_pure _
  | txCommit connId => exact overlooks_txCommit (other connId rfl)
  | txRollback connId => exact overlooks_txRollback (other connId rfl)
  | deliverRound => exact absurd rfl (delivers _ _ _)
  | purgeQueue =>
    refine behind_look (fun _ _ => rfl) fun found => ?_
    split
    · exact couples_pure _
    · exact behind_perform rfl (couples_pure _)
  | clusterDeclareExchange =>
    change Overlooks away (clusterDeclareExchange _ _ _ : Act env (List Frame))
    unfold clusterDeclareExchange
    split
    · exact behind_perform rfl (couples_pure _)
    · exact couples_pure _
  | getMessages => exact overlooks_getMessages _ _ _
  | publishMessage => exact overlooks_publishMessage _ _ _
  | closeConnection connId => exact overlooks_closeConnection (other connId rfl)
  | clusterDeclareQueue => exact overlooks_clusterDeclareQueue _ _ _ _ _ _
  | replicatePublish => exact overlooks_replicatePublish _ _ _ _ _
  | replicateAck => exact overlooks_replicateAck _ _ _ _
  | queueTtlTask => exact silently (behind_look (fun _ _ => rfl) fun _ => overlooks_removeQueues _)
  | messageTtlTask => exact silently (overlooks_messageTtlTask _)
  | walCompactTask => exact silently (overlooks_perform rfl)
  | restart => exact silently (overlooks_restart _ _ _)

/-! Deliveries. -/

section
variable {consumers : List Consumer} (present : ∀ c ∈ consumers, ¬ away c.connId)
include present

theorem overlooks_readyConsumer (start : Nat) : Overlooks away
    (look (readyConsumer · consumers start consumers.length) : Act env (Nat × Option Consumer)) := by
  refine couples_read fun s t equal => ?_
  generalize consumers.length = turns
  induction turns generalizing start with
  | zero => rfl
  | succ turns ih =>
    unfold readyConsumer
    split
    · rfl
    · rename_i c here
      have same := equal.sessions c.connId (present c (List.mem_of_getElem? here))
      have room : hasPrefetchCapacity s c.connId c.channel =
          hasPrefetchCapacity t c.connId c.channel := by
        unfold hasPrefetchCapacity
        rw [same.session]
      rw [room, ih]

theorem overlooks_nextReadyConsumer (queue : String) : Overlooks away
    (nextReadyConsumer queue consumers : Act env (Option Consumer)) := by
  refine behind_look (fun _ _ => rfl) fun start => ?_
  refine (overlooks_readyConsumer present start).bind fun found => ?_
  exact behind_perform rfl (couples_pure _)

omit present in
theorem mem_of_nextReadyConsumer (queue : String) (s : BrokerState) :
    ∀ c ∈ (nextReadyConsumer queue consumers : Act env (Option Consumer)).result s,
      c ∈ consumers := by
  intro c found
  have picked := readyConsumer_picks (Prod.ext rfl found)
  exact List.mem_of_getElem? picked.1

theorem overlooks_deliverOne (queue : String) (taken : Bool) (now : Instant) : Overlooks away
    (deliverOne queue consumers taken now : Act env (Bool × Bool × List Frame)) := by
  refine behind_look (fun _ _ => rfl) fun front => ?_
  split
  · exact couples_pure _
  · refine (overlooks_nextReadyConsumer present queue).bind_of
      (Q := fun found => ∀ c ∈ found, c ∈ consumers) (mem_of_nextReadyConsumer queue)
      fun found picked => ?_
    split
    · exact couples_pure _
    · rename_i c
      have other := present c (picked c rfl)
      refine behind_look (fun _ _ => rfl) fun resolved => ?_
      split
      · exact behind_perform rfl (couples_pure _)
      · refine (overlooks_own other fun s t same => ?_).bind fun sent => ?_
        · exact congrArg (fun sink : Option String => sink.isSome && taken) same.sink
        · dsimp only
          split
          · exact behind_perform rfl (couples_pure _)
          · split
            · exact behind_perform rfl (couples_pure _)
            · refine Couples.bind ?_ fun _ => couples_pure _
              unfold trackInflight
              refine behind_perform rfl (behind_look (fun _ _ => rfl) fun nameArc => ?_)
              refine (overlooks_trackDelivery _ _ _).bind fun _ => behind_perform rfl ?_
              exact overlooks_withChannel _ _ _

theorem overlooks_deliverQueue (queue : String) (now : Instant) (answers : List Bool)
    (delivered : Nat) : Overlooks away
      (deliverQueue queue consumers now answers delivered : Act env (List Frame)) := by
  induction answers generalizing delivered with
  | nil => exact couples_pure _
  | cons taken answers ih =>
    refine (overlooks_deliverOne present queue taken now).bind fun (goesOn, counts, frames) => ?_
    dsimp only
    generalize (if counts = true then delivered + 1 else delivered) = next
    split
    · exact (ih next).bind fun _ => couples_pure _
    · exact couples_pure _

end

theorem couples_deliverRound {s t : BrokerState} (equal : s.EqualBut away t) {queue : String}
    (present : ∀ q ∈ s.queues.get? queue, ∀ c ∈ q.activeConsumers, ¬ away c.connId)
    (answers : List Bool) (now : Instant) :
    (deliverRound queue answers now : Act env (List Frame)).result s =
        (deliverRound queue answers now : Act env (List Frame)).result t ∧
      ((deliverRound queue answers now : Act env (List Frame)).final s).EqualBut away
        ((deliverRound queue answers now : Act env (List Frame)).final t) := by
  unfold deliverRound
  rw [result_bind, result_bind, final_bind, final_bind, result_look, result_look, final_look,
    final_look, equal.queues]
  cases found : s.queues.get? queue with
  | none => exact couples_pure _ _ _ equal
  | some q =>
    dsimp only
    split
    · exact couples_pure _ _ _ equal
    · exact overlooks_deliverQueue (present q found) _ _ _ _ _ _ equal

end

end RocketmqBroker
