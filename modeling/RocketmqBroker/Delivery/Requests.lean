import RocketmqBroker.Broker.Step
import RocketmqBroker.Delivery.View

/-!
Runs request by request, and the requests that deliveries do not depend on: those
that publish, declare, bind, purge or expire messages, whatever their outcome.
-/
namespace RocketmqBroker
open Run.Program

def served (env : Env) (s : BrokerState) (op : Op) : BrokerState :=
  (handle op : Act env (List Frame)).final s

def answer (env : Env) (s : BrokerState) (op : Op) : List Frame :=
  (handle op : Act env (List Frame)).result s

section
variable {env : Env}

theorem final_serve (ops : List Op) (s : BrokerState) :
    (serve ops : Act env (List (List Frame))).final s = Run.run (served env) s ops := by
  induction ops generalizing s with
  | nil => rfl
  | cons op ops ih =>
    unfold serve
    rw [final_bind, final_bind, ih]
    rfl

theorem reached_eq_run (env : Env) (auth : AuthBackend) (cluster : Option ClusterCoordinator)
    (ops : List Op) :
    reached env auth cluster ops = Run.run (served env) (install env auth cluster) ops :=
  final_serve ops _

theorem steps_serve_cons (op : Op) (ops : List Op) (s : BrokerState) :
    (serve (op :: ops) : Act env (List (List Frame))).steps s =
      (handle op : Act env (List Frame)).steps s ++
        (serve ops : Act env (List (List Frame))).steps (served env s op) := by
  change _ ++ (_ ++ []) = _
  rw [List.append_nil]
  rfl

theorem steps_serve_append (before after : List Op) (s : BrokerState) :
    (serve (before ++ after) : Act env (List (List Frame))).steps s =
      (serve before : Act env (List (List Frame))).steps s ++
        (serve after : Act env (List (List Frame))).steps (Run.run (served env) s before) := by
  induction before generalizing s with
  | nil => rfl
  | cons op before ih =>
    rw [List.cons_append, steps_serve_cons, steps_serve_cons, ih, List.append_assoc]
    rfl

theorem along_serve {allowed : BrokerState → Effect → Prop} (ops : List Op) (s : BrokerState) :
    Run.Along (exec env) allowed s ((serve ops : Act env (List (List Frame))).steps s) ↔
      Run.Along (served env) (fun s op => Run.Along (exec env) allowed s
        ((handle op : Act env (List Frame)).steps s)) s ops := by
  induction ops generalizing s with
  | nil => exact Iff.rfl
  | cons op ops ih =>
    rw [steps_serve_cons, Run.along_append]
    exact and_congr_right fun _ => ih _

abbrev LeavesView {α : Type} (p : Act env α) : Prop := Leaves BrokerState.view p

theorem quiet_perform {e : Effect} (quiet : e.isQuiet = true) :
    LeavesView (perform e : Act env Unit) := leaves_perform fun _ => view_quiet quiet

theorem quiet_look {α : Type} (f : BrokerState → α) : LeavesView (look f : Act env α) :=
  leaves_read f

theorem quiet_change {b : Bookkeeping} (still : ∀ s, (b.apply s).view = s.view) :
    LeavesView (change b : Act env Unit) := leaves_perform fun s => by
  rw [view_inMemory]
  exact still s

theorem quiet_tune {queue : String} {t : Tuning} (still : ∀ q, (t.apply q).view = q.view) :
    LeavesView (perform (.tune queue t) : Act env Unit) := leaves_perform fun s => by
  rw [view_inMemory]
  exact view_modifyQueue still

theorem quiet_createQueue {name : String} {q : NewQueue} (logs : Bool)
    (schema : Option CompiledSchema) (unused : q.state.view = .missing name) :
    LeavesView (perform (.createQueue name q logs schema) : Act env Unit) :=
  leaves_perform fun _ => view_createQueue logs schema unused

theorem quiet_withChannel {connId : UInt64} {channel : UInt16} {f : ChannelState → ChannelState}
    (still : ∀ ch, (f ch).prefetchCount = ch.prefetchCount ∧
      (f ch).unackedCount = ch.unackedCount) :
    LeavesView (withChannel connId channel f : Act env Unit) :=
  quiet_change fun _ => view_modifyChannel still

theorem quiet_withConnState {connId : UInt64} {f : ConnectionState → ConnectionState}
    (still : ∀ cs, (f cs).channels = cs.channels) :
    LeavesView (withConnState connId f : Act env Unit) :=
  quiet_change fun _ => view_modifyConn still

theorem quiet_sendChannelError (code : Nat) (text : String) (classId methodId : Nat) :
    LeavesView (sendChannelError code text classId methodId : Act env (List Frame)) := leaves_pure _

theorem quiet_denied (connId : UInt64) (extractor : Permission → String) (resource : String) :
    LeavesView (denied connId extractor resource : Act env Bool) := leaves_read _

theorem quiet_setNextSchemaId (nextSchemaId : UInt64) :
    LeavesView (change (.setNextSchemaId nextSchemaId) : Act env Unit) := quiet_change fun _ => rfl

/-! Exchanges. -/

theorem quiet_declareActiveExchange (connId : UInt64) (args : ExchangeDeclareArgs) :
    LeavesView (declareActiveExchange connId args : Act env (Option (List Frame))) := by
  unfold declareActiveExchange
  split
  · exact (quiet_sendChannelError _ _ _ _).bind fun _ => leaves_pure _
  · refine (quiet_denied _ _ _).bind fun refused => ?_
    split
    · exact (quiet_sendChannelError _ _ _ _).bind fun _ => leaves_pure _
    · split
      · exact (quiet_sendChannelError _ _ _ _).bind fun _ => leaves_pure _
      · refine (quiet_look _).bind fun isNew => ?_
        exact (quiet_perform rfl).bind fun _ => leaves_pure _

theorem quiet_exchangeDeclare (connId : UInt64) (args : ExchangeDeclareArgs) :
    LeavesView (exchangeDeclare connId args : Act env (List Frame)) := by
  unfold exchangeDeclare
  split
  · refine (quiet_look _).bind fun known => ?_
    split
    · exact leaves_pure _
    · exact quiet_sendChannelError _ _ _ _
  · refine (quiet_declareActiveExchange connId args).bind fun failed => ?_
    cases failed <;> exact leaves_pure _

theorem quiet_exchangeDelete (name : String) (noWait : Bool) :
    LeavesView (exchangeDelete name noWait : Act env (List Frame)) := by
  unfold exchangeDelete
  split
  · exact quiet_sendChannelError _ _ _ _
  · exact (quiet_perform rfl).bind fun _ => leaves_pure _

/-! Queues. -/

theorem quiet_compileQueueSchema (opts : QueueOptions) :
    LeavesView
      (compileQueueSchema opts : Act env (Except SchemaError (Option CompiledSchema))) := by
  unfold compileQueueSchema
  split
  · exact leaves_pure _
  · dsimp only
    split
    · exact leaves_pure _
    · split
      · exact leaves_pure _
      · refine (quiet_look _).bind fun found => ?_
        refine (quiet_setNextSchemaId _).bind fun _ => ?_
        split <;> exact leaves_pure _

theorem quiet_declareSchema (name : String) (arguments : FieldTable)
    (compiled : Option CompiledSchema) :
    LeavesView (declareSchema name arguments compiled : Act env (Option String)) := by
  unfold declareSchema
  split
  · exact (quiet_tune fun _ => by rfl).bind fun _ => leaves_pure _
  · split
    · exact leaves_pure _
    · refine (quiet_look _).bind fun conflict => ?_
      split
      · exact leaves_pure _
      · exact (quiet_tune fun _ => by rfl).bind fun _ => leaves_pure _

theorem quiet_sendDeclareOk (name : String) (noWait : Bool) :
    LeavesView (sendDeclareOk name noWait : Act env (List Frame)) := by
  unfold sendDeclareOk
  split
  · exact leaves_pure _
  · exact quiet_look _

theorem quiet_declareActive (connId : UInt64) (name : String) (args : QueueDeclareArgs)
    (now : Instant) : LeavesView (declareActive connId name args now : Act env (List Frame)) := by
  unfold declareActive
  refine (quiet_look _).bind fun found => ?_
  dsimp only
  split
  · exact quiet_sendChannelError _ _ _ _
  · refine (quiet_compileQueueSchema _).bind fun result => ?_
    split
    · exact quiet_sendChannelError _ _ _ _
    · have declared {rest : Option String → Act env (List Frame)}
          (compiled : Option CompiledSchema) (refused : ∀ text, LeavesView (rest (some text)))
          (bound : LeavesView (rest none)) :
          LeavesView (declareSchema name args.arguments compiled >>= rest) := by
        refine (quiet_declareSchema _ _ _).bind fun failed => ?_
        cases failed with
        | some text => exact refused text
        | none => exact bound
      have bound : LeavesView (do
          perform (.bind "" ⟨name, name, none⟩ false)
          sendDeclareOk name args.noWait : Act env (List Frame)) :=
        (quiet_perform rfl).bind fun _ => quiet_sendDeclareOk _ _
      split
      · refine (quiet_createQueue _ _ rfl).bind fun _ => ?_
        split
        · refine (quiet_change fun _ => rfl).bind fun _ => ?_
          exact declared _ (fun _ => quiet_sendChannelError _ _ _ _) bound
        · exact declared _ (fun _ => quiet_sendChannelError _ _ _ _) bound
      · exact declared _ (fun _ => quiet_sendChannelError _ _ _ _) bound

theorem quiet_declareNamed (connId : UInt64) (args : QueueDeclareArgs) (now : Instant)
    (name : String) :
    LeavesView (queueDeclare.declareNamed connId args now name : Act env (List Frame)) := by
  unfold queueDeclare.declareNamed
  split
  · refine (quiet_look _).bind fun known => ?_
    split
    · exact quiet_sendDeclareOk _ _
    · exact quiet_sendChannelError _ _ _ _
  · refine (quiet_denied _ _ _).bind fun refused => ?_
    split
    · exact quiet_sendChannelError _ _ _ _
    · exact quiet_declareActive _ _ _ _

theorem quiet_queueDeclare (connId : UInt64) (args : QueueDeclareArgs) (now : Instant) :
    LeavesView (queueDeclare connId args now : Act env (List Frame)) := by
  unfold queueDeclare
  split
  · refine (quiet_look _).bind fun msgId => ?_
    exact (quiet_perform rfl).bind fun _ => quiet_declareNamed _ _ _ _
  · split
    · exact quiet_sendChannelError _ _ _ _
    · exact quiet_declareNamed _ _ _ _

theorem quiet_queuePurge (name : String) (noWait : Bool) :
    LeavesView (queuePurge name noWait : Act env (List Frame)) := by
  unfold queuePurge
  refine (quiet_look _).bind fun found => ?_
  split
  · exact quiet_sendChannelError _ _ _ _
  · exact (quiet_perform rfl).bind fun _ => leaves_pure _

theorem quiet_queueBind (queue exchange routingKey : String) (noWait : Bool) :
    LeavesView (queueBind queue exchange routingKey noWait : Act env (List Frame)) := by
  unfold queueBind
  refine (quiet_look _).bind fun known => ?_
  split
  · exact quiet_sendChannelError _ _ _ _
  · refine (quiet_look _).bind fun known => ?_
    split
    · exact quiet_sendChannelError _ _ _ _
    · exact (quiet_perform rfl).bind fun _ => leaves_pure _

theorem quiet_queueUnbind (queue exchange routingKey : String) :
    LeavesView (queueUnbind queue exchange routingKey : Act env (List Frame)) := by
  unfold queueUnbind
  refine (quiet_look _).bind fun known => ?_
  split
  · exact quiet_sendChannelError _ _ _ _
  · refine (quiet_look _).bind fun known => ?_
    split
    · exact quiet_sendChannelError _ _ _ _
    · exact (quiet_perform rfl).bind fun _ => leaves_pure _

/-! Publishing. -/

theorem quiet_allocConfirmTag (connId : UInt64) (channel : UInt16) :
    LeavesView (allocConfirmTag connId channel : Act env (Option UInt64)) := by
  unfold allocConfirmTag
  refine (quiet_look _).bind fun found => ?_
  split
  · exact leaves_pure _
  · split
    · exact leaves_pure _
    · exact (quiet_withChannel fun _ => by exact ⟨rfl, rfl⟩).bind fun _ => leaves_pure _

theorem quiet_bufferTxPublish (connId : UInt64) (args : PublishArgs) :
    LeavesView (bufferTxPublish connId args : Act env Bool) := by
  unfold bufferTxPublish
  refine (quiet_look _).bind fun txMode => ?_
  split
  · exact (quiet_withConnState fun _ => by rfl).bind fun _ => leaves_pure _
  · exact leaves_pure _

theorem quiet_evictOverflow (queue : String) (maxLen fuel : Nat) :
    LeavesView (evictOverflow queue maxLen fuel : Act env Unit) := by
  induction fuel with
  | zero => exact leaves_pure _
  | succ fuel ih =>
    unfold evictOverflow
    refine (quiet_look _).bind fun tooLong => ?_
    split
    · exact (quiet_perform rfl).bind fun _ => ih
    · exact leaves_pure _

theorem quiet_enqueueSingle (queue : String) (ctx : EnqueueCtx) (now : Instant) :
    LeavesView (enqueueSingle queue ctx now : Act env Unit) := by
  unfold enqueueSingle
  refine (quiet_look _).bind fun found => ?_
  split
  · exact quiet_perform rfl
  · split
    · exact (quiet_evictOverflow _ _ _).bind fun _ => quiet_perform rfl
    · exact quiet_perform rfl

theorem quiet_basicPublish (connId : UInt64) (channel : UInt16) (args : PublishArgs)
    (now : Instant) : LeavesView (basicPublish connId channel args now : Act env (List Frame)) := by
  unfold basicPublish
  refine (quiet_denied _ _ _).bind fun refused => ?_
  split
  · exact quiet_sendChannelError _ _ _ _
  · refine (quiet_allocConfirmTag _ _).bind fun tag => ?_
    refine (quiet_bufferTxPublish _ _).bind fun buffered => ?_
    split
    · exact leaves_pure _
    · refine (quiet_look _).bind fun found => ?_
      split
      · exact leaves_pure _
      · dsimp only
        split
        · exact leaves_pure _
        · refine (quiet_look _).bind fun failure => ?_
          split
          · exact (quiet_sendChannelError _ _ _ _).bind fun _ => leaves_pure _
          · exact (Leaves.forM _ fun _ => quiet_enqueueSingle _ _ _).bind fun _ => leaves_pure _

theorem quiet_drainTxBuffer (connId : UInt64) :
    LeavesView (drainTxBuffer connId : Act env (Option (List PendingOp))) := by
  unfold drainTxBuffer
  refine (quiet_look _).bind fun found => ?_
  split
  · exact leaves_pure _
  · exact (quiet_withConnState fun _ => by rfl).bind fun _ => leaves_pure _

theorem result_drainTxBuffer (connId : UInt64) :
    (drainTxBuffer connId : Act env (Option (List PendingOp))).result s =
      ((s.connState.get? connId).filter (·.txMode)).map (·.txBuffer) := by
  unfold drainTxBuffer
  rw [result_bind, result_look, final_look]
  cases (s.connState.get? connId).filter (·.txMode) <;> rfl

theorem quiet_txRollback (connId : UInt64) :
    LeavesView (txRollback connId : Act env (List Frame)) := by
  unfold txRollback
  refine (quiet_drainTxBuffer _).bind fun drained => ?_
  split
  · exact quiet_sendChannelError _ _ _ _
  · exact leaves_pure _

/-! Management, cluster and timers. -/

theorem quiet_purgeQueue (name : String) : LeavesView (purgeQueue name : Act env (List Frame)) := by
  unfold purgeQueue
  refine (quiet_look _).bind fun found => ?_
  split
  · exact leaves_pure _
  · exact (quiet_perform rfl).bind fun _ => leaves_pure _

theorem quiet_getMessage (queue : String) (requeue : Bool) :
    LeavesView (getMessage queue requeue : Act env (List (Bytes × Nat))) := by
  unfold getMessage
  refine (quiet_look _).bind fun popped => ?_
  split
  · exact leaves_pure _
  · refine (quiet_look _).bind fun resolved => ?_
    split
    · exact (quiet_perform rfl).bind fun _ => leaves_pure _
    · cases requeue <;> exact (quiet_perform rfl).bind fun _ => leaves_pure _

theorem quiet_getMessages (queue : String) (count : Nat) (ackMode : String) :
    LeavesView (getMessages queue count ackMode : Act env (List Frame)) := by
  unfold getMessages
  refine (quiet_look _).bind fun found => ?_
  split
  · exact leaves_pure _
  · exact (Leaves.mapM _ fun _ => quiet_getMessage _ _).bind fun _ => leaves_pure _

theorem quiet_publishMessage (exchange routingKey : String) (payload : Bytes) :
    LeavesView (publishMessage exchange routingKey payload : Act env (List Frame)) := by
  unfold publishMessage
  refine (quiet_look _).bind fun msgId => ?_
  refine (quiet_perform rfl).bind fun _ => ?_
  refine (quiet_look _).bind fun found => ?_
  split
  · exact leaves_pure _
  · exact (Leaves.forM _ fun _ => quiet_perform rfl).bind fun _ => leaves_pure _

theorem quiet_clusterDeclareQueue (name : String) (durable exclusive autoDelete : Bool)
    (queueType : String) (now : Instant) :
    LeavesView (clusterDeclareQueue name durable exclusive autoDelete queueType now :
      Act env (List Frame)) := by
  unfold clusterDeclareQueue
  refine (quiet_look _).bind fun known => ?_
  split
  · refine (quiet_createQueue _ _ rfl).bind fun _ => ?_
    exact (quiet_perform rfl).bind fun _ => leaves_pure _
  · exact leaves_pure _

theorem quiet_clusterDeclareExchange (name kind : String) (durable : Bool) :
    LeavesView (clusterDeclareExchange name kind durable : Act env (List Frame)) := by
  unfold clusterDeclareExchange
  split
  · exact (quiet_perform rfl).bind fun _ => leaves_pure _
  · exact leaves_pure _

theorem quiet_acceptTerm (term leaderId : UInt64) :
    LeavesView (acceptTerm term leaderId : Act env Bool) := by
  unfold acceptTerm
  refine (quiet_look _).bind fun found => ?_
  split
  · exact leaves_pure _
  · split
    · exact leaves_pure _
    · split
      · exact (quiet_change fun _ => rfl).bind fun _ => leaves_pure _
      · exact leaves_pure _

theorem quiet_replicatePublish (term leaderId : UInt64) (queue : String) (msgId : UInt64)
    (body : Bytes) :
    LeavesView (replicatePublish term leaderId queue msgId body : Act env (List Frame)) := by
  unfold replicatePublish
  refine (quiet_acceptTerm _ _).bind fun accepted => ?_
  refine (quiet_look _).bind fun known => ?_
  dsimp only
  split
  · exact (quiet_perform rfl).bind fun _ => leaves_pure _
  · exact leaves_pure _

theorem quiet_replicateAck (term leaderId : UInt64) (queue : String) (msgId : UInt64) :
    LeavesView (replicateAck term leaderId queue msgId : Act env (List Frame)) := by
  unfold replicateAck
  refine (quiet_acceptTerm _ _).bind fun accepted => ?_
  split
  · refine (quiet_look _).bind fun ready => ?_
    split
    · exact (quiet_perform rfl).bind fun _ => leaves_pure _
    · exact leaves_pure _
  · exact leaves_pure _

theorem quiet_dropExpired (queue : String) (now : Instant) (fuel : Nat) :
    LeavesView (dropExpired queue now fuel : Act env Unit) := by
  induction fuel with
  | zero => exact leaves_pure _
  | succ fuel ih =>
    unfold dropExpired
    refine (quiet_look _).bind fun expired => ?_
    split
    · exact (quiet_perform rfl).bind fun _ => ih
    · exact leaves_pure _

theorem quiet_messageTtlTask (now : Instant) : LeavesView (messageTtlTask now : Act env Unit) := by
  unfold messageTtlTask
  refine (quiet_look _).bind fun queues => ?_
  exact Leaves.forM _ fun _ => quiet_dropExpired _ _ _

end

def Op.isQuiet : Op → Bool
  | connect _ _ _ => false
  | disconnect _ => false
  | channelOpen _ _ => false
  | channelClose _ _ => false
  | queueDelete _ _ _ _ _ => false
  | basicConsume _ _ _ => false
  | basicAck _ _ _ => false
  | basicReject _ _ _ _ => false
  | basicNack _ _ _ _ => false
  | basicGet _ _ _ => false
  | basicQos _ _ _ _ => false
  | txCommit _ => false
  | deliverRound _ _ _ => false
  | deleteQueue _ => false
  | closeConnection _ => false
  | clusterDeleteQueue _ => false
  | queueTtlTask _ => false
  | restart _ _ _ => false
  | _ => true

theorem quiet_handle {env : Env} {op : Op} (quiet : op.isQuiet = true) :
    LeavesView (handle op : Act env (List Frame)) := by
  cases op with
  | channelFlow connId channel active =>
    exact (quiet_withChannel fun _ => by exact ⟨rfl, rfl⟩).bind fun _ => leaves_pure _
  | exchangeDeclare connId args => exact quiet_exchangeDeclare _ _
  | exchangeDelete name noWait => exact quiet_exchangeDelete _ _
  | exchangeBind | exchangeUnbind | createExchangeVhost | clusterPurgeQueue | clusterBindQueue =>
    exact (quiet_perform rfl).bind fun _ => leaves_pure _
  | deleteExchangeVhost | createBindingEq | deleteBindingEq =>
    exact (quiet_look _).bind fun _ => (quiet_perform rfl).bind fun _ => leaves_pure _
  | queueDeclare connId args now => exact quiet_queueDeclare _ _ _
  | queuePurge name noWait => exact quiet_queuePurge _ _
  | queueBind queue exchange routingKey noWait => exact quiet_queueBind _ _ _ _
  | queueUnbind queue exchange routingKey => exact quiet_queueUnbind _ _ _
  | basicPublish connId channel args now => exact quiet_basicPublish _ _ _ _
  | basicCancel connId tag noWait =>
    exact (quiet_change fun _ => rfl).bind fun _ => leaves_pure _
  | basicRecover => exact leaves_pure _
  | txSelect connId => exact (quiet_withConnState fun _ => by rfl).bind fun _ => leaves_pure _
  | txRollback connId => exact quiet_txRollback _
  | confirmSelect connId channel noWait =>
    exact (quiet_withChannel fun _ => by exact ⟨rfl, rfl⟩).bind fun _ => leaves_pure _
  | createQueueVhost name req now =>
    exact (quiet_createQueue _ _ rfl).bind fun _ => leaves_pure _
  | purgeQueue name => exact quiet_purgeQueue _
  | getMessages queue count ackMode => exact quiet_getMessages _ _ _
  | publishMessage exchange routingKey payload => exact quiet_publishMessage _ _ _
  | clusterDeclareQueue name durable exclusive autoDelete queueType now =>
    exact quiet_clusterDeclareQueue _ _ _ _ _ _
  | clusterDeclareExchange name kind durable => exact quiet_clusterDeclareExchange _ _ _
  | replicatePublish term leaderId queue msgId body => exact quiet_replicatePublish _ _ _ _ _
  | replicateAck term leaderId queue msgId => exact quiet_replicateAck _ _ _ _
  | messageTtlTask now => exact (quiet_messageTtlTask now).bind fun _ => leaves_pure _
  | walCompactTask => exact (quiet_perform rfl).bind fun _ => leaves_pure _
  | connect | disconnect | channelOpen | channelClose | queueDelete | basicConsume | basicAck
  | basicReject | basicNack | basicGet | basicQos | txCommit | deliverRound | deleteQueue
  | closeConnection | clusterDeleteQueue | queueTtlTask | restart => contradiction

theorem view_served_quiet {env : Env} {op : Op} (quiet : op.isQuiet = true) (s : BrokerState) :
    (served env s op).view = s.view := quiet_handle quiet s

end RocketmqBroker
