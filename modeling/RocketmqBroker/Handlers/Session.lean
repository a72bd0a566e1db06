import RocketmqBroker.Handlers.Basic

/-!
Connections, channels, transactions and confirms
(protocol/amqp/handlers/dispatch.rs, protocol/amqp/handlers/tx.rs,
protocol/amqp/connection_loop.rs, state/broker.rs).
-/
namespace RocketmqBroker

def methodTxCommit : Nat := 20
def methodTxRollback : Nat := 30

section
variable {env : Env}

def connect (addr username vhost : String) : Act env UInt64 := do
  let connId ← look fun s => s.nextConnId
  change { apply := fun s => { s with
    nextConnId := s.nextConnId + 1
    connections := s.connections.insert connId addr
    connState := s.connState.insert connId { ConnectionState.new with username, vhost } } }
  return connId

def channelOpen (connId : UInt64) (channel : UInt16) : Act env (List Frame) := do
  withConnState connId fun cs => { cs with channels := cs.channels.orInsert channel .new }
  return [.channelOpenOk]

/-- Consumers and deliveries of the channel are left alone. -/
def channelClose (connId : UInt64) (channel : UInt16) : Act env (List Frame) := do
  withConnState connId fun cs => { cs with channels := cs.channels.erase channel }
  return [.channelCloseOk]

def channelFlow (connId : UInt64) (channel : UInt16) (active : Bool) : Act env (List Frame) := do
  withChannel connId channel fun ch => { ch with flowActive := active }
  return [.channelFlowOk active]

def txSelect (connId : UInt64) : Act env (List Frame) := do
  withConnState connId fun cs => { cs with txMode := true, txBuffer := [] }
  return [.txSelectOk]

def drainTxBuffer (connId : UInt64) : Act env (Option (List PendingOp)) := do
  match ← look fun s => (s.connState.get? connId).filter (·.txMode) with
  | none => return none
  | some cs =>
    withConnState connId fun cs => { cs with txBuffer := [] }
    return some cs.txBuffer

def notInTx (methodId : Nat) : Act env (List Frame) :=
  sendChannelError preconditionFailed "PRECONDITION_FAILED - not in tx mode" classTx methodId

/-- The routing key is taken for the name of a queue. -/
def txSchemaFailure (env : Env) (s : BrokerState) (ops : List PendingOp) :
    Option (String × String) :=
  ops.findSome? fun
    | .publish _ routingKey _ body => schemaFailure env s [routingKey] body
    | .ack _ => none

def applyTxOp (connId : UInt64) : PendingOp → Act env Unit
  | .publish exchange routingKey headers body =>
    perform (.enqueueFull routingKey exchange routingKey headers body)
  | .ack msgId => do
    match ← takeDelivery msgId with
    | none => return ()
    | some queue =>
      perform (.settle queue msgId)
      untrackDelivery connId msgId

/-- A schema failure loses the whole transaction: the buffer is already empty. -/
def txCommit (connId : UInt64) : Act env (List Frame) := do
  match ← drainTxBuffer connId with
  | none => notInTx methodTxCommit
  | some ops =>
    match ← look fun s => txSchemaFailure env s ops with
    | some (queue, description) =>
      sendChannelError preconditionFailed (env.schemaReplyText queue (.validation description))
        classTx methodTxCommit
    | none =>
      ops.forM (applyTxOp connId)
      return [.txCommitOk]

def txRollback (connId : UInt64) : Act env (List Frame) := do
  match ← drainTxBuffer connId with
  | none => notInTx methodTxRollback
  | some _ => return [.txRollbackOk]

def confirmSelect (connId : UInt64) (channel : UInt16) (noWait : Bool) : Act env (List Frame) := do
  withChannel connId channel fun ch => { ch with confirmMode := true, nextDeliveryTag := 1 }
  return if noWait then [] else [.confirmSelectOk]

def requeueDelivery (delivery : String × UInt64) : Act env Unit := do
  change { apply := fun s => { s with deliveryIndex := s.deliveryIndex.erase delivery.2 } }
  perform (.requeue delivery.1 delivery.2 false)

def dropListeners (connId : UInt64) : Tuning where
  apply q := { q with
    listeners := q.listeners.filter fun l => l.1 != connId
    consumerTags := q.consumerTags.retain fun _ c => c.1 != connId }

def removeQueues (names : List String) : Act env Unit :=
  names.forM fun name => perform (.removeQueue name)

def removeConnection (connId : UInt64) : Act env Unit := do
  change (.dropConnection connId)
  let exclusive ← look fun s => (s.connExclusiveQueues.get? connId).getD []
  change { apply := fun s => { s with
    connExclusiveQueues := s.connExclusiveQueues.erase connId } }
  removeQueues exclusive
  let deliveries ← look fun s => (s.connDeliveries.get? connId).getD []
  change { apply := fun s => { s with connDeliveries := s.connDeliveries.erase connId } }
  deliveries.forM requeueDelivery
  let tags ← look fun s => s.queues.entries.flatMap fun e =>
    (e.2.consumerTags.entries.filter fun c => c.2.1 == connId).map Sigma.fst
  change { apply := fun s => { s with
    consumerIndex := tags.foldl (fun index tag => index.erase tag) s.consumerIndex } }
  perform (.tuneAll (dropListeners connId))
  let owned ← look fun s =>
    (s.queues.retain fun _ q => q.options.exclusive && q.ownerConnId == some connId).keys
  removeQueues owned
  let unused ← look fun s =>
    (s.queues.retain fun _ q => q.options.autoDelete && q.listeners.isEmpty).keys
  removeQueues unused

end
end RocketmqBroker
