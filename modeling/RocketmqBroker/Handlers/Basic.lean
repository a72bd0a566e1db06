import RocketmqBroker.Handlers.Frame

/-!
The Basic class (protocol/amqp/handlers/basic.rs): publishing with routing,
schema checks, eviction and persistence, consuming, acknowledging and fetching.
-/
namespace RocketmqBroker

def methodBasicConsume : Nat := 20
def methodBasicPublish : Nat := 40
def methodBasicGet : Nat := 70

structure PublishArgs where
  exchange : String
  routingKey : String
  mandatory : Bool
  properties : BasicProperties
  body : Bytes

/-- `s.parse::<u64>()`. -/
def parseMillis (text : String) : Option Nat :=
  (parseU64 text.toList).filter (· < 2 ^ 64)

def PublishArgs.ctx (args : PublishArgs) : EnqueueCtx where
  exchange := args.exchange
  routingKey := args.routingKey
  propBytes := args.properties.encode
  bodyBytes := args.body
  isPersistent := args.properties.deliveryMode == some 2
  priority := args.properties.priority.getD 0
  perMsgTtl := args.properties.expiration.bind parseMillis

section
variable {env : Env}

def allocConfirmTag (connId : UInt64) (channel : UInt16) : Act env (Option UInt64) := do
  match ← look fun s => s.channel? connId channel with
  | none => return none
  | some ch =>
    if !ch.confirmMode then return none
    else
      withChannel connId channel fun ch => { ch with nextDeliveryTag := ch.nextDeliveryTag + 1 }
      return some ch.nextDeliveryTag

def bufferTxPublish (connId : UInt64) (args : PublishArgs) : Act env Bool := do
  let txMode ← look fun s => (s.connState.get? connId).any (·.txMode)
  if txMode then
    withConnState connId fun cs => { cs with
      txBuffer := cs.txBuffer ++
        [.publish args.exchange args.routingKey args.properties.encode args.body] }
  return txMode

def resolvePublishHeaders (env : Env) (properties : BasicProperties) : List (String × String) :=
  (properties.headers.getD []).map fun (k, v) => (k, env.debugFormat v)

/-- `while len >= max_length` with at most as many turns as there are messages. -/
def evictOverflow (queue : String) (maxLen : Nat) : Nat → Act env Unit
  | 0 => return ()
  | fuel + 1 => do
    let tooLong ← look fun s => (s.queues.get? queue).any fun q =>
      q.messages.len ≥ maxLen && !q.messages.isEmpty
    if tooLong then
      perform (.popOldest queue)
      evictOverflow queue maxLen fuel

/-- `alloc_msg_id` and `enqueue_single`: the id is taken also when the queue is
    gone. -/
def enqueueSingle (queue : String) (ctx : EnqueueCtx) (now : Instant) : Act env Unit := do
  match ← look fun s => s.queues.get? queue with
  | none => perform (.enqueue queue ctx now)
  | some q =>
    match q.options.maxLength with
    | some maxLen => evictOverflow queue maxLen q.messages.len
    | none => pure ()
    perform (.enqueue queue ctx now)

def schemaFailure (env : Env) (s : BrokerState) (targets : List String) (body : Bytes) :
    Option (String × String) :=
  targets.findSome? fun queue => do
    let q ← s.queues.get? queue
    let schema ← q.schema
    let description ← env.validateMessage schema body
    return (queue, description)

def confirmAck (tag : Option UInt64) : List Frame := tag.toList.map .basicAck

def handleNoRoute (args : PublishArgs) (tag : Option UInt64) : List Frame :=
  let returned := if args.mandatory then
    [.basicReturn noRoute "NO_ROUTE" args.exchange args.routingKey args.properties.encode args.body]
    else []
  returned ++ confirmAck tag

/-- An unknown exchange is confirmed without a word. -/
def basicPublish (connId : UInt64) (channel : UInt16) (args : PublishArgs) (now : Instant) :
    Act env (List Frame) := do
  if ← denied connId (·.write) args.exchange then denyAccess classBasic methodBasicPublish
  else
    let tag ← allocConfirmTag connId channel
    if ← bufferTxPublish connId args then return []
    else
      match ← look fun s => s.exchanges.get? args.exchange with
      | none => return confirmAck tag
      | some ex =>
        let headers := resolvePublishHeaders env args.properties
        let targets := ex.routeEach args.routingKey headers
        if targets.isEmpty then return handleNoRoute args tag
        else
          match ← look fun s => schemaFailure env s targets args.body with
          | some (queue, description) =>
            let text := env.schemaReplyText queue (.validation description)
            let close ← sendChannelError preconditionFailed text classBasic methodBasicPublish
            -- without the close the handler has panicked, and does not come to the nack
            return if close.isEmpty then [] else close ++ tag.toList.map .basicNack
          | none =>
            targets.forM fun queue => enqueueSingle queue args.ctx now
            return confirmAck tag

structure ConsumeArgs where
  queue : String
  consumerTag : String
  noAck : Bool
  exclusive : Bool
  noWait : Bool
  arguments : FieldTable

def validateConsumerSchema (args : ConsumeArgs) : Act env (Option String) :=
  match args.arguments.longString? "x-consumer-schema" with
  | none => return none
  | some raw =>
    match args.arguments.longString? "x-consumer-schema-message" with
    | none =>
      let text := "PRECONDITION_FAILED - x-consumer-schema-message required with x-consumer-schema"
      return some text
    | some messageName => do
      let (nextSchemaId, compiled) ← look fun s =>
        compileProto env.proto s.nextSchemaId raw (fromUtf8Lossy messageName)
      change (.setNextSchemaId nextSchemaId)
      match compiled with
      | .error _ => return some (env.schemaReplyText args.queue .schemaCompileFailed)
      | .ok consumer =>
        let failure ← look fun s => do
          let q ← s.queues.get? args.queue
          let schema ← q.schema
          env.checkConsumerSubset schema consumer
        return failure.map fun description =>
          env.schemaReplyText args.queue (.validation description)

def basicConsume (connId : UInt64) (channel : UInt16) (args : ConsumeArgs) :
    Act env (List Frame) := do
  let busy ← look fun s => (s.queues.get? args.queue).any fun q => !q.consumerTags.keys.isEmpty
  if ← denied connId (·.read) args.queue then denyAccess classBasic methodBasicConsume
  else if args.exclusive && busy then
    sendChannelError accessRefused "ACCESS_REFUSED - exclusive consumer exists" classBasic
      methodBasicConsume
  else
    match ← validateConsumerSchema args with
    | some text => sendChannelError preconditionFailed text classBasic methodBasicConsume
    | none =>
      if !(← look fun s => s.queues.contains args.queue) then
        sendChannelError notFound "NOT_FOUND - no such queue" classBasic methodBasicConsume
      else
        let tag ← assignTag
        perform (.tune args.queue { apply := fun q => q.addConsumer connId channel tag args.noAck })
        change { apply := fun s => s.registerConsumer connId channel args.queue tag }
        return if args.noWait then [] else [.basicConsumeOk tag]
where
  assignTag : Act env String := do
    if args.consumerTag.isEmpty then
      let seq ← look fun s => s.nextConsumerTag
      change { apply := fun s => { s with nextConsumerTag := s.nextConsumerTag + 1 } }
      return "ctag-" ++ toString connId ++ "-" ++ toString seq
    else return args.consumerTag

/-- The queue keeps the consumer: only the indices of the connection forget it. -/
def basicCancel (connId : UInt64) (tag : String) (noWait : Bool) : Act env (List Frame) := do
  change { apply := fun s => s.deregisterConsumer connId tag }
  return if noWait then [] else [.basicCancelOk tag]

def decrementUnacked (connId : UInt64) (channel : UInt16) : Act env Unit :=
  withChannel connId channel fun ch =>
    if ch.unackedCount > 0 then { ch with unackedCount := ch.unackedCount - 1 } else ch

def untrackDelivery (connId tag : UInt64) : Act env Unit :=
  change { apply := fun s => { s with
    connDeliveries := s.connDeliveries.modify connId (List.filter fun d => d.2 != tag) } }

/-- The queue a tag was delivered from, if the message is still in flight there.
    The index forgets the tag in any case. -/
def takeDelivery (tag : UInt64) : Act env (Option String) := do
  let queue ← look fun s => s.deliveryIndex.get? tag
  change { apply := fun s => { s with deliveryIndex := s.deliveryIndex.erase tag } }
  look fun s => queue.filter fun name =>
    (s.queues.get? name).any fun q => q.inflight.contains tag

/-- The `multiple` flag is read and ignored. -/
def basicAck (connId : UInt64) (channel : UInt16) (tag : UInt64) : Act env (List Frame) := do
  decrementUnacked connId channel
  match ← takeDelivery tag with
  | none => return []
  | some queue =>
    perform (.settle queue tag)
    untrackDelivery connId tag
    return []

def resolveNegativeDelivery (connId tag : UInt64) (requeue : Bool) : Act env Unit := do
  match ← takeDelivery tag with
  | none => return ()
  | some queue =>
    untrackDelivery connId tag
    if requeue then perform (.requeue queue tag true) else perform (.discard queue tag)

def basicReject (connId : UInt64) (channel : UInt16) (tag : UInt64) (requeue : Bool) :
    Act env (List Frame) := do
  decrementUnacked connId channel
  resolveNegativeDelivery connId tag requeue
  return []

/-- The `multiple` flag is read and ignored. -/
def basicNack (connId : UInt64) (channel : UInt16) (tag : UInt64) (requeue : Bool) :
    Act env (List Frame) := do
  decrementUnacked connId channel
  resolveNegativeDelivery connId tag requeue
  return []

def trackDelivery (connId : UInt64) (queue : String) (tag : UInt64) : Act env Unit :=
  change { apply := fun s => { s with
    deliveryIndex := s.deliveryIndex.insert tag queue
    connDeliveries := s.connDeliveries.insert connId
      ((s.connDeliveries.get? connId).getD [] ++ [(queue, tag)]) } }

/-- The unacked count of the channel is not touched. -/
def basicGet (connId : UInt64) (queue : String) (noAck : Bool) : Act env (List Frame) := do
  match ← look fun s => s.queues.get? queue with
  | none => sendChannelError notFound "NOT_FOUND - no such queue" classBasic methodBasicGet
  | some q =>
    match q.messages.popFront with
    | none => return [.basicGetEmpty]
    | some (qm, rest) =>
      match ← look fun s => qm.resolve env.crc32 s.wal with
      | .error _ =>
        perform (.pop queue .drop)
        return [.basicGetEmpty]
      | .ok m =>
        if noAck then perform (.pop queue .drop)
        else
          perform (.pop queue .hold)
          trackDelivery connId queue m.id
        return [.basicGetOk m.id m.redelivered m.exchange m.routingKey (asU32 rest.len) m.body]

def basicQos (connId : UInt64) (channel : UInt16) (prefetchCount : UInt16) (globally : Bool) :
    Act env (List Frame) := do
  withConnState connId fun cs =>
    if globally then
      { cs with channels := cs.channels.mapVals fun _ ch => { ch with prefetchCount } }
    else { cs with channels := cs.channels.modify channel fun ch => { ch with prefetchCount } }
  return [.basicQosOk]

def basicRecover : Act env (List Frame) := return [.basicRecoverOk]

end
end RocketmqBroker
