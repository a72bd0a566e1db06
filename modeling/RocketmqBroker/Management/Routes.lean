import RocketmqBroker.Handlers.Frame

/-!
The management routes that change the broker (management/routes/queues.rs,
exchanges.rs, bindings.rs, connections.rs). None of them writes to the log.
-/
namespace RocketmqBroker

structure CreateQueueRequest where
  durable : Bool
  exclusive : Bool
  autoDelete : Bool
  deriving DecidableEq, Repr

def noContent : Nat := 204
def created : Nat := 201

def resolveExchangeName (name : String) : String :=
  if name.isEmpty || name = "amq.default" then "" else name

def kindOrDirect : String → ExchangeType
  | "fanout" => .fanout
  | "topic" => .topic
  | "headers" => .headers
  | _ => .direct

section
variable {env : Env}

/-- The queue is not bound to the default exchange. -/
def createQueueVhost (name : String) (req : CreateQueueRequest) (now : Instant) :
    Act env (List Frame) := do
  let opts := { QueueOptions.default with
    durable := req.durable
    exclusive := req.exclusive
    autoDelete := req.autoDelete }
  let q : NewQueue := ⟨{ QueueState.withOptions opts now with nameArc := name }, rfl, rfl⟩
  perform (.createQueue name q false none)
  return [.status noContent]

def deleteQueue (name : String) : Act env (List Frame) := do
  let known ← look fun s => s.queues.contains name
  perform (.removeQueue name)
  return [.status (if known then noContent else notFound)]

def purgeQueue (name : String) : Act env (List Frame) := do
  match ← look fun s => s.queues.get? name with
  | none => return [.status notFound]
  | some q =>
    perform (.purge name)
    return [.messagesPurged q.messages.len]

/-- One turn of `get_messages`: a message that cannot be read is dropped. -/
def getMessage (queue : String) (requeue : Bool) : Act env (List (Bytes × Nat)) := do
  match ← look fun s => (s.queues.get? queue).bind (·.messages.popFront) with
  | none => return []
  | some (qm, rest) =>
    match ← look fun s => qm.resolve env.crc32 s.wal with
    | .error _ =>
      perform (.pop queue .drop)
      return []
    | .ok m =>
      perform (.pop queue (if requeue then .back else .drop))
      return [(m.body, rest.len)]

def getMessages (queue : String) (count : Nat) (ackMode : String) : Act env (List Frame) := do
  match ← look fun s => s.queues.get? queue with
  | none => return [.status notFound]
  | some q =>
    let turns := List.range (min count q.messages.len)
    let results ← turns.mapM fun _ => getMessage queue (ackMode == "ack_requeue_true")
    return [.payloads results.flatten]

def createExchangeVhost (name kind : String) (durable : Bool) : Act env (List Frame) := do
  perform (.createExchange name (kindOrDirect kind) durable false)
  return [.status noContent]

def deleteExchangeVhost (name : String) : Act env (List Frame) := do
  let known ← look fun s => s.exchanges.contains name
  perform (.removeExchange name)
  return [.status (if known then noContent else notFound)]

def publishMessage (exchange routingKey : String) (payload : Bytes) : Act env (List Frame) := do
  let msgId ← look fun s => s.nextMsgId
  perform .alloc
  match ← look fun s => s.exchanges.get? (resolveExchangeName exchange) with
  | none => return [.status notFound]
  | some ex =>
    let targets := ex.routeEach routingKey []
    targets.forM fun queue =>
      perform (.pushFull queue (.newRouted msgId [] payload exchange routingKey))
    return [.routed targets.length]

/-- The binding is added even when the exchange has it already. -/
def createBindingEq (source dest routingKey : String) : Act env (List Frame) := do
  let known ← look fun s => s.exchanges.contains source
  perform (.appendBinding source ⟨dest, routingKey, none⟩)
  return [.status (if known then created else notFound)]

def deleteBindingEq (source dest propertiesKey : String) : Act env (List Frame) := do
  let routingKey := if propertiesKey = "~" then "" else propertiesKey
  let bound ← look fun s => (s.exchanges.get? source).any fun ex => ex.binds dest routingKey
  perform (.unbind source dest routingKey)
  return [.status (if bound then noContent else notFound)]

def closeConnection (connId : UInt64) : Act env (List Frame) := do
  let known ← look fun s => s.connections.contains connId
  if known then
    change (.dropConnection connId)
  return [.status (if known then noContent else notFound)]

end
end RocketmqBroker
