import RocketmqBroker.Handlers.Frame

/-!
The Queue class (protocol/amqp/handlers/queue.rs): declare, delete, purge, bind,
unbind.
-/
namespace RocketmqBroker

structure QueueDeclareArgs where
  name : String
  passive : Bool
  durable : Bool
  exclusive : Bool
  autoDelete : Bool
  noWait : Bool
  arguments : FieldTable

def methodQueueDeclare : Nat := 10
def methodQueueBind : Nat := 20
def methodQueuePurge : Nat := 30
def methodQueueDelete : Nat := 40
def methodQueueUnbind : Nat := 50

/-- The options of a declaration; a quorum queue is durable whatever its flag. -/
def QueueDeclareArgs.options (args : QueueDeclareArgs) : QueueOptions :=
  let queueType := match args.arguments.longString? "x-queue-type" with
    | some v => QueueType.fromAmqpArg (fromUtf8Lossy v)
    | none => .classic
  { QueueOptions.default with
    durable := args.durable || queueType == .quorum
    exclusive := args.exclusive
    autoDelete := args.autoDelete
    messageTtl := (args.arguments.longInt? "x-message-ttl").map asU64
    maxLength := (args.arguments.longInt? "x-max-length").map asU64
    schema := args.arguments.longString? "x-schema"
    schemaType := (args.arguments.longString? "x-schema-type").map fromUtf8Lossy
    schemaMessage := (args.arguments.longString? "x-schema-message").map fromUtf8Lossy
    queueType }

def NewQueue.declared (name : String) (opts : QueueOptions) (owner : Option UInt64)
    (now : Instant) : NewQueue where
  state := { QueueState.withOptions opts now with nameArc := name, ownerConnId := owner }

section
variable {env : Env}

def compileQueueSchema (opts : QueueOptions) :
    Act env (Except SchemaError (Option CompiledSchema)) :=
  match opts.schema with
  | none => return .ok none
  | some raw =>
    let schemaType := opts.schemaType.getD ""
    if schemaType ≠ "protobuf" then
      return .error (if schemaType.isEmpty then .missingArgument else .schemaUnsupportedType)
    else
      match opts.schemaMessage with
      | none => return .error .missingArgument
      | some messageName => do
        let (nextSchemaId, compiled) ← look fun s =>
          compileProto env.proto s.nextSchemaId raw messageName
        change (.setNextSchemaId nextSchemaId)
        match compiled with
        | .ok schema => return .ok (some schema)
        | .error _ => return .error .schemaCompileFailed

def declareSchema (name : String) (arguments : FieldTable) (compiled : Option CompiledSchema) :
    Act env (Option String) := do
  if arguments.containsKey "x-schema-delete" then
    perform (.tune name { apply := fun q => { q with schema := none } })
    return none
  else
    match compiled with
    | none => return none
    | some schema =>
      let conflict ← look fun s =>
        if arguments.containsKey "x-schema-override" then none
        else do
          let q ← s.queues.get? name
          let old ← q.schema
          env.checkSchemaConflict old schema
      match conflict with
      | some description => return some (env.schemaReplyText name (.validation description))
      | none =>
        perform (.tune name { apply := fun q => { q with schema := some schema } })
        return none

def sendDeclareOk (name : String) (noWait : Bool) : Act env (List Frame) :=
  if noWait then return []
  else look fun s =>
    match s.queues.get? name with
    | some q => [.queueDeclareOk name (asU32 q.messages.len) (asU32 q.consumerTags.keys.length)]
    | none => [.queueDeclareOk name 0 0]

/-- The part of `handle_declare` after the name and the permission. -/
def declareActive (connId : UInt64) (name : String) (args : QueueDeclareArgs) (now : Instant) :
    Act env (List Frame) := do
  let found ← look fun s => s.queues.get? name
  let locked := found.any fun q => q.options.exclusive && q.ownerConnId != some connId
  if locked then
    sendChannelError resourceLocked "RESOURCE_LOCKED - exclusive queue" classQueue
      methodQueueDeclare
  else
    let opts := args.options
    match ← compileQueueSchema opts with
    | .error err =>
      sendChannelError preconditionFailed (env.schemaReplyText name err) classQueue
        methodQueueDeclare
    | .ok compiled =>
      if found.isNone then
        let owner := if args.exclusive then some connId else none
        perform (.createQueue name (.declared name opts owner now) args.durable compiled)
        if args.exclusive then
          change { apply := fun s => s.registerExclusiveQueue connId name }
      match ← declareSchema name args.arguments compiled with
      | some text => sendChannelError preconditionFailed text classQueue methodQueueDeclare
      | none =>
        perform (.bind "" ⟨name, name, none⟩ false)
        sendDeclareOk name args.noWait

def queueDeclare (connId : UInt64) (args : QueueDeclareArgs) (now : Instant) :
    Act env (List Frame) := do
  if args.name.isEmpty then
    let msgId ← look fun s => s.nextMsgId
    perform .alloc
    declareNamed ("amq.gen-" ++ toString msgId)
  else if !args.passive && "amq.".isPrefixOf args.name && !"amq.gen-".isPrefixOf args.name then
    sendChannelError accessRefused "ACCESS_REFUSED - queue names starting with 'amq.' are reserved"
      classQueue methodQueueDeclare
  else declareNamed args.name
where
  declareNamed (name : String) : Act env (List Frame) := do
    if args.passive then
      if ← look fun s => s.queues.contains name then sendDeclareOk name args.noWait
      else
        sendChannelError notFound "NOT_FOUND - no such queue" classQueue methodQueueDeclare
    else if ← denied connId (·.configure) name then denyAccess classQueue methodQueueDeclare
    else declareActive connId name args now

def queueDelete (connId : UInt64) (name : String) (ifUnused ifEmpty noWait : Bool) :
    Act env (List Frame) := do
  match ← look fun s => s.queues.get? name with
  | none => sendChannelError notFound "NOT_FOUND - no such queue" classQueue methodQueueDelete
  | some q =>
    if ifUnused && !q.consumerTags.keys.isEmpty then
      sendChannelError preconditionFailed "PRECONDITION_FAILED - queue in use" classQueue
        methodQueueDelete
    else if ifEmpty && !q.messages.isEmpty then
      sendChannelError preconditionFailed "PRECONDITION_FAILED - queue not empty" classQueue
        methodQueueDelete
    else
      perform (.removeQueue name)
      change { apply := fun s => s.deregisterExclusiveQueue connId name }
      return if noWait then [] else [.queueDeleteOk (asU32 q.messages.len)]

def queuePurge (name : String) (noWait : Bool) : Act env (List Frame) := do
  match ← look fun s => s.queues.get? name with
  | none => sendChannelError notFound "NOT_FOUND - no such queue" classQueue methodQueuePurge
  | some q =>
    perform (.purge name)
    return if noWait then [] else [.queuePurgeOk (asU32 q.messages.len)]

def queueBind (queue exchange routingKey : String) (noWait : Bool) : Act env (List Frame) := do
  if !(← look fun s => s.queues.contains queue) then
    sendChannelError notFound "NOT_FOUND - no such queue" classQueue methodQueueBind
  else if !(← look fun s => s.exchanges.contains exchange) then
    sendChannelError notFound "NOT_FOUND - no such exchange" classQueue methodQueueBind
  else
    perform (.bind exchange ⟨queue, routingKey, none⟩ true)
    return if noWait then [] else [.queueBindOk]

def queueUnbind (queue exchange routingKey : String) : Act env (List Frame) := do
  if !(← look fun s => s.queues.contains queue) then
    sendChannelError notFound "NOT_FOUND - no such queue" classQueue methodQueueUnbind
  else if !(← look fun s => s.exchanges.contains exchange) then
    sendChannelError notFound "NOT_FOUND - no such exchange" classQueue methodQueueUnbind
  else
    perform (.unbind exchange queue routingKey)
    return [.queueUnbindOk]

end
end RocketmqBroker
