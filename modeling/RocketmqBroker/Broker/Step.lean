import RocketmqBroker.Cluster.Frames
import RocketmqBroker.Handlers.Delivery
import RocketmqBroker.Handlers.Exchange
import RocketmqBroker.Handlers.Queue
import RocketmqBroker.Management.Routes
import RocketmqBroker.Server.Tasks

/-!
The broker as a whole: every request, frame and timer it reacts to, and runs of
them from an empty directory on. A crash is the end of such a run or a restart
in it.
-/
namespace RocketmqBroker

inductive Op where
  | connect (addr username vhost : String)
  | disconnect (connId : UInt64)
  | channelOpen (connId : UInt64) (channel : UInt16)
  | channelClose (connId : UInt64) (channel : UInt16)
  | channelFlow (connId : UInt64) (channel : UInt16) (active : Bool)
  | exchangeDeclare (connId : UInt64) (args : ExchangeDeclareArgs)
  | exchangeDelete (name : String) (noWait : Bool)
  | exchangeBind (destination source routingKey : String) (noWait : Bool)
  | exchangeUnbind (destination source routingKey : String)
  | queueDeclare (connId : UInt64) (args : QueueDeclareArgs) (now : Instant)
  | queueDelete (connId : UInt64) (name : String) (ifUnused ifEmpty noWait : Bool)
  | queuePurge (name : String) (noWait : Bool)
  | queueBind (queue exchange routingKey : String) (noWait : Bool)
  | queueUnbind (queue exchange routingKey : String)
  | basicPublish (connId : UInt64) (channel : UInt16) (args : PublishArgs) (now : Instant)
  | basicConsume (connId : UInt64) (channel : UInt16) (args : ConsumeArgs)
  | basicCancel (connId : UInt64) (tag : String) (noWait : Bool)
  | basicAck (connId : UInt64) (channel : UInt16) (tag : UInt64)
  | basicReject (connId : UInt64) (channel : UInt16) (tag : UInt64) (requeue : Bool)
  | basicNack (connId : UInt64) (channel : UInt16) (tag : UInt64) (requeue : Bool)
  | basicGet (connId : UInt64) (queue : String) (noAck : Bool)
  | basicQos (connId : UInt64) (channel : UInt16) (prefetchCount : UInt16) (globally : Bool)
  | basicRecover
  | txSelect (connId : UInt64)
  | txCommit (connId : UInt64)
  | txRollback (connId : UInt64)
  | confirmSelect (connId : UInt64) (channel : UInt16) (noWait : Bool)
  | deliverRound (queue : String) (answers : List Bool) (now : Instant)
  | createQueueVhost (name : String) (req : CreateQueueRequest) (now : Instant)
  | deleteQueue (name : String)
  | purgeQueue (name : String)
  | getMessages (queue : String) (count : Nat) (ackMode : String)
  | createExchangeVhost (name kind : String) (durable : Bool)
  | deleteExchangeVhost (name : String)
  | publishMessage (exchange routingKey : String) (payload : Bytes)
  | createBindingEq (source dest routingKey : String)
  | deleteBindingEq (source dest propertiesKey : String)
  | closeConnection (connId : UInt64)
  | clusterDeclareQueue (name : String) (durable exclusive autoDelete : Bool) (queueType : String)
      (now : Instant)
  | clusterDeleteQueue (name : String)
  | clusterPurgeQueue (name : String)
  | clusterDeclareExchange (name kind : String) (durable : Bool)
  | clusterBindQueue (exchange queue routingKey : String)
  | replicatePublish (term leaderId : UInt64) (queue : String) (msgId : UInt64) (body : Bytes)
  | replicateAck (term leaderId : UInt64) (queue : String) (msgId : UInt64)
  | queueTtlTask (now : Instant)
  | messageTtlTask (now : Instant)
  | walCompactTask
  | restart (now : Instant) (auth : AuthBackend) (cluster : Option ClusterCoordinator)

section
variable {env : Env}

def silent {α : Type} (act : Act env α) : Act env (List Frame) := do
  let _ ← act
  return []

def handle : Op → Act env (List Frame)
  | .connect addr username vhost => silent (connect addr username vhost)
  | .disconnect connId => silent (removeConnection connId)
  | .channelOpen connId channel => channelOpen connId channel
  | .channelClose connId channel => channelClose connId channel
  | .channelFlow connId channel active => channelFlow connId channel active
  | .exchangeDeclare connId args => exchangeDeclare connId args
  | .exchangeDelete name noWait => exchangeDelete name noWait
  | .exchangeBind destination source routingKey noWait =>
    exchangeBind destination source routingKey noWait
  | .exchangeUnbind destination source routingKey => exchangeUnbind destination source routingKey
  | .queueDeclare connId args now => queueDeclare connId args now
  | .queueDelete connId name ifUnused ifEmpty noWait =>
    queueDelete connId name ifUnused ifEmpty noWait
  | .queuePurge name noWait => queuePurge name noWait
  | .queueBind queue exchange routingKey noWait => queueBind queue exchange routingKey noWait
  | .queueUnbind queue exchange routingKey => queueUnbind queue exchange routingKey
  | .basicPublish connId channel args now => basicPublish connId channel args now
  | .basicConsume connId channel args => basicConsume connId channel args
  | .basicCancel connId tag noWait => basicCancel connId tag noWait
  | .basicAck connId channel tag => basicAck connId channel tag
  | .basicReject connId channel tag requeue => basicReject connId channel tag requeue
  | .basicNack connId channel tag requeue => basicNack connId channel tag requeue
  | .basicGet connId queue noAck => basicGet connId queue noAck
  | .basicQos connId channel prefetchCount globally =>
    basicQos connId channel prefetchCount globally
  | .basicRecover => basicRecover
  | .txSelect connId => txSelect connId
  | .txCommit connId => txCommit connId
  | .txRollback connId => txRollback connId
  | .confirmSelect connId channel noWait => confirmSelect connId channel noWait
  | .deliverRound queue answers now => deliverRound queue answers now
  | .createQueueVhost name req now => createQueueVhost name req now
  | .deleteQueue name => deleteQueue name
  | .purgeQueue name => purgeQueue name
  | .getMessages queue count ackMode => getMessages queue count ackMode
  | .createExchangeVhost name kind durable => createExchangeVhost name kind durable
  | .deleteExchangeVhost name => deleteExchangeVhost name
  | .publishMessage exchange routingKey payload => publishMessage exchange routingKey payload
  | .createBindingEq source dest routingKey => createBindingEq source dest routingKey
  | .deleteBindingEq source dest propertiesKey => deleteBindingEq source dest propertiesKey
  | .closeConnection connId => closeConnection connId
  | .clusterDeclareQueue name durable exclusive autoDelete queueType now =>
    clusterDeclareQueue name durable exclusive autoDelete queueType now
  | .clusterDeleteQueue name => clusterDeleteQueue name
  | .clusterPurgeQueue name => clusterPurgeQueue name
  | .clusterDeclareExchange name kind durable => clusterDeclareExchange name kind durable
  | .clusterBindQueue exchange queue routingKey => clusterBindQueue exchange queue routingKey
  | .replicatePublish term leaderId queue msgId body =>
    replicatePublish term leaderId queue msgId body
  | .replicateAck term leaderId queue msgId => replicateAck term leaderId queue msgId
  | .queueTtlTask now => silent (queueTtlTask now)
  | .messageTtlTask now => silent (messageTtlTask now)
  | .walCompactTask => silent walCompactTask
  | .restart now auth cluster => silent (perform (.restart now auth cluster))

def serve : List Op → Act env (List (List Frame))
  | [] => return []
  | op :: ops => do
    let frames ← handle op
    return frames :: (← serve ops)

end

def install (env : Env) (auth : AuthBackend) (cluster : Option ClusterCoordinator) : BrokerState :=
  .new (SegmentCoordinator.new ∅ env.maxSegmentSize) auth cluster

/-- The steps of a run from an empty directory. -/
def history (env : Env) (auth : AuthBackend) (cluster : Option ClusterCoordinator)
    (ops : List Op) : List Effect :=
  let run : Act env (List (List Frame)) := serve ops
  run.steps (install env auth cluster)

def reached (env : Env) (auth : AuthBackend) (cluster : Option ClusterCoordinator)
    (ops : List Op) : BrokerState :=
  Run.run (exec env) (install env auth cluster) (history env auth cluster ops)

/-- Every step of a run is allowed in the state it is taken in. -/
structure Throughout (env : Env) (auth : AuthBackend) (cluster : Option ClusterCoordinator)
    (allowed : BrokerState → Effect → Prop) (ops : List Op) : Prop where
  along : Run.Along (exec env) allowed (install env auth cluster) (history env auth cluster ops)

instance (env : Env) (auth : AuthBackend) (cluster : Option ClusterCoordinator)
    (allowed : BrokerState → Effect → Prop) [∀ s e, Decidable (allowed s e)] (ops : List Op) :
    Decidable (Throughout env auth cluster allowed ops) :=
  decidable_of_iff (Run.Along (exec env) allowed (install env auth cluster)
    (history env auth cluster ops)) ⟨.mk, Throughout.along⟩

theorem Throughout.invariant {env : Env} {auth : AuthBackend}
    {cluster : Option ClusterCoordinator} {allowed : BrokerState → Effect → Prop} {ops : List Op}
    (h : Throughout env auth cluster allowed ops) (Inv : List Effect → BrokerState → Prop)
    (start : Inv [] (install env auth cluster))
    (keeps : ∀ past s e, allowed s e → Inv past s → Inv (past ++ [e]) (exec env s e)) :
    Inv (history env auth cluster ops) (reached env auth cluster ops) :=
  Run.invariant Inv start keeps h.along

/-- Concrete runs have one user, who may do everything. -/
def guestOnly : AuthBackend := (∅ : AuthBackend).insert ("guest", "/") ⟨".*", ".*", ".*"⟩

/-- A client that opens a channel and declares a durable queue. -/
def session (queue : String) : List Op :=
  [.connect "127.0.0.1:50000" "guest" "/", .channelOpen 1 1,
    .queueDeclare 1 ⟨queue, false, true, false, false, false, []⟩ 0]

/-- A message of that client, persistent or not, through the default exchange. -/
def publishTo (queue : String) (persistent : Bool) (body : Bytes) : Op :=
  .basicPublish 1 1 ⟨"", queue, false, { BasicProperties.default with
    deliveryMode := some (if persistent then 2 else 1) }, body⟩ 0

end RocketmqBroker
