import RocketmqBroker.Broker.Step

/-!
What a client sends on a channel, and which request of the broker it becomes
(protocol/amqp/handlers/dispatch.rs). Every handler is told the connection; those whose
requests are without it do not look at it.
-/
namespace RocketmqBroker

inductive Method where
  | channelOpen
  | channelClose
  | channelFlow (active : Bool)
  | exchangeDeclare (args : ExchangeDeclareArgs)
  | exchangeDelete (name : String) (noWait : Bool)
  | exchangeBind (destination source routingKey : String) (noWait : Bool)
  | exchangeUnbind (destination source routingKey : String)
  | queueDeclare (args : QueueDeclareArgs) (now : Instant)
  | queueDelete (name : String) (ifUnused ifEmpty noWait : Bool)
  | queuePurge (name : String) (noWait : Bool)
  | queueBind (queue exchange routingKey : String) (noWait : Bool)
  | queueUnbind (queue exchange routingKey : String)
  | basicPublish (args : PublishArgs) (now : Instant)
  | basicConsume (args : ConsumeArgs)
  | basicCancel (tag : String) (noWait : Bool)
  | basicAck (tag : UInt64)
  | basicReject (tag : UInt64) (requeue : Bool)
  | basicNack (tag : UInt64) (requeue : Bool)
  | basicGet (queue : String) (noAck : Bool)
  | basicQos (prefetchCount : UInt16) (globally : Bool)
  | basicRecover
  | txSelect
  | txCommit
  | txRollback
  | confirmSelect (noWait : Bool)

def dispatchMethod (connId : UInt64) (channel : UInt16) : Method → Op
  | .channelOpen => .channelOpen connId channel
  | .channelClose => .channelClose connId channel
  | .channelFlow active => .channelFlow connId channel active
  | .exchangeDeclare args => .exchangeDeclare connId args
  | .exchangeDelete name noWait => .exchangeDelete name noWait
  | .exchangeBind destination source routingKey noWait =>
    .exchangeBind destination source routingKey noWait
  | .exchangeUnbind destination source routingKey => .exchangeUnbind destination source routingKey
  | .queueDeclare args now => .queueDeclare connId args now
  | .queueDelete name ifUnused ifEmpty noWait => .queueDelete connId name ifUnused ifEmpty noWait
  | .queuePurge name noWait => .queuePurge name noWait
  | .queueBind queue exchange routingKey noWait => .queueBind queue exchange routingKey noWait
  | .queueUnbind queue exchange routingKey => .queueUnbind queue exchange routingKey
  | .basicPublish args now => .basicPublish connId channel args now
  | .basicConsume args => .basicConsume connId channel args
  | .basicCancel tag noWait => .basicCancel connId tag noWait
  | .basicAck tag => .basicAck connId channel tag
  | .basicReject tag requeue => .basicReject connId channel tag requeue
  | .basicNack tag requeue => .basicNack connId channel tag requeue
  | .basicGet queue noAck => .basicGet connId queue noAck
  | .basicQos prefetchCount globally => .basicQos connId channel prefetchCount globally
  | .basicRecover => .basicRecover
  | .txSelect => .txSelect connId
  | .txCommit => .txCommit connId
  | .txRollback => .txRollback connId
  | .confirmSelect noWait => .confirmSelect connId channel noWait

/-- What happens to the broker: a client sends a method, or anything else goes on. -/
inductive Input where
  | method (connId : UInt64) (channel : UInt16) (m : Method)
  | event (op : Op)

def Input.op : Input → Op
  | method connId channel m => dispatchMethod connId channel m
  | event op => op

end RocketmqBroker
