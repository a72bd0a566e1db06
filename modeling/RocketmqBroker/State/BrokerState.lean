import RocketmqBroker.Protocol.BasicProperties
import RocketmqBroker.Queue.QueueState
import RocketmqBroker.Routing.Exchange

/-!
The broker's shared state (state/broker.rs, protocol/amqp/session.rs,
auth/mod.rs) and what it takes from outside: the checksum, the regular
expression engine, the protobuf tools, the schema checks and the configuration.
Process-wide counters are fields, since they start over with the process.
-/
namespace RocketmqBroker

/-- Errors about schemas: those of the declare arguments, and those that the
    schema checks return, by their description. -/
inductive SchemaError where
  | missingArgument
  | schemaUnsupportedType
  | schemaCompileFailed
  | validation (description : String)
  deriving DecidableEq, Repr

structure Env where
  crc32 : Bytes → UInt32
  /-- A compiled expression as an unanchored search, or a syntax error. -/
  regex : String → Option (String → Bool)
  proto : ProtoTools
  /-- `format!("{:?}", value)` of a header value. -/
  debugFormat : FieldValue → String
  /-- `to_broker_error(queue, err).to_reply_text()`, which serializes to JSON. -/
  schemaReplyText : String → SchemaError → String
  /-- schema/validate.rs, by the description of the error. -/
  validateMessage : CompiledSchema → Bytes → Option String
  checkSchemaConflict : CompiledSchema → CompiledSchema → Option String
  checkConsumerSubset : CompiledSchema → CompiledSchema → Option String
  maxSegmentSize : Nat
  walCompactThreshold : Nat

structure ChannelState where
  prefetchCount : UInt16
  unackedCount : UInt16
  confirmMode : Bool
  nextDeliveryTag : UInt64
  flowActive : Bool
  deriving DecidableEq, Repr

def ChannelState.new : ChannelState := ⟨0, 0, false, 1, true⟩

def ChannelState.canDeliver (ch : ChannelState) : Bool :=
  ch.flowActive && (ch.prefetchCount == 0 || ch.unackedCount < ch.prefetchCount)

inductive PendingOp where
  | publish (exchange routingKey : String) (headers body : Bytes)
  | ack (msgId : UInt64)
  deriving DecidableEq, Repr

structure ConnectionState where
  channels : FinMap UInt16 ChannelState
  vhost : String
  txMode : Bool
  txBuffer : List PendingOp
  username : String

def defaultVhost : String := "/"

def ConnectionState.new : ConnectionState := ⟨∅, defaultVhost, false, [], ""⟩

structure Permission where
  configure : String
  write : String
  read : String
  deriving DecidableEq, Repr

abbrev AuthBackend := FinMap (String × String) Permission

/-- The parts of the cluster coordinator that replication frames read and set. -/
structure ClusterCoordinator where
  nodeId : UInt64
  currentTerm : UInt64
  leaderId : UInt64
  deriving DecidableEq, Repr

structure BrokerState where
  nextConnId : UInt64
  nextMsgId : UInt64
  nextConsumerTag : UInt64
  nextSchemaId : UInt64
  exchanges : FinMap String Exchange
  queues : FinMap String QueueState
  /-- Connections with a delivery sink, by remote address. -/
  connections : FinMap UInt64 String
  connState : FinMap UInt64 ConnectionState
  connConsumers : FinMap UInt64 (List (String × String × UInt16))
  connExclusiveQueues : FinMap UInt64 (List String)
  deliveryIndex : FinMap UInt64 String
  connDeliveries : FinMap UInt64 (List (String × UInt64))
  consumerIndex : FinMap String String
  auth : AuthBackend
  cluster : Option ClusterCoordinator
  wal : SegmentCoordinator

namespace BrokerState

def new (wal : SegmentCoordinator) (auth : AuthBackend) (cluster : Option ClusterCoordinator) :
    BrokerState :=
  { nextConnId := 1, nextMsgId := 1, nextConsumerTag := 1, nextSchemaId := 1,
    exchanges := createDefaultExchanges, queues := ∅, connections := ∅, connState := ∅,
    connConsumers := ∅, connExclusiveQueues := ∅, deliveryIndex := ∅, connDeliveries := ∅,
    consumerIndex := ∅, auth, cluster, wal }

def modifyQueue (s : BrokerState) (name : String) (f : QueueState → QueueState) : BrokerState :=
  { s with queues := s.queues.modify name f }

def modifyExchange (s : BrokerState) (name : String) (f : Exchange → Exchange) : BrokerState :=
  { s with exchanges := s.exchanges.modify name f }

/-- `with_conn_state`, for its effect. -/
def modifyConn (s : BrokerState) (connId : UInt64) (f : ConnectionState → ConnectionState) :
    BrokerState :=
  { s with connState := s.connState.modify connId f }

/-- `with_channel`, for its effect. -/
def modifyChannel (s : BrokerState) (connId : UInt64) (channel : UInt16)
    (f : ChannelState → ChannelState) : BrokerState :=
  s.modifyConn connId fun cs => { cs with channels := cs.channels.modify channel f }

def channel? (s : BrokerState) (connId : UInt64) (channel : UInt16) : Option ChannelState := do
  let cs ← s.connState.get? connId
  cs.channels.get? channel

/-- `Wal::append` through the broker. -/
def log (env : Env) (s : BrokerState) (e : WalEntry) : BrokerState :=
  { s with wal := s.wal.log env.crc32 e }

def allocMsgId (s : BrokerState) : UInt64 × BrokerState :=
  (s.nextMsgId, { s with nextMsgId := s.nextMsgId + 1 })

def allocConnId (s : BrokerState) : UInt64 × BrokerState :=
  (s.nextConnId, { s with nextConnId := s.nextConnId + 1 })

def autoBindDefaultExchange (s : BrokerState) (queue : String) : BrokerState :=
  s.modifyExchange "" fun ex => ex.addBinding ⟨queue, queue, none⟩

def registerExclusiveQueue (s : BrokerState) (connId : UInt64) (queue : String) : BrokerState :=
  { s with
    connExclusiveQueues := s.connExclusiveQueues.insert connId
      ((s.connExclusiveQueues.get? connId).getD [] ++ [queue]) }

def deregisterExclusiveQueue (s : BrokerState) (connId : UInt64) (queue : String) : BrokerState :=
  { s with
    connExclusiveQueues := s.connExclusiveQueues.modify connId (List.filter (· != queue)) }

def registerConsumer (s : BrokerState) (connId : UInt64) (channel : UInt16)
    (queue tag : String) : BrokerState :=
  { s with
    connConsumers := s.connConsumers.insert connId
      ((s.connConsumers.get? connId).getD [] ++ [(queue, tag, channel)])
    consumerIndex := s.consumerIndex.insert tag queue }

def deregisterConsumer (s : BrokerState) (connId : UInt64) (tag : String) : BrokerState :=
  { s with
    connConsumers := s.connConsumers.modify connId (List.filter fun c => c.2.1 != tag)
    consumerIndex := s.consumerIndex.erase tag }

end BrokerState

/-- auth/permissions.rs: anchored unless the pattern anchors itself. -/
def matchesResource (env : Env) (pattern resource : String) : Bool :=
  if pattern.isEmpty then false
  else if pattern = ".*" then true
  else
    let left := if pattern.toList.head? = some '^' then pattern else "^" ++ pattern
    let anchored := if pattern.toList.getLast? = some '$' then left else left ++ "$"
    match env.regex anchored with
    | some isMatch => isMatch resource
    | none => false

/-- `get_conn_auth`, then the permission of that user on that vhost. -/
def checkPermission (env : Env) (s : BrokerState) (connId : UInt64)
    (extractor : Permission → String) (resource : String) : Bool :=
  let (user, vhost) := match s.connState.get? connId with
    | some cs => (cs.username, cs.vhost)
    | none => ("", "")
  match s.auth.get? (user, vhost) with
  | some perm => matchesResource env (extractor perm) resource
  | none => false

end RocketmqBroker
