import RocketmqBroker.Lib.FinMap
import RocketmqBroker.Queue.PriorityQueue
import RocketmqBroker.Schema.CompiledSchema

/-!
Queue options and the runtime state of one queue (queue/options.rs,
queue/state.rs). Durations are milliseconds. A consumer is its tag, connection,
channel and no-ack flag.
-/
namespace RocketmqBroker

inductive QueueType where
  | classic
  | quorum
  | stream
  deriving DecidableEq, Repr

def QueueType.fromAmqpArg : String → QueueType
  | "quorum" => .quorum
  | "stream" => .stream
  | _ => .classic

structure QueueOptions where
  durable : Bool
  exclusive : Bool
  autoDelete : Bool
  maxPriority : UInt8
  messageTtl : Option Nat
  maxLength : Option Nat
  expires : Option Nat
  schema : Option Bytes
  schemaType : Option String
  schemaMessage : Option String
  queueType : QueueType
  deriving DecidableEq, Repr

def QueueOptions.default : QueueOptions :=
  ⟨false, false, false, 0, none, none, none, none, none, none, .classic⟩

structure Consumer where
  tag : String
  connId : UInt64
  channel : UInt16
  noAck : Bool
  deriving DecidableEq, Repr

structure QueueState where
  options : QueueOptions
  nameArc : String
  ownerConnId : Option UInt64
  listeners : List (UInt64 × UInt16)
  messages : PriorityQueue
  inflight : FinMap UInt64 Message
  nextListener : Nat
  consumerTags : FinMap String (UInt64 × UInt16 × Bool)
  activeConsumers : List Consumer
  lastActivity : Instant
  schema : Option CompiledSchema

namespace QueueState

def withOptions (options : QueueOptions) (now : Instant) : QueueState :=
  ⟨options, "", none, [], .new, ∅, 0, ∅, [], now, none⟩

def snapshotConsumers (tags : FinMap String (UInt64 × UInt16 × Bool)) : List Consumer :=
  tags.entries.map fun e => ⟨e.1, e.2.1, e.2.2.1, e.2.2.2⟩

def addConsumer (q : QueueState) (connId : UInt64) (channel : UInt16) (tag : String)
    (noAck : Bool) : QueueState :=
  let listeners :=
    if (connId, channel) ∈ q.listeners then q.listeners else q.listeners ++ [(connId, channel)]
  let consumerTags := q.consumerTags.insert tag (connId, channel, noAck)
  { q with listeners, consumerTags, activeConsumers := snapshotConsumers consumerTags }

def held (q : QueueState) : Multiset UInt64 :=
  q.messages.contents.map QueueMessage.id + (q.inflight.keys : Multiset UInt64)

end QueueState
end RocketmqBroker
