import RocketmqBroker.Storage.SegmentCoordinator

/-!
Messages as queues hold them (queue/message.rs): in full, or as the position of
their record in the log. Instants are milliseconds of the broker's clock.
-/
namespace RocketmqBroker

abbrev Instant := Nat

structure Message where
  id : UInt64
  headers : Bytes
  body : Bytes
  priority : UInt8
  expiration : Option Instant
  redelivered : Bool
  deliveryCount : UInt32
  exchange : String
  routingKey : String
  deriving DecidableEq, Repr

def Message.newRouted (id : UInt64) (headers body : Bytes) (exchange routingKey : String) :
    Message :=
  ⟨id, headers, body, 0, none, false, 0, exchange, routingKey⟩

structure MessageRef where
  id : UInt64
  segmentId : Nat
  offset : Nat
  length : Nat
  priority : UInt8
  expiration : Option Instant
  redelivered : Bool
  deliveryCount : UInt32
  exchange : String
  routingKey : String
  deriving DecidableEq, Repr

inductive QueueMessage where
  | ref (r : MessageRef)
  | full (m : Message)
  deriving DecidableEq, Repr

namespace QueueMessage

def id : QueueMessage → UInt64
  | ref r => r.id
  | full m => m.id

def priority : QueueMessage → UInt8
  | ref r => r.priority
  | full m => m.priority

def expiration : QueueMessage → Option Instant
  | ref r => r.expiration
  | full m => m.expiration

def isExpired (now : Instant) (m : QueueMessage) : Bool := m.expiration.any (· ≤ now)

/-- A reference is read back from the log, and keeps its own metadata. -/
def resolve (crc32 : Bytes → UInt32) (wal : SegmentCoordinator) :
    QueueMessage → Except IoError Message
  | full m => .ok m
  | ref r => do
    let (headers, body) ← wal.readMessagePayload crc32 r.segmentId r.offset r.length
    return ⟨r.id, headers, body, r.priority, r.expiration, r.redelivered, r.deliveryCount,
      r.exchange, r.routingKey⟩

theorem resolve_id {crc32 : Bytes → UInt32} {wal : SegmentCoordinator} {qm : QueueMessage}
    {m : Message} (h : qm.resolve crc32 wal = .ok m) : m.id = qm.id := by
  cases qm with
  | full m' =>
    cases h
    rfl
  | ref r =>
    obtain ⟨payload, _, rest⟩ := Fallible.bind_eq_ok.mp h
    cases rest
    rfl

theorem resolve_standing {crc32 : Bytes → UInt32} {wal : SegmentCoordinator} {qm : QueueMessage}
    {m : Message} (h : qm.resolve crc32 wal = .ok m) :
    m.priority = qm.priority ∧ m.expiration = qm.expiration := by
  cases qm with
  | full m' =>
    cases h
    exact ⟨rfl, rfl⟩
  | ref r =>
    obtain ⟨payload, _, rest⟩ := Fallible.bind_eq_ok.mp h
    cases rest
    exact ⟨rfl, rfl⟩

end QueueMessage
end RocketmqBroker
