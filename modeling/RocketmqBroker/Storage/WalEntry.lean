import RocketmqBroker.Lib.ByteReader

/-!
Entries of the write-ahead log and the payload layouts of the six kinds the
broker writes, with the two kinds reserved for Raft (storage/wal.rs). Lengths
are narrowed to their field as the source's `as u16` and `as u32` casts do.
-/
namespace RocketmqBroker
open BigEndian ByteReader

abbrev Bytes := List UInt8

def strBytes (s : String) : Bytes := s.toByteArray.data.toList

/-- `std::str::from_utf8`. -/
def fromUtf8 (bs : Bytes) : Option String := String.fromUTF8? ⟨bs.toArray⟩

@[simp] theorem fromUtf8_strBytes (s : String) : fromUtf8 (strBytes s) = some s := by
  have valid : s.toByteArray.IsValidUTF8 := s.isValidUTF8
  simp [fromUtf8, strBytes, String.fromUTF8?, valid, String.fromUTF8]

inductive EntryType where
  | declareQueue
  | enqueue
  | ack
  | declareExchange
  | bind
  | setQueueSchema
  | raftEntry
  | raftVote
  deriving DecidableEq, Repr

def EntryType.toByte : EntryType → UInt8
  | .declareQueue => 0x01
  | .enqueue => 0x02
  | .ack => 0x03
  | .declareExchange => 0x04
  | .bind => 0x05
  | .setQueueSchema => 0x06
  | .raftEntry => 0x10
  | .raftVote => 0x11

def EntryType.tryFrom (value : UInt8) : Option EntryType :=
  if value = 0x01 then some .declareQueue
  else if value = 0x02 then some .enqueue
  else if value = 0x03 then some .ack
  else if value = 0x04 then some .declareExchange
  else if value = 0x05 then some .bind
  else if value = 0x06 then some .setQueueSchema
  else if value = 0x10 then some .raftEntry
  else if value = 0x11 then some .raftVote
  else none

theorem EntryType.tryFrom_toByte (ty : EntryType) : tryFrom ty.toByte = some ty := by
  cases ty <;> rfl

theorem EntryType.toByte_of_tryFrom {value : UInt8} {ty : EntryType}
    (h : tryFrom value = some ty) : ty.toByte = value := by
  unfold tryFrom at h
  repeat' split at h
  all_goals first | contradiction | (cases Option.some.inj h; simp_all [toByte])

structure WalEntry where
  entryType : EntryType
  data : Bytes
  deriving DecidableEq, Repr

structure WalWriter where
  buf : Bytes

namespace WalWriter

def withCapacity : WalWriter := ⟨[]⟩

def writeStrU16 (w : WalWriter) (s : String) : WalWriter :=
  ⟨w.buf ++ prefixed 2 (strBytes s)⟩

def writeBytesU32 (w : WalWriter) (data : Bytes) : WalWriter :=
  ⟨w.buf ++ prefixed 4 data⟩

def writeU8 (w : WalWriter) (v : UInt8) : WalWriter := ⟨w.buf ++ [v]⟩

def writeU64 (w : WalWriter) (v : UInt64) : WalWriter := ⟨w.buf ++ toBeBytes 8 v.toNat⟩

def finish (w : WalWriter) : Bytes := w.buf

end WalWriter

def durableByte (durable : Bool) : UInt8 := if durable then 1 else 0

def declareQueueEntry (name : String) (durable : Bool) : WalEntry :=
  ⟨.declareQueue, (WalWriter.withCapacity.writeStrU16 name |>.writeU8 (durableByte durable)).finish⟩

def setQueueSchemaEntry (schemaId : UInt64) (queueName : String) (rawProto : Bytes)
    (descriptorSetBytes : Bytes) (messageName : String) : WalEntry :=
  ⟨.setQueueSchema, (WalWriter.withCapacity.writeU64 schemaId |>.writeStrU16 queueName
    |>.writeBytesU32 rawProto |>.writeBytesU32 descriptorSetBytes
    |>.writeStrU16 messageName).finish⟩

/-- The payload also carries the exchange and the routing key, which the format
    comment at the head of wal.rs leaves out. -/
def enqueueEntry (queue : String) (msgId : UInt64) (exchange routingKey : String)
    (headers body : Bytes) : WalEntry :=
  ⟨.enqueue, (WalWriter.withCapacity.writeStrU16 queue |>.writeU64 msgId
    |>.writeStrU16 exchange |>.writeStrU16 routingKey
    |>.writeBytesU32 headers |>.writeBytesU32 body).finish⟩

def ackEntry (msgId : UInt64) : WalEntry := ⟨.ack, toBeBytes 8 msgId.toNat⟩

def declareExchangeEntry (name : String) (kind : UInt8) (durable : Bool) : WalEntry :=
  ⟨.declareExchange, (WalWriter.withCapacity.writeStrU16 name |>.writeU8 kind
    |>.writeU8 (durableByte durable)).finish⟩

def bindEntry (exchange queue routingKey : String) : WalEntry :=
  ⟨.bind, (WalWriter.withCapacity.writeStrU16 exchange |>.writeStrU16 queue
    |>.writeStrU16 routingKey).finish⟩

def raftEntryEntry (term index : UInt64) (commandJson : Bytes) : WalEntry :=
  ⟨.raftEntry, (WalWriter.withCapacity.writeU64 term |>.writeU64 index
    |>.writeBytesU32 commandJson).finish⟩

def raftVoteEntry (term votedFor : UInt64) : WalEntry :=
  ⟨.raftVote, (WalWriter.withCapacity.writeU64 term |>.writeU64 votedFor).finish⟩

theorem enqueueEntry_data (queue : String) (msgId : UInt64) (exchange routingKey : String)
    (headers body : Bytes) :
    (enqueueEntry queue msgId exchange routingKey headers body).data =
      prefixed 2 (strBytes queue) ++ (toBeBytes 8 msgId.toNat ++
        (prefixed 2 (strBytes exchange) ++ (prefixed 2 (strBytes routingKey) ++
          (prefixed 4 headers ++ (prefixed 4 body ++ []))))) := by
  simp [enqueueEntry, WalWriter.withCapacity, WalWriter.writeStrU16, WalWriter.writeU64,
    WalWriter.writeBytesU32, WalWriter.finish]

end RocketmqBroker
