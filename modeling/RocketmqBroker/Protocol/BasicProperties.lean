import RocketmqBroker.Lib.ByteReader
import RocketmqBroker.Storage.WalEntry

/-!
Field tables and basic properties as the broker writes them
(protocol/amqp/types.rs, protocol/amqp/properties.rs). Floating-point values are
their bit patterns; a table is the list of its entries in key order.
-/
namespace RocketmqBroker
open BigEndian ByteReader

inductive FieldValue where
  | boolean (b : Bool)
  | shortShortInt (v : Int8)
  | shortShortUint (v : UInt8)
  | shortInt (v : Int16)
  | shortUint (v : UInt16)
  | longInt (v : Int32)
  | longUint (v : UInt32)
  | longLongInt (v : Int64)
  | longLongUint (v : UInt64)
  | float (bits : UInt32)
  | double (bits : UInt64)
  | shortString (s : String)
  | longString (data : Bytes)
  | timestamp (v : UInt64)
  | fieldTable (table : List (String × FieldValue))
  | void

abbrev FieldTable := List (String × FieldValue)

def isContinuation (b : UInt8) : Bool := 0x80 ≤ b && b ≤ 0xBF

/-- The first chunk of a byte string as `Utf8Chunks` cuts it: its length, and
    whether it is a character. An invalid chunk is the longest start of one. -/
def utf8Chunk (first second third fourth : UInt8) : Nat × Bool :=
  if first < 0x80 then (1, true)
  else if 0xC2 ≤ first && first ≤ 0xDF then
    if isContinuation second then (2, true) else (1, false)
  else if 0xE0 ≤ first && first ≤ 0xEF then
    let low : UInt8 := if first = 0xE0 then 0xA0 else 0x80
    let high : UInt8 := if first = 0xED then 0x9F else 0xBF
    if !(low ≤ second && second ≤ high) then (1, false)
    else if isContinuation third then (3, true) else (2, false)
  else if 0xF0 ≤ first && first ≤ 0xF4 then
    let low : UInt8 := if first = 0xF0 then 0x90 else 0x80
    let high : UInt8 := if first = 0xF4 then 0x8F else 0xBF
    if !(low ≤ second && second ≤ high) then (1, false)
    else if !isContinuation third then (2, false)
    else if isContinuation fourth then (4, true) else (3, false)
  else (1, false)

def lossyBytes : Nat → Bytes → Bytes
  | 0, _ => []
  | _, [] => []
  | fuel + 1, b :: bs =>
    let (size, valid) := utf8Chunk b (bs.getD 0 0) (bs.getD 1 0) (bs.getD 2 0)
    (if valid then (b :: bs).take size else [0xEF, 0xBF, 0xBD]) ++
      lossyBytes fuel ((b :: bs).drop size)

/-- `String::from_utf8_lossy`. -/
def fromUtf8Lossy (bs : Bytes) : String := (fromUtf8 (lossyBytes bs.length bs)).getD ""

example : fromUtf8Lossy [104, 0xC3, 0xA9, 0xE2, 0x82, 0x41, 0xFF] = "hé\uFFFDA\uFFFD" := by
  decide +kernel

namespace FieldTable

def longString? (table : FieldTable) (key : String) : Option Bytes :=
  match table.lookup key with
  | some (.longString data) => some data
  | _ => none

def longInt? (table : FieldTable) (key : String) : Option Int32 :=
  match table.lookup key with
  | some (.longInt v) => some v
  | _ => none

def containsKey (table : FieldTable) (key : String) : Bool := (table.lookup key).isSome

end FieldTable

/-- `v as u64` and `v as usize` of a negative number wrap around. -/
def asU64 (v : Int32) : Nat := v.toInt64.toUInt64.toNat

abbrev Written := Bytes × Bool

def Written.andThen (first : Written) (next : Written) : Written :=
  if first.2 then (first.1 ++ next.1, next.2) else first

def writeShortstr (s : String) : Written :=
  let bytes := strBytes s
  if bytes.length > 255 then ([], false) else (UInt8.ofNat bytes.length :: bytes, true)

/-- `write_shortstr` takes the text. -/
def FitsShortstr (text : String) : Prop := (strBytes text).length ≤ 255

instance (text : String) : Decidable (FitsShortstr text) := inferInstanceAs (Decidable (_ ≤ _))

def writeLongstr (data : Bytes) : Bytes := prefixed 4 data

def writeTag (c : Char) (rest : Bytes) : Written := (UInt8.ofNat c.toNat :: rest, true)

mutual

def writeFieldValue : FieldValue → Written
  | .boolean b => writeTag 't' [if b then 1 else 0]
  | .shortShortInt v => writeTag 'b' [v.toUInt8]
  | .shortShortUint v => writeTag 'B' [v]
  | .shortInt v => writeTag 'U' (toBeBytes 2 v.toUInt16.toNat)
  | .shortUint v => writeTag 'u' (toBeBytes 2 v.toNat)
  | .longInt v => writeTag 'I' (toBeBytes 4 v.toUInt32.toNat)
  | .longUint v => writeTag 'i' (toBeBytes 4 v.toNat)
  | .longLongInt v => writeTag 'L' (toBeBytes 8 v.toUInt64.toNat)
  | .longLongUint v => writeTag 'l' (toBeBytes 8 v.toNat)
  | .float bits => writeTag 'f' (toBeBytes 4 bits.toNat)
  | .double bits => writeTag 'd' (toBeBytes 8 bits.toNat)
  | .shortString s => (writeTag 's' []).andThen (writeShortstr s)
  | .longString data => writeTag 'S' (writeLongstr data)
  | .timestamp v => writeTag 'T' (toBeBytes 8 v.toNat)
  | .fieldTable table =>
    -- The table is built in a buffer of its own, so a failure inside writes
    -- nothing but the tag.
    let inner := writeFieldEntries table
    if inner.2 then writeTag 'F' (writeLongstr inner.1) else ((writeTag 'F' []).1, false)
  | .void => writeTag 'V' []

def writeFieldEntries : List (String × FieldValue) → Written
  | [] => ([], true)
  | (name, value) :: rest =>
    ((writeShortstr name).andThen (writeFieldValue value)).andThen (writeFieldEntries rest)

end

def writeFieldTable (table : FieldTable) : Written :=
  let inner := writeFieldEntries table
  if inner.2 then (writeLongstr inner.1, true) else ([], false)

structure BasicProperties where
  contentType : Option String
  contentEncoding : Option String
  headers : Option FieldTable
  deliveryMode : Option UInt8
  priority : Option UInt8
  correlationId : Option String
  replyTo : Option String
  expiration : Option String
  messageId : Option String
  timestamp : Option UInt64
  typeField : Option String
  userId : Option String
  appId : Option String
  clusterId : Option String

namespace BasicProperties

def default : BasicProperties :=
  ⟨none, none, none, none, none, none, none, none, none, none, none, none, none, none⟩

/-- The presence bits, the first property at bit 15. -/
def flags (p : BasicProperties) : Nat :=
  let present := [p.contentType.isSome, p.contentEncoding.isSome, p.headers.isSome,
    p.deliveryMode.isSome, p.priority.isSome, p.correlationId.isSome, p.replyTo.isSome,
    p.expiration.isSome, p.messageId.isSome, p.timestamp.isSome, p.typeField.isSome,
    p.userId.isSome, p.appId.isSome, p.clusterId.isSome]
  present.foldl (fun bits b => 2 * bits + if b then 1 else 0) 0 * 4

def writeOpt {α : Type} (write : α → Written) : Option α → Written
  | some v => write v
  | none => ([], true)

/-- `encode`, which stops at the first property that it cannot write. -/
def write (p : BasicProperties) : Written :=
  let octet (v : UInt8) : Written := ([v], true)
  [writeOpt writeShortstr p.contentType, writeOpt writeShortstr p.contentEncoding,
    writeOpt writeFieldTable p.headers, writeOpt octet p.deliveryMode,
    writeOpt octet p.priority, writeOpt writeShortstr p.correlationId,
    writeOpt writeShortstr p.replyTo, writeOpt writeShortstr p.expiration,
    writeOpt writeShortstr p.messageId,
    writeOpt (fun v => (toBeBytes 8 v.toNat, true)) p.timestamp,
    writeOpt writeShortstr p.typeField, writeOpt writeShortstr p.userId,
    writeOpt writeShortstr p.appId, writeOpt writeShortstr p.clusterId].foldl
      Written.andThen (toBeBytes 2 p.flags, true)

/-- `encode(..).unwrap_or_default()`: the bytes written, also after a failure. -/
def encode (p : BasicProperties) : Bytes := p.write.1

end BasicProperties
end RocketmqBroker
