import RocketmqBroker.Storage.WalRoundTrip

/-!
What the entries of the log say. A record is what one of the `log_*` calls was
given; the reading side (storage/mod.rs) takes the fields of a payload apart
again, and refuses a payload that is too short or not text where text belongs.
-/
namespace RocketmqBroker
open BigEndian ByteReader

inductive LogRecord where
  | declareQueue (name : String) (durable : Bool)
  | enqueue (queue : String) (msgId : UInt64) (exchange routingKey : String)
      (headers body : Bytes)
  | ack (msgId : UInt64)
  | declareExchange (name : String) (kind : UInt8) (durable : Bool)
  | bind (exchange queue routingKey : String)
  | setQueueSchema (schemaId : UInt64) (queue : String) (rawProto descriptorSetBytes : Bytes)
      (messageName : String)
  | raft (entryType : EntryType) (data : Bytes)
  deriving DecidableEq, Repr

inductive ReplayError where
  | unexpectedEof
  | invalidUtf8
  | invalidExchangeType (byte : UInt8)
  deriving DecidableEq, Repr

def orEof {α : Type} : Option α → Except ReplayError α
  | some a => .ok a
  | none => .error .unexpectedEof

def readU64 (cur : Bytes) : Except ReplayError (UInt64 × Bytes) := do
  let (n, cur) ← orEof (readWord 8 cur)
  return (UInt64.ofNat n, cur)

def readU8 (cur : Bytes) : Except ReplayError (UInt8 × Bytes) := do
  let (n, cur) ← orEof (readWord 1 cur)
  return (UInt8.ofNat n, cur)

def readStringU16 (cur : Bytes) : Except ReplayError (String × Bytes) := do
  let (bytes, cur) ← orEof (readPrefixed 2 cur)
  match fromUtf8 bytes with
  | some text => return (text, cur)
  | none => .error .invalidUtf8

def readBytesU32 (cur : Bytes) : Except ReplayError (Bytes × Bytes) := orEof (readPrefixed 4 cur)

def readDeclareQueue (data : Bytes) : Except ReplayError (String × Bool) := do
  let (name, cur) ← readStringU16 data
  let (durable, _) ← readU8 cur
  return (name, durable == 1)

def readSetQueueSchema (data : Bytes) :
    Except ReplayError (UInt64 × String × Bytes × Bytes × String) := do
  let (schemaId, cur) ← readU64 data
  let (queue, cur) ← readStringU16 cur
  let (rawProto, cur) ← readBytesU32 cur
  let (descriptorSetBytes, cur) ← readBytesU32 cur
  let (messageName, _) ← readStringU16 cur
  return (schemaId, queue, rawProto, descriptorSetBytes, messageName)

def readEnqueueRest (cur : Bytes) : Except ReplayError (String × String × Bytes × Bytes) := do
  let (exchange, cur) ← readStringU16 cur
  let (routingKey, cur) ← readStringU16 cur
  let (headers, cur) ← readBytesU32 cur
  let (body, _) ← readBytesU32 cur
  return (exchange, routingKey, headers, body)

def readEnqueue (data : Bytes) :
    Except ReplayError (String × UInt64 × String × String × Bytes × Bytes) := do
  let (queue, cur) ← readStringU16 data
  let (msgId, cur) ← readU64 cur
  let rest ← readEnqueueRest cur
  return (queue, msgId, rest)

def readDeclareExchange (data : Bytes) : Except ReplayError (String × UInt8 × Bool) := do
  let (name, cur) ← readStringU16 data
  let (kind, cur) ← readU8 cur
  let (durable, _) ← readU8 cur
  return (name, kind, durable == 1)

def readBind (data : Bytes) : Except ReplayError (String × String × String) := do
  let (exchange, cur) ← readStringU16 data
  let (queue, cur) ← readStringU16 cur
  let (routingKey, _) ← readStringU16 cur
  return (exchange, queue, routingKey)

def ackedId (e : WalEntry) : Option UInt64 :=
  if e.entryType = .ack ∧ 8 ≤ e.data.length then
    some (UInt64.ofNat (fromBeBytes (e.data.take 8)))
  else none

def ackedIds (entries : List WalEntry) : List UInt64 := entries.filterMap ackedId

namespace LogRecord

/-- The entry that the `log_*` call of this record writes. -/
def encode : LogRecord → WalEntry
  | declareQueue name durable => declareQueueEntry name durable
  | enqueue queue msgId exchange routingKey headers body =>
    enqueueEntry queue msgId exchange routingKey headers body
  | ack msgId => ackEntry msgId
  | declareExchange name kind durable => declareExchangeEntry name kind durable
  | bind exchange queue routingKey => bindEntry exchange queue routingKey
  | setQueueSchema schemaId queue rawProto descriptorSetBytes messageName =>
    setQueueSchemaEntry schemaId queue rawProto descriptorSetBytes messageName
  | raft entryType data => ⟨entryType, data⟩

/-- What replay makes of an entry: a record, or nothing for a refused payload. -/
def parse (e : WalEntry) : Option LogRecord :=
  match e.entryType with
  | .declareQueue => (readDeclareQueue e.data).toOption.map fun (name, durable) =>
    declareQueue name durable
  | .enqueue => (readEnqueue e.data).toOption.map
      fun (queue, msgId, exchange, routingKey, headers, body) =>
        enqueue queue msgId exchange routingKey headers body
  | .ack => (ackedId e).map ack
  | .declareExchange => (readDeclareExchange e.data).toOption.map fun (name, kind, durable) =>
    declareExchange name kind durable
  | .bind => (readBind e.data).toOption.map fun (exchange, queue, routingKey) =>
    bind exchange queue routingKey
  | .setQueueSchema => (readSetQueueSchema e.data).toOption.map
      fun (schemaId, queue, rawProto, descriptorSetBytes, messageName) =>
        setQueueSchema schemaId queue rawProto descriptorSetBytes messageName
  | .raftEntry => some (raft .raftEntry e.data)
  | .raftVote => some (raft .raftVote e.data)

def shortText (s : String) : Prop := (strBytes s).length < 2 ^ 16

instance (s : String) : Decidable (shortText s) := inferInstanceAs (Decidable (_ < _))

def Short : LogRecord → Prop
  | declareQueue name _ => shortText name
  | enqueue queue _ exchange routingKey _ _ =>
    shortText queue ∧ shortText exchange ∧ shortText routingKey
  | ack _ => True
  | declareExchange name _ _ => shortText name
  | bind exchange queue routingKey => shortText exchange ∧ shortText queue ∧ shortText routingKey
  | setQueueSchema _ queue _ _ messageName => shortText queue ∧ shortText messageName
  | raft entryType _ => entryType = .raftEntry ∨ entryType = .raftVote

/-- A record that is written and read back as it is. -/
structure WellFormed (r : LogRecord) : Prop where
  short : r.Short
  fits : r.encode.Fits

instance (r : LogRecord) : Decidable r.Short := by
  cases r <;> dsimp only [Short] <;> infer_instance

instance (r : LogRecord) : Decidable r.WellFormed :=
  decidable_of_iff (r.Short ∧ r.encode.Fits) ⟨fun ⟨s, f⟩ => ⟨s, f⟩, fun ⟨s, f⟩ => ⟨s, f⟩⟩

end LogRecord

theorem readStringU16_prefixed {s : String} (short : LogRecord.shortText s) (rest : Bytes) :
    readStringU16 (prefixed 2 (strBytes s) ++ rest) = .ok (s, rest) := by
  have fits : (strBytes s).length < 256 ^ 2 := by
    simp only [LogRecord.shortText] at short
    omega
  simp only [readStringU16, readPrefixed_prefixed fits, orEof, Fallible.ok_bind,
    fromUtf8_strBytes]
  rfl

theorem readBytesU32_prefixed {bytes : Bytes} (fits : bytes.length < 256 ^ 4) (rest : Bytes) :
    readBytesU32 (prefixed 4 bytes ++ rest) = .ok (bytes, rest) := by
  rw [readBytesU32, readPrefixed_prefixed fits]
  rfl

theorem readU64_toBeBytes (n : UInt64) (rest : Bytes) :
    readU64 (toBeBytes 8 n.toNat ++ rest) = .ok (n, rest) := by
  have fits : n.toNat < 256 ^ 8 := by have := n.toNat_lt; omega
  simp only [readU64, readWord_toBeBytes fits, orEof, Fallible.ok_bind, UInt64.ofNat_toNat]
  rfl

theorem readU8_cons (b : UInt8) (rest : Bytes) : readU8 (b :: rest) = .ok (b, rest) := by
  have one : readWord 1 (b :: rest) = some (b.toNat, rest) := by
    simp [readWord, readSlice, fromBeBytes]
  simp only [readU8, one, orEof, Fallible.ok_bind, UInt8.ofNat_toNat]
  rfl

theorem readEnqueueRest_of_reads {c₀ c₁ c₂ c₃ c₄ headers body : Bytes}
    {exchange routingKey : String} (r₁ : readStringU16 c₀ = .ok (exchange, c₁))
    (r₂ : readStringU16 c₁ = .ok (routingKey, c₂)) (r₃ : readBytesU32 c₂ = .ok (headers, c₃))
    (r₄ : readBytesU32 c₃ = .ok (body, c₄)) :
    readEnqueueRest c₀ = .ok (exchange, routingKey, headers, body) := by
  simp only [readEnqueueRest, r₁, r₂, r₃, r₄, Fallible.ok_bind]
  rfl

theorem readSetQueueSchema_of_reads {c₀ c₁ c₂ c₃ c₄ c₅ rawProto descriptorSetBytes : Bytes}
    {schemaId : UInt64} {queue messageName : String} (r₁ : readU64 c₀ = .ok (schemaId, c₁))
    (r₂ : readStringU16 c₁ = .ok (queue, c₂)) (r₃ : readBytesU32 c₂ = .ok (rawProto, c₃))
    (r₄ : readBytesU32 c₃ = .ok (descriptorSetBytes, c₄))
    (r₅ : readStringU16 c₄ = .ok (messageName, c₅)) :
    readSetQueueSchema c₀ = .ok (schemaId, queue, rawProto, descriptorSetBytes, messageName) := by
  simp only [readSetQueueSchema, r₁, r₂, r₃, r₄, r₅, Fallible.ok_bind]
  rfl

theorem durableByte_eq_one (durable : Bool) : (durableByte durable == 1) = durable := by
  cases durable <;> rfl

namespace LogRecord

theorem parse_declareQueue {name : String} {durable : Bool} (short : shortText name) :
    parse (declareQueueEntry name durable) = some (declareQueue name durable) := by
  have data : (declareQueueEntry name durable).data =
      prefixed 2 (strBytes name) ++ (durableByte durable :: []) := by
    simp [declareQueueEntry, WalWriter.withCapacity, WalWriter.writeStrU16, WalWriter.writeU8,
      WalWriter.finish]
  have read : readDeclareQueue (declareQueueEntry name durable).data = .ok (name, durable) := by
    simp only [data, readDeclareQueue, readStringU16_prefixed short, Fallible.ok_bind,
      readU8_cons, durableByte_eq_one]
    rfl
  have tag : (declareQueueEntry name durable).entryType = .declareQueue := rfl
  simp only [parse, tag, read, Except.toOption, Option.map_some]

theorem parse_declareExchange {name : String} {kind : UInt8} {durable : Bool}
    (short : shortText name) :
    parse (declareExchangeEntry name kind durable) = some (declareExchange name kind durable) := by
  have data : (declareExchangeEntry name kind durable).data =
      prefixed 2 (strBytes name) ++ (kind :: durableByte durable :: []) := by
    simp [declareExchangeEntry, WalWriter.withCapacity, WalWriter.writeStrU16, WalWriter.writeU8,
      WalWriter.finish]
  have read : readDeclareExchange (declareExchangeEntry name kind durable).data =
      .ok (name, kind, durable) := by
    simp only [data, readDeclareExchange, readStringU16_prefixed short, Fallible.ok_bind,
      readU8_cons, durableByte_eq_one]
    rfl
  have tag : (declareExchangeEntry name kind durable).entryType = .declareExchange := rfl
  simp only [parse, tag, read, Except.toOption, Option.map_some]

theorem parse_bind {exchange queue routingKey : String} (hx : shortText exchange)
    (hq : shortText queue) (hk : shortText routingKey) :
    parse (bindEntry exchange queue routingKey) = some (bind exchange queue routingKey) := by
  have data : (bindEntry exchange queue routingKey).data =
      prefixed 2 (strBytes exchange) ++ (prefixed 2 (strBytes queue) ++
        (prefixed 2 (strBytes routingKey) ++ [])) := by
    simp [bindEntry, WalWriter.withCapacity, WalWriter.writeStrU16, WalWriter.finish]
  have read : readBind (bindEntry exchange queue routingKey).data =
      .ok (exchange, queue, routingKey) := by
    simp only [data, readBind, readStringU16_prefixed hx, readStringU16_prefixed hq,
      readStringU16_prefixed hk, Fallible.ok_bind]
    rfl
  have tag : (bindEntry exchange queue routingKey).entryType = .bind := rfl
  simp only [parse, tag, read, Except.toOption, Option.map_some]

theorem parse_setQueueSchema {schemaId : UInt64} {queue messageName : String}
    {rawProto descriptorSetBytes : Bytes} (hq : shortText queue) (hm : shortText messageName)
    (fits : (setQueueSchemaEntry schemaId queue rawProto descriptorSetBytes messageName).Fits) :
    parse (setQueueSchemaEntry schemaId queue rawProto descriptorSetBytes messageName) =
      some (setQueueSchema schemaId queue rawProto descriptorSetBytes messageName) := by
  have data : (setQueueSchemaEntry schemaId queue rawProto descriptorSetBytes messageName).data =
      toBeBytes 8 schemaId.toNat ++ (prefixed 2 (strBytes queue) ++ (prefixed 4 rawProto ++
        (prefixed 4 descriptorSetBytes ++ (prefixed 2 (strBytes messageName) ++ [])))) := by
    simp [setQueueSchemaEntry, WalWriter.withCapacity, WalWriter.writeStrU16, WalWriter.writeU64,
      WalWriter.writeBytesU32, WalWriter.finish]
  have sizes : rawProto.length < 256 ^ 4 ∧ descriptorSetBytes.length < 256 ^ 4 := by
    simp only [WalEntry.Fits, data, prefixed, List.length_append, toBeBytes_length] at fits
    omega
  have read : readSetQueueSchema
      (setQueueSchemaEntry schemaId queue rawProto descriptorSetBytes messageName).data =
        .ok (schemaId, queue, rawProto, descriptorSetBytes, messageName) := by
    rw [data]
    exact readSetQueueSchema_of_reads (readU64_toBeBytes _ _) (readStringU16_prefixed hq _)
      (readBytesU32_prefixed sizes.1 _) (readBytesU32_prefixed sizes.2 _)
      (readStringU16_prefixed hm _)
  have tag : (setQueueSchemaEntry schemaId queue rawProto descriptorSetBytes
      messageName).entryType = .setQueueSchema := rfl
  simp only [parse, tag, read, Except.toOption, Option.map_some]

theorem parse_enqueue {queue : String} {msgId : UInt64} {exchange routingKey : String}
    {headers body : Bytes} (hq : shortText queue) (hx : shortText exchange)
    (hk : shortText routingKey)
    (fits : (enqueueEntry queue msgId exchange routingKey headers body).Fits) :
    parse (enqueueEntry queue msgId exchange routingKey headers body) =
      some (enqueue queue msgId exchange routingKey headers body) := by
  obtain ⟨hh, hb⟩ := enqueue_fits_fields fits
  have rest : readEnqueueRest (prefixed 2 (strBytes exchange) ++
      (prefixed 2 (strBytes routingKey) ++ (prefixed 4 headers ++ (prefixed 4 body ++ [])))) =
        .ok (exchange, routingKey, headers, body) :=
    readEnqueueRest_of_reads (readStringU16_prefixed hx _) (readStringU16_prefixed hk _)
      (readBytesU32_prefixed hh _) (readBytesU32_prefixed hb _)
  have read : readEnqueue (enqueueEntry queue msgId exchange routingKey headers body).data =
      .ok (queue, msgId, exchange, routingKey, headers, body) := by
    rw [enqueueEntry_data]
    simp only [readEnqueue, readStringU16_prefixed hq, readU64_toBeBytes, rest, Fallible.ok_bind]
    rfl
  have tag : (enqueueEntry queue msgId exchange routingKey headers body).entryType =
      .enqueue := rfl
  simp only [parse, tag, read, Except.toOption, Option.map_some]

theorem ackedId_ackEntry (msgId : UInt64) : ackedId (ackEntry msgId) = some msgId := by
  have fits : msgId.toNat < 256 ^ 8 := by have := msgId.toNat_lt; omega
  have size : (toBeBytes 8 msgId.toNat).length = 8 := toBeBytes_length 8 _
  simp only [ackedId, ackEntry, size, le_refl, and_self, ↓reduceIte]
  rw [List.take_of_length_le (by rw [size]), fromBeBytes_toBeBytes fits, UInt64.ofNat_toNat]

theorem parse_encode {r : LogRecord} (h : r.WellFormed) : parse r.encode = some r := by
  obtain ⟨short, fits⟩ := h
  cases r with
  | declareQueue name durable => exact parse_declareQueue short
  | enqueue queue msgId exchange routingKey headers body =>
    exact parse_enqueue short.1 short.2.1 short.2.2 fits
  | ack msgId => exact congrArg (Option.map ack) (ackedId_ackEntry msgId)
  | declareExchange name kind durable => exact parse_declareExchange short
  | bind exchange queue routingKey => exact parse_bind short.1 short.2.1 short.2.2
  | setQueueSchema schemaId queue rawProto descriptorSetBytes messageName =>
    exact parse_setQueueSchema short.1 short.2 fits
  | raft entryType data =>
    rcases short with rfl | rfl
    · rfl
    · rfl

theorem filterMap_parse_encode {rs : List LogRecord} (h : ∀ r ∈ rs, r.WellFormed) :
    (rs.map encode).filterMap parse = rs := by
  induction rs with
  | nil => rfl
  | cons r rs ih =>
    rw [List.map_cons, List.filterMap_cons_some (parse_encode (h r (by simp))),
      ih fun r' hr => h r' (by simp [hr])]

end LogRecord
end RocketmqBroker
