import RocketmqBroker.Broker.Dispatch
import RocketmqBroker.Lib.ByteReader
import RocketmqBroker.Protocol.SentPublish
import Mathlib.Data.Nat.Bitwise

/-!
The arguments of a method as the handlers read them (protocol/amqp/handlers), and as a client
writes them. The handlers refuse nothing: a field that cannot be read is empty or 0. Some
fields they pass over, and some they do not read at all.
-/
namespace RocketmqBroker
open BigEndian ByteReader Cursor

def classChannel : Nat := 20
def classConfirm : Nat := 85

def methodChannelOpen : Nat := 10
def methodChannelFlow : Nat := 20
def methodChannelClose : Nat := 40
def methodExchangeBind : Nat := 30
def methodExchangeUnbind : Nat := 40
def methodBasicQos : Nat := 10
def methodBasicCancel : Nat := 30
def methodBasicAck : Nat := 80
def methodBasicReject : Nat := 90
def methodBasicRecoverAsync : Nat := 100
def methodBasicRecover : Nat := 110
def methodBasicNack : Nat := 120
def methodTxSelect : Nat := 10
def methodConfirmSelect : Nat := 10

/-- `read_short(&mut r).unwrap_or(0)`, and the same for longer words. -/
def wordOrZero (width : Nat) : TokenReader UInt8 Nat := orDefault (readWord width) 0

def octetOrZero : TokenReader UInt8 UInt8 := orDefault readOctet 0

/-- A text that is no UTF-8 is passed over. -/
def shortstr : TokenReader UInt8 String := shortstrOrDefault

def tableOrDefault : TokenReader UInt8 FieldTable := orDefault readFieldTable []

def bit (flags mask : UInt8) : Bool := flags &&& mask != 0

def boundArgs : TokenReader UInt8 (String × String × String) := do
  let _ticket ← wordOrZero 2
  let first ← shortstr
  let second ← shortstr
  let routingKey ← shortstr
  return (first, second, routingKey)

def channelFlowArgs : TokenReader UInt8 Method := do
  let active ← orDefault readOctet 1
  return .channelFlow (active != 0)

def exchangeDeclareArgs : TokenReader UInt8 Method := do
  let _ticket ← wordOrZero 2
  let name ← shortstr
  let kind ← shortstr
  let flags ← octetOrZero
  return .exchangeDeclare ⟨name, kind, bit flags 0x01, bit flags 0x02, bit flags 0x10⟩

def exchangeDeleteArgs : TokenReader UInt8 Method := do
  let _ticket ← wordOrZero 2
  let name ← shortstr
  let flags ← octetOrZero
  return .exchangeDelete name (bit flags 0x02)

def exchangeBindArgs : TokenReader UInt8 Method := do
  let (destination, source, routingKey) ← boundArgs
  let flags ← octetOrZero
  return .exchangeBind destination source routingKey (bit flags 0x01)

def exchangeUnbindArgs : TokenReader UInt8 Method := do
  let (destination, source, routingKey) ← boundArgs
  return .exchangeUnbind destination source routingKey

def queueDeclareArgs (now : Instant) : TokenReader UInt8 Method := do
  let _ticket ← wordOrZero 2
  let name ← shortstr
  let flags ← octetOrZero
  let arguments ← tableOrDefault
  return .queueDeclare ⟨name, bit flags 0x01, bit flags 0x02, bit flags 0x04, bit flags 0x08,
    bit flags 0x10, arguments⟩ now

def queueDeleteArgs : TokenReader UInt8 Method := do
  let _ticket ← wordOrZero 2
  let name ← shortstr
  let flags ← octetOrZero
  return .queueDelete name (bit flags 0x01) (bit flags 0x02) (bit flags 0x04)

def queuePurgeArgs : TokenReader UInt8 Method := do
  let _ticket ← wordOrZero 2
  let name ← shortstr
  let flags ← octetOrZero
  return .queuePurge name (bit flags 0x01)

def queueBindArgs : TokenReader UInt8 Method := do
  let (queue, exchange, routingKey) ← boundArgs
  let flags ← octetOrZero
  return .queueBind queue exchange routingKey (bit flags 0x01)

def queueUnbindArgs : TokenReader UInt8 Method := do
  let (queue, exchange, routingKey) ← boundArgs
  return .queueUnbind queue exchange routingKey

def basicConsumeArgs : TokenReader UInt8 Method := do
  let _ticket ← wordOrZero 2
  let queue ← shortstr
  let consumerTag ← shortstr
  let flags ← octetOrZero
  let arguments ← tableOrDefault
  return .basicConsume ⟨queue, consumerTag, bit flags 0x02, bit flags 0x04, bit flags 0x08,
    arguments⟩

def basicCancelArgs : TokenReader UInt8 Method := do
  let consumerTag ← shortstr
  let flags ← octetOrZero
  return .basicCancel consumerTag (bit flags 0x01)

def basicAckArgs : TokenReader UInt8 Method := do
  let deliveryTag ← wordOrZero 8
  let _multiple ← octetOrZero
  return .basicAck (.ofNat deliveryTag)

def basicRejectArgs : TokenReader UInt8 Method := do
  let deliveryTag ← wordOrZero 8
  let flags ← octetOrZero
  return .basicReject (.ofNat deliveryTag) (bit flags 0x01)

def basicNackArgs : TokenReader UInt8 Method := do
  let deliveryTag ← wordOrZero 8
  let flags ← octetOrZero
  return .basicNack (.ofNat deliveryTag) (bit flags 0x02)

def basicGetArgs : TokenReader UInt8 Method := do
  let _ticket ← wordOrZero 2
  let queue ← shortstr
  let flags ← octetOrZero
  return .basicGet queue (bit flags 0x01)

def basicQosArgs : TokenReader UInt8 Method := do
  let _prefetchSize ← wordOrZero 4
  let prefetchCount ← wordOrZero 2
  let flags ← octetOrZero
  return .basicQos (.ofNat prefetchCount) (bit flags 0x01)

def confirmSelectArgs : TokenReader UInt8 Method := do
  let flags ← octetOrZero
  return .confirmSelect (bit flags 0x01)

/-- The handler that `dispatch_method` goes to, by what it reads. What is left is closing the
    connection, Channel.CloseOk, a publish and what it does not know. -/
def dispatched (now : Instant) (classId methodId : Nat) : Option (TokenReader UInt8 Method) :=
  if classId = classChannel then
    if methodId = methodChannelOpen then some (pure .channelOpen)
    else if methodId = methodChannelClose then some (pure .channelClose)
    else if methodId = methodChannelFlow then some channelFlowArgs
    else none
  else if classId = classExchange then
    if methodId = methodExchangeDeclare then some exchangeDeclareArgs
    else if methodId = methodExchangeDelete then some exchangeDeleteArgs
    else if methodId = methodExchangeBind then some exchangeBindArgs
    else if methodId = methodExchangeUnbind then some exchangeUnbindArgs
    else none
  else if classId = classQueue then
    if methodId = methodQueueDeclare then some (queueDeclareArgs now)
    else if methodId = methodQueueDelete then some queueDeleteArgs
    else if methodId = methodQueuePurge then some queuePurgeArgs
    else if methodId = methodQueueBind then some queueBindArgs
    else if methodId = methodQueueUnbind then some queueUnbindArgs
    else none
  else if classId = classBasic then
    if methodId = methodBasicConsume then some basicConsumeArgs
    else if methodId = methodBasicCancel then some basicCancelArgs
    else if methodId = methodBasicAck then some basicAckArgs
    else if methodId = methodBasicReject then some basicRejectArgs
    else if methodId = methodBasicNack then some basicNackArgs
    else if methodId = methodBasicGet then some basicGetArgs
    else if methodId = methodBasicQos then some basicQosArgs
    else if methodId = methodBasicRecover ∨ methodId = methodBasicRecoverAsync then
      some (pure .basicRecover)
    else none
  else if classId = classTx then
    if methodId = methodTxSelect then some (pure .txSelect)
    else if methodId = methodTxCommit then some (pure .txCommit)
    else if methodId = methodTxRollback then some (pure .txRollback)
    else none
  else if classId = classConfirm then
    if methodId = methodConfirmSelect then some confirmSelectArgs else none
  else none

/-- The request that a method is taken for. -/
def MethodFrame.request (now : Instant) (m : MethodFrame) : Option Method :=
  (dispatched now m.classId m.methodId).map (value · m.arguments)

/-- What a client writes besides, and no handler looks at: reserved fields, bits of other
    features, and whatever stands behind the last field that is read. -/
structure Unread where
  ticket : UInt16
  prefetchSize : UInt32
  autoDelete : Bool
  internal : Bool
  ifUnused : Bool
  noLocal : Bool
  multiple : Bool
  immediate : Bool
  recoverAsync : Bool
  behind : Bytes

def octet (bits : List Bool) : UInt8 :=
  .ofNat (bits.foldr (fun b n => 2 * n + if b then 1 else 0) 0)

def writeName (s : String) : Bytes := prefixed 1 (strBytes s)

def boundFields (u : Unread) (first second routingKey : String) : Bytes :=
  [toBeBytes 2 u.ticket.toNat, writeName first, writeName second, writeName routingKey].flatten

namespace Method

def classId : Method → Nat
  | channelOpen | channelClose | channelFlow _ => classChannel
  | exchangeDeclare _ | exchangeDelete .. | exchangeBind .. | exchangeUnbind .. => classExchange
  | queueDeclare .. | queueDelete .. | queuePurge .. | queueBind .. | queueUnbind .. => classQueue
  | txSelect | txCommit | txRollback => classTx
  | confirmSelect _ => classConfirm
  | _ => classBasic

def methodId (u : Unread) : Method → Nat
  | channelOpen => methodChannelOpen
  | channelClose => methodChannelClose
  | channelFlow _ => methodChannelFlow
  | exchangeDeclare _ => methodExchangeDeclare
  | exchangeDelete .. => methodExchangeDelete
  | exchangeBind .. => methodExchangeBind
  | exchangeUnbind .. => methodExchangeUnbind
  | queueDeclare .. => methodQueueDeclare
  | queueDelete .. => methodQueueDelete
  | queuePurge .. => methodQueuePurge
  | queueBind .. => methodQueueBind
  | queueUnbind .. => methodQueueUnbind
  | basicPublish .. => methodBasicPublish
  | basicConsume _ => methodBasicConsume
  | basicCancel .. => methodBasicCancel
  | basicAck _ => methodBasicAck
  | basicReject .. => methodBasicReject
  | basicNack .. => methodBasicNack
  | basicGet .. => methodBasicGet
  | basicQos .. => methodBasicQos
  | basicRecover => if u.recoverAsync then methodBasicRecoverAsync else methodBasicRecover
  | txSelect => methodTxSelect
  | txCommit => methodTxCommit
  | txRollback => methodTxRollback
  | confirmSelect _ => methodConfirmSelect

/-- The fields of a method as they stand on the wire. -/
def fields (u : Unread) : Method → List Bytes
  | channelFlow active => [[octet [active]]]
  | exchangeDeclare args => [toBeBytes 2 u.ticket.toNat, writeName args.name, writeName args.kind,
      [octet [args.passive, args.durable, u.autoDelete, u.internal, args.noWait]]]
  | exchangeDelete name noWait =>
    [toBeBytes 2 u.ticket.toNat, writeName name, [octet [u.ifUnused, noWait]]]
  | exchangeBind destination source routingKey noWait =>
    [boundFields u destination source routingKey, [octet [noWait]]]
  | exchangeUnbind destination source routingKey => [boundFields u destination source routingKey]
  | queueDeclare args _ => [toBeBytes 2 u.ticket.toNat, writeName args.name,
      [octet [args.passive, args.durable, args.exclusive, args.autoDelete, args.noWait]],
      (writeFieldTable args.arguments).1]
  | queueDelete name ifUnused ifEmpty noWait =>
    [toBeBytes 2 u.ticket.toNat, writeName name, [octet [ifUnused, ifEmpty, noWait]]]
  | queuePurge name noWait => [toBeBytes 2 u.ticket.toNat, writeName name, [octet [noWait]]]
  | queueBind queue exchange routingKey noWait =>
    [boundFields u queue exchange routingKey, [octet [noWait]]]
  | queueUnbind queue exchange routingKey => [boundFields u queue exchange routingKey]
  | basicPublish args _ => [toBeBytes 2 u.ticket.toNat, writeName args.exchange,
      writeName args.routingKey, [octet [args.mandatory, u.immediate]]]
  | basicConsume args => [toBeBytes 2 u.ticket.toNat, writeName args.queue,
      writeName args.consumerTag, [octet [u.noLocal, args.noAck, args.exclusive, args.noWait]],
      (writeFieldTable args.arguments).1]
  | basicCancel tag noWait => [writeName tag, [octet [noWait]]]
  | basicAck tag => [toBeBytes 8 tag.toNat, [octet [u.multiple]]]
  | basicReject tag requeue => [toBeBytes 8 tag.toNat, [octet [requeue]]]
  | basicNack tag requeue => [toBeBytes 8 tag.toNat, [octet [u.multiple, requeue]]]
  | basicGet queue noAck => [toBeBytes 2 u.ticket.toNat, writeName queue, [octet [noAck]]]
  | basicQos prefetchCount globally => [toBeBytes 4 u.prefetchSize.toNat,
      toBeBytes 2 prefetchCount.toNat, [octet [globally]]]
  | confirmSelect noWait => [[octet [noWait]]]
  | channelOpen | channelClose | basicRecover | txSelect | txCommit | txRollback => []

def arguments (u : Unread) (m : Method) : Bytes := (m.fields u).flatten ++ u.behind

def names : Method → List String
  | exchangeDeclare args => [args.name, args.kind]
  | exchangeDelete name _ => [name]
  | exchangeBind destination source routingKey _ => [destination, source, routingKey]
  | exchangeUnbind destination source routingKey => [destination, source, routingKey]
  | queueDeclare args _ => [args.name]
  | queueDelete name .. => [name]
  | queuePurge name _ => [name]
  | queueBind queue exchange routingKey _ => [queue, exchange, routingKey]
  | queueUnbind queue exchange routingKey => [queue, exchange, routingKey]
  | basicPublish args _ => [args.exchange, args.routingKey]
  | basicConsume args => [args.queue, args.consumerTag]
  | basicCancel tag _ => [tag]
  | basicGet queue _ => [queue]
  | _ => []

def table? : Method → Option FieldTable
  | queueDeclare args _ => some args.arguments
  | basicConsume args => some args.arguments
  | _ => none

structure Sendable (m : Method) : Prop where
  names_short : ∀ name ∈ m.names, (strBytes name).length ≤ 255
  table_writable : ∀ table, m.table? = some table → table.Writable

def handledAt (now : Instant) : Method → Method
  | queueDeclare args _ => queueDeclare args now
  | basicPublish args _ => basicPublish args now
  | m => m

def isPublish : Method → Bool
  | basicPublish .. => true
  | _ => false

end Method

section
variable {s : String} {table : FieldTable}

theorem reads_word {width n : Nat} (fits : n < 256 ^ width) :
    Reads (wordOrZero width) (toBeBytes width n) n :=
  reads_orDefault (readWord_toBeBytes fits) 0

theorem reads_octet (b : UInt8) : Reads octetOrZero [b] b := reads_orDefault (readOctet_cons b) 0

theorem reads_name (short : (strBytes s).length ≤ 255) : Reads shortstr (writeName s) s :=
  fun rest => shortstrOrDefault_prefixed short rest

theorem reads_table (writable : table.Writable) :
    Reads tableOrDefault (writeFieldTable table).1 table :=
  reads_orDefault (fun rest => readFieldTable_write writable rest) []

theorem octet_toNat {bits : List Bool} (few : bits.length ≤ 8) : (octet bits).toNat =
    bits.foldr (fun b n => 2 * n + if b then 1 else 0) 0 := by
  have small (bits : List Bool) :
      bits.foldr (fun (b : Bool) (n : Nat) => 2 * n + if b then 1 else 0) 0 < 2 ^ bits.length := by
    induction bits with
    | nil => exact Nat.one_pos
    | cons b bits ih =>
      rw [List.foldr_cons, List.length_cons, Nat.pow_succ]
      cases b <;> simp <;> omega
  exact UInt8.toNat_ofNat_of_lt' (Nat.lt_of_lt_of_le (small bits)
    (Nat.pow_le_pow_right (by decide) few))

theorem bit_octet {bits : List Bool} {mask : UInt8} (k : Nat) (single : mask.toNat = 2 ^ k)
    (few : bits.length ≤ 8) : bit (octet bits) mask = bits.getD k false := by
  have digits := testBit_digits bits.reverse k
  rw [List.foldl_reverse, List.reverse_reverse, ← octet_toNat few] at digits
  rw [← digits, bit, Bool.eq_iff_iff, bne_iff_ne, Ne, ← UInt8.toNat_inj, UInt8.toNat_and, single,
    Nat.and_two_pow]
  cases (octet bits).toNat.testBit k <;> simp

theorem octet_bits {bits : List Bool} (few : bits.length ≤ 8) :
    bit (octet bits) 0x01 = bits.getD 0 false ∧ bit (octet bits) 0x02 = bits.getD 1 false ∧
      bit (octet bits) 0x04 = bits.getD 2 false ∧ bit (octet bits) 0x08 = bits.getD 3 false ∧
        bit (octet bits) 0x10 = bits.getD 4 false :=
  ⟨bit_octet 0 rfl few, bit_octet 1 rfl few, bit_octet 2 rfl few, bit_octet 3 rfl few,
    bit_octet 4 rfl few⟩

end

section
variable (u : Unread) {m : Method}

theorem reads_ticket : Reads (wordOrZero 2) (toBeBytes 2 u.ticket.toNat) u.ticket.toNat :=
  reads_word u.ticket.toNat_lt

theorem reads_bound {first second routingKey : String}
    (short : ∀ name ∈ [first, second, routingKey], (strBytes name).length ≤ 255) :
    Reads boundArgs (boundFields u first second routingKey) (first, second, routingKey) := by
  refine (reads_ticket u).bind ?_
  refine (reads_name (short first (by simp))).bind ?_
  refine (reads_name (short second (by simp))).bind ?_
  exact (reads_name (short routingKey (by simp))).bind (reads_pure _)

theorem reads_fields (now : Instant) (sendable : m.Sendable) (other : m.isPublish = false) :
    ∃ r, dispatched now m.classId (m.methodId u) = some r ∧
      Reads r (m.fields u).flatten (m.handledAt now) := by
  have short := sendable.names_short
  cases m with
  | channelOpen | channelClose | txSelect | txCommit | txRollback =>
    exact ⟨_, rfl, reads_pure _⟩
  | channelFlow active =>
    refine ⟨channelFlowArgs, rfl, (reads_orDefault (readOctet_cons _) 1).bind ?_⟩
    have same : (octet [active] != 0) = active := by cases active <;> rfl
    rw [same]
    exact reads_pure _
  | exchangeDeclare args =>
    obtain ⟨b0, b1, -, -, b4⟩ := @octet_bits
      [args.passive, args.durable, u.autoDelete, u.internal, args.noWait] (by simp)
    refine ⟨exchangeDeclareArgs, rfl, (reads_ticket u).bind ?_⟩
    refine (reads_name (short args.name (by simp [Method.names]))).bind ?_
    refine (reads_name (short args.kind (by simp [Method.names]))).bind ?_
    refine (reads_octet _).bind ?_
    rw [b0, b1, b4]
    exact reads_pure _
  | exchangeDelete name noWait =>
    obtain ⟨-, b1, -⟩ := @octet_bits [u.ifUnused, noWait] (by simp)
    refine ⟨exchangeDeleteArgs, rfl, (reads_ticket u).bind ?_⟩
    refine (reads_name (short name (by simp [Method.names]))).bind ((reads_octet _).bind ?_)
    rw [b1]
    exact reads_pure _
  | exchangeBind destination source routingKey noWait =>
    obtain ⟨b0, -⟩ := @octet_bits [noWait] (by simp)
    refine ⟨exchangeBindArgs, rfl, (reads_bound u short).bind ((reads_octet _).bind ?_)⟩
    rw [b0]
    exact reads_pure _
  | exchangeUnbind destination source routingKey =>
    exact ⟨exchangeUnbindArgs, rfl, (reads_bound u short).bind (reads_pure _)⟩
  | queueDeclare args time =>
    obtain ⟨b0, b1, b2, b3, b4⟩ := @octet_bits
      [args.passive, args.durable, args.exclusive, args.autoDelete, args.noWait] (by simp)
    refine ⟨queueDeclareArgs now, rfl, (reads_ticket u).bind ?_⟩
    refine (reads_name (short args.name (by simp [Method.names]))).bind ((reads_octet _).bind ?_)
    refine (reads_table (sendable.table_writable args.arguments rfl)).bind ?_
    rw [b0, b1, b2, b3, b4]
    exact reads_pure _
  | queueDelete name ifUnused ifEmpty noWait =>
    obtain ⟨b0, b1, b2, -⟩ := @octet_bits [ifUnused, ifEmpty, noWait] (by simp)
    refine ⟨queueDeleteArgs, rfl, (reads_ticket u).bind ?_⟩
    refine (reads_name (short name (by simp [Method.names]))).bind ((reads_octet _).bind ?_)
    rw [b0, b1, b2]
    exact reads_pure _
  | queuePurge name noWait =>
    obtain ⟨b0, -⟩ := @octet_bits [noWait] (by simp)
    refine ⟨queuePurgeArgs, rfl, (reads_ticket u).bind ?_⟩
    refine (reads_name (short name (by simp [Method.names]))).bind ((reads_octet _).bind ?_)
    rw [b0]
    exact reads_pure _
  | queueBind queue exchange routingKey noWait =>
    obtain ⟨b0, -⟩ := @octet_bits [noWait] (by simp)
    refine ⟨queueBindArgs, rfl, (reads_bound u short).bind ((reads_octet _).bind ?_)⟩
    rw [b0]
    exact reads_pure _
  | queueUnbind queue exchange routingKey =>
    exact ⟨queueUnbindArgs, rfl, (reads_bound u short).bind (reads_pure _)⟩
  | basicPublish args time => cases other
  | basicConsume args =>
    obtain ⟨-, b1, b2, b3, -⟩ := @octet_bits [u.noLocal, args.noAck, args.exclusive, args.noWait]
      (by simp)
    refine ⟨basicConsumeArgs, rfl, (reads_ticket u).bind ?_⟩
    refine (reads_name (short args.queue (by simp [Method.names]))).bind ?_
    refine (reads_name (short args.consumerTag (by simp [Method.names]))).bind ?_
    refine (reads_octet _).bind ?_
    refine (reads_table (sendable.table_writable args.arguments rfl)).bind ?_
    rw [b1, b2, b3]
    exact reads_pure _
  | basicCancel tag noWait =>
    obtain ⟨b0, -⟩ := @octet_bits [noWait] (by simp)
    refine ⟨basicCancelArgs, rfl, ?_⟩
    refine (reads_name (short tag (by simp [Method.names]))).bind ((reads_octet _).bind ?_)
    rw [b0]
    exact reads_pure _
  | basicAck tag =>
    refine ⟨basicAckArgs, rfl, (reads_word tag.toNat_lt).bind ((reads_octet _).bind ?_)⟩
    rw [UInt64.ofNat_toNat]
    exact reads_pure _
  | basicReject tag requeue =>
    obtain ⟨b0, -⟩ := @octet_bits [requeue] (by simp)
    refine ⟨basicRejectArgs, rfl, (reads_word tag.toNat_lt).bind ((reads_octet _).bind ?_)⟩
    rw [b0, UInt64.ofNat_toNat]
    exact reads_pure _
  | basicNack tag requeue =>
    obtain ⟨-, b1, -⟩ := @octet_bits [u.multiple, requeue] (by simp)
    refine ⟨basicNackArgs, rfl, (reads_word tag.toNat_lt).bind ((reads_octet _).bind ?_)⟩
    rw [b1, UInt64.ofNat_toNat]
    exact reads_pure _
  | basicGet queue noAck =>
    obtain ⟨b0, -⟩ := @octet_bits [noAck] (by simp)
    refine ⟨basicGetArgs, rfl, (reads_ticket u).bind ?_⟩
    refine (reads_name (short queue (by simp [Method.names]))).bind ((reads_octet _).bind ?_)
    rw [b0]
    exact reads_pure _
  | basicQos prefetchCount globally =>
    obtain ⟨b0, -⟩ := @octet_bits [globally] (by simp)
    refine ⟨basicQosArgs, rfl, (reads_word u.prefetchSize.toNat_lt).bind ?_⟩
    refine (reads_word prefetchCount.toNat_lt).bind ((reads_octet _).bind ?_)
    rw [b0, UInt16.ofNat_toNat]
    exact reads_pure _
  | basicRecover =>
    refine ⟨pure .basicRecover, ?_, reads_pure _⟩
    cases async : u.recoverAsync <;> rw [Method.methodId, async] <;> rfl
  | confirmSelect noWait =>
    obtain ⟨b0, -⟩ := @octet_bits [noWait] (by simp)
    refine ⟨confirmSelectArgs, rfl, (reads_octet _).bind ?_⟩
    rw [b0]
    exact reads_pure _

theorem request_written (now : Instant) (sendable : m.Sendable) (other : m.isPublish = false) :
    (MethodFrame.mk m.classId (m.methodId u) (m.arguments u)).request now =
      some (m.handledAt now) := by
  obtain ⟨r, handler, reads⟩ := reads_fields u now sendable other
  change (dispatched now m.classId (m.methodId u)).map (value · (m.arguments u)) = _
  rw [handler, Option.map_some, Method.arguments, reads.value u.behind]

end

end RocketmqBroker
