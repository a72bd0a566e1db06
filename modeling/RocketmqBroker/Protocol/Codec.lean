import RocketmqBroker.Handlers.Basic
import RocketmqBroker.Lib.RecordScan
import RocketmqBroker.Protocol.PropertyReader

/-!
AMQP frames on the wire and what is checked of them (protocol/amqp/codec.rs, validation.rs,
read_amqp_frame of connection.rs, parse_publish_args of handlers/basic.rs).
-/
namespace RocketmqBroker
open BigEndian ByteReader RecordScan

def frameMethod : UInt8 := 1
def frameHeader : UInt8 := 2
def frameBody : UInt8 := 3
def frameHeartbeat : UInt8 := 8
def frameEnd : UInt8 := 0xCE

structure AmqpFrame where
  frameType : UInt8
  channel : UInt16
  payload : Bytes
  deriving DecidableEq, Repr

structure MethodFrame where
  classId : Nat
  methodId : Nat
  arguments : Bytes
  deriving DecidableEq, Repr

structure ContentHeader where
  classId : Nat
  bodySize : Nat
  properties : BasicProperties

/-- type(1) | channel(2) | size(4) | payload(size) | frame-end(1). -/
def AmqpFrame.encode (frame : AmqpFrame) : Bytes :=
  frame.frameType :: toBeBytes 2 frame.channel.toNat ++ toBeBytes 4 frame.payload.length ++
    frame.payload ++ [frameEnd]

/-- Without a result the read waits for more bytes. With one it is over, and has failed if
    the frame does not end as it should. -/
def readAmqpFrame (bs : Bytes) : Option (Option AmqpFrame × Bytes) := do
  let (header, bs) ← readSlice 7 bs
  let frameType := header.headD 0
  let channel := UInt16.ofNat (fromBeBytes ((header.drop 1).take 2))
  let size := fromBeBytes (header.drop 3)
  let (payload, rest) ← readSlice (size + 1) bs
  let frame : AmqpFrame := ⟨frameType, channel, payload.dropLast⟩
  return (if payload.getLastD 0 = frameEnd then some frame else none, rest)

theorem readAmqpFrame_eq_some_iff {bs rest : Bytes} {frame : Option AmqpFrame} :
    readAmqpFrame bs = some (frame, rest) ↔ ∃ header payload, header.length = 7 ∧
      payload.length = fromBeBytes (header.drop 3) + 1 ∧ bs = header ++ (payload ++ rest) ∧
      frame = if payload.getLastD 0 = frameEnd then
        some ⟨header.headD 0, .ofNat (fromBeBytes ((header.drop 1).take 2)), payload.dropLast⟩
        else none := by
  constructor
  · intro read
    obtain ⟨⟨header, behind⟩, seven, read⟩ := Option.bind_eq_some_iff.mp read
    obtain ⟨⟨payload, left⟩, sized, read⟩ := Option.bind_eq_some_iff.mp read
    obtain ⟨rfl, rfl⟩ := Prod.mk.inj (Option.some.inj read)
    obtain ⟨len, rfl⟩ := readSlice_eq_some_iff.mp seven
    obtain ⟨size, rfl⟩ := readSlice_eq_some_iff.mp sized
    exact ⟨header, payload, len, size, rfl, rfl⟩
  · rintro ⟨header, payload, len, size, rfl, rfl⟩
    simp only [readAmqpFrame, readSlice_append len, readSlice_append size, Option.bind_eq_bind,
      Option.bind_some]
    rfl

theorem readAmqpFrame_append {bs rest : Bytes} {frame : Option AmqpFrame}
    (read : readAmqpFrame bs = some (frame, rest)) (more : Bytes) :
    readAmqpFrame (bs ++ more) = some (frame, rest ++ more) := by
  obtain ⟨header, payload, len, size, rfl, result⟩ := readAmqpFrame_eq_some_iff.mp read
  refine readAmqpFrame_eq_some_iff.mpr ⟨header, payload, len, size, ?_, result⟩
  rw [List.append_assoc, List.append_assoc]

theorem readAmqpFrame_encode {frame : AmqpFrame} (fits : frame.payload.length < 256 ^ 4)
    (rest : Bytes) : readAmqpFrame (frame.encode ++ rest) = some (some frame, rest) := by
  have size := fromBeBytes_toBeBytes fits
  have number : fromBeBytes (toBeBytes 2 frame.channel.toNat) = frame.channel.toNat :=
    fromBeBytes_toBeBytes frame.channel.toNat_lt
  refine readAmqpFrame_eq_some_iff.mpr ⟨frame.frameType :: (toBeBytes 2 frame.channel.toNat ++
    toBeBytes 4 frame.payload.length), frame.payload ++ [frameEnd], ?_, ?_, ?_, ?_⟩
  · simp
  · have sizes : (frame.frameType :: (toBeBytes 2 frame.channel.toNat ++
        toBeBytes 4 frame.payload.length)).drop 3 = toBeBytes 4 frame.payload.length :=
      List.drop_left' (by simp)
    rw [sizes, size, List.length_append, List.length_singleton]
  · simp [AmqpFrame.encode]
  · simp [number]

theorem readAmqpFrame_canonical {bs rest : Bytes} {frame : AmqpFrame}
    (read : readAmqpFrame bs = some (some frame, rest)) :
    frame.payload.length < 256 ^ 4 ∧ bs = frame.encode ++ rest := by
  obtain ⟨header, payload, len, size, rfl, result⟩ := readAmqpFrame_eq_some_iff.mp read
  by_cases ends : payload.getLastD 0 = frameEnd
  · rw [if_pos ends] at result
    obtain rfl := Option.some.inj result
    have sized : (header.drop 3).length = 4 := by rw [List.length_drop, len]
    have numbered : ((header.drop 1).take 2).length = 2 := by simp [len]
    have bound := fromBeBytes_lt (header.drop 3)
    have room := fromBeBytes_lt ((header.drop 1).take 2)
    rw [sized] at bound
    rw [numbered] at room
    have short : payload.dropLast.length = fromBeBytes (header.drop 3) := by
      rw [List.length_dropLast, size, Nat.add_sub_cancel]
    refine ⟨by rw [short]; exact bound, ?_⟩
    have number : toBeBytes 2 (UInt16.ofNat (fromBeBytes ((header.drop 1).take 2))).toNat =
        (header.drop 1).take 2 := by
      have same := toBeBytes_fromBeBytes ((header.drop 1).take 2)
      rw [numbered] at same
      rw [UInt16.toNat_ofNat_of_lt' room, same]
    have length : toBeBytes 4 payload.dropLast.length = header.drop 3 := by
      have same := toBeBytes_fromBeBytes (header.drop 3)
      rw [sized] at same
      rw [short, same]
    have tail : payload.dropLast ++ [frameEnd] = payload := by
      have some_left : payload ≠ [] := List.ne_nil_of_length_eq_add_one size
      rw [← ends, List.getLastD_eq_getLast?, List.getLast?_eq_some_getLast some_left]
      exact List.dropLast_concat_getLast some_left
    have front : header.headD 0 :: ((header.drop 1).take 2 ++ header.drop 3) = header := by
      cases header with
      | nil => exact absurd len (by decide)
      | cons first header => exact congrArg (first :: ·) (List.take_append_drop 2 header)
    rw [AmqpFrame.encode, number, length, List.append_assoc _ payload.dropLast, tail,
      ← List.append_assoc]
    exact congrArg (· ++ payload ++ rest) front.symm
  · rw [if_neg ends] at result
    exact absurd result (Option.some_ne_none _)

theorem readAmqpFrame_pending {frame : AmqpFrame} (fits : frame.payload.length < 256 ^ 4)
    {cut : Bytes} (front : cut <+: frame.encode) (short : cut.length < frame.encode.length) :
    readAmqpFrame cut = none := by
  cases read : readAmqpFrame cut with
  | none => rfl
  | some found =>
    obtain ⟨result, rest⟩ := found
    obtain ⟨more, whole⟩ := front
    have extended := readAmqpFrame_append read more
    have all := readAmqpFrame_encode fits []
    rw [List.append_nil, ← whole, extended] at all
    have none_left := (List.append_eq_nil_iff.mp (Prod.mk.inj (Option.some.inj all)).2).2
    rw [← whole, none_left, List.append_nil] at short
    exact absurd short (Nat.lt_irrefl _)

def frameCodec : Codec AmqpFrame UInt8 where
  encode := AmqpFrame.encode
  next bs := (readAmqpFrame bs).bind fun read => read.1.map fun frame => (frame, read.2)
  Valid frame := frame.payload.length < 256 ^ 4
  next_encode frame rest fits := by rw [readAmqpFrame_encode fits]; rfl
  canonical bs frame rest next := by
    obtain ⟨⟨result, left⟩, read, next⟩ := Option.bind_eq_some_iff.mp next
    obtain ⟨frame', eq, same⟩ := Option.map_eq_some_iff.mp next
    obtain ⟨rfl, rfl⟩ := Prod.mk.inj same
    rw [show result = some frame' from eq] at read
    exact readAmqpFrame_canonical read
  encode_pos frame := Nat.succ_pos _

def decodeMethod (payload : Bytes) : Option MethodFrame := do
  let (classId, bs) ← readWord 2 payload
  let (methodId, arguments) ← readWord 2 bs
  return ⟨classId, methodId, arguments⟩

/-- What stands behind the properties is not looked at. -/
def decodeContentHeader (payload : Bytes) : Option ContentHeader :=
  if payload.length < 14 then none
  else
    let classId := fromBeBytes (payload.take 2)
    let bodySize := fromBeBytes ((payload.drop 4).take 8)
    (BasicProperties.decode (payload.drop 12)).map fun read => ⟨classId, bodySize, read.1⟩

def shortstrOrDefault (bs : Bytes) : String × Bytes :=
  match readPrefixed 1 bs with
  | some (data, rest) => ((fromUtf8 data).getD "", rest)
  | none => ("", [])

/-- The exchange, the routing key, mandatory and immediate. What cannot be read is empty. -/
def parsePublishArgs (args : Bytes) : String × String × Bool × Bool :=
  let bs := ((readWord 2 args).map Prod.snd).getD []
  let (exchange, bs) := shortstrOrDefault bs
  let (routingKey, bs) := shortstrOrDefault bs
  let flags := bs.headD 0
  (exchange, routingKey, flags &&& 0x01 != 0, flags &&& 0x02 != 0)

def classConnection : Nat := 10

def validateChannel (channel : UInt16) (classId : Nat) : Option String :=
  if classId = classConnection ∧ channel ≠ 0 then some "connection method on non-zero channel"
  else if classId ≠ classConnection ∧ channel = 0 then some "non-connection method on channel 0"
  else none

def validateFrameType (frameType : UInt8) : Option String :=
  if [frameMethod, frameHeader, frameBody, frameHeartbeat].contains frameType then none
  else some "unknown frame type"

def validateFrameSize (payloadLen frameMax : Nat) : Option String :=
  if frameMax = 0 then none
  else if frameMax < payloadLen + 8 then some "frame exceeds negotiated frame-max"
  else none

def validateChannelNumber (channel channelMax : UInt16) : Option String :=
  if channelMax = 0 then none
  else if channelMax < channel then some "channel number exceeds negotiated channel-max"
  else none

def validateHeartbeat (channel : UInt16) (payloadLen : Nat) : Option String :=
  if channel ≠ 0 then some "heartbeat on non-zero channel"
  else if payloadLen ≠ 0 then some "heartbeat with non-empty payload"
  else none

end RocketmqBroker
