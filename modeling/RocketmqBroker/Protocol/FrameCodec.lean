import RocketmqBroker.Protocol.ContentFrames

/-!
Frames as buffers: how the codec puts one together, and how it takes one off the front of a
slice (protocol/amqp/codec.rs). A slice gives the frame that a stream of the same bytes gives.
-/
namespace RocketmqBroker
open BigEndian ByteReader

inductive ErrorKind where
  | unexpectedEof
  | invalidData
  deriving DecidableEq, Repr

structure CodecError where
  kind : ErrorKind
  text : String
  deriving DecidableEq, Repr

def upperHex (n : Nat) : Char := "0123456789ABCDEF".toList.getD n '0'

/-- A byte as `:02X` prints it. -/
def hexByte (b : UInt8) : String := .ofList [upperHex (b.toNat / 16), upperHex (b.toNat % 16)]

def writeFrameHeader (frameType : UInt8) (channel : UInt16) (payloadSize : Nat) : Bytes :=
  frameType :: (toBeBytes 2 channel.toNat ++ toBeBytes 4 payloadSize)

def encodeMethodFrame (channel classId methodId : UInt16) (args : Bytes) : Bytes :=
  let payloadSize := 4 + args.length
  writeFrameHeader frameMethod channel payloadSize ++ (toBeBytes 2 classId.toNat ++
    (toBeBytes 2 methodId.toNat ++ (args ++ [frameEnd])))

/-- There is no buffer where the properties cannot be written. -/
def encodeContentHeader (channel classId : UInt16) (bodySize : UInt64)
    (properties : BasicProperties) : Option Bytes :=
  properties.write.unwrap.map fun written =>
    let buf := writeFrameHeader frameHeader channel 0 ++ (toBeBytes 2 classId.toNat ++
      (toBeBytes 2 0 ++ (toBeBytes 8 bodySize.toNat ++ written)))
    -- Bytes 3 to 7 were left for the size.
    let payloadSize := buf.length - 7
    buf.take 3 ++ (toBeBytes 4 payloadSize ++ (buf.drop 7 ++ [frameEnd]))

def encodeBodyFrame (channel : UInt16) (body : Bytes) : Bytes :=
  writeFrameHeader frameBody channel body.length ++ (body ++ [frameEnd])

def heartbeatBytes : Bytes := [frameHeartbeat, 0, 0, 0, 0, 0, 0, frameEnd]

/-- A frame off the front of a slice, and how many bytes it takes up. -/
def decodeFrame (data : Bytes) : Except CodecError (AmqpFrame × Nat) :=
  if data.length < 8 then .error ⟨.unexpectedEof, "frame too short"⟩
  else
    let frameType := data.getD 0 0
    let channel := UInt16.ofNat (fromBeBytes ((data.drop 1).take 2))
    let size := fromBeBytes ((data.drop 3).take 4)
    let total := 7 + size + 1
    if data.length < total then .error ⟨.unexpectedEof, "incomplete frame"⟩
    else if data.getD (7 + size) 0 ≠ frameEnd then
      .error ⟨.invalidData, "invalid frame-end: 0x" ++ hexByte (data.getD (7 + size) 0)⟩
    else .ok (⟨frameType, channel, (data.drop 7).take size⟩, total)

/-- One frame after another, and the bytes that are left. -/
def decodeFrames : Nat → Bytes → Except CodecError (List AmqpFrame × Bytes)
  | 0, data => .ok ([], data)
  | count + 1, data => do
    let (frame, n) ← decodeFrame data
    let (frames, rest) ← decodeFrames count (data.drop n)
    return (frame :: frames, rest)

/-- A frame that the codec has an encoder for. -/
inductive Outgoing where
  | method (channel classId methodId : UInt16) (args : Bytes)
  | contentHeader (channel classId : UInt16) (bodySize : UInt64) (properties : BasicProperties)
  | body (channel : UInt16) (payload : Bytes)
  | heartbeat

namespace Outgoing

def encode : Outgoing → Option Bytes
  | method channel classId methodId args => some (encodeMethodFrame channel classId methodId args)
  | contentHeader channel classId bodySize properties =>
    encodeContentHeader channel classId bodySize properties
  | body channel payload => some (encodeBodyFrame channel payload)
  | heartbeat => some heartbeatBytes

def frame : Outgoing → Option AmqpFrame
  | method channel classId methodId args =>
    some (methodFrame channel classId.toNat methodId.toNat args)
  | contentHeader channel classId bodySize properties =>
    contentHeaderFrame channel classId.toNat bodySize.toNat properties
  | body channel payload => some (bodyFrame channel payload)
  | heartbeat => some ⟨frameHeartbeat, 0, []⟩

end Outgoing

theorem encodeMethodFrame_eq (channel classId methodId : UInt16) (args : Bytes) :
    encodeMethodFrame channel classId methodId args =
      (methodFrame channel classId.toNat methodId.toNat args).encode := by
  have size : (toBeBytes 2 classId.toNat ++ (toBeBytes 2 methodId.toNat ++ args)).length =
      4 + args.length := by
    simp only [List.length_append, toBeBytes_length]
    omega
  simp [encodeMethodFrame, methodFrame, AmqpFrame.encode, writeFrameHeader, size]

/-- The size that is put in afterwards is the one of the payload. -/
theorem encodeContentHeader_eq (channel classId : UInt16) (bodySize : UInt64)
    (properties : BasicProperties) : encodeContentHeader channel classId bodySize properties =
      (contentHeaderFrame channel classId.toNat bodySize.toNat properties).map
        AmqpFrame.encode := by
  unfold encodeContentHeader contentHeaderFrame
  rw [Option.map_map]
  refine congrArg (Option.map · _) (funext fun written => ?_)
  rw [Function.comp_apply]
  dsimp only
  generalize toBeBytes 2 classId.toNat ++ (toBeBytes 2 0 ++
    (toBeBytes 8 bodySize.toNat ++ written)) = payload
  have front : (writeFrameHeader frameHeader channel 0 ++ payload).take 3 =
      frameHeader :: toBeBytes 2 channel.toNat := by
    simp [writeFrameHeader]
  have back : (writeFrameHeader frameHeader channel 0 ++ payload).drop 7 = payload :=
    List.drop_left' (by simp [writeFrameHeader])
  have size : (writeFrameHeader frameHeader channel 0 ++ payload).length - 7 =
      payload.length := by
    simp [writeFrameHeader]
    omega
  rw [front, back, size]
  simp [AmqpFrame.encode]

theorem encodeBodyFrame_eq (channel : UInt16) (body : Bytes) :
    encodeBodyFrame channel body = (bodyFrame channel body).encode := by
  simp [encodeBodyFrame, bodyFrame, AmqpFrame.encode, writeFrameHeader]

theorem heartbeatBytes_eq : heartbeatBytes = (⟨frameHeartbeat, 0, []⟩ : AmqpFrame).encode := rfl

/-- Every encoder writes the frame that is meant. -/
theorem Outgoing.encode_eq (out : Outgoing) : out.encode = out.frame.map AmqpFrame.encode := by
  cases out with
  | method channel classId methodId args =>
    exact congrArg some (encodeMethodFrame_eq channel classId methodId args)
  | contentHeader channel classId bodySize properties =>
    exact encodeContentHeader_eq channel classId bodySize properties
  | body channel payload => exact congrArg some (encodeBodyFrame_eq channel payload)
  | heartbeat => exact congrArg some heartbeatBytes_eq

theorem decodeFrame_eq_ok_iff {data : Bytes} {frame : AmqpFrame} {n : Nat} :
    decodeFrame data = .ok (frame, n) ↔ ∃ size, size = fromBeBytes ((data.drop 3).take 4) ∧
      n = 7 + size + 1 ∧ n ≤ data.length ∧ data.getD (7 + size) 0 = frameEnd ∧
      frame = ⟨data.getD 0 0, .ofNat (fromBeBytes ((data.drop 1).take 2)),
        (data.drop 7).take size⟩ := by
  unfold decodeFrame
  dsimp only
  constructor
  · intro decoded
    split at decoded
    · cases decoded
    split at decoded
    · cases decoded
    split at decoded
    · cases decoded
    · rename_i long whole ends
      obtain ⟨rfl, rfl⟩ := Prod.mk.inj (Except.ok.inj decoded)
      exact ⟨_, rfl, rfl, Nat.le_of_not_lt whole, not_not.mp ends, rfl⟩
  · rintro ⟨size, rfl, rfl, enough, ends, rfl⟩
    rw [if_neg (by omega), if_neg (by omega), if_neg (not_not.mpr ends)]

theorem encode_parts (frame : AmqpFrame) (rest : Bytes) : frame.encode ++ rest =
    (frame.frameType :: toBeBytes 2 frame.channel.toNat) ++ (toBeBytes 4 frame.payload.length ++
      (frame.payload ++ (frameEnd :: rest))) := by
  simp [AmqpFrame.encode]

theorem decodeFrame_encode {frame : AmqpFrame} (fits : frame.payload.length < 256 ^ 4)
    (rest : Bytes) : decodeFrame (frame.encode ++ rest) = .ok (frame, frame.encode.length) := by
  have channel : fromBeBytes (toBeBytes 2 frame.channel.toNat) = frame.channel.toNat :=
    fromBeBytes_toBeBytes frame.channel.toNat_lt
  have sizes : ((frame.encode ++ rest).drop 3).take 4 = toBeBytes 4 frame.payload.length := by
    rw [encode_parts, List.drop_left' (by simp), List.take_left' (toBeBytes_length _ _)]
  have number : ((frame.encode ++ rest).drop 1).take 2 = toBeBytes 2 frame.channel.toNat := by
    rw [encode_parts, List.cons_append, List.drop_one, List.tail_cons,
      List.take_left' (toBeBytes_length _ _)]
  have behind : (frame.encode ++ rest).drop 7 = frame.payload ++ (frameEnd :: rest) := by
    rw [encode_parts, ← List.append_assoc]
    exact List.drop_left' (by simp)
  have last : (frame.encode ++ rest).getD (7 + frame.payload.length) 0 = frameEnd := by
    rw [List.getD_eq_getElem?_getD, ← List.getElem?_drop, behind, List.getElem?_append_right le_rfl]
    simp
  refine decodeFrame_eq_ok_iff.mpr ⟨frame.payload.length, ?_, ?_, ?_, last, ?_⟩
  · rw [sizes, fromBeBytes_toBeBytes fits]
  · rw [encode_length]
    omega
  · simp
  · rw [number, channel, behind, List.take_left' rfl, UInt16.ofNat_toNat]
    rfl

theorem decodeFrame_iff_readAmqpFrame {data : Bytes} {frame : AmqpFrame} {n : Nat} :
    decodeFrame data = .ok (frame, n) ↔
      ∃ rest, readAmqpFrame data = some (some frame, rest) ∧ n + rest.length = data.length := by
  constructor
  · intro decoded
    obtain ⟨size, sized, rfl, enough, ends, rfl⟩ := decodeFrame_eq_ok_iff.mp decoded
    have sizes : (data.take 7).drop 3 = (data.drop 3).take 4 := List.drop_take
    have number : ((data.take 7).drop 1).take 2 = (data.drop 1).take 2 := by
      rw [List.drop_take, List.take_take]
      rfl
    have first : (data.take 7).headD 0 = data.getD 0 0 := by
      cases data with
      | nil => rfl
      | cons b data => rfl
    have last : ((data.drop 7).take (size + 1)).getLastD 0 = data.getD (7 + size) 0 := by
      rw [List.getLastD_eq_getLast?, List.getLast?_eq_getElem?, List.length_take,
        List.length_drop, Nat.min_eq_left (by omega), Nat.add_sub_cancel,
        List.getElem?_take_of_lt (Nat.lt_succ_self size), List.getElem?_drop,
        List.getD_eq_getElem?_getD]
    have body : ((data.drop 7).take (size + 1)).dropLast = (data.drop 7).take size := by
      rw [List.dropLast_eq_take, List.take_take, List.length_take, List.length_drop]
      exact congrArg (List.take · _) (by omega)
    refine ⟨data.drop (7 + size + 1), readAmqpFrame_eq_some_iff.mpr
      ⟨data.take 7, (data.drop 7).take (size + 1), ?_, ?_, ?_, ?_⟩, ?_⟩
    · rw [List.length_take]
      omega
    · rw [sizes, ← sized, List.length_take, List.length_drop]
      exact Nat.min_eq_left (by omega)
    · rw [Nat.add_assoc, ← List.drop_drop, List.take_append_drop, List.take_append_drop]
    · rw [last, if_pos ends, first, number, body]
    · rw [List.length_drop]
      omega
  · rintro ⟨rest, read, length⟩
    obtain ⟨fits, rfl⟩ := readAmqpFrame_canonical read
    rw [List.length_append] at length
    rw [decodeFrame_encode fits, Nat.add_right_cancel length]

theorem decodeFrames_onWire {frames : List AmqpFrame}
    (small : ∀ frame ∈ frames, frame.payload.length < 256 ^ 4) (rest : Bytes) :
    decodeFrames frames.length (onWire frames ++ rest) = .ok (frames, rest) := by
  induction frames with
  | nil => rfl
  | cons frame frames ih =>
    obtain ⟨fits, later⟩ := List.forall_mem_cons.mp small
    have decoded := decodeFrame_encode fits (onWire frames ++ rest)
    rw [onWire_cons, List.append_assoc, List.length_cons, decodeFrames, decoded]
    change (decodeFrames frames.length ((frame.encode ++ (onWire frames ++ rest)).drop
      frame.encode.length)).bind _ = _
    rw [List.drop_left' rfl, ih later]
    rfl

theorem mapM_encode {sent : List Outgoing} {frames : List AmqpFrame}
    (meant : sent.mapM Outgoing.frame = some frames) :
    sent.mapM Outgoing.encode = some (frames.map AmqpFrame.encode) ∧
      sent.length = frames.length := by
  induction sent generalizing frames with
  | nil =>
    obtain rfl := Option.some.inj meant
    exact ⟨rfl, rfl⟩
  | cons out sent ih =>
    rw [List.mapM_cons] at meant
    obtain ⟨frame, one, meant⟩ := Option.bind_eq_some_iff.mp meant
    obtain ⟨later, more, same⟩ := Option.bind_eq_some_iff.mp meant
    obtain rfl := Option.some.inj same
    obtain ⟨encoded, length⟩ := ih more
    rw [List.mapM_cons, encoded, out.encode_eq, one, List.length_cons, length]
    exact ⟨rfl, rfl⟩

/-- A content header of any properties comes back as it was written. -/
theorem content_header_round_trip (channel classId : UInt16) (bodySize : UInt64)
    {properties : BasicProperties} (writable : properties.Writable)
    (small : properties.write.1.length + 12 < 2 ^ 32) : ∃ bytes payload,
      encodeContentHeader channel classId bodySize properties = some bytes ∧
      decodeFrame bytes = .ok (⟨frameHeader, channel, payload⟩, bytes.length) ∧
      decodeContentHeader payload = some ⟨classId.toNat, bodySize.toNat, properties⟩ := by
  have written : encodeContentHeader channel classId bodySize properties =
      some (AmqpFrame.encode ⟨frameHeader, channel, toBeBytes 2 classId.toNat ++
        (toBeBytes 2 0 ++ (toBeBytes 8 bodySize.toNat ++ properties.write.1))⟩) := by
    rw [encodeContentHeader_eq, contentHeaderFrame, unwrap_write writable]
    rfl
  have size : bodySize.toNat % 256 ^ 8 = bodySize.toNat := Nat.mod_eq_of_lt bodySize.toNat_lt
  have decoded := @decodeFrame_encode ⟨frameHeader, channel, toBeBytes 2 classId.toNat ++
    (toBeBytes 2 0 ++ (toBeBytes 8 bodySize.toNat ++ properties.write.1))⟩ (by
      simp only [List.length_append, toBeBytes_length]
      omega) []
  rw [List.append_nil] at decoded
  refine ⟨_, _, written, decoded, ?_⟩
  rw [decodeContentHeader_write classId.toNat_lt writable, size]

/-- A table of its own, a text and an octet. -/
def tabled : BasicProperties :=
  { BasicProperties.default with
    contentType := some "text", headers := some [("k", .fieldTable [])], deliveryMode := some 2 }

theorem tabled_writable : tabled.Writable := by
  refine ⟨by decide +kernel, fun table member => ?_⟩
  obtain rfl := Option.some.inj member
  refine ⟨?_, by decide +kernel⟩
  simp only [WritableEntries, FieldValue.Writable]
  decide +kernel

theorem content_header_round_trip_tabled : ∃ bytes payload,
    encodeContentHeader 1 60 42 tabled = some bytes ∧
    decodeFrame bytes = .ok (⟨frameHeader, 1, payload⟩, bytes.length) ∧
    decodeContentHeader payload = some ⟨60, 42, tabled⟩ :=
  content_header_round_trip 1 60 42 tabled_writable (by decide +kernel)

/-- Any frames of the four kinds are taken off a slice as they were written; and for every
    byte string, well formed or not, slice and stream agree. -/
theorem frames_round_trip {sent : List Outgoing} {frames : List AmqpFrame}
    (meant : sent.mapM Outgoing.frame = some frames)
    (small : ∀ frame ∈ frames, frame.payload.length < 2 ^ 32) (rest : Bytes) :
    (∃ encoded, sent.mapM Outgoing.encode = some encoded ∧
      decodeFrames sent.length (encoded.flatten ++ rest) = .ok (frames, rest)) ∧
    ∀ data frame n, decodeFrame data = .ok (frame, n) ↔
      ∃ left, readAmqpFrame data = some (some frame, left) ∧ n + left.length = data.length := by
  obtain ⟨encoded, length⟩ := mapM_encode meant
  refine ⟨⟨_, encoded, ?_⟩, fun data frame n => decodeFrame_iff_readAmqpFrame⟩
  rw [length]
  exact decodeFrames_onWire small rest

theorem frames_round_trip_four : ∃ encoded,
    [Outgoing.method 1 60 40 [7], .contentHeader 1 60 3 .default, .body 1 [1, 2, 3],
      .heartbeat].mapM Outgoing.encode = some encoded ∧
    decodeFrames 4 (encoded.flatten ++ [206, 0]) =
      .ok ([⟨1, 1, [0, 60, 0, 40, 7]⟩, ⟨2, 1, [0, 60, 0, 0, 0, 0, 0, 0, 0, 0, 0, 3, 0, 0]⟩,
        ⟨3, 1, [1, 2, 3]⟩, ⟨8, 0, []⟩], [206, 0]) := by
  refine (frames_round_trip ?_ ?_ [206, 0]).1
  · decide +kernel
  · decide +kernel

end RocketmqBroker
