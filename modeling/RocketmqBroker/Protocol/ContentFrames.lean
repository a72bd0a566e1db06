import RocketmqBroker.Protocol.Codec
import RocketmqBroker.Protocol.PropertyWriter

/-!
The frames of a message that goes to a client (protocol/amqp/codec.rs, protocol/amqp/delivery.rs,
handlers/basic.rs), and what a client reads from them. Writing panics where a short string
is too long; then there are no frames.
-/
namespace RocketmqBroker
open BigEndian ByteReader

def methodBasicReturn : Nat := 50
def methodBasicDeliver : Nat := 60
def methodBasicGetOk : Nat := 71

def Written.unwrap (w : Written) : Option Bytes := if w.2 then some w.1 else none

def methodFrame (channel : UInt16) (classId methodId : Nat) (args : Bytes) : AmqpFrame :=
  ⟨frameMethod, channel, toBeBytes 2 classId ++ (toBeBytes 2 methodId ++ args)⟩

def contentHeaderFrame (channel : UInt16) (classId bodySize : Nat)
    (properties : BasicProperties) : Option AmqpFrame :=
  properties.write.unwrap.map fun written => ⟨frameHeader, channel,
    toBeBytes 2 classId ++ (toBeBytes 2 0 ++ (toBeBytes 8 bodySize ++ written))⟩

def bodyFrame (channel : UInt16) (body : Bytes) : AmqpFrame := ⟨frameBody, channel, body⟩

def contentFrames (channel : UInt16) (properties : BasicProperties) (body : Bytes) :
    Option (List AmqpFrame) := do
  let header ← contentHeaderFrame channel classBasic body.length properties
  return header :: if body.isEmpty then [] else [bodyFrame channel body]

def octetOf (redelivered : Bool) : UInt8 := if redelivered then 1 else 0

def buildDeliverArgs (consumerTag : String) (deliveryTag : UInt64) (redelivered : Bool)
    (exchange routingKey : String) : Written :=
  (((writeShortstr consumerTag).andThen
    (toBeBytes 8 deliveryTag.toNat ++ [octetOf redelivered], true)).andThen
      (writeShortstr exchange)).andThen (writeShortstr routingKey)

def encodeDeliveryFrames (channel : UInt16) (consumerTag : String) (m : Message) :
    Option (List AmqpFrame) := do
  let args ← (buildDeliverArgs consumerTag m.id m.redelivered m.exchange m.routingKey).unwrap
  let content ← contentFrames channel m.properties m.body
  return methodFrame channel classBasic methodBasicDeliver args :: content

def buildGetOkArgs (messageCount : Nat) (m : Message) : Written :=
  ((Written.andThen (toBeBytes 8 m.id.toNat ++ [octetOf m.redelivered], true)
    (writeShortstr m.exchange)).andThen (writeShortstr m.routingKey)).andThen
      (toBeBytes 4 messageCount, true)

/-- The properties of the message are not sent. -/
def sendGetOk (channel : UInt16) (messageCount : Nat) (m : Message) : Option (List AmqpFrame) := do
  let args ← (buildGetOkArgs messageCount m).unwrap
  let content ← contentFrames channel .default m.body
  return methodFrame channel classBasic methodBasicGetOk args :: content

def buildReturnArgs (replyCode : Nat) (replyText exchange routingKey : String) : Written :=
  ((Written.andThen (toBeBytes 2 replyCode, true) (writeShortstr replyText)).andThen
    (writeShortstr exchange)).andThen (writeShortstr routingKey)

def sendBasicReturn (channel : UInt16) (replyCode : Nat) (replyText : String)
    (args : PublishArgs) : Option (List AmqpFrame) := do
  let method ← (buildReturnArgs replyCode replyText args.exchange args.routingKey).unwrap
  let content ← contentFrames channel args.properties args.body
  return methodFrame channel classBasic methodBasicReturn method :: content

def onWire (frames : List AmqpFrame) : Bytes := frames.flatMap AmqpFrame.encode

structure Received where
  exchange : String
  routingKey : String
  properties : BasicProperties
  body : Bytes

def readRoute (bs : Bytes) : Option (String × String) := do
  let (exchange, bs) ← readShortstr bs
  let (routingKey, _) ← readShortstr bs
  return (exchange, routingKey)

/-- Behind a consumer tag, a delivery tag and the redelivered bit. -/
def readDeliverArgs (args : Bytes) : Option (String × String) := do
  let (_, bs) ← readShortstr args
  let (_, bs) ← readSlice 9 bs
  readRoute bs

def readGetOkArgs (args : Bytes) : Option (String × String) := do
  let (_, bs) ← readSlice 9 args
  readRoute bs

def readBody : Nat → Nat → Bytes → Option Bytes
  | _, 0, _ => some []
  | 0, _ + 1, _ => none
  | fuel + 1, size + 1, bs => do
    let (frame, bs) ← frameCodec.next bs
    let rest ← readBody fuel (size + 1 - frame.payload.length) bs
    return frame.payload ++ rest

def readContent (readArgs : Bytes → Option (String × String)) (bs : Bytes) : Option Received := do
  let (method, bs) ← frameCodec.next bs
  let method ← decodeMethod method.payload
  let (exchange, routingKey) ← readArgs method.arguments
  let (header, bs) ← frameCodec.next bs
  let header ← decodeContentHeader header.payload
  let body ← readBody bs.length header.bodySize bs
  return ⟨exchange, routingKey, header.properties, body⟩

theorem Written.unwrap_ok {w : Written} (ok : w.2 = true) : w.unwrap = some w.1 := if_pos ok

theorem Written.unwrap_isSome {w : Written} : w.unwrap.isSome = w.2 := by
  unfold unwrap
  split
  · rename_i ok
    exact ok.symm
  · rename_i failed
    exact (Bool.eq_false_iff.mpr failed).symm

theorem readBody_zero (fuel : Nat) (bs : Bytes) : readBody fuel 0 bs = some [] := by
  cases fuel <;> rfl

theorem encode_length (frame : AmqpFrame) : frame.encode.length = frame.payload.length + 8 := by
  simp only [AmqpFrame.encode, List.cons_append, List.length_cons, List.length_append,
    toBeBytes_length, List.length_nil]
  omega

theorem readBody_length {fuel size : Nat} {bs body : Bytes}
    (read : readBody fuel size bs = some body) : body = [] ∨ body.length + 8 ≤ bs.length := by
  induction fuel generalizing size bs body with
  | zero =>
    cases size with
    | zero => exact .inl (Option.some.inj read).symm
    | succ size => cases read
  | succ fuel ih =>
    cases size with
    | zero => exact .inl (Option.some.inj read).symm
    | succ size =>
      obtain ⟨⟨frame, rest⟩, next, read⟩ := Option.bind_eq_some_iff.mp read
      obtain ⟨more, later, same⟩ := Option.bind_eq_some_iff.mp read
      obtain rfl := Option.some.inj same
      obtain ⟨-, rfl⟩ := frameCodec.canonical bs frame rest next
      right
      have whole : (frameCodec.encode frame).length = frame.payload.length + 8 :=
        encode_length frame
      rw [List.length_append, List.length_append, whole]
      cases ih later with
      | inl none_left =>
        rw [none_left, List.length_nil]
        omega
      | inr less =>
        omega

theorem readBody_bodyFrame {channel : UInt16} {body : Bytes} (some_left : body ≠ []) (fuel : Nat) :
    readBody (fuel + 1) (body.length % 256 ^ 8) (bodyFrame channel body).encode = some body ↔
      body.length < 256 ^ 4 := by
  constructor
  · intro read
    cases size : body.length % 256 ^ 8 with
    | zero =>
      rw [size] at read
      exact absurd (Option.some.inj read).symm some_left
    | succ size =>
      rw [size] at read
      obtain ⟨⟨frame, rest⟩, next, read⟩ := Option.bind_eq_some_iff.mp read
      obtain ⟨more, later, same⟩ := Option.bind_eq_some_iff.mp read
      have whole : frame.payload ++ more = body := Option.some.inj same
      obtain ⟨fits, sent⟩ := frameCodec.canonical _ frame rest next
      have lengths : body.length + 8 = frame.payload.length + 8 + rest.length := by
        have sizes := congrArg List.length sent
        rw [List.length_append, encode_length] at sizes
        exact sizes.trans (congrArg (· + rest.length) (encode_length frame))
      have parts := congrArg List.length whole
      rw [List.length_append] at parts
      have bound : frame.payload.length < 256 ^ 4 := fits
      cases readBody_length later with
      | inl none_left =>
        rw [none_left, List.length_nil] at parts
        omega
      | inr less => omega
  · intro fits
    have next : frameCodec.next (bodyFrame channel body).encode =
        some (bodyFrame channel body, []) := by
      have behind := frameCodec.next_encode (bodyFrame channel body) [] fits
      rw [List.append_nil] at behind
      exact behind
    have size : body.length % 256 ^ 8 = body.length := Nat.mod_eq_of_lt (by omega)
    rw [size]
    cases body with
    | nil => exact absurd rfl some_left
    | cons b body =>
      rw [List.length_cons, readBody, next]
      change (readBody fuel (body.length + 1 - (b :: body).length) []).bind _ = _
      rw [List.length_cons, Nat.sub_self, readBody_zero]
      exact congrArg some (List.append_nil _)

theorem unwrap_write {properties : BasicProperties} (writable : properties.Writable) :
    properties.write.unwrap = some properties.write.1 := by
  refine Written.unwrap_ok ?_
  rw [BasicProperties.write_of_writable writable]

theorem contentFrames_writable {properties : BasicProperties} (writable : properties.Writable)
    (channel : UInt16) (body : Bytes) :
    ∃ frames, contentFrames channel properties body = some frames := by
  unfold contentFrames contentHeaderFrame
  rw [unwrap_write writable]
  exact ⟨_, rfl⟩

theorem decodeContentHeader_write {classId : Nat} (class_fit : classId < 256 ^ 2)
    {properties : BasicProperties} (writable : properties.Writable) (bodySize : Nat) :
    decodeContentHeader (toBeBytes 2 classId ++ (toBeBytes 2 0 ++
      (toBeBytes 8 bodySize ++ properties.write.1))) =
        some ⟨classId, bodySize % 256 ^ 8, properties⟩ := by
  have flags : 2 ≤ properties.write.1.length := by
    rw [BasicProperties.write_of_writable writable, List.length_append, toBeBytes_length]
    exact Nat.le_add_right _ _
  have four : (toBeBytes 2 classId ++ (toBeBytes 2 0 ++ (toBeBytes 8 bodySize ++
      properties.write.1))).drop 4 = toBeBytes 8 bodySize ++ properties.write.1 := by
    rw [← List.append_assoc]
    exact List.drop_left' rfl
  have twelve : (toBeBytes 2 classId ++ (toBeBytes 2 0 ++ (toBeBytes 8 bodySize ++
      properties.write.1))).drop 12 = properties.write.1 := by
    rw [← List.append_assoc, ← List.append_assoc]
    exact List.drop_left' (by simp)
  have decoded := BasicProperties.decode_write writable []
  rw [List.append_nil] at decoded
  unfold decodeContentHeader
  rw [if_neg (by simp only [List.length_append, toBeBytes_length]; omega), four, twelve, decoded,
    List.take_left' (toBeBytes_length 2 classId), List.take_left' (toBeBytes_length 8 bodySize),
    fromBeBytes_toBeBytes class_fit, fromBeBytes_toBeBytes_mod]
  rfl

theorem decodeMethod_frame {methodId : Nat} (method_fit : methodId < 256 ^ 2) (args : Bytes) :
    decodeMethod (toBeBytes 2 classBasic ++ (toBeBytes 2 methodId ++ args)) =
      some ⟨classBasic, methodId, args⟩ := by
  unfold decodeMethod
  rw [readWord_toBeBytes (by decide), Option.bind_eq_bind, Option.bind_some]
  dsimp only
  rw [readWord_toBeBytes method_fit]
  rfl

theorem onWire_cons (frame : AmqpFrame) (frames : List AmqpFrame) :
    onWire (frame :: frames) = frame.encode ++ onWire frames := rfl

theorem readContent_frames {channel : UInt16} {methodId : Nat} {args : Bytes}
    {readArgs : Bytes → Option (String × String)} {exchange routingKey : String}
    {properties : BasicProperties} {body : Bytes} {frames : List AmqpFrame}
    (method_fit : methodId < 256 ^ 2) (readsArgs : readArgs args = some (exchange, routingKey))
    (args_fit : args.length + 4 < 256 ^ 4) (writable : properties.Writable)
    (properties_fit : properties.write.1.length + 12 < 256 ^ 4)
    (content : contentFrames channel properties body = some frames) (other : BasicProperties) :
    readContent readArgs (onWire (methodFrame channel classBasic methodId args :: frames)) =
        some ⟨exchange, routingKey, other, body⟩ ↔
      properties = other ∧ body.length < 256 ^ 4 := by
  have method (rest : Bytes) : frameCodec.next ((methodFrame channel classBasic methodId
      args).encode ++ rest) = some (methodFrame channel classBasic methodId args, rest) := by
    refine frameCodec.next_encode _ rest ?_
    change (toBeBytes 2 classBasic ++ (toBeBytes 2 methodId ++ args)).length < 256 ^ 4
    simp only [List.length_append, toBeBytes_length]
    omega
  obtain ⟨header, headed, behind⟩ := Option.bind_eq_some_iff.mp content
  obtain rfl := Option.some.inj behind
  unfold contentHeaderFrame at headed
  rw [unwrap_write writable] at headed
  obtain rfl := Option.some.inj headed
  have next (rest : Bytes) := frameCodec.next_encode ⟨frameHeader, channel,
    toBeBytes 2 classBasic ++ (toBeBytes 2 0 ++ (toBeBytes 8 body.length ++
      properties.write.1))⟩ rest (by
      change (toBeBytes 2 classBasic ++ (toBeBytes 2 0 ++ (toBeBytes 8 body.length ++
        properties.write.1))).length < 256 ^ 4
      simp only [List.length_append, toBeBytes_length]
      omega)
  generalize sent : onWire (if body.isEmpty then [] else [bodyFrame channel body]) = bs
  have reads : readContent readArgs (onWire (methodFrame channel classBasic methodId args ::
      ⟨frameHeader, channel, toBeBytes 2 classBasic ++ (toBeBytes 2 0 ++
        (toBeBytes 8 body.length ++ properties.write.1))⟩ ::
        if body.isEmpty then [] else [bodyFrame channel body])) =
      (readBody bs.length (body.length % 256 ^ 8) bs).bind fun b =>
        some ⟨exchange, routingKey, properties, b⟩ := by
    rw [onWire_cons, onWire_cons, sent]
    refine (BasicProperties.bind_read (method _)).trans ?_
    change (decodeMethod (toBeBytes 2 classBasic ++ (toBeBytes 2 methodId ++ args))).bind _ = _
    rw [decodeMethod_frame method_fit, Option.bind_some]
    refine (BasicProperties.bind_read readsArgs).trans ?_
    refine (BasicProperties.bind_read (next bs)).trans ?_
    change (decodeContentHeader (toBeBytes 2 classBasic ++ (toBeBytes 2 0 ++
      (toBeBytes 8 body.length ++ properties.write.1)))).bind _ = _
    rw [decodeContentHeader_write (by decide) writable, Option.bind_some]
    rfl
  have whole : readBody bs.length (body.length % 256 ^ 8) bs = some body ↔
      body.length < 256 ^ 4 := by
    cases body with
    | nil => exact iff_of_true (readBody_zero _ _) (by decide)
    | cons b body =>
      have one : bs = (bodyFrame channel (b :: body)).encode := by
        rw [← sent]
        exact List.append_nil _
      have long : bs.length = (b :: body).length + 7 + 1 := by
        rw [one, encode_length]
        rfl
      rw [long, one]
      exact readBody_bodyFrame (List.cons_ne_nil b body) _
  rw [reads, ← whole]
  constructor
  · intro received
    obtain ⟨b, found, same⟩ := Option.bind_eq_some_iff.mp received
    obtain ⟨-, -, rfl, rfl⟩ := Received.mk.inj (Option.some.inj same)
    exact ⟨rfl, found⟩
  · rintro ⟨rfl, found⟩
    rw [found]
    rfl

end RocketmqBroker
