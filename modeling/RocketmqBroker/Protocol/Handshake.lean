import RocketmqBroker.Access.UserRuns
import RocketmqBroker.Protocol.ConnectionLoop
import RocketmqBroker.Protocol.FrameCodec
import RocketmqBroker.Protocol.Utf8

/-!
The handshake of a connection (protocol/amqp/connection.rs). It reads the protocol header and three
methods, whatever the type and the channel of their frames, and asks the backend twice: when the
credentials have come, and for the vhost. In between the backend may have changed.
-/
namespace RocketmqBroker
open BigEndian ByteReader

def protocolHeader : Bytes := [0x41, 0x4D, 0x51, 0x50, 0, 0, 9, 1]

def methodConnectionStart : Nat := 10
def methodConnectionStartOk : Nat := 11
def methodConnectionTune : Nat := 30
def methodConnectionTuneOk : Nat := 31
def methodConnectionOpen : Nat := 40
def methodConnectionOpenOk : Nat := 41

def notAllowed : Nat := 530

def defaultChannelMax : UInt16 := 2047
def defaultFrameMax : UInt32 := 131072
def defaultHeartbeat : UInt16 := 60

structure Negotiated where
  username : String
  authenticated : Bool
  channelMax : UInt16
  frameMax : UInt32
  heartbeat : UInt16
  vhost : String
  deriving DecidableEq, Repr

def Negotiated.new : Negotiated :=
  ⟨"", false, defaultChannelMax, defaultFrameMax, defaultHeartbeat, defaultVhost⟩

/-- The reader behind the handshake, an error, or a panic of the task. -/
inductive HandshakeEnd where
  | opened (rest : Bytes)
  | failed
  | panicked
  deriving DecidableEq, Repr

structure Handshake where
  state : Negotiated
  sent : List Bytes
  outcome : HandshakeEnd
  deriving DecidableEq, Repr

def connectionFrame (methodId : Nat) (args : Bytes) : Bytes :=
  encodeMethodFrame 0 (.ofNat classConnection) (.ofNat methodId) args

def buildConnectionStart : Bytes :=
  let capabilities : FieldTable := [("basic.nack", .boolean true),
    ("connection.blocked", .boolean false), ("consumer_cancel_notify", .boolean true),
    ("publisher_confirms", .boolean true)]
  let props : FieldTable := [("capabilities", .fieldTable capabilities),
    ("platform", .longString (strBytes "Rust/Tokio")),
    ("product", .longString (strBytes "RocketMQ")), ("version", .longString (strBytes "0.1.0"))]
  [0, 9] ++ (writeFieldTable props).1 ++ writeLongstr (strBytes "PLAIN AMQPLAIN") ++
    writeLongstr (strBytes "en_US")

def buildConnectionTune (channelMax : UInt16) (frameMax : UInt32) (heartbeat : UInt16) : Bytes :=
  toBeBytes 2 channelMax.toNat ++ toBeBytes 4 frameMax.toNat ++ toBeBytes 2 heartbeat.toNat

def buildConnectionOpenOk : Bytes := (writeShortstr "").1

/-- A text that is too long makes it panic. -/
def buildConnectionClose (replyCode : Nat) (replyText : String) (classId methodId : Nat) :
    Option Bytes :=
  if (writeShortstr replyText).2 then
    some (toBeBytes 2 replyCode ++ (writeShortstr replyText).1 ++ toBeBytes 2 classId ++
      toBeBytes 2 methodId)
  else none

/-- `response.split(|b| *b == 0)`. -/
def splitZero : Bytes → List Bytes
  | [] => [[]]
  | b :: bs => if b = 0 then [] :: splitZero bs else (splitZero bs).modifyHead (b :: ·)

def saslPlain (response : Bytes) : Option (String × String) :=
  match splitZero response with
  | _ :: user :: pass :: _ => some (fromUtf8Lossy user, fromUtf8Lossy pass)
  | _ => none

/-- The table stands with its length in the response; what is missing in it is empty. -/
def saslAmqplain (response : Bytes) : Option (String × String) :=
  (readFieldTable response).map fun read =>
    (fromUtf8Lossy ((read.1.longString? "LOGIN").getD []),
      fromUtf8Lossy ((read.1.longString? "PASSWORD").getD []))

def saslCredentials (mechanism : String) (response : Bytes) : Option (String × String) :=
  if mechanism = "PLAIN" then saslPlain response
  else if mechanism = "AMQPLAIN" then saslAmqplain response
  else none

def parseStartOkCredentials (args : Bytes) : Option (String × String) := do
  let (_clientProps, bs) ← readFieldTable args
  let (mechanism, bs) ← readShortstr bs
  let (response, bs) ← readPrefixed 4 bs
  let (_locale, _) ← readShortstr bs
  saslCredentials mechanism response

/-- A maximum of 0 stands for the default, and none goes beyond it. -/
def parseTuneOk (args : Bytes) : Option (UInt16 × UInt32 × UInt16) := do
  let (channelMax, bs) ← readWord 2 args
  let (frameMax, bs) ← readWord 4 bs
  let (heartbeat, _) ← readWord 2 bs
  let ch := if channelMax = 0 then defaultChannelMax else min (.ofNat channelMax) defaultChannelMax
  let fm := if frameMax = 0 then defaultFrameMax else min (.ofNat frameMax) defaultFrameMax
  return (ch, fm, .ofNat heartbeat)

def parseConnectionOpen (args : Bytes) : Option String := (readShortstr args).map Prod.fst

def readConnectionMethod (methodId : Nat) (bs : Bytes) : Option (Bytes × Bytes) := do
  let (frame, rest) ← frameCodec.next bs
  let method ← decodeMethod frame.payload
  if method.classId ≠ classConnection ∨ method.methodId ≠ methodId then none
  else return (method.arguments, rest)

structure Access where
  backend : UserBackend
  vhosts : List String

section
variable (b : Bcrypt) (cfg : DefaultUsers) (loopback : Bool) (atStartOk atOpen : Access)

def closeHandshake (state : Negotiated) (sent : List Bytes) (code : Nat) (text : String)
    (methodId : Nat) : Handshake :=
  match buildConnectionClose code text classConnection methodId with
  | none => ⟨state, sent, .panicked⟩
  | some close => ⟨state, sent ++ [connectionFrame methodConnectionClose close], .failed⟩

def openVhost (state : Negotiated) (sent : List Bytes) (bs : Bytes) : Handshake :=
  match readConnectionMethod methodConnectionOpen bs with
  | none => ⟨state, sent, .failed⟩
  | some (args, rest) =>
    match parseConnectionOpen args with
    | none => ⟨state, sent, .failed⟩
    | some vhost =>
      if !atOpen.vhosts.contains vhost then
        closeHandshake state sent notAllowed "NOT_ALLOWED - vhost not found" methodConnectionOpen
      else if !atOpen.backend.checkVhostAccess state.username vhost then
        closeHandshake state sent accessRefused "ACCESS_REFUSED - no access to vhost"
          methodConnectionOpen
      else
        let openOk := connectionFrame methodConnectionOpenOk buildConnectionOpenOk
        ⟨{ state with vhost }, sent ++ [openOk], .opened rest⟩

def tuneConnection (state : Negotiated) (sent : List Bytes) (bs : Bytes) : Handshake :=
  match readConnectionMethod methodConnectionTuneOk bs with
  | none => ⟨state, sent, .failed⟩
  | some (args, rest) =>
    match parseTuneOk args with
    | none => ⟨state, sent, .failed⟩
    | some (channelMax, frameMax, heartbeat) =>
      openVhost atOpen { state with channelMax, frameMax, heartbeat } sent rest

def logIn (state : Negotiated) (sent : List Bytes) (bs : Bytes) : Handshake :=
  match readConnectionMethod methodConnectionStartOk bs with
  | none => ⟨state, sent, .failed⟩
  | some (args, rest) =>
    match parseStartOkCredentials args with
    | none => ⟨state, sent, .failed⟩
    | some (username, password) =>
      match atStartOk.backend.authenticate b cfg username password loopback with
      | .error reason =>
        closeHandshake state sent accessRefused ("ACCESS_REFUSED - " ++ reason)
          methodConnectionStartOk
      | .ok () =>
        let tune := buildConnectionTune defaultChannelMax defaultFrameMax defaultHeartbeat
        tuneConnection atOpen { state with username, authenticated := true }
          (sent ++ [connectionFrame methodConnectionTune tune]) rest

/-- The bytes are all that the client ever sends. What is written to it gets through. -/
def performHandshake (bs : Bytes) : Handshake :=
  if bs.length < 8 then ⟨.new, [], .failed⟩
  else if bs.take 8 ≠ protocolHeader then ⟨.new, [protocolHeader], .failed⟩
  else
    logIn b cfg loopback atStartOk atOpen .new
      [connectionFrame methodConnectionStart buildConnectionStart] (bs.drop 8)

end

end RocketmqBroker
