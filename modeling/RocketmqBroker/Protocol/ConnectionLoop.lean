import RocketmqBroker.Lib.Run
import RocketmqBroker.Protocol.Codec

/-!
What a connection does with the frames it reads (protocol/amqp/connection_loop.rs). A publish
comes in several frames; the connection has one place to gather them in, whatever channels
they are on.
-/
namespace RocketmqBroker
open Run

def frameError : Nat := 501
def syntaxError : Nat := 502
def channelError : Nat := 504
def unexpectedFrame : Nat := 505

def methodConnectionClose : Nat := 50
def methodConnectionCloseOk : Nat := 51

/-- The most bytes that a `Vec<u8>` can hold. Growing one beyond that panics. -/
def isizeMax : Nat := 2 ^ 63 - 1

structure ContentState where
  exchange : String
  routingKey : String
  mandatory : Bool
  properties : BasicProperties
  bodySize : Nat
  bodyReceived : Bytes
  channel : UInt16

/-- A handler that the loop calls. -/
inductive Call where
  | handlePublish (channel : UInt16) (args : PublishArgs)
  | dispatchMethod (channel : UInt16) (method : MethodFrame)

/-- How the loop goes on, if the task of the connection has not panicked. -/
inductive FrameAction where
  | resume
  | close (code : Nat) (text : String)
  | disconnect
  | panic
  deriving DecidableEq, Repr

structure FrameResult where
  contentState : Option ContentState
  calls : List Call
  action : FrameAction

/-- The frame sizes and channel numbers that were agreed on. -/
structure Limits where
  frameMax : Nat
  channelMax : UInt16
  deriving DecidableEq, Repr

def Limits.default : Limits := ⟨131072, 2047⟩

/-- `dispatch_method` keeps the connection unless the client closes it. -/
def dispatchKeeps (method : MethodFrame) : Bool :=
  !(method.classId == classConnection && (method.methodId == methodConnectionClose ||
    method.methodId == methodConnectionCloseOk))

def processMethodFrame (channel : UInt16) (payload : Bytes) (content : Option ContentState) :
    FrameResult :=
  match decodeMethod payload with
  | none => ⟨content, [], .close syntaxError "bad method frame"⟩
  | some method =>
    match validateChannel channel method.classId with
    | some err => ⟨content, [], .close commandInvalid err⟩
    | none =>
      if method.classId = classBasic ∧ method.methodId = methodBasicPublish then
        let (exchange, routingKey, mandatory, _immediate) := parsePublishArgs method.arguments
        ⟨some ⟨exchange, routingKey, mandatory, .default, 0, [], channel⟩, [], .resume⟩
      else
        ⟨content, [.dispatchMethod channel method],
          if dispatchKeeps method then .resume else .disconnect⟩

def ContentState.call (state : ContentState) : Call :=
  .handlePublish state.channel
    ⟨state.exchange, state.routingKey, state.mandatory, state.properties, state.bodyReceived⟩

def flushPublish (state : ContentState) : FrameResult := ⟨none, [state.call], .resume⟩

def handleContentHeaderFrame (payload : Bytes) : Option ContentState → FrameResult
  | none => ⟨none, [], .resume⟩
  | some state =>
    match decodeContentHeader payload with
    | none => ⟨none, [], .resume⟩
    | some header =>
      let state := { state with bodySize := header.bodySize, properties := header.properties }
      -- `body_received.reserve(body_size)`
      if isizeMax < state.bodyReceived.length + header.bodySize then ⟨some state, [], .panic⟩
      else if header.bodySize = 0 then flushPublish state
      else ⟨some state, [], .resume⟩

def handleContentBodyFrame (payload : Bytes) : Option ContentState → FrameResult
  | none => ⟨none, [], .resume⟩
  | some state =>
    if isizeMax < state.bodyReceived.length + payload.length then ⟨some state, [], .panic⟩
    else
      let state := { state with bodyReceived := state.bodyReceived ++ payload }
      if state.bodySize ≤ state.bodyReceived.length then flushPublish state
      else ⟨some state, [], .resume⟩

def dispatchFrame (content : Option ContentState) (frame : AmqpFrame) : FrameResult :=
  if frame.frameType = frameMethod then processMethodFrame frame.channel frame.payload content
  else if frame.frameType = frameHeader then handleContentHeaderFrame frame.payload content
  else if frame.frameType = frameBody then handleContentBodyFrame frame.payload content
  else
    match validateHeartbeat frame.channel frame.payload.length with
    | some err => ⟨content, [], .close frameError err⟩
    | none => ⟨content, [], .resume⟩

def handleFrame (limits : Limits) (content : Option ContentState) (frame : AmqpFrame) :
    FrameResult :=
  match validateFrameType frame.frameType with
  | some err => ⟨content, [], .close unexpectedFrame err⟩
  | none =>
    match validateFrameSize frame.payload.length limits.frameMax with
    | some err => ⟨content, [], .close frameError err⟩
    | none =>
      match validateChannelNumber frame.channel limits.channelMax with
      | some err => ⟨content, [], .close channelError err⟩
      | none => dispatchFrame content frame

def Admitted (limits : Limits) (frame : AmqpFrame) : Prop :=
  validateFrameType frame.frameType = none ∧
    validateFrameSize frame.payload.length limits.frameMax = none ∧
      validateChannelNumber frame.channel limits.channelMax = none

theorem handleFrame_admitted {limits : Limits} {frame : AmqpFrame}
    (admitted : Admitted limits frame) (content : Option ContentState) :
    handleFrame limits content frame = dispatchFrame content frame := by
  obtain ⟨known, size, number⟩ := admitted
  simp only [handleFrame, known, size, number]

/-- A frame that does not pass them closes the connection. -/
theorem handleFrame_refused {limits : Limits} {frame : AmqpFrame}
    (refused : ¬ Admitted limits frame) (content : Option ContentState) :
    ∃ code err, handleFrame limits content frame = ⟨content, [], .close code err⟩ := by
  unfold handleFrame
  split
  · exact ⟨_, _, rfl⟩
  split
  · exact ⟨_, _, rfl⟩
  split
  · exact ⟨_, _, rfl⟩
  · exact absurd ⟨by assumption, by assumption, by assumption⟩ refused

/-- A connection, with the frames it has dispatched and the calls it has made. -/
structure Connection where
  contentState : Option ContentState
  frames : List AmqpFrame
  calls : List Call
  running : Bool

namespace Connection

def start : Connection := ⟨none, [], [], true⟩

def receive (limits : Limits) (conn : Connection) (frame : AmqpFrame) : Connection :=
  if conn.running then
    let result := handleFrame limits conn.contentState frame
    ⟨result.contentState, conn.frames ++ [frame], conn.calls ++ result.calls,
      result.action = .resume⟩
  else conn

/-- A connection that is given all these frames, one after the other. -/
def after (limits : Limits) (frames : List AmqpFrame) : Connection :=
  run (receive limits) start frames

end Connection

theorem receive_stopped {limits : Limits} {conn : Connection} (stopped : ¬ conn.running)
    (frames : List AmqpFrame) : run (Connection.receive limits) conn frames = conn := by
  induction frames with
  | nil => rfl
  | cons frame frames ih =>
    have step : conn.receive limits frame = conn := if_neg stopped
    change run _ (conn.receive limits frame) frames = conn
    rw [step, ih]

end RocketmqBroker
