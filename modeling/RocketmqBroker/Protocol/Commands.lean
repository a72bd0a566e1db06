import RocketmqBroker.Protocol.MethodArguments
import RocketmqBroker.Protocol.SelectLoop

/-!
A session from the bytes on the wire to the requests of the broker. The client writes methods
and publishes on any channels, one after the other, with heartbeats anywhere in between; the
bytes come in pieces of any size.
-/
namespace RocketmqBroker
open BigEndian ByteReader Demux RecordScan Run

def Method.payload (u : Unread) (m : Method) : Bytes :=
  toBeBytes 2 m.classId ++ toBeBytes 2 (m.methodId u) ++ m.arguments u

structure SentMethod (limits : Limits) (channel : UInt16) where
  method : Method
  unread : Unread
  sendable : method.Sendable
  other : method.isPublish = false
  opened : channel ≠ 0
  agreed : validateChannelNumber channel limits.channelMax = none
  fits : validateFrameSize (method.payload unread).length limits.frameMax = none

namespace SentMethod
variable {limits : Limits} {channel : UInt16} (sent : SentMethod limits channel)

def frame : AmqpFrame := ⟨frameMethod, channel, sent.method.payload sent.unread⟩

def call : Call := .dispatchMethod channel
  ⟨sent.method.classId, sent.method.methodId sent.unread, sent.method.arguments sent.unread⟩

end SentMethod

inductive Command (limits : Limits) where
  | method (channel : UInt16) (sent : SentMethod limits channel)
  | publish (channel : UInt16) (sent : SentPublish limits channel)

abbrev Asked : Type := Instant → Option Op

namespace Command
variable {limits : Limits}

def frames : Command limits → List AmqpFrame
  | method _ sent => [sent.frame]
  | publish _ sent => sent.frames

def request (connId : UInt64) : Command limits → Asked
  | method channel sent, now => some (dispatchMethod connId channel (sent.method.handledAt now))
  | publish channel sent, now => some (.basicPublish connId channel sent.args now)

end Command

/-- What a call of the loop comes to, when it is made at this time. -/
def Call.request (connId : UInt64) : Call → Asked
  | handlePublish channel args, now => some (.basicPublish connId channel args now)
  | dispatchMethod channel method, now =>
    (method.request now).map (RocketmqBroker.dispatchMethod connId channel)

/-- A heartbeat, as it passes the checks. -/
def Heartbeat (limits : Limits) (frame : AmqpFrame) : Prop :=
  Admitted limits frame ∧ frame.frameType = frameHeartbeat ∧
    validateHeartbeat frame.channel frame.payload.length = none

section
variable {limits : Limits} {channel : UInt16}

theorem Heartbeat.handled {frame : AmqpFrame} (heartbeat : Heartbeat limits frame)
    (content : Option ContentState) :
    handleFrame limits content frame = ⟨content, [], .resume⟩ := by
  obtain ⟨admitted, kind, valid⟩ := heartbeat
  rw [handleFrame_admitted admitted]
  simp only [dispatchFrame, kind, valid]
  rfl

theorem Heartbeat.turned {frame : AmqpFrame} (heartbeat : Heartbeat limits frame)
    (content : Option ContentState) : turn limits content frame = (content, []) := by
  rw [turn, heartbeat.handled]

theorem decodeMethod_payload (u : Unread) (m : Method) :
    decodeMethod (m.payload u) = some ⟨m.classId, m.methodId u, m.arguments u⟩ := by
  have classFits : m.classId < 256 ^ 2 := by cases m <;> exact of_decide_eq_true rfl
  have methodFits : m.methodId u < 256 ^ 2 := by
    cases m with
    | basicRecover => rw [Method.methodId]; split <;> decide
    | _ => exact of_decide_eq_true rfl
  simp only [Method.payload, List.append_assoc, decodeMethod, readWord_toBeBytes classFits,
    readWord_toBeBytes methodFits, Option.bind_eq_bind, Option.bind_some]
  rfl

theorem classId_ne_connection (m : Method) : m.classId ≠ classConnection := by
  cases m <;> exact of_decide_eq_true rfl

theorem not_publish {m : Method} (other : m.isPublish = false) (u : Unread) :
    ¬ (m.classId = classBasic ∧ m.methodId u = methodBasicPublish) := by
  rintro ⟨basic, publish⟩
  cases m with
  | basicPublish => cases other
  | basicRecover =>
    rw [Method.methodId] at publish
    split at publish <;> exact absurd publish (by decide)
  | _ => first | exact absurd basic (of_decide_eq_true rfl)
               | exact absurd publish (of_decide_eq_true rfl)

theorem SentMethod.handled (sent : SentMethod limits channel) (content : Option ContentState) :
    handleFrame limits content sent.frame = ⟨content, [sent.call], .resume⟩ := by
  have decoded := decodeMethod_payload sent.unread sent.method
  have notConnection := classId_ne_connection sent.method
  have onChannel : validateChannel channel sent.method.classId = none := by
    rw [validateChannel, if_neg fun h => notConnection h.1, if_neg fun h => sent.opened h.2]
  have keeps : dispatchKeeps ⟨sent.method.classId, sent.method.methodId sent.unread,
      sent.method.arguments sent.unread⟩ = true := by
    simp only [dispatchKeeps, beq_false_of_ne notConnection, Bool.false_and, Bool.not_false]
  rw [handleFrame_admitted ⟨rfl, sent.fits, sent.agreed⟩]
  simp only [SentMethod.frame, dispatchFrame, ↓reduceIte, processMethodFrame, decoded, onChannel,
    keeps]
  exact if_neg (not_publish sent.other sent.unread)

theorem Command.handled (c : Command limits) : ∃ call : Call,
    (∀ connId, call.request connId = c.request connId) ∧
    run (next (turn limits)) none c.frames = none ∧
      outputs (turn limits) none c.frames = [call] ∧
      Along (next (turn limits)) (Resumes limits) none c.frames := by
  cases c with
  | method channel sent =>
    refine ⟨sent.call, ?_, ?_⟩
    · intro connId
      funext now
      rw [SentMethod.call, Call.request, request_written sent.unread now sent.sendable sent.other]
      rfl
    · have handled := sent.handled none
      have turned : turn limits none sent.frame = (none, [sent.call]) := by rw [turn, handled]
      obtain ⟨idle, said⟩ := Publication.run_pair turned []
      exact ⟨idle, said, by rw [Resumes, handled], trivial⟩
  | publish channel sent =>
    exact ⟨.handlePublish channel sent.args, fun _ => rfl, sent.handled none⟩

/-- One command after the other: the calls are what they ask for, in their order. -/
theorem commands_handled (commands : List (Command limits)) : ∃ calls,
    (∀ connId, calls.map (Call.request connId) = commands.map (Command.request connId)) ∧
      run (next (turn limits)) none (commands.flatMap Command.frames) = none ∧
      outputs (turn limits) none (commands.flatMap Command.frames) = calls ∧
      Along (next (turn limits)) (Resumes limits) none (commands.flatMap Command.frames) := by
  induction commands with
  | nil => exact ⟨[], fun _ => rfl, rfl, rfl, trivial⟩
  | cons c commands ih =>
    obtain ⟨call, asked, idle, said, resumes⟩ := c.handled
    obtain ⟨calls, later, idles, outs, along⟩ := ih
    refine ⟨call :: calls, ?_, ?_, ?_, ?_⟩
    · intro connId
      rw [List.map_cons, List.map_cons, asked, later]
    · rw [List.flatMap_cons, run_append, idle]
      exact idles
    · rw [List.flatMap_cons, outputs_append, idle, said, outs]
      rfl
    · rw [List.flatMap_cons, along_append, idle]
      exact ⟨resumes, along⟩

theorem session_handled (commands : List (Command limits)) {frames : List AmqpFrame}
    (interposed : Interposed (Heartbeat limits) (commands.flatMap Command.frames) frames) :
    ∃ calls, (∀ connId, calls.map (Call.request connId) =
        commands.map (Command.request connId)) ∧
      Connection.after limits frames = ⟨none, frames, calls, true⟩ := by
  obtain ⟨calls, asked, idle, said, along⟩ := commands_handled commands
  have still (content : Option ContentState) (frame : AmqpFrame)
      (heartbeat : Heartbeat limits frame) : next (turn limits) content frame = content := by
    rw [next, heartbeat.turned]
  have quiet (content : Option ContentState) (frame : AmqpFrame)
      (heartbeat : Heartbeat limits frame) :
      (turn limits content frame).2.filter (fun _ => true) = [] := by
    rw [heartbeat.turned]
    rfl
  have free (content : Option ContentState) (frame : AmqpFrame)
      (heartbeat : Heartbeat limits frame) : Resumes limits content frame := by
    rw [Resumes, heartbeat.handled]
  have same := outputs_interposed still quiet interposed none
  rw [List.filter_true, List.filter_true] at same
  refine ⟨calls, asked, ?_⟩
  have whole : Connection.after limits frames = _ :=
    receive_resumes (along_interposed still free interposed along) rfl
  rw [whole]
  change Connection.mk (run (next (turn limits)) none frames) _
    ([] ++ outputs (turn limits) none frames) true = _
  rw [run_interposed still interposed none, idle, same, said]
  rfl

end

theorem after_front {limits : Limits} {part frames : List AmqpFrame} (front : part <+: frames)
    (running : (Connection.after limits frames).running = true) :
    (Connection.after limits part).running = true ∧
      (Connection.after limits part).calls <+: (Connection.after limits frames).calls := by
  obtain ⟨rest, rfl⟩ := front
  rw [after_append] at running ⊢
  generalize Connection.after limits part = conn at running ⊢
  induction rest generalizing conn with
  | nil => exact ⟨running, List.prefix_rfl⟩
  | cons frame rest ih =>
    obtain ⟨ran, later⟩ := ih (conn.receive limits frame) running
    by_cases before : conn.running = true
    · refine ⟨before, List.IsPrefix.trans ?_ later⟩
      rw [Connection.receive, if_pos before]
      exact List.prefix_append _ _
    · rw [Connection.receive, if_neg before] at ran
      exact absurd ran before

/-- In whatever pieces the bytes of a session come, the broker is asked for what the client
    wrote, in that order; and when all of them have come, for all of it. -/
theorem session_requested (connId : UInt64) (limits : Limits) (timeout : Nat) (opened : Instant)
    (commands : List (Command limits)) (frames : List AmqpFrame) (es : List LoopEvent)
    (interposed : Interposed (Heartbeat limits) (commands.flatMap Command.frames) frames)
    (valid : ∀ frame ∈ frames, frameCodec.Valid frame)
    (stream : arrived es <+: encodeAll frameCodec frames)
    (along : Along (SelectLoop.step limits timeout) (fun s e => Whole s e ∧ Alive timeout s e)
      (.start opened) es) (now : Instant) :
    let conn := ((run (SelectLoop.step limits timeout) (.start opened) es).settle limits timeout
      now).connection
    conn.running = true ∧
      conn.calls.map (Call.request connId) <+: commands.map (Command.request connId) ∧
      (arrived es = encodeAll frameCodec frames → conn.contentState = none ∧
        conn.calls.map (Call.request connId) = commands.map (Command.request connId)) := by
  intro conn
  have made : conn = .after limits (whole frameCodec (arrived es).length frames) :=
    exact_of_whole valid stream along now
  obtain ⟨calls, asked, after⟩ := session_handled commands interposed
  have running : (Connection.after limits frames).running = true := by rw [after]
  obtain ⟨runs, front⟩ := after_front (whole_front frameCodec _ frames) running
  rw [after] at front
  rw [made]
  refine ⟨runs, ?_, ?_⟩
  · rw [← asked connId]
    exact front.map _
  · intro complete
    rw [complete, whole_all frameCodec valid, after]
    exact ⟨rfl, asked connId⟩

def durableDeclare : Method := .queueDeclare ⟨"q", false, true, false, false, false, []⟩ 0

def ticketAndByte : Unread := ⟨7, 0, false, false, false, false, false, false, false, [255]⟩

theorem durableDeclare_sendable : durableDeclare.Sendable := by
  refine ⟨?_, ?_⟩
  · intro name member
    rw [List.mem_singleton.mp member]
    decide
  · rintro table ⟨⟩
    exact ⟨trivial, by decide⟩

theorem durableDeclare_other : durableDeclare.isPublish = false := rfl

theorem durableDeclare_opened : (1 : UInt16) ≠ 0 := by decide

theorem durableDeclare_agreed : validateChannelNumber 1 Limits.default.channelMax = none := rfl

theorem durableDeclare_fits :
    validateFrameSize (durableDeclare.payload ticketAndByte).length Limits.default.frameMax =
      none := by
  decide +kernel

/-- Queue.Declare for a durable queue, with what nobody reads. -/
def declareQ : SentMethod .default 1 where
  method := durableDeclare
  unread := ticketAndByte
  sendable := durableDeclare_sendable
  other := durableDeclare_other
  opened := durableDeclare_opened
  agreed := durableDeclare_agreed
  fits := durableDeclare_fits

theorem heartbeat_admitted : Heartbeat .default heartbeat := ⟨⟨rfl, rfl, rfl⟩, rfl, rfl⟩

def greetingSession : List AmqpFrame :=
  declareQ.frame :: (splitGreeting.frames.take 1 ++ heartbeat :: splitGreeting.frames.drop 1)

def greetingEvents : List LoopEvent :=
  [.arrive ((encodeAll frameCodec greetingSession).take 30), .poll 0,
    .arrive ((encodeAll frameCodec greetingSession).drop 30)]

theorem session_requested_greeting :
    ((run (SelectLoop.step .default 120) (.start 0) greetingEvents).settle .default 120
      5).connection.calls.map (Call.request 1) =
      [fun now => some (.queueDeclare 1 ⟨"q", false, true, false, false, false, []⟩ now),
        fun now => some (.basicPublish 1 1 ⟨"", "q", true, .default, [1, 2, 3]⟩ now)] := by
  have interposed : Interposed (Heartbeat .default)
      ([Command.method 1 declareQ, .publish 1 splitGreeting].flatMap Command.frames)
      greetingSession := .own _ (.own _ (.between heartbeat heartbeat_admitted (.refl _)))
  have valid : ∀ frame ∈ greetingSession, frameCodec.Valid frame := by
    have short : ∀ frame ∈ greetingSession, frame.payload.length < 256 ^ 4 := by decide +kernel
    exact short
  have complete : arrived greetingEvents = encodeAll frameCodec greetingSession := by
    change _ ++ (_ ++ []) = _
    rw [List.append_nil, List.take_append_drop]
  have along : Along (SelectLoop.step .default 120) (fun s e => Whole s e ∧ Alive 120 s e)
      (.start 0) greetingEvents :=
    ⟨⟨trivial, trivial⟩, ⟨trivial, trivial⟩, ⟨trivial, trivial⟩, trivial⟩
  exact ((session_requested 1 .default 120 0 _ greetingSession greetingEvents interposed valid
    (complete ▸ List.prefix_rfl) along 5).2.2 complete).2

end RocketmqBroker
