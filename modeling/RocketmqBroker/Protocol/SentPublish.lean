import RocketmqBroker.Protocol.Channels
import RocketmqBroker.Protocol.ContentFrames

/-!
A publish as a client sends it: the fields of the method as they stand on the wire, a header
that announces the body, and the body cut into frames anywhere, also into empty ones. With
heartbeats and other methods in between it comes to one call of `handle_publish`.
-/
namespace RocketmqBroker
open BigEndian ByteReader Demux Run

def publishFlags (mandatory immediate : Bool) : UInt8 :=
  (if mandatory then 0x01 else 0) ||| (if immediate then 0x02 else 0)

def publishArguments (ticket : UInt16) (exchange routingKey : String)
    (mandatory immediate : Bool) : Bytes :=
  toBeBytes 2 ticket.toNat ++ (prefixed 1 (strBytes exchange) ++
    (prefixed 1 (strBytes routingKey) ++ [publishFlags mandatory immediate]))

theorem shortstrOrDefault_prefixed {s : String} (short : (strBytes s).length ≤ 255) (rest : Bytes) :
    shortstrOrDefault (prefixed 1 (strBytes s) ++ rest) = (s, rest) := by
  rw [shortstrOrDefault, readPrefixed_prefixed (by omega)]
  simp

theorem parsePublishArgs_sent {exchange routingKey : String}
    (exchange_short : (strBytes exchange).length ≤ 255)
    (routingKey_short : (strBytes routingKey).length ≤ 255) (ticket : UInt16)
    (mandatory immediate : Bool) :
    parsePublishArgs (publishArguments ticket exchange routingKey mandatory immediate) =
      (exchange, routingKey, mandatory, immediate) := by
  have word (rest : Bytes) : readWord 2 (toBeBytes 2 ticket.toNat ++ rest) =
      some (ticket.toNat, rest) := readWord_toBeBytes ticket.toNat_lt rest
  simp only [parsePublishArgs, publishArguments, word, Option.map_some, Option.getD_some,
    shortstrOrDefault_prefixed exchange_short, shortstrOrDefault_prefixed routingKey_short,
    List.headD_cons]
  cases mandatory <;> cases immediate <;> rfl

/-- A publish on a channel. The body may be cut into frames anywhere. -/
structure SentPublish (limits : Limits) (channel : UInt16) where
  ticket : UInt16
  exchange : String
  routingKey : String
  mandatory : Bool
  immediate : Bool
  headerPayload : Bytes
  header : ContentHeader
  bodies : List Bytes
  exchange_short : (strBytes exchange).length ≤ 255
  routingKey_short : (strBytes routingKey).length ≤ 255
  announced : decodeContentHeader headerPayload = some header
  complete : bodies.flatten.length = header.bodySize
  sized : header.bodySize ≤ isizeMax
  opened : channel ≠ 0
  agreed : validateChannelNumber channel limits.channelMax = none
  fits : ∀ payload ∈ (toBeBytes 2 classBasic ++ toBeBytes 2 methodBasicPublish ++
    publishArguments ticket exchange routingKey mandatory immediate) ::
      headerPayload :: bodies, validateFrameSize payload.length limits.frameMax = none

namespace SentPublish
variable {limits : Limits} {channel : UInt16} (p : SentPublish limits channel)

def arguments : Bytes :=
  publishArguments p.ticket p.exchange p.routingKey p.mandatory p.immediate

def frames : List AmqpFrame :=
  ⟨frameMethod, channel,
      toBeBytes 2 classBasic ++ toBeBytes 2 methodBasicPublish ++ p.arguments⟩ ::
    ⟨frameHeader, channel, p.headerPayload⟩ :: p.bodies.map (Publication.bodyFrame channel)

/-- What is to be handled: what was sent, with the body in one piece. -/
def args : PublishArgs :=
  ⟨p.exchange, p.routingKey, p.mandatory, p.header.properties, p.bodies.flatten⟩

end SentPublish

theorem split_complete (bodies : List Bytes) : ∃ front rest, bodies = front ++ rest ∧
    (∀ payload ∈ rest, payload = []) ∧
      ∀ part, part <+: front → part ≠ front → part.flatten.length < front.flatten.length := by
  induction bodies using List.reverseRecOn with
  | nil =>
    refine ⟨[], [], rfl, fun _ member => absurd member List.not_mem_nil, ?_⟩
    intro part before other
    exact absurd (List.prefix_nil.mp before) other
  | append_singleton bodies payload ih =>
    cases payload with
    | nil =>
      obtain ⟨front, rest, rfl, empty, short⟩ := ih
      refine ⟨front, rest ++ [[]], List.append_assoc .., ?_, short⟩
      intro x member
      rcases List.mem_append.mp member with early | last
      · exact empty x early
      · exact List.mem_singleton.mp last
    | cons b payload =>
      refine ⟨bodies ++ [b :: payload], [], (List.append_nil _).symm,
        fun _ member => absurd member List.not_mem_nil, ?_⟩
      intro part before other
      have inside : part <+: bodies := by
        rcases List.prefix_concat_iff.mp before with whole | inside
        · exact absurd whole other
        · exact inside
      obtain ⟨rest, rfl⟩ := inside
      simp only [List.flatten_append, List.length_append, List.flatten_cons, List.flatten_nil,
        List.append_nil, List.length_cons]
      omega

/-- A frame that is not part of a publish and does not end the connection. -/
def Aside (limits : Limits) (frame : AmqpFrame) : Prop :=
  Admitted limits frame ∧
    ((frame.frameType = frameHeartbeat ∧
        validateHeartbeat frame.channel frame.payload.length = none) ∨
      (frame.frameType = frameMethod ∧ ∃ method, decodeMethod frame.payload = some method ∧
        validateChannel frame.channel method.classId = none ∧
        ¬ (method.classId = classBasic ∧ method.methodId = methodBasicPublish) ∧
        dispatchKeeps method = true))

def Call.publishes : Call → Bool
  | .handlePublish .. => true
  | .dispatchMethod .. => false

section
variable {limits : Limits} {channel : UInt16}

theorem Aside.handled {frame : AmqpFrame} (aside : Aside limits frame)
    (content : Option ContentState) : ∃ calls, handleFrame limits content frame =
      ⟨content, calls, .resume⟩ ∧ calls.filter Call.publishes = [] := by
  obtain ⟨admitted, kind⟩ := aside
  rw [handleFrame_admitted admitted]
  rcases kind with ⟨heartbeat, valid⟩ | ⟨isMethod, method, decoded, onChannel, other, keeps⟩
  · refine ⟨[], ?_, rfl⟩
    simp only [dispatchFrame, heartbeat, valid]
    rfl
  · refine ⟨[.dispatchMethod frame.channel method], ?_, rfl⟩
    simp only [dispatchFrame, isMethod, ↓reduceIte, processMethodFrame, decoded, onChannel, other,
      keeps]

theorem Aside.still (content : Option ContentState) (frame : AmqpFrame)
    (aside : Aside limits frame) : next (turn limits) content frame = content := by
  obtain ⟨calls, result, -⟩ := aside.handled content
  rw [next, turn, result]

theorem Aside.quiet (content : Option ContentState) (frame : AmqpFrame)
    (aside : Aside limits frame) : (turn limits content frame).2.filter Call.publishes = [] := by
  obtain ⟨calls, result, none⟩ := aside.handled content
  rw [turn, result]
  exact none

theorem Aside.resumes (content : Option ContentState) (frame : AmqpFrame)
    (aside : Aside limits frame) : Resumes limits content frame := by
  obtain ⟨calls, result, -⟩ := aside.handled content
  rw [Resumes, result]

theorem empty_bodies {payloads : List Bytes}
    (agreed : validateChannelNumber channel limits.channelMax = none)
    (fits : ∀ payload ∈ payloads, validateFrameSize payload.length limits.frameMax = none) :
    run (next (turn limits)) none (payloads.map (Publication.bodyFrame channel)) = none ∧
      outputs (turn limits) none (payloads.map (Publication.bodyFrame channel)) = [] ∧
      Along (next (turn limits)) (Resumes limits) none
        (payloads.map (Publication.bodyFrame channel)) := by
  induction payloads with
  | nil => exact ⟨rfl, rfl, trivial⟩
  | cons payload payloads ih =>
    have passed : handleFrame limits none (Publication.bodyFrame channel payload) =
        ⟨none, [], .resume⟩ :=
      handleFrame_admitted ⟨rfl, fits payload List.mem_cons_self, agreed⟩ none
    have turned : turn limits none (Publication.bodyFrame channel payload) = (none, []) := by
      rw [turn, passed]
    obtain ⟨idle, silent, resumes⟩ := ih fun x member => fits x (List.mem_cons_of_mem _ member)
    obtain ⟨first, said⟩ := Publication.run_pair turned
      (payloads.map (Publication.bodyFrame channel))
    refine ⟨first.trans idle, said.trans silent, ?_, ?_⟩
    · rw [Resumes, passed]
    · rw [next, turned]
      exact resumes

/-- The frames up to where the body is complete are a publish of their own. -/
theorem SentPublish.publication (p : SentPublish limits channel) :
    ∃ (q : Publication limits channel) (rest : List Bytes), rest ⊆ p.bodies ∧
      p.frames = q.frames ++ rest.map (Publication.bodyFrame channel) ∧
      q.call = .handlePublish channel p.args := by
  obtain ⟨front, rest, split, empty, short⟩ := split_complete p.bodies
  have same : front.flatten = p.bodies.flatten := by
    have nothing : rest.flatten = [] := List.flatten_eq_nil_iff.mpr empty
    rw [split, List.flatten_append, nothing, List.append_nil]
  have complete : front.flatten.length = p.header.bodySize := by
    rw [same]
    exact p.complete
  let q : Publication limits channel :=
    { arguments := p.arguments
      headerPayload := p.headerPayload
      header := p.header
      bodies := front
      announced := p.announced
      complete
      sized := p.sized
      short := fun part before other => complete ▸ short part before other
      opened := p.opened
      agreed := p.agreed
      fits := by
        intro payload member
        refine p.fits payload ?_
        rw [split, ← List.cons_append, ← List.cons_append]
        exact List.mem_append_left _ member }
  refine ⟨q, rest, ?_, ?_, ?_⟩
  · rw [split]
    exact List.subset_append_right front rest
  · rw [SentPublish.frames, split, List.map_append]
    rfl
  · have read : parsePublishArgs p.arguments =
        (p.exchange, p.routingKey, p.mandatory, p.immediate) :=
      parsePublishArgs_sent p.exchange_short p.routingKey_short p.ticket p.mandatory p.immediate
    change Call.handlePublish channel ⟨(parsePublishArgs p.arguments).1,
      (parsePublishArgs p.arguments).2.1, (parsePublishArgs p.arguments).2.2.1,
      p.header.properties, front.flatten⟩ = _
    rw [read, same]
    rfl

theorem SentPublish.handled (p : SentPublish limits channel) (content : Option ContentState) :
    run (next (turn limits)) content p.frames = none ∧
      outputs (turn limits) content p.frames = [.handlePublish channel p.args] ∧
      Along (next (turn limits)) (Resumes limits) content p.frames := by
  obtain ⟨q, rest, sub, frames, call⟩ := p.publication
  obtain ⟨idle, silent, resumes⟩ := empty_bodies p.agreed fun payload member =>
    p.fits payload (List.mem_cons_of_mem _ (List.mem_cons_of_mem _ (sub member)))
  -- the method frame begins anew, whatever was unfinished
  obtain ⟨start, said⟩ := Publication.run_pair (q.turn_method content)
    (q.headerFrame :: q.bodies.map (Publication.bodyFrame channel))
  obtain ⟨start', said'⟩ := Publication.run_pair (q.turn_method none)
    (q.headerFrame :: q.bodies.map (Publication.bodyFrame channel))
  obtain ⟨done, once⟩ := q.handled
  have ends : run (next (turn limits)) content q.frames = none :=
    start.trans (start'.symm.trans done)
  have calls : outputs (turn limits) content q.frames = [q.call] :=
    said.trans (said'.symm.trans once)
  rw [frames]
  refine ⟨?_, ?_, ?_⟩
  · rw [run_append, ends]
    exact idle
  · rw [outputs_append, ends, calls, silent, call]
    rfl
  · rw [along_append, ends]
    exact ⟨q.resumes content, resumes⟩

end

/-- With heartbeats and other methods anywhere in between, a publish is handled exactly once,
    with what was sent, and nothing of it is left. The properties sent are those that the
    header announces; the broker's own encoder is one way to announce them. -/
theorem sent_publish_handled :
    (∀ (limits : Limits) (channel : UInt16) (p : SentPublish limits channel) (conn : Connection)
      (frames : List AmqpFrame), conn.running = true →
      Interposed (Aside limits) p.frames frames →
      let after := run (Connection.receive limits) conn frames
      after.running = true ∧ after.contentState = none ∧
        after.calls.filter Call.publishes =
          conn.calls.filter Call.publishes ++ [.handlePublish channel p.args]) ∧
    ∀ (properties : BasicProperties) (bodySize : Nat), properties.Writable → bodySize < 2 ^ 64 →
      decodeContentHeader (toBeBytes 2 classBasic ++ (toBeBytes 2 0 ++ (toBeBytes 8 bodySize ++
        properties.write.1))) = some ⟨classBasic, bodySize, properties⟩ := by
  constructor
  · intro limits channel p conn frames running interposed after
    obtain ⟨idle, once, resumes⟩ := p.handled conn.contentState
    have whole : after = _ :=
      receive_resumes (along_interposed Aside.still Aside.resumes interposed resumes) running
    rw [whole]
    refine ⟨rfl, ?_, ?_⟩
    · rw [run_interposed Aside.still interposed]
      exact idle
    · rw [List.filter_append, outputs_interposed Aside.still Aside.quiet interposed, once]
      rfl
  · intro properties bodySize writable fits
    have classFits : classBasic < 256 ^ 2 := by decide
    have read := decodeContentHeader_write classFits writable bodySize
    rw [Nat.mod_eq_of_lt (by omega)] at read
    exact read

/-- A body of three bytes in five frames, three of them empty. -/
def splitGreeting : SentPublish .default 1 where
  ticket := 0
  exchange := ""
  routingKey := "q"
  mandatory := true
  immediate := false
  headerPayload := toBeBytes 2 classBasic ++ (toBeBytes 2 0 ++ (toBeBytes 8 3 ++
    BasicProperties.default.write.1))
  header := ⟨classBasic, 3, .default⟩
  bodies := [[], [1], [], [2, 3], []]
  exchange_short := by decide
  routingKey_short := by decide
  announced := decodeContentHeader_write (by decide) BasicProperties.writable_default 3
  complete := rfl
  sized := by decide
  opened := by decide
  agreed := rfl
  fits := by decide +kernel

def heartbeatFrame : AmqpFrame := ⟨frameHeartbeat, 0, []⟩

def recoverFrame : AmqpFrame := ⟨frameMethod, 2, [0, 60, 0, 110, 1]⟩

theorem aside_heartbeat : Aside .default heartbeatFrame := ⟨⟨rfl, rfl, rfl⟩, .inl ⟨rfl, rfl⟩⟩

theorem aside_recover : Aside .default recoverFrame :=
  ⟨⟨rfl, rfl, rfl⟩, .inr ⟨rfl, ⟨60, 110, [1]⟩, rfl, rfl, by decide, rfl⟩⟩

theorem sent_publish_handled_split : ∃ frames,
    frames.length = splitGreeting.frames.length + 2 ∧
      (run (Connection.receive .default) .start frames).calls.filter Call.publishes =
        [.handlePublish 1 ⟨"", "q", true, .default, [1, 2, 3]⟩] := by
  have interposed : Interposed (Aside .default) splitGreeting.frames _ :=
    .between _ aside_heartbeat (.own _ (.between _ aside_recover (.refl _)))
  exact ⟨_, rfl, (sent_publish_handled.1 .default 1 splitGreeting .start _ rfl interposed).2.2⟩

end RocketmqBroker
