import RocketmqBroker.Lib.Demux
import RocketmqBroker.Protocol.ConnectionLoop

/-!
Publishes on several channels of one connection. A publish is a method frame, a header frame
and body frames; the connection gathers them for the channel of the last method frame, and
puts every header and body into it, whatever channel they come on. So contents that overlap
are lost and mixed, and contents that do not are handled as they were sent.
-/
namespace RocketmqBroker
open BigEndian ByteReader Demux Run

/-- A publish as it is sent on a channel, with a body that a vector can hold. The body frames
    end where they add up to the announced size. -/
structure Publication (limits : Limits) (channel : UInt16) where
  arguments : Bytes
  headerPayload : Bytes
  header : ContentHeader
  bodies : List Bytes
  announced : decodeContentHeader headerPayload = some header
  complete : bodies.flatten.length = header.bodySize
  sized : header.bodySize ≤ isizeMax
  short : ∀ front, front <+: bodies → front ≠ bodies → front.flatten.length < header.bodySize
  opened : channel ≠ 0
  agreed : validateChannelNumber channel limits.channelMax = none
  fits : ∀ payload ∈ (toBeBytes 2 classBasic ++ toBeBytes 2 methodBasicPublish ++ arguments) ::
    headerPayload :: bodies, validateFrameSize payload.length limits.frameMax = none

namespace Publication
variable {limits : Limits} {channel : UInt16} (p : Publication limits channel)

def methodFrame : AmqpFrame :=
  ⟨frameMethod, channel,
    toBeBytes 2 classBasic ++ toBeBytes 2 methodBasicPublish ++ p.arguments⟩

def headerFrame : AmqpFrame := ⟨frameHeader, channel, p.headerPayload⟩

def bodyFrame (channel : UInt16) (payload : Bytes) : AmqpFrame := ⟨frameBody, channel, payload⟩

def frames : List AmqpFrame :=
  p.methodFrame :: p.headerFrame :: p.bodies.map (bodyFrame channel)

def args : PublishArgs :=
  let read := parsePublishArgs p.arguments
  ⟨read.1, read.2.1, read.2.2.1, p.header.properties, p.bodies.flatten⟩

def call : Call := .handlePublish channel p.args

def awaiting : ContentState :=
  let read := parsePublishArgs p.arguments
  ⟨read.1, read.2.1, read.2.2.1, .default, 0, [], channel⟩

def gathering (front : List Bytes) : ContentState :=
  { p.awaiting with
    properties := p.header.properties
    bodySize := p.header.bodySize
    bodyReceived := front.flatten }

theorem call_eq : (p.gathering p.bodies).call = p.call := by
  simp only [ContentState.call, gathering, awaiting, call, args]

end Publication

def turn (limits : Limits) (content : Option ContentState) (frame : AmqpFrame) :
    Option ContentState × List Call :=
  let result := handleFrame limits content frame
  (result.contentState, result.calls)

def Resumes (limits : Limits) (content : Option ContentState) (frame : AmqpFrame) : Prop :=
  (handleFrame limits content frame).action = .resume

namespace Publication
variable {limits : Limits} {channel : UInt16} (p : Publication limits channel)

theorem handle_method (content : Option ContentState) :
    handleFrame limits content p.methodFrame = ⟨some p.awaiting, [], .resume⟩ := by
  have decoded : decodeMethod p.methodFrame.payload =
      some ⟨classBasic, methodBasicPublish, p.arguments⟩ := by
    have first : readWord 2 (toBeBytes 2 classBasic ++ (toBeBytes 2 methodBasicPublish ++
        p.arguments)) = some (classBasic, toBeBytes 2 methodBasicPublish ++ p.arguments) :=
      readWord_toBeBytes (by decide) _
    have second : readWord 2 (toBeBytes 2 methodBasicPublish ++ p.arguments) =
        some (methodBasicPublish, p.arguments) := readWord_toBeBytes (by decide) _
    simp only [methodFrame, decodeMethod, List.append_assoc, first, second, Option.bind_eq_bind,
      Option.bind_some]
    rfl
  have admitted : validateChannel p.methodFrame.channel classBasic = none := by
    have basic : classBasic ≠ classConnection := by decide
    rw [validateChannel, if_neg fun h => basic h.1, if_neg fun h => p.opened h.2]
  rw [handleFrame_admitted ⟨rfl, p.fits _ List.mem_cons_self, p.agreed⟩]
  refine (if_pos rfl).trans ?_
  rw [processMethodFrame, decoded]
  dsimp only
  rw [admitted]
  exact if_pos ⟨rfl, rfl⟩

theorem handle_header (content : Option ContentState) :
    handleFrame limits content p.headerFrame =
      handleContentHeaderFrame p.headerPayload content :=
  handleFrame_admitted ⟨rfl, p.fits _ (List.mem_cons_of_mem _ List.mem_cons_self), p.agreed⟩
    content

theorem handle_body {payload : Bytes} (sent : payload ∈ p.bodies) (content : Option ContentState) :
    handleFrame limits content (bodyFrame channel payload) =
      handleContentBodyFrame payload content :=
  handleFrame_admitted
    ⟨rfl, p.fits _ (List.mem_cons_of_mem _ (List.mem_cons_of_mem _ sent)), p.agreed⟩ content

theorem turn_method (content : Option ContentState) :
    turn limits content p.methodFrame = (some p.awaiting, []) := by
  rw [turn, p.handle_method]

theorem front_sized {front : List Bytes} (sent : front <+: p.bodies) :
    front.flatten.length ≤ isizeMax := by
  obtain ⟨rest, all⟩ := sent
  have complete := p.complete
  have sized := p.sized
  rw [← all, List.flatten_append, List.length_append] at complete
  omega

theorem handle_awaiting :
    handleFrame limits (some p.awaiting) p.headerFrame =
      if p.header.bodySize = 0 then flushPublish (p.gathering [])
      else ⟨some (p.gathering []), [], .resume⟩ := by
  have fits : ¬ isizeMax < p.awaiting.bodyReceived.length + p.header.bodySize := by
    have sized := p.sized
    simp only [awaiting, List.length_nil]
    omega
  rw [p.handle_header, handleContentHeaderFrame, p.announced]
  exact if_neg fits

theorem handle_gathering {front : List Bytes} {payload : Bytes}
    (sent : front ++ [payload] <+: p.bodies) :
    handleFrame limits (some (p.gathering front)) (bodyFrame channel payload) =
      if p.header.bodySize ≤ (front ++ [payload]).flatten.length then
        flushPublish (p.gathering (front ++ [payload]))
      else ⟨some (p.gathering (front ++ [payload])), [], .resume⟩ := by
  have received : (front ++ [payload]).flatten = front.flatten ++ payload := by simp
  have fits : ¬ isizeMax < front.flatten.length + payload.length := by
    have sized := p.front_sized sent
    rw [received, List.length_append] at sized
    omega
  rw [p.handle_body (sent.subset (List.mem_append_right _ List.mem_cons_self)), gathering,
    gathering, received]
  exact if_neg fits

theorem turn_awaiting :
    turn limits (some p.awaiting) p.headerFrame =
      if p.header.bodySize = 0 then (none, [(p.gathering []).call])
      else (some (p.gathering []), []) := by
  rw [turn, p.handle_awaiting]
  split <;> rfl

theorem turn_gathering {front : List Bytes} {payload : Bytes}
    (sent : front ++ [payload] <+: p.bodies) :
    turn limits (some (p.gathering front)) (bodyFrame channel payload) =
      if p.header.bodySize ≤ (front ++ [payload]).flatten.length then
        (none, [(p.gathering (front ++ [payload])).call])
      else (some (p.gathering (front ++ [payload])), []) := by
  rw [turn, p.handle_gathering sent]
  split <;> rfl

theorem run_pair {content middle : Option ContentState} {frame : AmqpFrame} {calls : List Call}
    (first : turn limits content frame = (middle, calls)) (rest : List AmqpFrame) :
    run (next (turn limits)) content (frame :: rest) = run (next (turn limits)) middle rest ∧
      outputs (turn limits) content (frame :: rest) =
        calls ++ outputs (turn limits) middle rest := by
  constructor
  · change run _ (turn limits content frame).1 rest = _
    rw [first]
  · rw [outputs, first]

theorem gather {front : List Bytes} (sent : front <+: p.bodies) (more : front ≠ p.bodies) :
    let part := p.methodFrame :: p.headerFrame :: front.map (bodyFrame channel)
    run (next (turn limits)) none part = some (p.gathering front) ∧
      outputs (turn limits) none part = [] := by
  induction front using List.reverseRecOn with
  | nil =>
    have size : ¬ p.header.bodySize = 0 := Nat.ne_of_gt (p.short [] sent more)
    have header := p.turn_awaiting
    rw [if_neg size] at header
    obtain ⟨start, silent⟩ := run_pair (p.turn_method none) [p.headerFrame]
    obtain ⟨final, still⟩ := run_pair header []
    exact ⟨start.trans final, silent.trans still⟩
  | append_singleton front payload ih =>
    have before : front <+: p.bodies := (List.prefix_append front [payload]).trans sent
    have shorter : front ≠ p.bodies := by
      intro eq
      have len := sent.length_le
      rw [← eq, List.length_append] at len
      exact absurd len (by simp)
    obtain ⟨waits, silent⟩ := ih before shorter
    have body := p.turn_gathering sent
    rw [if_neg (Nat.not_le.mpr (p.short _ sent more))] at body
    obtain ⟨final, still⟩ := run_pair body []
    simp only [List.map_append, List.map_cons, List.map_nil]
    rw [← List.cons_append, ← List.cons_append, run_append, outputs_append, waits, silent]
    exact ⟨final, still⟩

theorem handled : run (next (turn limits)) none p.frames = none ∧
    outputs (turn limits) none p.frames = [p.call] := by
  rcases List.eq_nil_or_concat p.bodies with empty | ⟨front, payload, eq⟩
  · have size : p.header.bodySize = 0 := by rw [← p.complete, empty]; rfl
    have header := p.turn_awaiting
    rw [if_pos size] at header
    obtain ⟨start, silent⟩ := run_pair (p.turn_method none) [p.headerFrame]
    obtain ⟨final, said⟩ := run_pair header []
    have same : (p.gathering []).call = p.call := by rw [← p.call_eq, empty]
    rw [same] at said
    rw [frames, empty]
    exact ⟨start.trans final, silent.trans said⟩
  · rw [List.concat_eq_append] at eq
    have sent : front <+: p.bodies := ⟨[payload], eq.symm⟩
    have more : front ≠ p.bodies := by
      intro same
      have len := congrArg List.length eq
      rw [← same, List.length_append] at len
      exact absurd len (by simp)
    have last : front ++ [payload] <+: p.bodies := eq ▸ List.prefix_rfl
    obtain ⟨waits, silent⟩ := p.gather sent more
    have body := p.turn_gathering last
    rw [← eq, if_pos (Nat.le_of_eq p.complete.symm), p.call_eq] at body
    obtain ⟨final, said⟩ := run_pair body []
    rw [frames, eq, List.map_append, List.map_cons, List.map_nil, ← List.cons_append,
      ← List.cons_append, run_append, outputs_append, waits, silent]
    exact ⟨final, said⟩

theorem bodies_resume {front rest : List Bytes} (all : front ++ rest = p.bodies) :
    Along (next (turn limits)) (Resumes limits) (some (p.gathering front))
      (rest.map (bodyFrame channel)) := by
  induction rest generalizing front with
  | nil => trivial
  | cons payload rest ih =>
    have all' : (front ++ [payload]) ++ rest = p.bodies := by simpa using all
    have sent : front ++ [payload] <+: p.bodies := ⟨rest, all'⟩
    refine ⟨?_, ?_⟩
    · rw [Resumes, p.handle_gathering sent]
      split <;> rfl
    · cases rest with
      | nil => trivial
      | cons second rest =>
        have more : front ++ [payload] ≠ p.bodies := by
          intro same
          rw [← same] at all'
          exact absurd (List.append_right_eq_self.mp all') (List.cons_ne_nil _ _)
        have waits := p.turn_gathering sent
        rw [if_neg (Nat.not_le.mpr (p.short _ sent more))] at waits
        rw [next, waits]
        exact ih all'

theorem resumes (content : Option ContentState) :
    Along (next (turn limits)) (Resumes limits) content p.frames := by
  refine ⟨?_, ?_⟩
  · rw [Resumes, p.handle_method]
  rw [next, p.turn_method]
  refine ⟨?_, ?_⟩
  · rw [Resumes, p.handle_awaiting]
    split <;> rfl
  rw [next, p.turn_awaiting]
  by_cases empty : p.header.bodySize = 0
  · have none : p.bodies = [] := by
      by_contra some
      exact absurd (p.short [] List.nil_prefix (Ne.symm some)) (by omega)
    rw [none]
    trivial
  · rw [if_neg empty]
    exact p.bodies_resume rfl

end Publication

def Begun (limits : Limits) (channel : UInt16) (part : List AmqpFrame) : Prop :=
  part = [] ∨ ∃ p : Publication limits channel, part <+: p.frames ∧ part ≠ p.frames

/-- While a publish is unfinished the connection waits for the rest of it, and calls nothing. -/
theorem Begun.waits {limits : Limits} {channel : UInt16} {part : List AmqpFrame}
    (begun : Begun limits channel part) : outputs (turn limits) none part = [] ∧
      (run (next (turn limits)) none part = none → part = []) := by
  rcases begun with rfl | ⟨p, sent, more⟩
  · exact ⟨rfl, fun _ => rfl⟩
  cases part with
  | nil => exact ⟨rfl, fun _ => rfl⟩
  | cons first part =>
    obtain ⟨rfl, behind⟩ := List.cons_prefix_cons.mp sent
    cases part with
    | nil =>
      obtain ⟨start, silent⟩ := Publication.run_pair (p.turn_method none) []
      refine ⟨silent, fun idle => ?_⟩
      rw [start] at idle
      exact absurd idle (Option.some_ne_none _)
    | cons second part =>
      obtain ⟨rfl, content⟩ := List.cons_prefix_cons.mp behind
      obtain ⟨front, came, rfl⟩ := List.prefix_map_iff.mp content
      have shorter : front ≠ p.bodies := by
        rintro rfl
        exact more rfl
      obtain ⟨waits, silent⟩ := p.gather came shorter
      refine ⟨silent, fun idle => ?_⟩
      rw [waits] at idle
      exact absurd idle (Option.some_ne_none _)

end RocketmqBroker
