import RocketmqBroker.Protocol.ContentFrames

/-!
The negotiated frame-max against the frames of a message. Every path sends the header in one
frame and the body in one frame, so they keep to the maximum as far as both fit. Nothing
calls the function of the codec that cuts a body into frames.
-/
namespace RocketmqBroker
open BigEndian ByteReader

def AmqpFrame.isContent (frame : AmqpFrame) : Bool :=
  frame.frameType == frameHeader || frame.frameType == frameBody

def bodyOf (frames : List AmqpFrame) : Bytes :=
  (frames.filter (·.frameType == frameBody)).flatMap AmqpFrame.payload

/-- No content frame is longer than the maximum, and the body is all there. -/
def WithinFrameMax (frameMax : Nat) (body : Bytes) (frames : List AmqpFrame) : Prop :=
  (∀ frame ∈ frames, frame.isContent = true → frame.encode.length ≤ frameMax) ∧ bodyOf frames = body

/-- The content header and the body each fit into one frame. -/
def FitsFrames (frameMax : Nat) (properties : BasicProperties) (body : Bytes) : Prop :=
  properties.write.1.length + 20 ≤ frameMax ∧ (body = [] ∨ body.length + 8 ≤ frameMax)

section
variable {frameMax : Nat} {channel : UInt16} {body : Bytes}

theorem content_within_iff {properties : BasicProperties} {classId methodId : Nat} {args : Bytes}
    {frames : List AmqpFrame} (sent : contentFrames channel properties body = some frames) :
    WithinFrameMax frameMax body (methodFrame channel classId methodId args :: frames) ↔
      FitsFrames frameMax properties body := by
  obtain ⟨header, headed, behind⟩ := Option.bind_eq_some_iff.mp sent
  obtain rfl := Option.some.inj behind
  obtain ⟨written, unwrapped, rfl⟩ := Option.map_eq_some_iff.mp headed
  have whole : properties.write.1 = written := by
    unfold Written.unwrap at unwrapped
    split at unwrapped
    · exact Option.some.inj unwrapped
    · cases unwrapped
  have method : (methodFrame channel classId methodId args).isContent = false := rfl
  have length : (AmqpFrame.encode ⟨frameHeader, channel, toBeBytes 2 classBasic ++ (toBeBytes 2 0 ++
      (toBeBytes 8 body.length ++ written))⟩).length = properties.write.1.length + 20 := by
    rw [encode_length, whole]
    simp only [List.length_append, toBeBytes_length]
    omega
  unfold WithinFrameMax FitsFrames
  rw [List.forall_mem_cons, List.forall_mem_cons, method, length]
  cases body with
  | nil =>
    constructor
    · rintro ⟨⟨_, header_fits, _⟩, _⟩
      exact ⟨header_fits rfl, .inl rfl⟩
    · rintro ⟨header_fits, _⟩
      exact ⟨⟨nofun, fun _ => header_fits, nofun⟩, rfl⟩
  | cons b body =>
    have one : (bodyFrame channel (b :: body)).encode.length = (b :: body).length + 8 :=
      encode_length _
    constructor
    · rintro ⟨⟨_, header_fits, body_fits⟩, _⟩
      have fits := body_fits (bodyFrame channel (b :: body)) (List.mem_singleton_self _) rfl
      rw [one] at fits
      exact ⟨header_fits rfl, .inr fits⟩
    · rintro ⟨header_fits, none_left | fits⟩
      · cases none_left
      · refine ⟨⟨nofun, fun _ => header_fits, ?_⟩, List.append_nil _⟩
        intro frame member _
        obtain rfl := List.mem_singleton.mp member
        rw [one]
        exact fits

/-- What is sent of a message keeps to the maximum exactly if its header and its body each fit
    into one frame; the header of Get-Ok is the one without properties. -/
theorem frame_max_kept_iff (frameMax : Nat) (channel : UInt16) :
    (∀ consumerTag m frames, encodeDeliveryFrames channel consumerTag m = some frames →
      (WithinFrameMax frameMax m.body frames ↔ FitsFrames frameMax m.properties m.body)) ∧
    (∀ messageCount m frames, sendGetOk channel messageCount m = some frames →
      (WithinFrameMax frameMax m.body frames ↔ FitsFrames frameMax .default m.body)) ∧
    ∀ replyCode replyText args frames,
      sendBasicReturn channel replyCode replyText args = some frames →
        (WithinFrameMax frameMax args.body frames ↔
          FitsFrames frameMax args.properties args.body) := by
  refine ⟨?_, ?_, ?_⟩
  · intro consumerTag m frames sent
    obtain ⟨args, -, sent⟩ := Option.bind_eq_some_iff.mp sent
    obtain ⟨content, behind, same⟩ := Option.bind_eq_some_iff.mp sent
    obtain rfl := Option.some.inj same
    exact content_within_iff behind
  · intro messageCount m frames sent
    obtain ⟨args, -, sent⟩ := Option.bind_eq_some_iff.mp sent
    obtain ⟨content, behind, same⟩ := Option.bind_eq_some_iff.mp sent
    obtain rfl := Option.some.inj same
    exact content_within_iff behind
  · intro replyCode replyText args frames sent
    obtain ⟨method, -, sent⟩ := Option.bind_eq_some_iff.mp sent
    obtain ⟨content, behind, same⟩ := Option.bind_eq_some_iff.mp sent
    obtain rfl := Option.some.inj same
    exact content_within_iff behind

end

/-- A message with a body of so many bytes. -/
def sized (length : Nat) : Message := .newRouted 1 [] (List.replicate length 7) "" "q"

theorem sized_length (length : Nat) : (sized length).body.length = length := List.length_replicate

theorem short_body_within : ∀ frames ∈ encodeDeliveryFrames 1 "ctag" (sized 9),
    WithinFrameMax 4096 (sized 9).body frames := by
  intro frames sent
  refine ((frame_max_kept_iff 4096 1).1 "ctag" (sized 9) frames sent).mpr ⟨?_, .inr ?_⟩
  · decide
  · decide

/-- A body of 5000 bytes comes in one frame of 5008, where 4096 are allowed. -/
theorem long_body_unsplit : ∃ frames, encodeDeliveryFrames 1 "ctag" (sized 5000) = some frames ∧
    ¬ WithinFrameMax 4096 (sized 5000).body frames := by
  obtain ⟨args, unwrapped⟩ := Option.isSome_iff_exists.mp (show (buildDeliverArgs "ctag" 1 false ""
    "q").unwrap.isSome = true by decide +kernel)
  obtain ⟨content, behind⟩ := contentFrames_writable BasicProperties.writable_default 1
    (sized 5000).body
  refine ⟨methodFrame 1 classBasic methodBasicDeliver args :: content, ?_, ?_⟩
  · unfold encodeDeliveryFrames
    change (buildDeliverArgs "ctag" 1 false "" "q").unwrap.bind _ = _
    rw [unwrapped, Option.bind_some]
    change (contentFrames 1 .default (sized 5000).body).bind _ = _
    rw [behind]
    rfl
  · rw [content_within_iff behind]
    rintro ⟨-, none_left | fits⟩
    · have length := congrArg List.length none_left
      rw [sized_length] at length
      cases length
    · rw [sized_length] at fits
      exact absurd fits (by decide)

end RocketmqBroker
