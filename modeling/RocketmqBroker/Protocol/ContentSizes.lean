import RocketmqBroker.Protocol.ConnectionLoop

/-!
The size that a content header declares, against the body that the publish is handled with.
A publish starts with a declared size of zero, so a body frame that comes before any header
completes it; a header of any channel sets the size; and nothing compares the bytes that have
come with the size but for being enough.
-/
namespace RocketmqBroker
open Run

def startsPublish (frame : AmqpFrame) : Bool :=
  match decodeMethod frame.payload with
  | some method => method.classId == classBasic && method.methodId == methodBasicPublish
  | none => false

def noteHeader (last : Option (UInt16 × Nat)) (frame : AmqpFrame) : Option (UInt16 × Nat) :=
  if frame.frameType = frameMethod then if startsPublish frame then none else last
  else if frame.frameType = frameHeader then
    match decodeContentHeader frame.payload with
    | some header => some (frame.channel, header.bodySize)
    | none => last
  else last

def lastHeader (frames : List AmqpFrame) : Option (UInt16 × Nat) := frames.foldl noteHeader none

def Declared (frames : List AmqpFrame) (call : Call) : Prop :=
  ∀ channel args, call = .handlePublish channel args →
    lastHeader frames = some (channel, args.body.length)

/-- No publish that is not declared, and no panic. -/
def AsDeclared (frames : List AmqpFrame) (result : FrameResult) : Prop :=
  (∀ call ∈ result.calls, Declared frames call) ∧ result.action ≠ .panic

def WellFormed (limits : Limits) (conn : Connection) (frame : AmqpFrame) : Prop :=
  conn.running → AsDeclared (conn.frames ++ [frame]) (handleFrame limits conn.contentState frame)

/-- A header for the waiting publish: its size can be made room for, and a size of zero is
    declared on the publish's own channel before any of the body. -/
def HeaderFits (state : ContentState) (frame : AmqpFrame) : Prop :=
  ∀ header ∈ decodeContentHeader frame.payload,
    state.bodyReceived.length + header.bodySize ≤ isizeMax ∧
      (header.bodySize = 0 → frame.channel = state.channel ∧ state.bodyReceived = [])

/-- A body frame for the waiting publish: when it brings the last bytes, a header of the
    publish's own channel has come, and there are no more bytes than it declares. -/
def BodyFits (frames : List AmqpFrame) (state : ContentState) (payload : Bytes) : Prop :=
  state.bodyReceived.length + payload.length ≤ isizeMax ∧
    (state.bodySize ≤ state.bodyReceived.length + payload.length →
      (lastHeader frames).map Prod.fst = some state.channel ∧
        state.bodyReceived.length + payload.length ≤ state.bodySize)

/-- The frames of a client that sends header and body of a publish in order. -/
def InOrder (limits : Limits) (conn : Connection) (frame : AmqpFrame) : Prop :=
  conn.running → Admitted limits frame → ∀ state ∈ conn.contentState,
    (frame.frameType = frameHeader → HeaderFits state frame) ∧
      (frame.frameType = frameBody → BodyFits conn.frames state frame.payload)

def Agrees (last : Option (UInt16 × Nat)) (content : Option ContentState) : Prop :=
  ∀ state ∈ content, state.bodySize = (last.map Prod.snd).getD 0

def Sized (conn : Connection) : Prop :=
  conn.running → Agrees (lastHeader conn.frames) conn.contentState

theorem lastHeader_append (frames : List AmqpFrame) (frame : AmqpFrame) :
    lastHeader (frames ++ [frame]) = noteHeader (lastHeader frames) frame := by
  simp only [lastHeader, List.foldl_append, List.foldl_cons, List.foldl_nil]

theorem sound_quiet {frames : List AmqpFrame} {content : Option ContentState}
    {action : FrameAction} (goes : action ≠ .panic) : AsDeclared frames ⟨content, [], action⟩ := by
  refine ⟨?_, goes⟩
  intro call member
  exact absurd member List.not_mem_nil

theorem sound_panic {frames : List AmqpFrame} {content : Option ContentState} :
    ¬ AsDeclared frames ⟨content, [], .panic⟩ := fun sound => sound.2 rfl

theorem sound_flush {frames : List AmqpFrame} {state : ContentState} :
    AsDeclared frames (flushPublish state) ↔
      lastHeader frames = some (state.channel, state.bodyReceived.length) := by
  constructor
  · intro sound
    exact sound.1 _ List.mem_cons_self _ _ rfl
  · intro declared
    refine ⟨?_, FrameAction.noConfusion⟩
    intro call member channel args same
    rw [List.mem_singleton.mp member] at same
    obtain ⟨rfl, rfl⟩ := Call.handlePublish.inj same
    exact declared

theorem sound_method (frames : List AmqpFrame) (channel : UInt16) (payload : Bytes)
    (content : Option ContentState) :
    AsDeclared frames (processMethodFrame channel payload content) := by
  unfold processMethodFrame
  split
  · exact sound_quiet FrameAction.noConfusion
  split
  · exact sound_quiet FrameAction.noConfusion
  split
  · exact sound_quiet FrameAction.noConfusion
  · refine ⟨?_, by split <;> exact FrameAction.noConfusion⟩
    intro call member channel args same
    rw [List.mem_singleton.mp member] at same
    exact absurd same Call.noConfusion

theorem sound_header {conn : Connection} {state : ContentState} {frame : AmqpFrame}
    (header : frame.frameType = frameHeader) :
    AsDeclared (conn.frames ++ [frame]) (handleContentHeaderFrame frame.payload (some state)) ↔
      HeaderFits state frame := by
  have other : ¬ frame.frameType = frameMethod := by rw [header]; decide
  unfold HeaderFits handleContentHeaderFrame
  cases decoded : decodeContentHeader frame.payload with
  | none =>
    exact iff_of_true (sound_quiet FrameAction.noConfusion)
      fun _ member => absurd member (Option.not_mem_none _)
  | some declared =>
    have noted : lastHeader (conn.frames ++ [frame]) =
        some (frame.channel, declared.bodySize) := by
      rw [lastHeader_append, noteHeader, if_neg other, if_pos header, decoded]
    simp only [Option.mem_some_iff, forall_eq']
    by_cases room : isizeMax < state.bodyReceived.length + declared.bodySize
    · rw [if_pos room]
      exact iff_of_false sound_panic fun fits => absurd fits.1 (by omega)
    rw [if_neg room]
    by_cases zero : declared.bodySize = 0
    · rw [if_pos zero, sound_flush, noted, zero]
      have empty : 0 = state.bodyReceived.length ↔ state.bodyReceived = [] := by
        rw [eq_comm, List.length_eq_zero_iff]
      simp only [Option.some.injEq, Prod.mk.injEq, forall_const, empty]
      exact (and_iff_right (by omega)).symm
    · rw [if_neg zero]
      exact iff_of_true (sound_quiet FrameAction.noConfusion) ⟨by omega, fun h => absurd h zero⟩

theorem sound_body {conn : Connection} {state : ContentState} {frame : AmqpFrame}
    (body : frame.frameType = frameBody) (sized : state.bodySize =
      ((lastHeader conn.frames).map Prod.snd).getD 0) :
    AsDeclared (conn.frames ++ [frame]) (handleContentBodyFrame frame.payload (some state)) ↔
      BodyFits conn.frames state frame.payload := by
  have noted : lastHeader (conn.frames ++ [frame]) = lastHeader conn.frames := by
    have method : ¬ frame.frameType = frameMethod := by rw [body]; decide
    have header : ¬ frame.frameType = frameHeader := by rw [body]; decide
    rw [lastHeader_append, noteHeader, if_neg method, if_neg header]
  simp only [BodyFits, handleContentBodyFrame]
  by_cases room : isizeMax < state.bodyReceived.length + frame.payload.length
  · rw [if_pos room]
    exact iff_of_false sound_panic fun fits => absurd fits.1 (by omega)
  rw [if_neg room, List.length_append]
  by_cases last : state.bodySize ≤ state.bodyReceived.length + frame.payload.length
  · rw [if_pos last, sound_flush, noted, List.length_append]
    cases header : lastHeader conn.frames with
    | none =>
      refine iff_of_false (Option.some_ne_none _ ∘ Eq.symm) ?_
      intro fits
      exact Option.some_ne_none _ (fits.2 last).1.symm
    | some declared =>
      obtain ⟨channel, size⟩ := declared
      rw [header] at sized
      simp only [Option.map_some, Option.getD_some, Option.some.injEq, Prod.mk.injEq] at sized ⊢
      constructor
      · rintro ⟨same, length⟩
        exact ⟨by omega, fun _ => ⟨same, by omega⟩⟩
      · rintro ⟨_, fits⟩
        obtain ⟨same, most⟩ := fits last
        exact ⟨same, by omega⟩
  · rw [if_neg last]
    exact iff_of_true (sound_quiet FrameAction.noConfusion) ⟨by omega, fun h => absurd h last⟩

theorem wellFormed_iff {limits : Limits} {conn : Connection} {frame : AmqpFrame}
    (sized : Sized conn) : WellFormed limits conn frame ↔ InOrder limits conn frame := by
  refine forall_congr' fun running => ?_
  by_cases admitted : Admitted limits frame
  · rw [handleFrame_admitted admitted, dispatchFrame]
    by_cases method : frame.frameType = frameMethod
    · rw [if_pos method]
      refine iff_of_true (sound_method _ _ _ _) ?_
      intro _ state _
      refine ⟨fun header => ?_, fun body => ?_⟩
      · exact absurd (method.symm.trans header) (by decide)
      · exact absurd (method.symm.trans body) (by decide)
    rw [if_neg method]
    by_cases header : frame.frameType = frameHeader
    · rw [if_pos header]
      cases content : conn.contentState with
      | none =>
        refine iff_of_true (sound_quiet FrameAction.noConfusion) ?_
        intro _ state member
        exact absurd member (Option.not_mem_none state)
      | some state =>
        rw [sound_header header]
        constructor
        · intro fits _ state' member
          rw [← Option.mem_some_iff.mp member]
          exact ⟨fun _ => fits, fun body => absurd (header.symm.trans body) (by decide)⟩
        · intro order
          exact (order admitted state rfl).1 header
    rw [if_neg header]
    by_cases body : frame.frameType = frameBody
    · rw [if_pos body]
      cases content : conn.contentState with
      | none =>
        refine iff_of_true (sound_quiet FrameAction.noConfusion) ?_
        intro _ state member
        exact absurd member (Option.not_mem_none state)
      | some state =>
        rw [sound_body body (sized running state content)]
        constructor
        · intro fits _ state' member
          rw [← Option.mem_some_iff.mp member]
          exact ⟨fun header' => absurd header' header, fun _ => fits⟩
        · intro order
          exact (order admitted state rfl).2 body
    · rw [if_neg body]
      refine iff_of_true ?_ fun _ _ _ => ⟨fun h => absurd h header, fun h => absurd h body⟩
      split <;> exact sound_quiet FrameAction.noConfusion
  · obtain ⟨code, err, closes⟩ := handleFrame_refused admitted conn.contentState
    rw [closes]
    exact iff_of_true (sound_quiet FrameAction.noConfusion) fun h => absurd h admitted

theorem agrees_none (last : Option (UInt16 × Nat)) : Agrees last none := by
  intro state member
  exact absurd member (Option.not_mem_none state)

theorem agrees_some {last : Option (UInt16 × Nat)} {state : ContentState}
    (same : state.bodySize = (last.map Prod.snd).getD 0) : Agrees last (some state) := by
  intro state' member
  rw [← Option.mem_some_iff.mp member]
  exact same

theorem agrees_method {last : Option (UInt16 × Nat)} {content : Option ContentState}
    (agrees : Agrees last content) {frame : AmqpFrame} (method : frame.frameType = frameMethod)
    (goes : (processMethodFrame frame.channel frame.payload content).action = .resume) :
    Agrees (noteHeader last frame)
      (processMethodFrame frame.channel frame.payload content).contentState := by
  rw [noteHeader, if_pos method]
  revert goes
  unfold processMethodFrame startsPublish
  cases decoded : decodeMethod frame.payload with
  | none => exact fun goes => absurd goes FrameAction.noConfusion
  | some call =>
    simp only
    split
    · exact fun goes => absurd goes FrameAction.noConfusion
    by_cases publish : call.classId = classBasic ∧ call.methodId = methodBasicPublish
    · rw [if_pos publish, if_pos (by simpa using publish)]
      exact fun _ => agrees_some rfl
    · have other :
          ¬ (call.classId == classBasic && call.methodId == methodBasicPublish) = true := by
        simpa using publish
      rw [if_neg publish, if_neg other]
      exact fun _ => agrees

theorem agrees_header {last : Option (UInt16 × Nat)} {content : Option ContentState}
    {frame : AmqpFrame} (header : frame.frameType = frameHeader) :
    Agrees (noteHeader last frame)
      (handleContentHeaderFrame frame.payload content).contentState := by
  have other : ¬ frame.frameType = frameMethod := by rw [header]; decide
  rw [noteHeader, if_neg other, if_pos header]
  cases content with
  | none => exact agrees_none _
  | some state =>
    unfold handleContentHeaderFrame
    cases decoded : decodeContentHeader frame.payload with
    | none => exact agrees_none _
    | some declared =>
      simp only
      split
      · exact agrees_some rfl
      split
      · exact agrees_none _
      · exact agrees_some rfl

theorem agrees_body {last : Option (UInt16 × Nat)} {content : Option ContentState}
    (agrees : Agrees last content) (payload : Bytes) :
    Agrees last (handleContentBodyFrame payload content).contentState := by
  cases content with
  | none => exact agrees
  | some state =>
    simp only [handleContentBodyFrame]
    split
    · exact agrees
    split
    · exact agrees_none _
    · exact agrees_some (agrees state rfl)

theorem agrees_frame {limits : Limits} {last : Option (UInt16 × Nat)}
    {content : Option ContentState} (agrees : Agrees last content) {frame : AmqpFrame}
    (goes : (handleFrame limits content frame).action = .resume) :
    Agrees (noteHeader last frame) (handleFrame limits content frame).contentState := by
  have admitted : Admitted limits frame := by
    by_contra refused
    obtain ⟨code, err, closes⟩ := handleFrame_refused refused content
    rw [closes] at goes
    exact FrameAction.noConfusion goes
  rw [handleFrame_admitted admitted] at goes ⊢
  unfold dispatchFrame at goes ⊢
  split
  · rename_i method
    rw [if_pos method] at goes
    exact agrees_method agrees method goes
  split
  · exact agrees_header (by assumption)
  have noted : noteHeader last frame = last := by
    rw [noteHeader, if_neg (by assumption), if_neg (by assumption)]
  rw [noted]
  split
  · exact agrees_body agrees _
  split <;> exact agrees

theorem sized_receive (limits : Limits) {conn : Connection} (sized : Sized conn)
    (frame : AmqpFrame) : Sized (conn.receive limits frame) := by
  by_cases running : conn.running = true
  · rw [Connection.receive, if_pos running]
    intro goes
    simp only [lastHeader_append]
    exact agrees_frame (sized running) (of_decide_eq_true goes)
  · rw [Connection.receive, if_neg running]
    exact sized

/-- In every run, each publish is handled as it was declared, and without a panic, exactly if
    the client sends header and body of a publish in order. -/
theorem publishes_declared_iff (limits : Limits) (frames : List AmqpFrame) :
    Along (Connection.receive limits) (WellFormed limits) .start frames ↔
      Along (Connection.receive limits) (InOrder limits) .start frames :=
  along_congr
    (along_invariant Sized (fun _ frame sized => sized_receive limits sized frame)
      (fun _ => agrees_none _) frames)
    fun _ _ => wellFormed_iff

def plainPublish : AmqpFrame := ⟨frameMethod, 1, [0, 60, 0, 40, 0, 0, 0, 1, 113, 0]⟩

def plainBody : AmqpFrame := ⟨frameBody, 1, [7]⟩

/-- A body without a header is published. -/
theorem undeclared_publish : ¬ Along (Connection.receive .default) (WellFormed .default) .start
    [plainPublish, plainBody] := by
  intro along
  obtain ⟨calls, _⟩ := along_iff_split.mp along [plainPublish] plainBody [] rfl (by decide)
  have made : Call.handlePublish 1 ⟨"", "q", false, .default, [7]⟩ ∈ (handleFrame .default
      (Connection.after .default [plainPublish]).contentState plainBody).calls :=
    List.mem_singleton.mpr rfl
  exact absurd (calls _ made 1 _ rfl) (by decide)

end RocketmqBroker
