import RocketmqBroker.Protocol.Publications

/-!
The frames of several channels on one connection, in any order of the channels. The calls
that the connection makes are the publishes that the channels sent, channel by channel, as
long as no frame comes while another channel is in the middle of a publish. For finished
channels this is the exact condition: otherwise one publish takes the place of another.
-/
namespace RocketmqBroker
open Demux Run

/-- What a channel has sent: publishes, and maybe the beginning of one more. -/
structure ChannelStream (limits : Limits) (channel : UInt16) where
  publications : List (Publication limits channel)
  rest : List AmqpFrame
  unfinished : Begun limits channel rest

def Call.channel : Call → UInt16
  | .handlePublish channel _ => channel
  | .dispatchMethod channel _ => channel

variable {limits : Limits} {channel : UInt16}

def ChannelStream.frames (s : ChannelStream limits channel) : List AmqpFrame :=
  s.publications.flatMap Publication.frames ++ s.rest

/-- The frames of each channel, in their order, are what it has sent. -/
def Merged (streams : ∀ c, ChannelStream limits c) (frames : List AmqpFrame) : Prop :=
  ∀ c, own AmqpFrame.channel c frames = (streams c).frames

/-- The connection makes exactly the calls that the publishes of a channel ask for. -/
def Faithful (streams : ∀ c, ChannelStream limits c) (frames : List AmqpFrame) : Prop :=
  ∀ c, (Connection.after limits frames).calls.filter (fun call => call.channel = c) =
    (streams c).publications.map Publication.call

def Between (s : ChannelStream limits channel) (frames : List AmqpFrame) : Prop :=
  ∃ done, done <+: s.publications ∧
    own AmqpFrame.channel channel frames = done.flatMap Publication.frames

/-- No frame comes while another channel is in the middle of a publish. -/
def OneAtATime (streams : ∀ c, ChannelStream limits c) (frames : List AmqpFrame) : Prop :=
  ∀ before frame after, frames = before ++ frame :: after →
    ∀ d, d ≠ frame.channel → Between (streams d) before

theorem cut_stream {rest part : List AmqpFrame} (unfinished : Begun limits channel rest)
    (ps : List (Publication limits channel))
    (sent : part <+: ps.flatMap Publication.frames ++ rest) :
    ∃ done begun, done <+: ps ∧ part = done.flatMap Publication.frames ++ begun ∧
      Begun limits channel begun := by
  induction ps generalizing part with
  | nil =>
    refine ⟨[], part, List.nil_prefix, rfl, ?_⟩
    rcases unfinished with rfl | ⟨p, front, more⟩
    · exact .inl (List.prefix_nil.mp sent)
    · refine .inr ⟨p, List.IsPrefix.trans sent front, ?_⟩
      rintro rfl
      exact more (front.eq_of_length_le sent.length_le)
  | cons p ps ih =>
    rw [List.flatMap_cons, List.append_assoc] at sent
    by_cases inside : part <+: p.frames ∧ part ≠ p.frames
    · exact ⟨[], part, List.nil_prefix, rfl, .inr ⟨p, inside⟩⟩
    · have whole : p.frames <+: part := by
        rcases List.prefix_or_prefix_of_prefix sent (List.prefix_append p.frames _) with
          short | long
        · have same : part = p.frames := by
            by_contra ne
            exact inside ⟨short, ne⟩
          exact same ▸ List.prefix_rfl
        · exact long
      obtain ⟨later, rfl⟩ := whole
      obtain ⟨done, begun, front, rfl, unfinished⟩ := ih ((List.prefix_append_right_inj _).mp sent)
      exact ⟨p :: done, begun, List.cons_prefix_cons.mpr ⟨rfl, front⟩,
        by rw [List.flatMap_cons, List.append_assoc], unfinished⟩

theorem run_publications (ps : List (Publication limits channel)) (rest : List AmqpFrame) :
    run (next (turn limits)) none (ps.flatMap Publication.frames ++ rest) =
        run (next (turn limits)) none rest ∧
      outputs (turn limits) none (ps.flatMap Publication.frames ++ rest) =
        ps.map Publication.call ++ outputs (turn limits) none rest := by
  induction ps with
  | nil => exact ⟨rfl, rfl⟩
  | cons p ps ih =>
    obtain ⟨idle, said⟩ := p.handled
    rw [List.flatMap_cons, List.append_assoc, run_append, outputs_append, idle, said, ih.1, ih.2]
    exact ⟨rfl, rfl⟩

theorem run_stream (s : ChannelStream limits channel) :
    outputs (turn limits) none s.frames = s.publications.map Publication.call := by
  rw [ChannelStream.frames, (run_publications s.publications s.rest).2, s.unfinished.waits.1,
    List.append_nil]

theorem resting_iff {streams : ∀ c, ChannelStream limits c} {frames before after : List AmqpFrame}
    (merged : Merged streams frames) (split : frames = before ++ after) (c : UInt16) :
    Resting (turn limits) none AmqpFrame.channel before c ↔ Between (streams c) before := by
  have sent : own AmqpFrame.channel c before <+: (streams c).frames := by
    rw [← merged c, split, own_append]
    exact List.prefix_append _ _
  obtain ⟨done, begun, front, eq, unfinished⟩ := cut_stream (streams c).unfinished _ sent
  constructor
  · intro idle
    rw [Resting, eq, (run_publications done begun).1] at idle
    rw [unfinished.waits.2 idle, List.append_nil] at eq
    exact ⟨done, front, eq⟩
  · rintro ⟨done, _, eq⟩
    have whole := (run_publications done []).1
    rw [List.append_nil] at whole
    rw [Resting, eq, whole]
    rfl

theorem apart_iff {streams : ∀ c, ChannelStream limits c} {frames : List AmqpFrame}
    (merged : Merged streams frames) :
    Apart (turn limits) none AmqpFrame.channel frames ↔ OneAtATime streams frames := by
  constructor
  · intro apart before frame after split d other
    exact (resting_iff merged split d).mp (apart before frame after split d other)
  · intro apart before frame after split d other
    exact (resting_iff merged split d).mpr (apart before frame after split d other)

def Only (channel : UInt16) (result : FrameResult) : Prop :=
  (∀ state ∈ result.contentState, state.channel = channel) ∧
    ∀ call ∈ result.calls, call.channel = channel

theorem none_only : ∀ state ∈ (none : Option ContentState), state.channel = channel := by
  intro state member
  exact absurd member (Option.not_mem_none state)

theorem only_quiet {content : Option ContentState} {action : FrameAction}
    (before : ∀ state ∈ content, state.channel = channel) :
    Only channel ⟨content, [], action⟩ := by
  refine ⟨before, ?_⟩
  intro call member
  exact absurd member List.not_mem_nil

theorem only_flush {state : ContentState} (before : state.channel = channel) :
    Only channel (flushPublish state) := by
  refine ⟨none_only, ?_⟩
  intro call member
  rw [List.mem_singleton.mp member]
  exact before

theorem only_method {payload : Bytes} {content : Option ContentState}
    (before : ∀ state ∈ content, state.channel = channel) :
    Only channel (processMethodFrame channel payload content) := by
  unfold processMethodFrame
  split
  · exact only_quiet before
  · split
    · exact only_quiet before
    · split
      · refine only_quiet ?_
        intro state member
        rw [← Option.mem_some_iff.mp member]
      · refine ⟨before, ?_⟩
        intro call member
        rw [List.mem_singleton.mp member]
        rfl

theorem only_header {payload : Bytes} {content : Option ContentState}
    (before : ∀ state ∈ content, state.channel = channel) :
    Only channel (handleContentHeaderFrame payload content) := by
  cases content with
  | none => exact only_quiet before
  | some state =>
    have mine := before state rfl
    cases decoded : decodeContentHeader payload with
    | none =>
      simp only [handleContentHeaderFrame, decoded]
      exact only_quiet none_only
    | some header =>
      have waits : ∀ state' ∈ some { state with
          bodySize := header.bodySize, properties := header.properties },
          state'.channel = channel := by
        intro state' member
        rw [← Option.mem_some_iff.mp member]
        exact mine
      simp only [handleContentHeaderFrame, decoded]
      split
      · exact only_quiet waits
      split
      · exact only_flush mine
      · exact only_quiet waits

theorem only_body {payload : Bytes} {content : Option ContentState}
    (before : ∀ state ∈ content, state.channel = channel) :
    Only channel (handleContentBodyFrame payload content) := by
  cases content with
  | none => exact only_quiet before
  | some state =>
    have mine := before state rfl
    simp only [handleContentBodyFrame]
    split
    · exact only_quiet before
    split
    · exact only_flush mine
    · refine only_quiet ?_
      intro state' member
      rw [← Option.mem_some_iff.mp member]
      exact mine

theorem only_frame {frame : AmqpFrame} {content : Option ContentState}
    (before : ∀ state ∈ content, state.channel = frame.channel) :
    Only frame.channel (handleFrame limits content frame) := by
  unfold handleFrame
  split
  · exact only_quiet before
  split
  · exact only_quiet before
  split
  · exact only_quiet before
  unfold dispatchFrame
  split
  · exact only_method before
  split
  · exact only_header before
  split
  · exact only_body before
  split
  · exact only_quiet before
  · exact only_quiet before

/-- Frames of one channel lead to calls on that channel. -/
theorem labelled {frames : List AmqpFrame} (one : ∀ frame ∈ frames, frame.channel = channel)
    {content : Option ContentState} (before : ∀ state ∈ content, state.channel = channel) :
    ∀ call ∈ outputs (turn limits) content frames, call.channel = channel := by
  induction frames generalizing content with
  | nil =>
    intro call member
    exact absurd member List.not_mem_nil
  | cons frame frames ih =>
    have mine := one frame List.mem_cons_self
    have only : Only frame.channel (handleFrame limits content frame) :=
      only_frame fun state member => (before state member).trans mine.symm
    rw [mine] at only
    intro call member
    rcases List.mem_append.mp member with first | later
    · exact only.2 call first
    · exact ih (fun f inside => one f (List.mem_cons_of_mem _ inside)) only.1 call later

theorem receive_front (conn : Connection) (frames : List AmqpFrame) :
    (run (Connection.receive limits) conn frames).calls <+:
      conn.calls ++ outputs (turn limits) conn.contentState frames := by
  induction frames generalizing conn with
  | nil => exact List.prefix_append _ _
  | cons frame frames ih =>
    by_cases running : conn.running = true
    · have rest := ih (conn.receive limits frame)
      rw [Connection.receive, if_pos running, List.append_assoc] at rest
      change (run _ (conn.receive limits frame) frames).calls <+: _
      rw [Connection.receive, if_pos running]
      exact rest
    · rw [receive_stopped running]
      exact List.prefix_append _ _

/-- A connection that no frame ends goes through the states of the machine and makes its calls. -/
theorem receive_resumes {conn : Connection} {frames : List AmqpFrame}
    (resumes : Along (next (turn limits)) (Resumes limits) conn.contentState frames)
    (running : conn.running = true) :
    run (Connection.receive limits) conn frames =
      ⟨run (next (turn limits)) conn.contentState frames, conn.frames ++ frames,
        conn.calls ++ outputs (turn limits) conn.contentState frames, true⟩ := by
  induction frames generalizing conn with
  | nil =>
    obtain ⟨content, came, calls, _⟩ := conn
    obtain rfl := running
    simp only [outputs, List.append_nil]
    rfl
  | cons frame frames ih =>
    obtain ⟨first, later⟩ := resumes
    have step : conn.receive limits frame =
        ⟨(turn limits conn.contentState frame).1, conn.frames ++ [frame],
          conn.calls ++ (turn limits conn.contentState frame).2, true⟩ := by
      rw [Resumes] at first
      rw [Connection.receive, if_pos running]
      simp only [first, decide_true]
      rfl
    change run _ (conn.receive limits frame) frames = _
    have rest := @ih (conn.receive limits frame) (by rw [step]; exact later)
      (congrArg Connection.running step)
    rw [rest, step, List.append_assoc, List.append_assoc]
    rfl

theorem receive_all {conn : Connection} {frames : List AmqpFrame}
    (resumes : Along (next (turn limits)) (Resumes limits) conn.contentState frames)
    (running : conn.running = true) :
    (run (Connection.receive limits) conn frames).calls =
      conn.calls ++ outputs (turn limits) conn.contentState frames :=
  congrArg Connection.calls (receive_resumes resumes running)

theorem stream_resumes (s : ChannelStream limits channel) :
    Along (next (turn limits)) (Resumes limits) none s.frames := by
  have rest : Along (next (turn limits)) (Resumes limits) none s.rest := by
    rcases s.unfinished with none | ⟨p, ⟨missing, whole⟩, _⟩
    · rw [none]
      trivial
    · have all := p.resumes none
      rw [← whole] at all
      exact (along_append.mp all).1
  rw [ChannelStream.frames]
  induction s.publications with
  | nil => exact rest
  | cons p ps ih =>
    rw [List.flatMap_cons, List.append_assoc, along_append, p.handled.1]
    exact ⟨p.resumes none, ih⟩

theorem merged_resumes {streams : ∀ c, ChannelStream limits c} {frames : List AmqpFrame}
    (merged : Merged streams frames) (apart : Apart (turn limits) none AmqpFrame.channel frames) :
    Along (next (turn limits)) (Resumes limits) none frames := by
  rw [along_iff_split]
  intro before frame after split
  have alone : run (next (turn limits)) none before =
      run (next (turn limits)) none (own AmqpFrame.channel frame.channel before) := by
    rw [split] at apart
    exact run_own apart.front frame.channel fun d other =>
      apart before frame after rfl d other
  have mine := merged frame.channel
  rw [split, own_append, ← List.singleton_append, own_append, own_same] at mine
  rw [alone]
  exact along_iff_split.mp (stream_resumes (streams frame.channel)) _ frame _ mine.symm

theorem calls_eq {streams : ∀ c, ChannelStream limits c} {frames : List AmqpFrame}
    (merged : Merged streams frames) (apart : Apart (turn limits) none AmqpFrame.channel frames) :
    (Connection.after limits frames).calls = outputs (turn limits) none frames :=
  receive_all (merged_resumes merged apart) rfl

theorem faithful_of_one_at_a_time {streams : ∀ c, ChannelStream limits c}
    {frames : List AmqpFrame} (merged : Merged streams frames)
    (apart : OneAtATime streams frames) : Faithful streams frames := by
  intro c
  have apart := (apart_iff merged).mpr apart
  have alone := outputs_own (fun c es one => labelled one none_only) apart c
  rw [calls_eq merged apart, alone, merged c, run_stream]

def pending (content : Option ContentState) : Nat := if content.isSome then 1 else 0

def isMethod (frame : AmqpFrame) : Bool := frame.frameType = frameMethod

/-- A frame brings at most the publish that was waiting to its end, and only a method frame
    makes one wait. -/
def Balanced (limits : Limits) (frame : AmqpFrame) : Prop := ∀ content,
  (turn limits content frame).2.length + pending (turn limits content frame).1 ≤
    pending content + (if isMethod frame then 1 else 0)

theorem balanced_frame (p : Publication limits channel) {frame : AmqpFrame}
    (sent : frame ∈ p.frames) : Balanced limits frame := by
  intro content
  rcases List.mem_cons.mp sent with rfl | sent
  · rw [p.turn_method]
    exact Nat.le_add_left 1 _
  refine Nat.le_trans ?_ (Nat.le_add_right _ _)
  rcases List.mem_cons.mp sent with rfl | sent
  · simp only [turn, p.handle_header]
    cases content with
    | none => exact Nat.le_refl _
    | some state =>
      simp only [handleContentHeaderFrame, p.announced]
      split
      · exact Nat.le_refl _
      split <;> exact Nat.le_refl _
  · obtain ⟨payload, body, rfl⟩ := List.mem_map.mp sent
    simp only [turn, p.handle_body body]
    cases content with
    | none => exact Nat.le_refl _
    | some state =>
      simp only [handleContentBodyFrame]
      split
      · exact Nat.le_refl _
      split <;> exact Nat.le_refl _

theorem balanced_run {frames : List AmqpFrame} (counted : ∀ frame ∈ frames, Balanced limits frame)
    (content : Option ContentState) :
    (outputs (turn limits) content frames).length +
        pending (run (next (turn limits)) content frames) ≤
      pending content + (frames.filter isMethod).length := by
  induction frames generalizing content with
  | nil => simp [outputs, run]
  | cons frame frames ih =>
    have first := counted frame List.mem_cons_self content
    have later := ih (fun f member => counted f (List.mem_cons_of_mem _ member))
      (turn limits content frame).1
    have same : run (next (turn limits)) content (frame :: frames) =
        run (next (turn limits)) (turn limits content frame).1 frames := rfl
    rw [same, outputs, List.length_append, List.filter_cons]
    split at first
    · rename_i method
      rw [if_pos method, List.length_cons]
      omega
    · rename_i other
      rw [if_neg other]
      omega

theorem overwritten {before after : List AmqpFrame} {frame : AmqpFrame}
    (counted : ∀ f ∈ before ++ frame :: after, Balanced limits f) (p : Publication limits channel)
    (first : frame = p.methodFrame) (busy : run (next (turn limits)) none before ≠ none) :
    (outputs (turn limits) none (before ++ frame :: after)).length <
      ((before ++ frame :: after).filter isMethod).length := by
  subst first
  have front := balanced_run (fun f member => counted f (List.mem_append_left _ member)) none
  have back := balanced_run (fun f member =>
    counted f (List.mem_append_right _ (List.mem_cons_of_mem _ member))) (some p.awaiting)
  have waiting : pending (run (next (turn limits)) none before) = 1 :=
    if_pos (Option.isSome_iff_ne_none.mpr busy)
  have method : isMethod p.methodFrame = true := rfl
  have rest : outputs (turn limits)
      (run (next (turn limits)) none before) (p.methodFrame :: after) =
        outputs (turn limits) (some p.awaiting) after := by
    rw [outputs, p.turn_method, List.nil_append]
  rw [outputs_append, rest, List.length_append, List.filter_append, List.filter_cons_of_pos method,
    List.length_append, List.length_cons]
  have none_waits : pending none = 0 := rfl
  have one_waits : pending (some p.awaiting) = 1 := rfl
  omega

theorem count_methods (ps : List (Publication limits channel)) :
    ((ps.flatMap Publication.frames).filter isMethod).length = ps.length := by
  induction ps with
  | nil => rfl
  | cons p ps ih =>
    have bodies : (p.bodies.map (Publication.bodyFrame channel)).filter isMethod = [] := by
      rw [List.filter_eq_nil_iff]
      intro frame member
      obtain ⟨payload, _, rfl⟩ := List.mem_map.mp member
      exact Bool.false_ne_true
    have one : p.frames.filter isMethod = [p.methodFrame] := by
      rw [Publication.frames, List.filter_cons_of_pos rfl,
        List.filter_cons_of_neg Bool.false_ne_true, bodies]
    rw [List.flatMap_cons, List.filter_append, one, List.length_append, ih, List.length_cons,
      List.length_cons, List.length_nil]
    omega

section
variable {streams : ∀ c, ChannelStream limits c} {frames : List AmqpFrame}

theorem finished_frames (finished : ∀ c, (streams c).rest = []) (c : UInt16) :
    (streams c).frames = (streams c).publications.flatMap Publication.frames := by
  rw [ChannelStream.frames, finished c, List.append_nil]

theorem faithful_count (merged : Merged streams frames) (finished : ∀ c, (streams c).rest = [])
    (faithful : Faithful streams frames) :
    (Connection.after limits frames).calls.length = (frames.filter isMethod).length := by
  refine length_eq_of_own Call.channel AmqpFrame.channel ?_
  intro c
  rw [faithful c, List.length_map, List.filter_comm]
  have mine := merged c
  rw [own, finished_frames finished c] at mine
  rw [mine, count_methods]

theorem next_is_method (merged : Merged streams frames) (finished : ∀ c, (streams c).rest = [])
    {before after : List AmqpFrame} {frame : AmqpFrame} (split : frames = before ++ frame :: after)
    (between : Between (streams frame.channel) before) :
    ∃ p : Publication limits frame.channel, frame = p.methodFrame := by
  obtain ⟨done, ⟨later, all⟩, eq⟩ := between
  have mine := merged frame.channel
  have here : own AmqpFrame.channel frame.channel (frame :: after) =
      frame :: own AmqpFrame.channel frame.channel after :=
    List.filter_cons_of_pos (decide_eq_true rfl)
  rw [finished_frames finished, ← all, List.flatMap_append, split, own_append, eq, here] at mine
  have rest := List.append_cancel_left mine
  cases later with
  | nil => exact absurd rest (List.cons_ne_nil _ _)
  | cons p later => exact ⟨p, (List.cons.inj rest).1⟩

theorem merged_balanced (merged : Merged streams frames) (finished : ∀ c, (streams c).rest = []) :
    ∀ frame ∈ frames, Balanced limits frame := by
  intro frame member
  have sent : frame ∈ own AmqpFrame.channel frame.channel frames :=
    List.mem_filter.mpr ⟨member, decide_eq_true rfl⟩
  rw [merged frame.channel, finished_frames finished] at sent
  obtain ⟨p, _, inside⟩ := List.mem_flatMap.mp sent
  exact balanced_frame p inside

/-- Where publishes overlap, one of them is lost. -/
theorem one_at_a_time_of_faithful (merged : Merged streams frames)
    (finished : ∀ c, (streams c).rest = []) (faithful : Faithful streams frames) :
    OneAtATime streams frames := by
  rw [← apart_iff merged]
  by_contra clash
  obtain ⟨before, frame, after, split, _, rests, busy⟩ := first_clash clash
  have between := (resting_iff merged split _).mp rests
  obtain ⟨p, first⟩ := next_is_method merged finished split between
  have counted := merged_balanced merged finished
  rw [split] at counted
  have missing := overwritten counted p first busy
  have count := faithful_count merged finished faithful
  have made : (Connection.after limits frames).calls.length ≤
      (outputs (turn limits) none frames).length := (receive_front .start frames).length_le
  rw [split] at count made
  omega

end

/-- The publishes of all channels are handled as they were sent if none of them overlap; and
    when all have been sent, only if none of them do. -/
theorem contents_kept_iff (limits : Limits) (streams : ∀ c, ChannelStream limits c)
    (frames : List AmqpFrame) (merged : Merged streams frames) :
    (OneAtATime streams frames → Faithful streams frames) ∧
      ((∀ c, (streams c).rest = []) → (Faithful streams frames ↔ OneAtATime streams frames)) := by
  refine ⟨faithful_of_one_at_a_time merged, ?_⟩
  intro finished
  exact ⟨one_at_a_time_of_faithful merged finished, faithful_of_one_at_a_time merged⟩

def sampleHeader : Bytes := [0, 60, 0, 0, 0, 0, 0, 0, 0, 0, 0, 1, 0, 0]

def sampleContent : ContentHeader := (decodeContentHeader sampleHeader).get (by decide +kernel)

theorem sampleContent_size : sampleContent.bodySize = 1 := by decide +kernel

/-- A publish to a queue named q through the default exchange, with a body of one byte, on
    one of the first two channels. -/
def sample (channel : UInt16) (used : channel = 1 ∨ channel = 2) :
    Publication .default channel where
  arguments := [0, 0, 0, 1, 113, 0]
  headerPayload := sampleHeader
  header := sampleContent
  bodies := [[UInt8.ofNat channel.toNat]]
  announced := (Option.some_get _).symm
  complete := sampleContent_size.symm
  sized := by
    rw [sampleContent_size]
    decide
  short := by
    intro front sent more
    rcases List.prefix_cons_iff.mp sent with rfl | ⟨rest, rfl, none⟩
    · rw [sampleContent_size]
      exact Nat.one_pos
    · exact absurd (by rw [List.prefix_nil.mp none]) more
  opened := by rcases used with rfl | rfl <;> decide
  agreed := by rcases used with rfl | rfl <;> rfl
  fits := by
    intro payload member
    rcases used with rfl | rfl <;> revert payload <;> decide

/-- Each of the first two channels sends one publish. -/
def twoChannels (channel : UInt16) : ChannelStream .default channel :=
  if used : channel = 1 ∨ channel = 2 then ⟨[sample channel used], [], .inl rfl⟩
  else ⟨[], [], .inl rfl⟩

theorem twoChannels_merged {frames : List AmqpFrame}
    (first : own AmqpFrame.channel 1 frames = (sample 1 (.inl rfl)).frames)
    (second : own AmqpFrame.channel 2 frames = (sample 2 (.inr rfl)).frames)
    (only : ∀ frame ∈ frames, frame.channel = 1 ∨ frame.channel = 2) :
    Merged twoChannels frames := by
  intro c
  by_cases used : c = 1 ∨ c = 2
  · rw [twoChannels, dif_pos used]
    rcases used with rfl | rfl
    · exact first.trans (by simp [ChannelStream.frames])
    · exact second.trans (by simp [ChannelStream.frames])
  · rw [twoChannels, dif_neg used]
    refine List.filter_eq_nil_iff.mpr ?_
    intro frame member same
    rw [← of_decide_eq_true same] at used
    exact used (only frame member)

def inTurn : List AmqpFrame := (sample 1 (.inl rfl)).frames ++ (sample 2 (.inr rfl)).frames

/-- The second publish begins before the content of the first one has come. -/
def crossing : List AmqpFrame :=
  [(sample 1 (.inl rfl)).methodFrame, (sample 2 (.inr rfl)).methodFrame] ++
    (sample 1 (.inl rfl)).frames.tail ++ (sample 2 (.inr rfl)).frames.tail

theorem contents_mixed : Merged twoChannels crossing ∧ ¬ Faithful twoChannels crossing := by
  refine ⟨twoChannels_merged (by decide) (by decide) (by decide), ?_⟩
  intro faithful
  have none : ((Connection.after .default crossing).calls.filter
      fun call => call.channel = 1).length = 0 := by decide
  have one := congrArg List.length (faithful 1)
  rw [none] at one
  exact absurd one (by decide)

theorem contents_kept_in_turn : Faithful twoChannels inTurn ∧ OneAtATime twoChannels inTurn := by
  have merged : Merged twoChannels inTurn :=
    twoChannels_merged (by decide) (by decide) (by decide)
  have rests : ∀ d,
      Resting (turn .default) none AmqpFrame.channel (sample 1 (.inl rfl)).frames d := by
    intro d
    by_cases first : d = 1
    · subst first
      exact (sample 1 (.inl rfl)).handled.1
    · have quiet : own AmqpFrame.channel d (sample 1 (.inl rfl)).frames = [] := by
        refine List.filter_eq_nil_iff.mpr ?_
        intro frame member same
        have one : ∀ frame ∈ (sample 1 (.inl rfl)).frames, frame.channel = 1 := by decide
        exact first ((of_decide_eq_true same).symm.trans (one frame member))
      rw [Resting, quiet]
      rfl
  have apart : Apart (turn .default) none AmqpFrame.channel inTurn :=
    (apart_one (c := 1) (by decide)).append rests (apart_one (c := 2) (by decide))
  have each := (apart_iff merged).mp apart
  exact ⟨(contents_kept_iff .default twoChannels inTurn merged).1 each, each⟩

end RocketmqBroker
