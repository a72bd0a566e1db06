import RocketmqBroker.Protocol.ConnectionLoop

/-!
How a connection gets its frames (the select loop of protocol/amqp/connection_loop.rs). One
turn of the loop waits for a frame, for a heartbeat tick and for a delivery to send. A tick or
a delivery drops the read that was going on, with the bytes that it had taken. So the frames
that are dispatched are the ones that were sent as long as no tick and no delivery comes in
the middle of a frame; and when it does, something is missing for good.
-/
namespace RocketmqBroker
open RecordScan Run

structure SelectLoop where
  buffered : Bytes
  taken : Bytes
  lastActivity : Instant
  connection : Connection

/-- What a turn of the loop goes on with, or more bytes from the network. A tick and a
    delivery come with whether what they write gets through. -/
inductive LoopEvent where
  | arrive (bytes : Bytes)
  | poll (now : Instant)
  | tick (now : Instant) (written : Bool)
  | deliver (written : Bool)
  deriving DecidableEq, Repr

namespace SelectLoop

def start (opened : Instant) : SelectLoop := ⟨[], [], opened, .start⟩

def stop (s : SelectLoop) : SelectLoop :=
  { s with buffered := [], taken := [], connection := { s.connection with running := false } }

def dropRead (s : SelectLoop) : SelectLoop := { s with taken := [] }

def poll (limits : Limits) (s : SelectLoop) (now : Instant) : SelectLoop :=
  match readAmqpFrame (s.taken ++ s.buffered) with
  | none => { s with taken := s.taken ++ s.buffered, buffered := [] }
  | some (none, _) => s.stop
  | some (some frame, rest) => ⟨rest, [], now, s.connection.receive limits frame⟩

def react (limits : Limits) (timeout : Nat) (s : SelectLoop) : LoopEvent → SelectLoop
  | .arrive bytes => { s with buffered := s.buffered ++ bytes }
  | .poll now => s.poll limits now
  | .tick now written =>
    if timeout < now - s.lastActivity then s.stop
    else if written then s.dropRead else s.stop
  | .deliver written => if written then s.dropRead else s.stop

def step (limits : Limits) (timeout : Nat) (s : SelectLoop) (e : LoopEvent) : SelectLoop :=
  if s.connection.running then s.react limits timeout e else s

/-- The read goes on until it has had every byte that has come. -/
def settle (limits : Limits) (timeout : Nat) (now : Instant) (s : SelectLoop) : SelectLoop :=
  run (step limits timeout) s (List.replicate (s.taken ++ s.buffered).length (.poll now))

end SelectLoop

def arrived : List LoopEvent → Bytes
  | [] => []
  | .arrive bytes :: es => bytes ++ arrived es
  | _ :: es => arrived es

/-- The loop has dispatched, or is about to dispatch without any further event, exactly the
    frames that have wholly come, as if they had been handed to it. -/
def Exact (limits : Limits) (timeout : Nat) (opened : Instant) (sent : List AmqpFrame)
    (es : List LoopEvent) : Prop :=
  ∀ now, ((run (SelectLoop.step limits timeout) (.start opened) es).settle limits timeout
    now).connection = .after limits (whole frameCodec (arrived es).length sent)

/-- No tick and no delivery comes in the middle of a frame. -/
def Whole (s : SelectLoop) : LoopEvent → Prop
  | .tick _ _ | .deliver _ => s.connection.running = true → s.taken = []
  | _ => True

/-- The peer is heard from in time, and what is written to it gets through. -/
def Alive (timeout : Nat) (s : SelectLoop) : LoopEvent → Prop
  | .tick now written =>
    s.connection.running = true → now - s.lastActivity ≤ timeout ∧ written = true
  | .deliver written => s.connection.running = true → written = true
  | _ => True

theorem arrived_append (es fs : List LoopEvent) :
    arrived (es ++ fs) = arrived es ++ arrived fs := by
  induction es with
  | nil => rfl
  | cons e es ih =>
    cases e with
    | arrive bytes => simp only [List.cons_append, arrived, ih, List.append_assoc]
    | poll now => exact ih
    | tick now written => exact ih
    | deliver written => exact ih

theorem run_stopped {limits : Limits} {timeout : Nat} {s : SelectLoop}
    (stopped : ¬ s.connection.running) (es : List LoopEvent) :
    run (SelectLoop.step limits timeout) s es = s := by
  induction es with
  | nil => rfl
  | cons e es ih =>
    have step : s.step limits timeout e = s := if_neg stopped
    change run _ (s.step limits timeout e) es = s
    rw [step, ih]

theorem polls_dispatch {limits : Limits} {timeout : Nat} {now : Instant} {cut : Bytes}
    (pending : readAmqpFrame cut = none) {n : Nat} {s : SelectLoop} {frames : List AmqpFrame}
    (valid : ∀ frame ∈ frames, frameCodec.Valid frame)
    (there : s.taken ++ s.buffered = encodeAll frameCodec frames ++ cut)
    (enough : frames.length ≤ n) :
    (run (SelectLoop.step limits timeout) s (List.replicate n (.poll now))).connection =
      run (Connection.receive limits) s.connection frames := by
  induction n generalizing s frames with
  | zero =>
    rw [List.length_eq_zero_iff.mp (Nat.le_zero.mp enough)]
    rfl
  | succ n ih =>
    by_cases running : s.connection.running
    · have step : s.step limits timeout (.poll now) = s.poll limits now := if_pos running
      change (run _ (s.step limits timeout (.poll now)) _).connection = _
      rw [step]
      cases frames with
      | nil =>
        have waits : s.poll limits now =
            { s with taken := s.taken ++ s.buffered, buffered := [] } := by
          have read : readAmqpFrame (s.taken ++ s.buffered) = none := there ▸ pending
          simp only [SelectLoop.poll, read]
        rw [waits]
        refine ih valid ?_ (Nat.zero_le n)
        rw [← there]
        exact List.append_nil _
      | cons frame frames =>
        have reads : s.poll limits now =
            ⟨encodeAll frameCodec frames ++ cut, [], now, s.connection.receive limits frame⟩ := by
          have read : readAmqpFrame (s.taken ++ s.buffered) =
              some (some frame, encodeAll frameCodec frames ++ cut) := by
            rw [there, encodeAll_cons, List.append_assoc]
            exact readAmqpFrame_encode (valid frame List.mem_cons_self) _
          simp only [SelectLoop.poll, read]
        rw [reads]
        exact ih (fun f member => valid f (List.mem_cons_of_mem _ member)) rfl
          (Nat.le_of_succ_le_succ enough)
    · rw [run_stopped running, receive_stopped running]

theorem torn_pending {sent : List AmqpFrame} (valid : ∀ frame ∈ sent, frameCodec.Valid frame)
    (k : Nat) : readAmqpFrame (torn frameCodec k sent) = none := by
  rcases torn_prefix frameCodec k sent with none | ⟨frame, member, front, short⟩
  · rw [none]
    rfl
  · exact readAmqpFrame_pending (valid frame member) front short

theorem undispatched {sent done : List AmqpFrame} {got rest : Bytes}
    (valid : ∀ frame ∈ sent, frameCodec.Valid frame) (stream : got <+: encodeAll frameCodec sent)
    (handed : ∀ frame ∈ done, frameCodec.Valid frame)
    (split : encodeAll frameCodec done ++ rest = got) :
    ∃ frames, whole frameCodec got.length sent = done ++ frames ∧
      (∀ frame ∈ frames, frameCodec.Valid frame) ∧
      rest = encodeAll frameCodec frames ++ torn frameCodec got.length sent := by
  have cut : got = (encodeAll frameCodec sent).take got.length := List.prefix_iff_eq_take.mp stream
  have scanned : scan frameCodec.next got = whole frameCodec got.length sent := by
    rw [← scan_cut frameCodec valid, ← cut]
  have parts : done ++ scan frameCodec.next rest = whole frameCodec got.length sent := by
    rw [← scanned, ← split, scan_encodeAll_append frameCodec handed]
  refine ⟨scan frameCodec.next rest, parts.symm, ?_, ?_⟩
  · intro frame member
    refine valid frame (whole_subset frameCodec got.length sent ?_)
    rw [← parts]
    exact List.mem_append_right _ member
  · have all := cut_split frameCodec got.length sent
    rw [← cut, ← parts, encodeAll_append, List.append_assoc] at all
    rw [← split] at all ⊢
    exact List.append_cancel_left all

/-- The frames dispatched so far are the first ones that came, and while the loop runs
    nothing of the others is lost. -/
def Following (limits : Limits) (got : Bytes) (s : SelectLoop) : Prop :=
  ∃ done, (∀ frame ∈ done, frameCodec.Valid frame) ∧ s.connection = .after limits done ∧
    encodeAll frameCodec done <+: got ∧
    (s.connection.running → encodeAll frameCodec done ++ (s.taken ++ s.buffered) = got)

theorem after_append (limits : Limits) (done frames : List AmqpFrame) :
    Connection.after limits (done ++ frames) =
      run (Connection.receive limits) (.after limits done) frames := run_append ..

section
variable {limits : Limits} {timeout : Nat} {sent : List AmqpFrame} {got : Bytes} {s : SelectLoop}

theorem poll_following (valid : ∀ frame ∈ sent, frameCodec.Valid frame)
    (stream : got <+: encodeAll frameCodec sent) (running : s.connection.running)
    (follows : Following limits got s) (now : Instant) :
    Following limits got (s.poll limits now) := by
  obtain ⟨done, handed, made, came, rest⟩ := follows
  obtain ⟨frames, _, fit, eq⟩ := undispatched valid stream handed (rest running)
  cases frames with
  | nil =>
    have pending : readAmqpFrame (s.taken ++ s.buffered) = none := by
      rw [eq, encodeAll_nil, List.nil_append]
      exact torn_pending valid got.length
    have waits : s.poll limits now =
        { s with taken := s.taken ++ s.buffered, buffered := [] } := by
      simp only [SelectLoop.poll, pending]
    rw [waits]
    refine ⟨done, handed, made, came, ?_⟩
    intro _
    change encodeAll frameCodec done ++ ((s.taken ++ s.buffered) ++ []) = got
    rw [List.append_nil, rest running]
  | cons frame frames =>
    rw [encodeAll_cons, List.append_assoc] at eq
    have reads : s.poll limits now =
        ⟨encodeAll frameCodec frames ++ torn frameCodec got.length sent, [], now,
          s.connection.receive limits frame⟩ := by
      have read := readAmqpFrame_encode (fit frame List.mem_cons_self)
        (encodeAll frameCodec frames ++ torn frameCodec got.length sent)
      have first : readAmqpFrame (s.taken ++ s.buffered) = some (some frame, _) := eq ▸ read
      simp only [SelectLoop.poll, first]
    have split : encodeAll frameCodec (done ++ [frame]) ++
        (encodeAll frameCodec frames ++ torn frameCodec got.length sent) = got := by
      have all := rest running
      rw [eq] at all
      rw [encodeAll_append, encodeAll_cons, encodeAll_nil, List.append_nil, List.append_assoc]
      exact all
    rw [reads]
    refine ⟨done ++ [frame], ?_, ?_, ⟨_, split⟩, fun _ => split⟩
    · intro f member
      rcases List.mem_append.mp member with old | new
      · exact handed f old
      · rw [List.mem_singleton.mp new]
        exact fit frame List.mem_cons_self
    · rw [after_append, ← made]
      rfl

/-- Every event that the condition allows keeps the loop on the track of the stream. -/
theorem react_following (valid : ∀ frame ∈ sent, frameCodec.Valid frame)
    (stream : got <+: encodeAll frameCodec sent) (running : s.connection.running)
    (follows : Following limits got s) {e : LoopEvent} (whole : Whole s e)
    (alive : Alive timeout s e) :
    Following limits (got ++ arrived [e]) (s.react limits timeout e) := by
  cases e with
  | arrive bytes =>
    obtain ⟨done, handed, made, came, rest⟩ := follows
    have new : arrived [LoopEvent.arrive bytes] = bytes := List.append_nil _
    rw [new]
    refine ⟨done, handed, made, came.trans (List.prefix_append _ _), ?_⟩
    intro _
    change encodeAll frameCodec done ++ (s.taken ++ (s.buffered ++ bytes)) = got ++ bytes
    rw [← rest running]
    simp only [List.append_assoc]
  | poll now =>
    change Following limits (got ++ []) _
    rw [List.append_nil]
    exact poll_following valid stream running follows now
  | tick now written =>
    obtain ⟨intime, rfl⟩ := alive running
    have empty : s.dropRead = s := by
      rw [SelectLoop.dropRead, ← whole running]
    have kept : s.react limits timeout (.tick now true) = s.dropRead := by
      rw [SelectLoop.react, if_neg (Nat.not_lt.mpr intime), if_pos rfl]
    change Following limits (got ++ []) _
    rw [kept, empty, List.append_nil]
    exact follows
  | deliver written =>
    obtain rfl := alive running
    have empty : s.dropRead = s := by
      rw [SelectLoop.dropRead, ← whole running]
    have kept : s.react limits timeout (.deliver true) = s.dropRead := by
      rw [SelectLoop.react, if_pos rfl]
    change Following limits (got ++ []) _
    rw [kept, empty, List.append_nil]
    exact follows

theorem step_following (valid : ∀ frame ∈ sent, frameCodec.Valid frame)
    (stream : got <+: encodeAll frameCodec sent) (follows : Following limits got s)
    {e : LoopEvent} (whole : Whole s e) (alive : Alive timeout s e) :
    Following limits (got ++ arrived [e]) (s.step limits timeout e) := by
  by_cases running : s.connection.running
  · rw [SelectLoop.step, if_pos running]
    exact react_following valid stream running follows whole alive
  · obtain ⟨done, handed, made, came, _⟩ := follows
    rw [SelectLoop.step, if_neg running]
    exact ⟨done, handed, made, came.trans (List.prefix_append _ _), fun h => absurd h running⟩

theorem settle_following (valid : ∀ frame ∈ sent, frameCodec.Valid frame)
    (stream : got <+: encodeAll frameCodec sent) (follows : Following limits got s)
    (now : Instant) : (s.settle limits timeout now).connection =
      .after limits (whole frameCodec got.length sent) := by
  obtain ⟨done, handed, made, ⟨left, split⟩, rest⟩ := follows
  by_cases running : s.connection.running
  · obtain ⟨frames, all, fit, eq⟩ := undispatched valid stream handed (rest running)
    have enough : frames.length ≤ (s.taken ++ s.buffered).length := by
      rw [eq, List.length_append]
      exact Nat.le_trans (length_le_encodeAll frameCodec frames) (Nat.le_add_right _ _)
    rw [SelectLoop.settle, polls_dispatch (torn_pending valid got.length) fit eq enough, made, all,
      after_append]
  · obtain ⟨frames, all, _⟩ := undispatched valid stream handed split
    rw [SelectLoop.settle, run_stopped running, all, after_append, ← made,
      receive_stopped running]

end

theorem exact_of_whole {limits : Limits} {timeout : Nat} {opened : Instant}
    {sent : List AmqpFrame} {es : List LoopEvent}
    (valid : ∀ frame ∈ sent, frameCodec.Valid frame)
    (stream : arrived es <+: encodeAll frameCodec sent)
    (along : Along (SelectLoop.step limits timeout) (fun s e => Whole s e ∧ Alive timeout s e)
      (.start opened) es) : Exact limits timeout opened sent es := by
  intro now
  refine settle_following valid stream ?_ now
  refine invariant (fun past s => arrived past <+: encodeAll frameCodec sent →
    Following limits (arrived past) s) ?_ ?_ along stream
  · intro _
    exact ⟨[], nofun, rfl, List.nil_prefix, fun _ => rfl⟩
  · intro past s e allowed before stream
    rw [arrived_append] at stream ⊢
    have earlier := (List.prefix_append (arrived past) (arrived [e])).trans stream
    exact step_following valid earlier (before earlier) allowed.1 allowed.2

def held (s : SelectLoop) : Nat :=
  (encodeAll frameCodec s.connection.frames).length + (s.taken.length + s.buffered.length)

section
variable (limits : Limits) (timeout : Nat)

theorem stop_held (s : SelectLoop) : held s.stop + s.taken.length ≤ held s := by
  simp only [held, SelectLoop.stop, List.length_nil]
  omega

theorem dropRead_held (s : SelectLoop) : held s.dropRead + s.taken.length = held s := by
  simp only [held, SelectLoop.dropRead, List.length_nil]
  omega

theorem poll_held {s : SelectLoop} (running : s.connection.running) (now : Instant) :
    held (s.poll limits now) ≤ held s := by
  cases read : readAmqpFrame (s.taken ++ s.buffered) with
  | none =>
    simp only [SelectLoop.poll, read, held, List.length_append, List.length_nil]
    exact Nat.le_refl _
  | some found =>
    obtain ⟨result, rest⟩ := found
    cases result with
    | none =>
      simp only [SelectLoop.poll, read]
      exact Nat.le_trans (Nat.le_add_right _ _) (stop_held s)
    | some frame =>
      have whole := (readAmqpFrame_canonical read).2
      have frames : (s.connection.receive limits frame).frames =
          s.connection.frames ++ [frame] := by rw [Connection.receive, if_pos running]
      simp only [SelectLoop.poll, read, held, frames, encodeAll_append, encodeAll_cons,
        encodeAll_nil, List.append_nil, List.length_append, List.length_nil]
      have size := congrArg List.length whole
      rw [List.length_append, List.length_append] at size
      have same : frameCodec.encode frame = frame.encode := rfl
      rw [same]
      omega

theorem step_held (s : SelectLoop) (e : LoopEvent) :
    held (s.step limits timeout e) ≤ held s + (arrived [e]).length := by
  by_cases running : s.connection.running
  · rw [SelectLoop.step, if_pos running]
    cases e with
    | arrive bytes =>
      simp only [SelectLoop.react, held, arrived, List.append_nil, List.length_append]
      omega
    | poll now => exact Nat.le_trans (poll_held limits running now) (Nat.le_add_right _ _)
    | tick now written =>
      have stopped := stop_held s
      have dropped := dropRead_held s
      simp only [SelectLoop.react]
      split
      · omega
      split <;> omega
    | deliver written =>
      have stopped := stop_held s
      have dropped := dropRead_held s
      simp only [SelectLoop.react]
      split <;> omega
  · rw [SelectLoop.step, if_neg running]
    exact Nat.le_add_right _ _

/-- A tick or a delivery in the middle of a frame loses bytes. -/
theorem step_loses {s : SelectLoop} {e : LoopEvent} (cut : ¬ Whole s e) :
    held (s.step limits timeout e) < held s + (arrived [e]).length := by
  have stopped := stop_held s
  have dropped := dropRead_held s
  cases e with
  | arrive bytes => exact absurd trivial cut
  | poll now => exact absurd trivial cut
  | tick now written =>
    obtain ⟨running, middle⟩ := Classical.not_imp.mp cut
    have pos := List.length_pos_of_ne_nil middle
    rw [SelectLoop.step, if_pos running]
    simp only [SelectLoop.react]
    split
    · omega
    split <;> omega
  | deliver written =>
    obtain ⟨running, middle⟩ := Classical.not_imp.mp cut
    have pos := List.length_pos_of_ne_nil middle
    rw [SelectLoop.step, if_pos running]
    simp only [SelectLoop.react]
    split <;> omega

theorem run_held (s : SelectLoop) (es : List LoopEvent) :
    held (run (SelectLoop.step limits timeout) s es) ≤ held s + (arrived es).length := by
  induction es generalizing s with
  | nil => exact Nat.le_refl _
  | cons e es ih =>
    have first := step_held limits timeout s e
    have rest := ih (s.step limits timeout e)
    have all : arrived (e :: es) = arrived [e] ++ arrived es := arrived_append [e] es
    change held (run _ (s.step limits timeout e) es) ≤ _
    rw [all, List.length_append]
    omega

theorem run_loses {s : SelectLoop} {es : List LoopEvent}
    (cut : ¬ Along (SelectLoop.step limits timeout) Whole s es) :
    held (run (SelectLoop.step limits timeout) s es) < held s + (arrived es).length := by
  induction es generalizing s with
  | nil => exact absurd trivial cut
  | cons e es ih =>
    have all : arrived (e :: es) = arrived [e] ++ arrived es := arrived_append [e] es
    change held (run _ (s.step limits timeout e) es) < _
    rw [all, List.length_append]
    by_cases whole : Whole s e
    · have first := step_held limits timeout s e
      have rest := ih fun later => cut ⟨whole, later⟩
      omega
    · have first := step_loses limits timeout whole
      have rest := run_held limits timeout (s.step limits timeout e) es
      omega

end

theorem whole_of_exact {limits : Limits} {timeout : Nat} {opened : Instant}
    {sent : List AmqpFrame} {es : List LoopEvent}
    (valid : ∀ frame ∈ sent, frameCodec.Valid frame)
    (complete : arrived es = encodeAll frameCodec sent)
    (served : (Connection.after limits sent).frames = sent)
    (exactly : Exact limits timeout opened sent es) :
    Along (SelectLoop.step limits timeout) Whole (.start opened) es := by
  by_contra cut
  have lost := run_loses limits timeout cut
  have polls := run_held limits timeout
    (run (SelectLoop.step limits timeout) (.start opened) es)
    (List.replicate ((run (SelectLoop.step limits timeout) (.start opened) es).taken ++
      (run (SelectLoop.step limits timeout) (.start opened) es).buffered).length (.poll opened))
  have none_come : ∀ n, arrived (List.replicate n (.poll opened)) = [] := by
    intro n
    induction n with
    | zero => rfl
    | succ n ih => exact ih
  have all := exactly opened
  rw [complete, whole_all frameCodec valid] at all
  rw [none_come] at polls
  have size : (encodeAll frameCodec sent).length ≤
      held ((run (SelectLoop.step limits timeout) (.start opened) es).settle limits timeout
        opened) := by
    rw [held, all, served]
    exact Nat.le_add_right _ _
  have empty : held (.start opened) = 0 := rfl
  rw [complete, empty] at lost
  rw [List.length_nil] at polls
  rw [SelectLoop.settle] at size
  omega

/-- The frames that were sent are the ones that are dispatched, in every state, if every tick
    and every delivery finds no frame half read (and the peer alive); and at the end of the
    stream only if every tick and every delivery finds no frame half read. -/
theorem frames_dispatched (limits : Limits) (timeout : Nat) (opened : Instant)
    (sent : List AmqpFrame) (valid : ∀ frame ∈ sent, frameCodec.Valid frame)
    (es : List LoopEvent) (stream : arrived es <+: encodeAll frameCodec sent) :
    (Along (SelectLoop.step limits timeout) (fun s e => Whole s e ∧ Alive timeout s e)
        (.start opened) es →
      ∀ before after, es = before ++ after → Exact limits timeout opened sent before) ∧
    (arrived es = encodeAll frameCodec sent → (Connection.after limits sent).frames = sent →
      Exact limits timeout opened sent es →
      Along (SelectLoop.step limits timeout) Whole (.start opened) es) := by
  constructor
  · rintro along before after rfl
    rw [arrived_append] at stream
    exact exact_of_whole valid ((List.prefix_append _ _).trans stream) (along_append.mp along).1
  · exact whole_of_exact valid

def heartbeat : AmqpFrame := ⟨frameHeartbeat, 0, []⟩

/-- A heartbeat comes in two parts, and the loop's own tick in between. -/
def cutByTick : List LoopEvent :=
  [.arrive [8], .poll 0, .tick 60 true, .arrive [0, 0, 0, 0, 0, 0, 0xCE]]

theorem tick_loses_frame : arrived cutByTick = encodeAll frameCodec [heartbeat] ∧
    ¬ Exact .default 120 0 [heartbeat] cutByTick := by
  refine ⟨by decide, ?_⟩
  intro exactly
  have none : ((run (SelectLoop.step .default 120) (.start 0) cutByTick).settle .default 120
      60).connection.frames = [] := by decide +kernel
  have one := congrArg Connection.frames (exactly 60)
  rw [none] at one
  exact absurd one (by decide +kernel)

/-- Two heartbeats in three parts. The tick comes between them, when the beginning of the
    second one has come but no read has begun. -/
def betweenFrames : List LoopEvent :=
  [.arrive [8, 0, 0], .poll 0, .arrive [0, 0, 0, 0, 0xCE, 8, 0], .poll 1, .tick 60 true,
    .arrive [0, 0, 0, 0, 0, 0xCE], .poll 61, .deliver true]

theorem frames_dispatched_between :
    Exact .default 120 0 [heartbeat, heartbeat] betweenFrames ∧
      Along (SelectLoop.step .default 120) Whole (.start 0) betweenFrames := by
  have valid : ∀ frame ∈ [heartbeat, heartbeat], frameCodec.Valid frame := by
    intro frame member
    rcases List.mem_cons.mp member with rfl | member
    · exact Nat.pow_pos (by decide)
    · rw [List.mem_singleton.mp member]
      exact Nat.pow_pos (by decide)
  have complete : arrived betweenFrames = encodeAll frameCodec [heartbeat, heartbeat] := by decide
  have along : Along (SelectLoop.step .default 120) (fun s e => Whole s e ∧ Alive 120 s e)
      (.start 0) betweenFrames :=
    ⟨⟨trivial, trivial⟩, ⟨trivial, trivial⟩, ⟨trivial, trivial⟩, ⟨trivial, trivial⟩,
      ⟨fun _ => by decide +kernel, fun _ => ⟨by decide +kernel, rfl⟩⟩, ⟨trivial, trivial⟩,
      ⟨trivial, trivial⟩, ⟨fun _ => by decide +kernel, fun _ => rfl⟩, trivial⟩
  have both := frames_dispatched .default 120 0 [heartbeat, heartbeat] valid betweenFrames
    (complete ▸ List.prefix_rfl)
  have exactly := both.1 along betweenFrames [] (List.append_nil _).symm
  exact ⟨exactly, both.2 complete (by decide +kernel) exactly⟩

end RocketmqBroker
