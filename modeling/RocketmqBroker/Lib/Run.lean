/-!
Runs of a deterministic step function over a list of events, conditions that
every step of a run meets in the state it starts from, and the invariant rule
for such runs. The invariant may speak about the events already taken.

And noninterference of a machine some of whose events are hidden. What an observer is shown must
not depend on the hidden events. It does not if states are related in a way that hidden
events do not leave, that the other events keep, and under which these show the same.
-/
namespace Run
variable {σ ε : Type}

def run (step : σ → ε → σ) (s : σ) (es : List ε) : σ := es.foldl step s

/-- Every step of the run is allowed in the state before it. -/
def Along (step : σ → ε → σ) (allowed : σ → ε → Prop) : σ → List ε → Prop
  | _, [] => True
  | s, e :: es => allowed s e ∧ Along step allowed (step s e) es

instance decidableAlong (step : σ → ε → σ) (allowed : σ → ε → Prop)
    [∀ s e, Decidable (allowed s e)] : (s : σ) → (es : List ε) →
    Decidable (Along step allowed s es)
  | _, [] => isTrue trivial
  | s, e :: es =>
    have := decidableAlong step allowed (step s e) es
    inferInstanceAs (Decidable (allowed s e ∧ Along step allowed (step s e) es))

variable {step : σ → ε → σ} {allowed : σ → ε → Prop}

theorem run_append (s : σ) (es fs : List ε) :
    run step s (es ++ fs) = run step (run step s es) fs := by
  simp [run]

theorem along_append {s : σ} {es fs : List ε} :
    Along step allowed s (es ++ fs) ↔
      Along step allowed s es ∧ Along step allowed (run step s es) fs := by
  induction es generalizing s with
  | nil => simp [Along, run]
  | cons e es ih =>
    rw [List.cons_append]
    simp only [Along, ih, run, List.foldl_cons, and_assoc]

theorem along_true (s : σ) (es : List ε) : Along step (fun _ _ => True) s es := by
  induction es generalizing s with
  | nil => exact trivial
  | cons e es ih => exact ⟨trivial, ih _⟩

theorem along_mono {allowed' : σ → ε → Prop} (weaker : ∀ s e, allowed s e → allowed' s e)
    {s : σ} {es : List ε} (along : Along step allowed s es) : Along step allowed' s es := by
  induction es generalizing s with
  | nil => exact trivial
  | cons e es ih => exact ⟨weaker s e along.1, ih along.2⟩

theorem along_iff_split {s : σ} {es : List ε} : Along step allowed s es ↔
    ∀ before e after, es = before ++ e :: after → allowed (run step s before) e := by
  constructor
  · rintro along before e after rfl
    exact (along_append.mp along).2.1
  · intro each
    induction es generalizing s with
    | nil => trivial
    | cons e es ih =>
      refine ⟨each [] e es rfl, ih ?_⟩
      rintro before f after rfl
      exact each (e :: before) f after rfl

/-- What holds at the start and is kept by every allowed step holds after the
    run. -/
theorem invariant (Inv : List ε → σ → Prop) {s : σ} {es : List ε} (start : Inv [] s)
    (keeps : ∀ past s e, allowed s e → Inv past s → Inv (past ++ [e]) (step s e))
    (along : Along step allowed s es) : Inv es (run step s es) := by
  have general : ∀ past s, Inv past s → Along step allowed s es →
      Inv (past ++ es) (run step s es) := by
    clear start along
    induction es with
    | nil =>
      intro past s h _
      simpa [run] using h
    | cons e es ih =>
      intro past s h along
      have next := ih (past ++ [e]) (step s e) (keeps past s e along.1 h) along.2
      simpa [run] using next
  exact general [] s start along

theorem along_invariant (Inv : σ → Prop) (keeps : ∀ s e, Inv s → Inv (step s e)) {s : σ}
    (start : Inv s) (es : List ε) : Along step (fun s _ => Inv s) s es := by
  induction es generalizing s with
  | nil => trivial
  | cons e es ih => exact ⟨start, ih (keeps s e start)⟩

theorem along_of_kind {kind : ε → Prop} (free : ∀ s e, kind e → allowed s e) {es : List ε}
    (all : ∀ e ∈ es, kind e) (s : σ) : Along step allowed s es := by
  induction es generalizing s with
  | nil => trivial
  | cons e es ih =>
    exact ⟨free s e (all e List.mem_cons_self),
      ih (fun e' member => all e' (List.mem_cons_of_mem _ member)) _⟩

def Somewhere (step : σ → ε → σ) (kind : σ → ε → Prop) : σ → List ε → Prop
  | _, [] => False
  | s, e :: es => kind s e ∨ Somewhere step kind (step s e) es

theorem somewhere_append {kind : σ → ε → Prop} {s : σ} {es fs : List ε} :
    Somewhere step kind s (es ++ fs) ↔
      Somewhere step kind s es ∨ Somewhere step kind (run step s es) fs := by
  induction es generalizing s with
  | nil => simp [Somewhere, run]
  | cons e es ih =>
    rw [List.cons_append]
    simp only [Somewhere, ih, run, List.foldl_cons, or_assoc]

theorem keeps {kind : ε → Prop} {P : σ → Prop} (kept : ∀ s e, kind e → P s → P (step s e))
    {es : List ε} (all : ∀ e ∈ es, kind e) {s : σ} (before : P s) : P (run step s es) := by
  induction es generalizing s with
  | nil => exact before
  | cons e es ih =>
    exact ih (fun e' member => all e' (List.mem_cons_of_mem _ member))
      (kept s e (all e List.mem_cons_self) before)

theorem along_congr {fact allowed' : σ → ε → Prop} {s : σ} {es : List ε}
    (facts : Along step fact s es) (agree : ∀ s e, fact s e → (allowed s e ↔ allowed' s e)) :
    Along step allowed s es ↔ Along step allowed' s es := by
  induction es generalizing s with
  | nil => exact Iff.rfl
  | cons e es ih => exact and_congr (agree s e facts.1) (ih facts.2)

theorem along_congr_kept {allowed' : σ → ε → Prop} (Inv : σ → Prop)
    (agree : ∀ s e, Inv s → (allowed s e ↔ allowed' s e))
    (keeps : ∀ s e, allowed s e → Inv s → Inv (step s e)) {s : σ} (start : Inv s) (es : List ε) :
    Along step allowed s es ↔ Along step allowed' s es := by
  induction es generalizing s with
  | nil => exact Iff.rfl
  | cons e es ih =>
    constructor
    · rintro ⟨first, rest⟩
      exact ⟨(agree s e start).mp first, (ih (keeps s e first start)).mp rest⟩
    · rintro ⟨first, rest⟩
      have ok : allowed s e := (agree s e start).mpr first
      exact ⟨ok, (ih (keeps s e ok start)).mpr rest⟩

section
variable {τ : Type} {step' : τ → ε → τ} {f : σ → τ}

theorem run_map (commutes : ∀ s e, f (step s e) = step' (f s) e) (s : σ) (es : List ε) :
    f (run step s es) = run step' (f s) es := by
  induction es generalizing s with
  | nil => rfl
  | cons e es ih =>
    have first := ih (step s e)
    rw [commutes] at first
    exact first

theorem along_map {allowed : τ → ε → Prop} (commutes : ∀ s e, f (step s e) = step' (f s) e)
    (s : σ) (es : List ε) :
    Along step (fun s e => allowed (f s) e) s es ↔ Along step' allowed (f s) es := by
  induction es generalizing s with
  | nil => exact Iff.rfl
  | cons e es ih =>
    have first := ih (step s e)
    rw [commutes] at first
    exact and_congr_right fun _ => first

end

/-- A property that exactly the allowed steps keep holds in all states of exactly
    the runs whose steps are all allowed. -/
theorem throughout_iff_along {Good : σ → Prop} (Inv : σ → Prop) {s : σ} {es : List ε}
    (start : Good s)
    (inv : Inv s) (keeps : ∀ s, ∀ e ∈ es, Inv s → Inv (step s e))
    (exact : ∀ s, ∀ e ∈ es, Inv s → Good s → (Good (step s e) ↔ allowed s e)) :
    (∀ before after, es = before ++ after → Good (run step s before)) ↔
      Along step allowed s es := by
  induction es generalizing s with
  | nil =>
    constructor
    · intro _
      trivial
    · intro _ before after split
      have none : before = [] := (List.append_eq_nil_iff.mp split.symm).1
      rw [none]
      exact start
  | cons e es ih =>
    have first := List.mem_cons_self (a := e) (l := es)
    have later := fun next => ih (s := step s e) next (keeps s e first inv)
      (fun s f member => keeps s f (List.mem_cons_of_mem _ member))
      (fun s f member => exact s f (List.mem_cons_of_mem _ member))
    constructor
    · intro good
      have next : Good (step s e) := good [e] es rfl
      refine ⟨(exact s e first inv start).mp next, (later next).mp ?_⟩
      intro before after split
      exact good (e :: before) after (by rw [split]; rfl)
    · rintro ⟨ok, rest⟩ before after split
      have next : Good (step s e) := (exact s e first inv start).mpr ok
      cases before with
      | nil => exact start
      | cons f before =>
        obtain ⟨rfl, same⟩ := List.cons.inj split
        exact (later next).mpr rest before after same

/-- The same of an invariant that only the allowed steps keep, and only where some fact
    holds along the run. -/
theorem throughout_iff_kept {Good : σ → Prop} (Inv : σ → Prop) {fact : σ → ε → Prop} {s : σ}
    {es : List ε} (start : Inv s) (good : ∀ s, Inv s → Good s)
    (keeps : ∀ s e, fact s e → allowed s e → Inv s → Inv (step s e))
    (needed : ∀ s e, fact s e → Inv s → Good (step s e) → allowed s e)
    (facts : Along step fact s es) :
    (∀ before after, es = before ++ after → Good (run step s before)) ↔
      Along step allowed s es := by
  induction es generalizing s with
  | nil =>
    constructor
    · intro _
      trivial
    · intro _ before after split
      have none : before = [] := (List.append_eq_nil_iff.mp split.symm).1
      rw [none]
      exact good s start
  | cons e es ih =>
    constructor
    · intro throughout
      have ok := needed s e facts.1 start (throughout [e] es rfl)
      refine ⟨ok, (ih (keeps s e facts.1 ok start) facts.2).mp ?_⟩
      intro before after split
      exact throughout (e :: before) after (by rw [split]; rfl)
    · rintro ⟨ok, rest⟩ before after split
      cases before with
      | nil => exact good s start
      | cons f before =>
        obtain ⟨rfl, same⟩ := List.cons.inj split
        exact (ih (keeps s e facts.1 ok start) facts.2).mpr rest before after same

section
variable {φ γ : Type} {moves : σ → List φ → σ → Prop} {s t : σ} {fs : List φ}

inductive Emits (moves : σ → List φ → σ → Prop) : σ → List φ → σ → Prop
  | done (s : σ) : Emits moves s [] s
  | next {s t u : σ} {fs gs : List φ} : moves s fs t → Emits moves t gs u →
      Emits moves s (fs ++ gs) u

/-- What every move keeps is kept, also when it speaks about a record of what was
    emitted so far. -/
theorem Emits.invariant (Inv : γ → σ → Prop) (note : γ → φ → γ)
    (keeps : ∀ g s fs t, moves s fs t → Inv g s → Inv (fs.foldl note g) t)
    (emits : Emits moves s fs t) (g : γ) (start : Inv g s) : Inv (fs.foldl note g) t := by
  induction emits generalizing g with
  | done s => exact start
  | next first rest ih =>
    rw [List.foldl_append]
    exact ih _ (keeps g _ _ _ first start)

theorem Emits.keeps (Inv : σ → Prop) (keeps : ∀ s fs t, moves s fs t → Inv s → Inv t)
    (emits : Emits moves s fs t) (start : Inv s) : Inv t :=
  emits.invariant (fun _ : Unit => Inv) (fun _ _ => ()) (fun _ => keeps) () start

theorem Emits.all (Inv : σ → Prop) (P : φ → Prop)
    (keeps : ∀ s fs t, moves s fs t → Inv s → Inv t)
    (each : ∀ s fs t, moves s fs t → Inv s → ∀ f ∈ fs, P f)
    (emits : Emits moves s fs t) (start : Inv s) : ∀ f ∈ fs, P f := by
  induction emits with
  | done s => simp
  | next first rest ih =>
    intro f member
    cases List.mem_append.mp member with
    | inl early => exact each _ _ _ first start f early
    | inr late => exact ih (keeps _ _ _ first start) f late

end

end Run

namespace Unwinding
open Run

variable {σ ε ω : Type}

/-- The events of a run that are not hidden. -/
def visible (step : σ → ε → σ) (hidden : σ → ε → Bool) : σ → List ε → List ε
  | _, [] => []
  | s, e :: es =>
    if hidden s e then visible step hidden (step s e) es
    else e :: visible step hidden (step s e) es

def secrets (step : σ → ε → σ) (hidden : σ → ε → Bool) : σ → List ε → List Bool
  | _, [] => []
  | s, e :: es => hidden s e :: secrets step hidden (step s e) es

/-- What is shown in a run. -/
def display (step : σ → ε → σ) (shown : σ → ε → List ω) : σ → List ε → List ω
  | _, [] => []
  | s, e :: es => shown s e ++ display step shown (step s e) es

structure Unwinds (step : σ → ε → σ) (hidden : σ → ε → Bool) (shown : σ → ε → List ω)
    (allowed : σ → ε → Prop) (R : σ → σ → Prop) : Prop where
  hides : ∀ s t e, R s t → allowed s e → hidden s e = true → shown s e = [] ∧ R (step s e) t
  shows : ∀ s t e, R s t → allowed s e → hidden s e = false →
    shown s e = shown t e ∧ R (step s e) (step t e)

variable {step : σ → ε → σ} {hidden : σ → ε → Bool} {shown : σ → ε → List ω}
  {allowed : σ → ε → Prop} {R : σ → σ → Prop}

theorem visible_eq_filter (s : σ) (es : List ε) : visible step hidden s es =
    ((es.zip (secrets step hidden s es)).filter fun e => !e.2).map Prod.fst := by
  induction es generalizing s with
  | nil => rfl
  | cons e es ih =>
    rw [visible, secrets, List.zip_cons_cons, List.filter_cons, ih]
    cases hidden s e <;> rfl

/-- A run shows what its visible events show alone. -/
theorem Unwinds.display_visible (unwinds : Unwinds step hidden shown allowed R) {s t : σ}
    (related : R s t) {es : List ε} (along : Along step allowed s es) :
    display step shown s es = display step shown t (visible step hidden s es) := by
  induction es generalizing s t with
  | nil => rfl
  | cons e es ih =>
    obtain ⟨ok, rest⟩ := along
    cases secret : hidden s e with
    | true =>
      obtain ⟨nothing, still⟩ := unwinds.hides s t e related ok secret
      rw [display, visible, secret, if_pos rfl, nothing, List.nil_append]
      exact ih still rest
    | false =>
      obtain ⟨same, next⟩ := unwinds.shows s t e related ok secret
      rw [display, visible, secret, if_neg Bool.false_ne_true, display, same, ih next rest]

/-- Two runs that differ in hidden events only show the same. -/
theorem Unwinds.noninterference (unwinds : Unwinds step hidden shown allowed R) {s : σ}
    (start : R s s) {es fs : List ε} (same : visible step hidden s es = visible step hidden s fs)
    (first : Along step allowed s es) (second : Along step allowed s fs) :
    display step shown s es = display step shown s fs := by
  calc display step shown s es
      = display step shown s (visible step hidden s es) := unwinds.display_visible start first
    _ = display step shown s (visible step hidden s fs) := by rw [same]
    _ = display step shown s fs := (unwinds.display_visible start second).symm

end Unwinding
