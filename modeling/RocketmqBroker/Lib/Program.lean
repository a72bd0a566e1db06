import RocketmqBroker.Lib.Run

/-!
Programs over atomic steps. A program looks at the state and says which steps to
take and what to return; binding two programs runs the second one in the state
that the steps of the first one lead to. So whatever is kept by every step is
kept by every program, and no program has to be looked at for it.
-/
namespace Run
variable {σ ε : Type}

def Program (_step : σ → ε → σ) (α : Type) := σ → α × List ε

namespace Program
variable {step : σ → ε → σ} {α β : Type}

def bind (p : Program step α) (f : α → Program step β) : Program step β := fun s =>
  let first := p s
  let second := f first.1 (run step s first.2)
  (second.1, first.2 ++ second.2)

instance : Monad (Program step) where
  pure a _ := (a, [])
  bind := bind

def perform (e : ε) : Program step Unit := fun _ => ((), [e])

def read (f : σ → α) : Program step α := fun s => (f s, [])

def result (p : Program step α) (s : σ) : α := (p s).1

def steps (p : Program step α) (s : σ) : List ε := (p s).2

def final (p : Program step α) (s : σ) : σ := run step s (p.steps s)

theorem final_bind (p : Program step α) (f : α → Program step β) (s : σ) :
    (p >>= f).final s = (f (p.result s)).final (p.final s) := by
  change run step s (p.steps s ++ (f (p.result s)).steps (p.final s)) = _
  rw [run_append]
  rfl

theorem result_bind (p : Program step α) (f : α → Program step β) (s : σ) :
    (p >>= f).result s = (f (p.result s)).result (p.final s) := rfl

theorem steps_bind (p : Program step α) (f : α → Program step β) (s : σ) :
    (p >>= f).steps s = p.steps s ++ (f (p.result s)).steps (p.final s) := rfl

@[simp] theorem final_pure (a : α) (s : σ) : (pure a : Program step α).final s = s := rfl

@[simp] theorem result_pure (a : α) (s : σ) : (pure a : Program step α).result s = a := rfl

@[simp] theorem final_read (f : σ → α) (s : σ) : (read f : Program step α).final s = s := rfl

@[simp] theorem result_read (f : σ → α) (s : σ) : (read f : Program step α).result s = f s := rfl

@[simp] theorem final_perform (e : ε) (s : σ) :
    (perform e : Program step Unit).final s = step s e := rfl

theorem bind_congr_at {p : Program step α} {f g : α → Program step β} {s : σ}
    (same : f (p.result s) (p.final s) = g (p.result s) (p.final s)) :
    (p >>= f) s = (p >>= g) s := by
  change ((f (p.result s) (p.final s)).1, p.steps s ++ (f (p.result s) (p.final s)).2) = _
  rw [same]
  rfl

theorem bind_still {p : Program step α} {f : α → Program step β} {s : σ} {a : α}
    (still : p s = (a, [])) : (p >>= f) s = f a s := by
  change ((f (p s).1 (run step s (p s).2)).1, (p s).2 ++ (f (p s).1 (run step s (p s).2)).2) = _
  rw [still]
  rfl

theorem ext {p q : Program step α} (results : ∀ s, p.result s = q.result s)
    (steps : ∀ s, p.steps s = q.steps s) : p = q :=
  funext fun s => Prod.ext (results s) (steps s)

theorem program_id_map (p : Program step α) : id <$> p = p :=
  ext (fun _ => rfl) fun _ => List.append_nil _

theorem program_bind_assoc {γ : Type} (p : Program step α) (f : α → Program step β)
    (g : β → Program step γ) : p >>= f >>= g = p >>= fun a => f a >>= g := by
  refine ext (fun s => ?_) fun s => ?_
  · rw [result_bind, result_bind, result_bind, result_bind, final_bind]
  · rw [steps_bind, steps_bind, steps_bind, steps_bind, final_bind, result_bind,
      List.append_assoc]

instance : LawfulMonad (Program step) :=
  LawfulMonad.mk' (Program step) program_id_map (fun _ _ => rfl) program_bind_assoc

section
variable {τ : Type} {view : σ → τ}

def Leaves (view : σ → τ) (p : Program step α) : Prop := ∀ s, view (p.final s) = view s

theorem leaves_pure (a : α) : Leaves view (pure a : Program step α) := fun _ => rfl

theorem leaves_read (f : σ → α) : Leaves view (read f : Program step α) := fun _ => rfl

theorem leaves_perform {e : ε} (still : ∀ s, view (step s e) = view s) :
    Leaves view (perform e : Program step Unit) := still

theorem Leaves.bind {p : Program step α} {f : α → Program step β} (first : Leaves view p)
    (second : ∀ a, Leaves view (f a)) : Leaves view (p >>= f) := by
  intro s
  rw [final_bind, second, first]

theorem Leaves.forM {f : α → Program step PUnit} (xs : List α) (each : ∀ x, Leaves view (f x)) :
    Leaves view (xs.forM f) := by
  induction xs with
  | nil => exact leaves_pure _
  | cons x xs ih => exact (each x).bind fun _ => ih

theorem Leaves.mapM {f : α → Program step β} (xs : List α) (each : ∀ x, Leaves view (f x)) :
    Leaves view (xs.mapM f) := by
  rw [← List.mapM'_eq_mapM]
  induction xs with
  | nil => exact leaves_pure _
  | cons x xs ih => exact (each x).bind fun _ => ih.bind fun _ => leaves_pure _

/-- A part of what is left is left. -/
theorem Leaves.part {ρ : Type} {p : Program step α} (all : Leaves view p) (part : τ → ρ) :
    Leaves (fun s => part (view s)) p := fun s => congrArg part (all s)

def Blind (change : σ → σ) (p : Program step α) : Prop :=
  ∀ s, p.result (change s) = p.result s ∧ p.final (change s) = change (p.final s)

variable {change : σ → σ}

theorem blind_pure (a : α) : Blind change (pure a : Program step α) := fun _ => ⟨rfl, rfl⟩

theorem blind_read {f : σ → α} (same : ∀ s, f (change s) = f s) :
    Blind change (read f : Program step α) := fun s => ⟨same s, rfl⟩

theorem blind_perform {e : ε} (commutes : ∀ s, step (change s) e = change (step s e)) :
    Blind change (perform e : Program step Unit) := fun s => ⟨rfl, commutes s⟩

theorem Blind.bind {p : Program step α} {f : α → Program step β} (first : Blind change p)
    (second : ∀ a, Blind change (f a)) : Blind change (p >>= f) := by
  intro s
  rw [result_bind, result_bind, final_bind, final_bind, (first s).1, (first s).2]
  exact second _ _

end

section
variable {R : σ → σ → Prop}

def Couples (R : σ → σ → Prop) (p : Program step α) : Prop :=
  ∀ s t, R s t → p.result s = p.result t ∧ R (p.final s) (p.final t)

theorem couples_pure (a : α) : Couples R (pure a : Program step α) :=
  fun _ _ related => ⟨rfl, related⟩

theorem couples_read {f : σ → α} (same : ∀ s t, R s t → f s = f t) :
    Couples R (read f : Program step α) := fun s t related => ⟨same s t related, related⟩

theorem couples_perform {e : ε} (kept : ∀ s t, R s t → R (step s e) (step t e)) :
    Couples R (perform e : Program step Unit) := fun s t related => ⟨rfl, kept s t related⟩

theorem Couples.bind_of {p : Program step α} {f : α → Program step β} {Q : α → Prop}
    (first : Couples R p) (gives : ∀ s, Q (p.result s)) (second : ∀ a, Q a → Couples R (f a)) :
    Couples R (p >>= f) := by
  intro s t related
  obtain ⟨same, behind⟩ := first s t related
  rw [result_bind, result_bind, final_bind, final_bind, ← same]
  exact second _ (gives s) _ _ behind

theorem Couples.bind {p : Program step α} {f : α → Program step β} (first : Couples R p)
    (second : ∀ a, Couples R (f a)) : Couples R (p >>= f) :=
  first.bind_of (Q := fun _ => True) (fun _ => trivial) fun a _ => second a

theorem Couples.forM {f : α → Program step PUnit} (xs : List α) (each : ∀ x, Couples R (f x)) :
    Couples R (xs.forM f) := by
  induction xs with
  | nil => exact couples_pure _
  | cons x xs ih => exact (each x).bind fun _ => ih

theorem Couples.mapM {f : α → Program step β} (xs : List α) (each : ∀ x, Couples R (f x)) :
    Couples R (xs.mapM f) := by
  rw [← List.mapM'_eq_mapM]
  induction xs with
  | nil => exact couples_pure _
  | cons x xs ih => exact (each x).bind fun _ => ih.bind fun _ => couples_pure _

end

section
variable {allowed : σ → ε → Prop} {P : σ → Prop}

/-- From a state with `P`, as long as every step is allowed where it is taken, the
    program ends with `Q` of its result and of the state it leads to. -/
def Triple (allowed : σ → ε → Prop) (P : σ → Prop) (p : Program step α)
    (Q : α → σ → Prop) : Prop :=
  ∀ s, P s → Along step allowed s (p.steps s) → Q (p.result s) (p.final s)

theorem triple_pure {Q : α → σ → Prop} {a : α} (weaken : ∀ s, P s → Q a s) :
    Triple allowed P (pure a : Program step α) Q := fun s before _ => weaken s before

theorem triple_read {Q : α → σ → Prop} {f : σ → α} (weaken : ∀ s, P s → Q (f s) s) :
    Triple allowed P (read f : Program step α) Q := fun s before _ => weaken s before

theorem triple_perform {Q : Unit → σ → Prop} {e : ε}
    (moves : ∀ s, P s → allowed s e → Q () (step s e)) :
    Triple allowed P (perform e : Program step Unit) Q :=
  fun s before along => moves s before along.1

theorem Triple.bind {R : α → σ → Prop} {Q : β → σ → Prop} {p : Program step α}
    {f : α → Program step β} (first : Triple allowed P p R)
    (second : ∀ a, Triple allowed (R a) (f a) Q) : Triple allowed P (p >>= f) Q := by
  intro s before along
  rw [steps_bind, along_append] at along
  rw [result_bind, final_bind]
  exact second _ _ (first s before along.1) along.2

theorem Triple.weaken {P' : σ → Prop} {Q Q' : α → σ → Prop} {p : Program step α}
    (h : Triple allowed P p Q) (before : ∀ s, P' s → P s) (after : ∀ a s, Q a s → Q' a s) :
    Triple allowed P' p Q' := fun s now along => after _ _ (h s (before s now) along)

theorem Leaves.triple {τ : Type} {view : σ → τ} {p : Program step α} (leaves : Leaves view p)
    {I : τ → Prop} : Triple allowed (fun s => I (view s)) p fun _ s => I (view s) := by
  intro s before _
  show I (view (p.final s))
  rw [leaves s]
  exact before

/-- All steps of the program are of one kind, wherever it starts. -/
def Takes (kind : ε → Prop) (p : Program step α) : Prop := ∀ s, ∀ e ∈ p.steps s, kind e

variable {kind : ε → Prop}

theorem takes_pure (a : α) : Takes kind (pure a : Program step α) := fun _ _ member => by
  cases member

theorem takes_read (f : σ → α) : Takes kind (read f : Program step α) := fun _ _ member => by
  cases member

theorem takes_perform {e : ε} (here : kind e) : Takes kind (perform e : Program step Unit) := by
  intro s e' member
  obtain rfl := List.mem_singleton.mp member
  exact here

theorem Takes.bind {p : Program step α} {f : α → Program step β} (first : Takes kind p)
    (second : ∀ a, Takes kind (f a)) : Takes kind (p >>= f) := by
  intro s e member
  rw [steps_bind] at member
  cases List.mem_append.mp member with
  | inl early => exact first s e early
  | inr late => exact second _ _ e late

theorem Takes.bind_result {R : α → Prop} {p : Program step α} {f : α → Program step β}
    (first : Takes kind p) (results : ∀ s, R (p.result s))
    (second : ∀ a, R a → Takes kind (f a)) : Takes kind (p >>= f) := by
  intro s e member
  rw [steps_bind] at member
  cases List.mem_append.mp member with
  | inl early => exact first s e early
  | inr late => exact second _ (results s) _ e late

theorem Takes.forM_mem {f : α → Program step PUnit} (xs : List α)
    (each : ∀ x ∈ xs, Takes kind (f x)) : Takes kind (xs.forM f) := by
  induction xs with
  | nil => exact takes_pure _
  | cons x xs ih =>
    refine (each x List.mem_cons_self).bind fun _ => ?_
    exact ih fun y member => each y (List.mem_cons_of_mem _ member)

theorem Takes.forM {f : α → Program step PUnit} (xs : List α) (each : ∀ x, Takes kind (f x)) :
    Takes kind (xs.forM f) := Takes.forM_mem xs fun x _ => each x

theorem Takes.mapM {f : α → Program step β} (xs : List α) (each : ∀ x, Takes kind (f x)) :
    Takes kind (xs.mapM f) := by
  rw [← List.mapM'_eq_mapM]
  induction xs with
  | nil => exact takes_pure _
  | cons x xs ih => exact (each x).bind fun _ => ih.bind fun _ => takes_pure _

theorem Takes.keeps {p : Program step α} (takes : Takes kind p)
    (kept : ∀ s e, kind e → P s → P (step s e)) {s : σ} (before : P s) : P (p.final s) :=
  Run.keeps kept (takes s) before

theorem Takes.triple {p : Program step α} (takes : Takes kind p)
    (keeps : ∀ s e, kind e → P s → P (step s e)) : Triple allowed P p fun _ => P :=
  fun _ before _ => takes.keeps keeps before

def Meets (allowed : σ → ε → Prop) (p : Program step α) : Prop :=
  ∀ s, Along step allowed s (p.steps s)

theorem meets_pure (a : α) : Meets allowed (pure a : Program step α) := fun _ => trivial

theorem Meets.bind {p : Program step α} {f : α → Program step β} (first : Meets allowed p)
    (second : ∀ a, Meets allowed (f a)) : Meets allowed (p >>= f) := by
  intro s
  rw [steps_bind, along_append]
  exact ⟨first s, second _ _⟩

theorem Meets.forM {f : α → Program step PUnit} (xs : List α) (each : ∀ x, Meets allowed (f x)) :
    Meets allowed (xs.forM f) := by
  induction xs with
  | nil => exact meets_pure _
  | cons x xs ih => exact (each x).bind fun _ => ih

theorem Takes.mono {kind' : ε → Prop} {p : Program step α} (takes : Takes kind p)
    (weaker : ∀ e, kind e → kind' e) : Takes kind' p :=
  fun s e member => weaker e (takes s e member)

theorem Takes.meets {p : Program step α} (takes : Takes kind p)
    (free : ∀ s e, kind e → allowed s e) : Meets allowed p :=
  fun s => along_of_kind free (takes s) s

def Somewhere (here : σ → ε → Prop) (p : Program step α) (s : σ) : Prop :=
  Run.Somewhere step here s (p.steps s)

variable {here : σ → ε → Prop} {s : σ}

theorem somewhere_bind (p : Program step α) (f : α → Program step β) :
    Somewhere here (p >>= f) s ↔
      Somewhere here p s ∨ Somewhere here (f (p.result s)) (p.final s) := by
  unfold Somewhere
  rw [steps_bind, somewhere_append]
  rfl

theorem not_somewhere_pure (a : α) : ¬ Somewhere here (pure a : Program step α) s := id

theorem somewhere_perform {e : ε} :
    Somewhere here (perform e : Program step Unit) s ↔ here s e := iff_of_eq (or_false _)

theorem Takes.nowhere {p : Program step α} (takes : Takes kind p)
    (never : ∀ s e, kind e → ¬ here s e) : ¬ Somewhere here p s := by
  have general : ∀ es s, (∀ e ∈ es, kind e) → ¬ Run.Somewhere step here s es := by
    intro es
    induction es with
    | nil => exact fun _ _ => id
    | cons e es ih =>
      intro s all
      rintro (first | later)
      · exact never s e (all e List.mem_cons_self) first
      · exact ih _ (fun e' member => all e' (List.mem_cons_of_mem _ member)) later
  exact general _ s (takes s)

end

end Program
end Run
