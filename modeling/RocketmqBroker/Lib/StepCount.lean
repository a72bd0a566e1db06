import RocketmqBroker.Lib.Program

/-!
How many steps of a run are of a kind, each judged in the state before it, and what the steps
of a run write.
-/
namespace Run
variable {σ ε γ : Type}

def count (step : σ → ε → σ) (kind : σ → ε → Bool) : σ → List ε → Nat
  | _, [] => 0
  | s, e :: es => (kind s e).toNat + count step kind (step s e) es

/-- What the steps write, one after the other. -/
def written (step : σ → ε → σ) (writes : σ → ε → List γ) : σ → List ε → List γ
  | _, [] => []
  | s, e :: es => writes s e ++ written step writes (step s e) es

variable {step : σ → ε → σ} {kind : σ → ε → Bool} {writes : σ → ε → List γ}

theorem written_append (s : σ) (es fs : List ε) : written step writes s (es ++ fs) =
    written step writes s es ++ written step writes (run step s es) fs := by
  induction es generalizing s with
  | nil => rfl
  | cons e es ih =>
    rw [List.cons_append]
    simp only [written, ih, run, List.foldl_cons, List.append_assoc]

theorem count_append (s : σ) (es fs : List ε) :
    count step kind s (es ++ fs) = count step kind s es + count step kind (run step s es) fs := by
  induction es generalizing s with
  | nil => exact (Nat.zero_add _).symm
  | cons e es ih =>
    rw [List.cons_append]
    simp only [count, ih, run, List.foldl_cons, Nat.add_assoc]

theorem count_eq_zero {other : ε → Prop} (never : ∀ s e, other e → kind s e = false) {es : List ε}
    (all : ∀ e ∈ es, other e) (s : σ) : count step kind s es = 0 := by
  induction es generalizing s with
  | nil => rfl
  | cons e es ih =>
    have rest := ih (fun e' member => all e' (List.mem_cons_of_mem _ member)) (step s e)
    rw [count, rest, never s e (all e List.mem_cons_self)]
    rfl

namespace Program
variable {α β : Type}

/-- The steps of the kind that the program takes from this state. -/
def count (kind : σ → ε → Bool) (p : Program step α) (s : σ) : Nat :=
  Run.count step kind s (p.steps s)

theorem count_pure (a : α) (s : σ) : (pure a : Program step α).count kind s = 0 := rfl

theorem count_perform (e : ε) (s : σ) :
    (perform e : Program step Unit).count kind s = (kind s e).toNat := Nat.add_zero _

theorem count_bind (p : Program step α) (f : α → Program step β) (s : σ) :
    (p >>= f).count kind s = p.count kind s + (f (p.result s)).count kind (p.final s) :=
  Run.count_append s _ _

theorem Takes.count_eq_zero {other : ε → Prop} {p : Program step α} (takes : Takes other p)
    (never : ∀ s e, other e → kind s e = false) (s : σ) : p.count kind s = 0 :=
  Run.count_eq_zero never (takes s) s

def written (writes : σ → ε → List γ) (p : Program step α) (s : σ) : List γ :=
  Run.written step writes s (p.steps s)

theorem written_bind (p : Program step α) (f : α → Program step β) (s : σ) :
    (p >>= f).written writes s =
      p.written writes s ++ (f (p.result s)).written writes (p.final s) :=
  Run.written_append s _ _

theorem written_perform (e : ε) (s : σ) :
    (perform e : Program step Unit).written writes s = writes s e := List.append_nil _

theorem Takes.written_eq_nil {other : ε → Prop} {p : Program step α} (takes : Takes other p)
    (never : ∀ s e, other e → writes s e = []) (s : σ) : p.written writes s = [] := by
  have general (es : List ε) (s : σ) (all : ∀ e ∈ es, other e) :
      Run.written step writes s es = [] := by
    induction es generalizing s with
    | nil => rfl
    | cons e es ih =>
      rw [Run.written, never s e (all e List.mem_cons_self), List.nil_append]
      exact ih _ fun e' member => all e' (List.mem_cons_of_mem _ member)
  exact general _ s (takes s)

end Program
end Run
