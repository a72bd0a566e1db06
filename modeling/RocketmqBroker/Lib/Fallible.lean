import Mathlib.Data.List.Basic

/-!
Steps that may fail, one after the other: what a bind does on success and on
failure, and what a successful bind went through.
-/
namespace Fallible
variable {ε α β : Type}

@[simp] theorem ok_bind (a : α) (f : α → Except ε β) : (Except.ok a >>= f) = f a := rfl

@[simp] theorem error_bind (err : ε) (f : α → Except ε β) :
    (Except.error err >>= f) = .error err := rfl

theorem bind_eq_ok {x : Except ε α} {f : α → Except ε β} {b : β} :
    (x >>= f) = .ok b ↔ ∃ a, x = .ok a ∧ f a = .ok b := by
  cases x with
  | error err => simp
  | ok a => simp

theorem refuse_eq_ok {γ : Type} {found : List γ} [Decidable (found ≠ [])] {err : ε}
    {next : Except ε α} {a : α} :
    (if found ≠ [] then .error err else next) = .ok a ↔ found = [] ∧ next = .ok a := by
  split
  · rename_i some_found
    exact iff_of_false (fun ok => by cases ok) fun both => some_found both.1
  · rename_i none_found
    exact (and_iff_right (not_not.mp none_found)).symm

end Fallible
