import Mathlib.Data.Nat.Digits.Defs

/-!
Digits of one width regrouped into digits of another one, both with the highest digit first. What
is read and not handed out yet is a number that has fewer bits than a digit to hand out, so the
digits that are handed out are determined by those that are read.
-/
namespace Regrouping

def value (width : Nat) (ds : List Nat) : Nat := Nat.ofDigits (2 ^ width) ds.reverse

theorem value_append (width : Nat) (xs ys : List Nat) :
    value width (xs ++ ys) = value width xs * 2 ^ (width * ys.length) + value width ys := by
  unfold value
  rw [List.reverse_append, Nat.ofDigits_append, List.length_reverse, ← Nat.pow_mul]
  ring

theorem value_nil (width : Nat) : value width [] = 0 := rfl

theorem value_singleton (width d : Nat) : value width [d] = d := Nat.ofDigits_singleton

theorem value_cons (width d : Nat) (ds : List Nat) :
    value width (d :: ds) = d * 2 ^ (width * ds.length) + value width ds := by
  rw [← List.singleton_append, value_append, value_singleton]

structure Holds (narrow wide : Nat) (ds out : List Nat) (bits pending : Nat) : Prop where
  value : value narrow ds = value wide out * 2 ^ bits + pending
  room : pending < 2 ^ bits
  length : narrow * ds.length = wide * out.length + bits
  within : ∀ d ∈ out, d < 2 ^ wide

namespace Holds
variable {narrow wide bits bits' pending pending' d : Nat} {ds ds' out out' : List Nat}

theorem start : Holds narrow wide [] [] 0 0 := ⟨rfl, Nat.one_pos, rfl, nofun⟩

theorem read (holds : Holds narrow wide ds out bits pending) (fits : d < 2 ^ narrow) :
    Holds narrow wide (ds ++ [d]) out (bits + narrow) (pending * 2 ^ narrow + d) := by
  refine ⟨?_, ?_, ?_, holds.within⟩
  · rw [value_append, value_singleton, holds.value, List.length_singleton, Nat.pow_add]
    ring
  · have more : (pending + 1) * 2 ^ narrow ≤ 2 ^ bits * 2 ^ narrow :=
      Nat.mul_le_mul_right _ holds.room
    rw [Nat.pow_add]
    linarith
  · rw [List.length_append, List.length_singleton, Nat.mul_add, holds.length]
    ring

theorem handOut (holds : Holds narrow wide ds out (bits + wide) pending) :
    Holds narrow wide ds (out ++ [pending / 2 ^ bits]) bits (pending % 2 ^ bits) := by
  refine ⟨?_, Nat.mod_lt _ (Nat.two_pow_pos bits), ?_, ?_⟩
  · have split := Nat.div_add_mod pending (2 ^ bits)
    rw [value_append, value_singleton, holds.value, List.length_singleton, Nat.pow_add,
      Nat.mul_one]
    linarith
  · rw [List.length_append, List.length_singleton, Nat.mul_add, holds.length]
    ring
  · intro d member
    cases List.mem_append.mp member with
    | inl old => exact holds.within d old
    | inr new =>
      rw [List.mem_singleton.mp new, Nat.div_lt_iff_lt_mul (Nat.two_pow_pos bits), ← Nat.pow_add,
        Nat.add_comm]
      exact holds.room

theorem append (front : Holds narrow wide ds out 0 0)
    (rest : Holds narrow wide ds' out' bits pending) :
    Holds narrow wide (ds ++ ds') (out ++ out') bits pending := by
  refine ⟨?_, rest.room, ?_, ?_⟩
  · rw [value_append, value_append, front.value, rest.value, rest.length, Nat.pow_add]
    ring
  · rw [List.length_append, List.length_append, Nat.mul_add, Nat.mul_add, front.length,
      rest.length]
    ring
  · exact fun d member => (List.mem_append.mp member).elim (front.within d) (rest.within d)

/-- There is one way to hand out all that can be. -/
theorem unique (one : Holds narrow wide ds out bits pending)
    (other : Holds narrow wide ds out' bits' pending') (few : bits < wide) (few' : bits' < wide) :
    out = out' := by
  have lengths : wide * out.length + bits = wide * out'.length + bits' :=
    one.length.symm.trans other.length
  have same : out.length = out'.length := by
    have count := congrArg (· / wide) lengths
    simpa only [Nat.mul_add_div (Nat.zero_lt_of_lt few), Nat.div_eq_of_lt few,
      Nat.div_eq_of_lt few', Nat.add_zero] using count
  have same_bits : bits = bits' := by
    rw [same] at lengths
    exact Nat.add_left_cancel lengths
  subst same_bits
  have values : Regrouping.value wide out = Regrouping.value wide out' := by
    have quotient := congrArg (· / 2 ^ bits) (one.value.symm.trans other.value)
    simpa only [Nat.mul_comm _ (2 ^ bits), Nat.mul_add_div (Nat.two_pow_pos bits),
      Nat.div_eq_of_lt one.room, Nat.div_eq_of_lt other.room, Nat.add_zero] using quotient
  refine List.reverse_inj.mp (Nat.ofDigits_inj_of_len_eq
    (Nat.one_lt_two_pow (Nat.ne_of_gt (Nat.zero_lt_of_lt few))) ?_ ?_ ?_ values)
  · rw [List.length_reverse, List.length_reverse, same]
  · exact fun d member => one.within d (List.mem_reverse.mp member)
  · exact fun d member => other.within d (List.mem_reverse.mp member)

end Holds
end Regrouping
