import Mathlib.Data.List.Basic

/-!
Regular expressions with assertions, which look at what stands on both sides of a place in a text
and take nothing of it. An expression matches a part of a text between what is before and what is
after it, so the search for a match and the match of the whole text ask the same relation.
-/

inductive Regex (α : Type) where
  | empty
  | one (allowed : α → Bool)
  | look (holds : List α → List α → Bool)
  | seq (x y : Regex α)
  | alt (x y : Regex α)
  | star (x : Regex α)

namespace Regex
variable {α : Type}

/-- The expression matches what is taken between the other two. -/
inductive Matches : Regex α → List α → List α → List α → Prop
  | empty {before after : List α} : Matches empty before [] after
  | one {allowed : α → Bool} {c : α} {before after : List α} (ok : allowed c = true) :
    Matches (one allowed) before [c] after
  | look {holds : List α → List α → Bool} {before after : List α}
    (ok : holds before after = true) : Matches (look holds) before [] after
  | seq {x y : Regex α} {before first second after : List α}
    (here : Matches x before first (second ++ after))
    (there : Matches y (before ++ first) second after) :
    Matches (seq x y) before (first ++ second) after
  | left {x y : Regex α} {before taken after : List α} (here : Matches x before taken after) :
    Matches (alt x y) before taken after
  | right {x y : Regex α} {before taken after : List α} (here : Matches y before taken after) :
    Matches (alt x y) before taken after
  | done {x : Regex α} {before after : List α} : Matches (star x) before [] after
  | more {x : Regex α} {before first second after : List α}
    (here : Matches x before first (second ++ after))
    (there : Matches (star x) (before ++ first) second after) :
    Matches (star x) before (first ++ second) after

def Search (x : Regex α) (text : List α) : Prop :=
  ∃ before taken after, text = before ++ taken ++ after ∧ x.Matches before taken after

def Whole (x : Regex α) (text : List α) : Prop := x.Matches [] text []

/-- The turns of a repetition that take something; those that take nothing change nothing. -/
def turns (step : List α → List α → List (List α × List α)) :
    Nat → List α → List α → List (List α × List α)
  | 0, before, after => [(before, after)]
  | fuel + 1, before, after => (before, after) ::
    ((step before after).filter fun next => next.2.length < after.length).flatMap fun next =>
      turns step fuel next.1 next.2

def ends : Regex α → List α → List α → List (List α × List α)
  | empty, before, after => [(before, after)]
  | one _, _, [] => []
  | one allowed, before, c :: after => if allowed c then [(before ++ [c], after)] else []
  | look holds, before, after => if holds before after then [(before, after)] else []
  | seq x y, before, after => (x.ends before after).flatMap fun next => y.ends next.1 next.2
  | alt x y, before, after => x.ends before after ++ y.ends before after
  | star x, before, after => turns x.ends after.length before after

def concat (xs : List (Regex α)) : Regex α := xs.foldr seq empty

def textStart : Regex α := look fun before _ => before.isEmpty

def textEnd : Regex α := look fun _ after => after.isEmpty

section
variable {x y : Regex α} {before taken after : List α}

theorem matches_empty : (empty : Regex α).Matches before taken after ↔ taken = [] := by
  constructor
  · intro h
    cases h
    rfl
  · rintro rfl
    exact .empty

theorem matches_one {allowed : α → Bool} : (one allowed).Matches before taken after ↔
    ∃ c, taken = [c] ∧ allowed c = true := by
  constructor
  · intro h
    cases h with
    | one ok => exact ⟨_, rfl, ok⟩
  · rintro ⟨c, rfl, ok⟩
    exact .one ok

theorem matches_look {holds : List α → List α → Bool} :
    (look holds).Matches before taken after ↔ taken = [] ∧ holds before after = true := by
  constructor
  · intro h
    cases h with
    | look ok => exact ⟨rfl, ok⟩
  · rintro ⟨rfl, ok⟩
    exact .look ok

theorem matches_seq : (seq x y).Matches before taken after ↔ ∃ first second,
    taken = first ++ second ∧ x.Matches before first (second ++ after) ∧
      y.Matches (before ++ first) second after := by
  constructor
  · intro h
    cases h with
    | seq here there => exact ⟨_, _, rfl, here, there⟩
  · rintro ⟨first, second, rfl, here, there⟩
    exact .seq here there

theorem matches_alt : (alt x y).Matches before taken after ↔
    x.Matches before taken after ∨ y.Matches before taken after := by
  constructor
  · intro h
    cases h with
    | left here => exact Or.inl here
    | right here => exact Or.inr here
  · rintro (here | here)
    · exact .left here
    · exact .right here

theorem matches_star_one {allowed : α → Bool} : (star (one allowed)).Matches before taken after ↔
    ∀ c ∈ taken, allowed c = true := by
  constructor
  · generalize repeated : star (one allowed) = x
    intro h
    induction h with
    | done => exact fun _ member => absurd member List.not_mem_nil
    | more here there _ later =>
      obtain rfl := star.inj repeated
      obtain ⟨c, rfl, ok⟩ := matches_one.mp here
      exact List.forall_mem_append.mpr ⟨List.forall_mem_singleton.mpr ok, later rfl⟩
    | _ => cases repeated
  · intro all
    induction taken generalizing before with
    | nil => exact .done
    | cons c taken ih =>
      obtain ⟨ok, rest⟩ := List.forall_mem_cons.mp all
      exact @Matches.more α _ before [c] taken after (.one ok) (ih rest)

theorem matches_look_concat {holds : List α → List α → Bool} {xs : List (Regex α)} :
    (concat (look holds :: xs)).Matches before taken after ↔
      holds before (taken ++ after) = true ∧ (concat xs).Matches before taken after := by
  change (seq (look holds) (concat xs)).Matches before taken after ↔ _
  rw [matches_seq]
  constructor
  · rintro ⟨first, second, rfl, here, there⟩
    obtain ⟨rfl, ok⟩ := matches_look.mp here
    rw [List.append_nil] at there
    exact ⟨ok, there⟩
  · rintro ⟨ok, there⟩
    refine ⟨[], taken, rfl, matches_look.mpr ⟨rfl, ok⟩, ?_⟩
    rw [List.append_nil]
    exact there

theorem matches_concat_look {holds : List α → List α → Bool} {xs : List (Regex α)} :
    (concat (xs ++ [look holds])).Matches before taken after ↔
      (concat xs).Matches before taken after ∧ holds (before ++ taken) after = true := by
  induction xs generalizing before taken with
  | nil =>
    rw [List.nil_append, matches_look_concat, and_comm]
    refine and_congr_right fun nothing => ?_
    obtain rfl := matches_empty.mp nothing
    rw [List.nil_append, List.append_nil]
  | cons x xs ih =>
    change (seq x (concat (xs ++ [look holds]))).Matches before taken after ↔
      (seq x (concat xs)).Matches before taken after ∧ _
    simp only [matches_seq, ih]
    constructor
    · rintro ⟨first, second, rfl, here, there, ok⟩
      rw [List.append_assoc] at ok
      exact ⟨⟨first, second, rfl, here, there⟩, ok⟩
    · rintro ⟨⟨first, second, rfl, here, there⟩, ok⟩
      rw [← List.append_assoc] at ok
      exact ⟨first, second, rfl, here, there, ok⟩

def Finds (x : Regex α) (step : List α → List α → List (List α × List α)) : Prop :=
  ∀ before after next, next ∈ step before after ↔ ∃ taken, next.1 = before ++ taken ∧
    after = taken ++ next.2 ∧ x.Matches before taken next.2

theorem matches_of_turns {step : List α → List α → List (List α × List α)}
    (finds : x.Finds step) {fuel : Nat} {next : List α × List α}
    (found : next ∈ turns step fuel before after) : ∃ taken, next.1 = before ++ taken ∧
      after = taken ++ next.2 ∧ (star x).Matches before taken next.2 := by
  induction fuel generalizing before after with
  | zero =>
    obtain rfl := List.mem_singleton.mp found
    exact ⟨[], (List.append_nil _).symm, rfl, .done⟩
  | succ fuel ih =>
    cases List.mem_cons.mp found with
    | inl here =>
      subst here
      exact ⟨[], (List.append_nil _).symm, rfl, .done⟩
    | inr later =>
      obtain ⟨⟨before', after'⟩, turn, rest⟩ := List.mem_flatMap.mp later
      obtain ⟨first, rfl, rfl, here⟩ := (finds _ _ _).mp (List.mem_filter.mp turn).1
      obtain ⟨second, same, rfl, there⟩ := ih rest
      refine ⟨first ++ second, ?_, (List.append_assoc _ _ _).symm, .more here there⟩
      rw [same, List.append_assoc]

theorem turns_of_matches {step : List α → List α → List (List α × List α)}
    (finds : x.Finds step) {fuel : Nat} (repeats : (star x).Matches before taken after)
    (enough : (taken ++ after).length ≤ fuel) :
    (before ++ taken, after) ∈ turns step fuel before (taken ++ after) := by
  generalize repeated : star x = y at repeats
  induction repeats generalizing fuel with
  | @done _ before after =>
    rw [List.append_nil, List.nil_append]
    cases fuel with
    | zero => exact List.mem_singleton_self _
    | succ fuel => exact List.mem_cons_self
  | @more _ before first second after here there _ ih =>
    obtain rfl := star.inj repeated
    cases first with
    | nil =>
      rw [List.append_nil] at ih
      exact ih enough rfl
    | cons c first =>
      cases fuel with
      | zero => exact absurd enough (by simp)
      | succ fuel =>
        have shorter : (second ++ after).length < (c :: first ++ second ++ after).length := by
          simp only [List.length_append, List.length_cons]
          omega
        refine List.mem_cons_of_mem _ (List.mem_flatMap.mpr
          ⟨(before ++ c :: first, second ++ after), List.mem_filter.mpr ⟨?_, ?_⟩, ?_⟩)
        · exact (finds _ _ _).mpr ⟨c :: first, rfl, List.append_assoc _ _ _, here⟩
        · exact decide_eq_true shorter
        · have rest := @ih fuel (by omega) rfl
          rw [List.append_assoc] at rest
          exact rest
  | _ => cases repeated

theorem still_iff {next : List α × List α} {P : Prop} : (next = (before, after) ∧ P) ↔
    ∃ taken, next.1 = before ++ taken ∧ after = taken ++ next.2 ∧ taken = [] ∧ P := by
  constructor
  · rintro ⟨rfl, ok⟩
    exact ⟨[], (List.append_nil _).symm, rfl, rfl, ok⟩
  · rintro ⟨taken, same, rfl, rfl, ok⟩
    rw [List.append_nil] at same
    exact ⟨Prod.ext same rfl, ok⟩

theorem finds_empty : (empty : Regex α).Finds empty.ends := by
  intro before after next
  have here := @still_iff α before after next True
  simp only [and_true] at here
  simp only [ends, List.mem_singleton, matches_empty, here]

theorem finds_one (allowed : α → Bool) : (one allowed).Finds (one allowed).ends := by
  intro before after next
  cases after with
  | nil =>
    refine iff_of_false List.not_mem_nil ?_
    rintro ⟨taken, -, same, here⟩
    obtain ⟨c, rfl, -⟩ := matches_one.mp here
    cases same
  | cons c after =>
    rw [ends]
    constructor
    · intro found
      split at found
      · rename_i ok
        obtain rfl := List.mem_singleton.mp found
        exact ⟨[c], rfl, rfl, .one ok⟩
      · cases found
    · rintro ⟨taken, same, rest, here⟩
      obtain ⟨d, rfl, ok⟩ := matches_one.mp here
      obtain ⟨rfl, rfl⟩ := List.cons.inj rest
      rw [if_pos ok]
      exact List.mem_singleton.mpr (Prod.ext same rfl)

theorem finds_look (holds : List α → List α → Bool) : (look holds).Finds (look holds).ends := by
  intro before after next
  have found : next ∈ (look holds).ends before after ↔
      next = (before, after) ∧ holds before after = true := by
    rw [ends]
    split
    · rename_i ok
      rw [List.mem_singleton, and_iff_left ok]
    · rename_i fails
      exact iff_of_false List.not_mem_nil fun both => fails both.2
  rw [found, still_iff]
  refine exists_congr fun taken => and_congr_right fun same => and_congr_right fun rest => ?_
  rw [matches_look]
  refine and_congr_right fun nothing => ?_
  subst nothing
  rw [rest, List.nil_append]

theorem Finds.seq (findsx : x.Finds x.ends) (findsy : y.Finds y.ends) :
    (seq x y).Finds (seq x y).ends := by
  intro before after next
  rw [ends, List.mem_flatMap]
  constructor
  · rintro ⟨middle, turn, found⟩
    obtain ⟨first, same, rfl, here⟩ := (findsx _ _ _).mp turn
    obtain ⟨second, last, rest, there⟩ := (findsy _ _ _).mp found
    rw [same] at last there
    refine ⟨first ++ second, by rw [last, List.append_assoc], by rw [rest, List.append_assoc], ?_⟩
    rw [rest] at here
    exact .seq here there
  · rintro ⟨taken, same, rfl, both⟩
    obtain ⟨first, second, rfl, here, there⟩ := matches_seq.mp both
    refine ⟨(before ++ first, second ++ next.2), (findsx _ _ _).mpr ?_, (findsy _ _ _).mpr ?_⟩
    · exact ⟨first, rfl, List.append_assoc _ _ _, here⟩
    · exact ⟨second, by rw [same, List.append_assoc], rfl, there⟩

theorem Finds.alt (findsx : x.Finds x.ends) (findsy : y.Finds y.ends) :
    (alt x y).Finds (alt x y).ends := by
  intro before after next
  rw [ends, List.mem_append, findsx, findsy, ← exists_or]
  simp only [matches_alt, and_or_left]

theorem Finds.star (finds : x.Finds x.ends) : (star x).Finds (star x).ends := by
  intro before after next
  constructor
  · exact matches_of_turns finds
  · rintro ⟨taken, same, rfl, here⟩
    have found := turns_of_matches finds here (Nat.le_refl _)
    rw [← same] at found
    exact found

theorem finds_ends (x : Regex α) : x.Finds x.ends := by
  induction x with
  | empty => exact finds_empty
  | one allowed => exact finds_one allowed
  | look holds => exact finds_look holds
  | seq x y ihx ihy => exact ihx.seq ihy
  | alt x y ihx ihy => exact ihx.alt ihy
  | star x ih => exact ih.star

def found (x : Regex α) (text : List α) : Bool :=
  (List.range (text.length + 1)).any fun n => !(x.ends (text.take n) (text.drop n)).isEmpty

theorem found_iff (x : Regex α) (text : List α) : x.found text = true ↔ x.Search text := by
  unfold found Search
  simp only [List.any_eq_true, List.mem_range, Nat.lt_succ_iff, Bool.not_eq_true',
    List.isEmpty_eq_false_iff_exists_mem]
  constructor
  · rintro ⟨n, -, next, member⟩
    obtain ⟨taken, -, rest, here⟩ := (finds_ends x _ _ _).mp member
    refine ⟨text.take n, taken, next.2, ?_, here⟩
    rw [List.append_assoc, ← rest, List.take_append_drop]
  · rintro ⟨before, taken, after, rfl, here⟩
    refine ⟨before.length, ?_, (before ++ taken, after), (finds_ends x _ _ _).mpr ?_⟩
    · simp only [List.length_append]
      omega
    · rw [List.append_assoc, List.take_left, List.drop_left]
      exact ⟨taken, rfl, rfl, here⟩

theorem whole_iff (x : Regex α) (text : List α) :
    ((x.ends [] text).any fun next => next.2.isEmpty) = true ↔ x.Whole text := by
  rw [List.any_eq_true]
  constructor
  · rintro ⟨next, member, last⟩
    obtain ⟨taken, -, rest, here⟩ := (finds_ends x _ _ _).mp member
    rw [List.isEmpty_iff.mp last] at rest here
    rw [List.append_nil] at rest
    rw [rest]
    exact here
  · intro here
    exact ⟨(text, []), (finds_ends x _ _ _).mpr ⟨text, rfl, (List.append_nil _).symm, here⟩, rfl⟩

end

instance (x : Regex α) (text : List α) : Decidable (x.Search text) :=
  decidable_of_iff _ (found_iff x text)

instance (x : Regex α) (text : List α) : Decidable (x.Whole text) :=
  decidable_of_iff _ (whole_iff x text)

end Regex
