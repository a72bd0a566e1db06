import Mathlib.Data.List.Basic

/-!
Patterns over lists of words. A segment of a pattern takes some words: a literal takes itself,
a single wildcard takes any one word, and a wildcard for many takes any number of them, also
none. A pattern matches a list when its segments take the list in turn.
-/
namespace WordPattern
variable {α : Type}

inductive Segment (α : Type) where
  | literal (word : α)
  | single
  | many
  deriving DecidableEq, Repr

def Segment.Takes : Segment α → List α → Prop
  | literal word, ws => ws = [word]
  | single, ws => ws.length = 1
  | many, _ => True

def Matches : List (Segment α) → List α → Prop
  | [], ws => ws = []
  | segment :: pattern, ws =>
    ∃ front rest, ws = front ++ rest ∧ segment.Takes front ∧ Matches pattern rest

@[simp] theorem matches_nil (ws : List α) : Matches [] ws ↔ ws = [] := Iff.rfl

theorem matches_snoc (pattern : List (Segment α)) (segment : Segment α) (ws : List α) :
    Matches (pattern ++ [segment]) ws ↔
      ∃ front rest, ws = front ++ rest ∧ Matches pattern front ∧ segment.Takes rest := by
  induction pattern generalizing ws with
  | nil =>
    constructor
    · rintro ⟨front, rest, rfl, takes, rfl⟩
      exact ⟨[], front, List.append_nil front, rfl, takes⟩
    · rintro ⟨front, rest, rfl, rfl, takes⟩
      exact ⟨rest, [], (List.append_nil rest).symm, takes, rfl⟩
  | cons first pattern ih =>
    constructor
    · rintro ⟨front, behind, rfl, takes, later⟩
      obtain ⟨middle, rest, rfl, inner, last⟩ := (ih behind).mp later
      exact ⟨front ++ middle, rest, (List.append_assoc ..).symm, ⟨front, middle, rfl, takes, inner⟩,
        last⟩
    · rintro ⟨both, rest, rfl, ⟨front, middle, rfl, takes, inner⟩, last⟩
      exact ⟨front, middle ++ rest, List.append_assoc .., takes,
        (ih _).mpr ⟨middle, rest, rfl, inner, last⟩⟩

theorem matches_many_snoc (pattern : List (Segment α)) (ws : List α) (word : α) :
    Matches (pattern ++ [.many]) (ws ++ [word]) ↔
      Matches pattern (ws ++ [word]) ∨ Matches (pattern ++ [.many]) ws := by
  rw [matches_snoc, matches_snoc]
  constructor
  · rintro ⟨front, rest, split, inner, -⟩
    rcases List.eq_nil_or_concat rest with rfl | ⟨rest, last, rfl⟩
    · rw [List.append_nil] at split
      exact .inl (split ▸ inner)
    · rw [List.concat_eq_append, ← List.append_assoc] at split
      exact .inr ⟨front, rest, (List.append_inj' split rfl).1, inner, trivial⟩
  · rintro (whole | ⟨front, rest, rfl, inner, -⟩)
    · exact ⟨ws ++ [word], [], (List.append_nil _).symm, whole, trivial⟩
    · exact ⟨front, rest ++ [word], List.append_assoc .., inner, trivial⟩

theorem matches_one_snoc {segment : Segment α} (single : ∀ ws, segment.Takes ws → ws.length = 1)
    (pattern : List (Segment α)) (ws : List α) (word : α) :
    Matches (pattern ++ [segment]) (ws ++ [word]) ↔
      Matches pattern ws ∧ segment.Takes [word] := by
  rw [matches_snoc]
  constructor
  · rintro ⟨front, rest, split, inner, takes⟩
    obtain ⟨last, rfl⟩ := List.length_eq_one_iff.mp (single rest takes)
    obtain ⟨rfl, same⟩ := List.append_inj' split rfl
    exact ⟨inner, same ▸ takes⟩
  · rintro ⟨inner, takes⟩
    exact ⟨ws, [word], rfl, inner, takes⟩

theorem matches_each {segmentOf : α → Segment α} (each : ∀ word, (segmentOf word).Takes [word])
    (ws : List α) : Matches (ws.map segmentOf) ws := by
  induction ws with
  | nil => rfl
  | cons word ws ih => exact ⟨[word], ws, rfl, each word, ih⟩

/-- A lone wildcard for many matches every list. -/
theorem matches_many (ws : List α) : Matches [.many] ws :=
  ⟨ws, [], (List.append_nil ws).symm, trivial, rfl⟩

/-- A row of a table, from the position behind some words on: for each prefix of the key that
    goes on from there, whether the predicate holds of it. -/
def Tells (P : List α → Prop) (done : List α) : List α → List Bool → Prop
  | [], row => ∃ here, row = [here] ∧ (here = true ↔ P done)
  | word :: key, row =>
    ∃ here rest, row = here :: rest ∧ (here = true ↔ P done) ∧ Tells P (done ++ [word]) key rest

theorem Tells.last {P : List α → Prop} {done key : List α} {row : List Bool}
    (tells : Tells P done key row) : row.getLastD false = true ↔ P (done ++ key) := by
  induction key generalizing done row with
  | nil =>
    obtain ⟨here, rfl, same⟩ := tells
    rw [List.append_nil]
    exact same
  | cons word key ih =>
    obtain ⟨here, rest, rfl, -, later⟩ := tells
    have last := ih later
    rw [List.append_assoc] at last
    cases rest with
    | nil =>
      cases key with
      | nil =>
        obtain ⟨_, none, -⟩ := later
        cases none
      | cons =>
        obtain ⟨_, _, none, -⟩ := later
        cases none
    | cons next rest => exact last

/-- Before any segment only the empty prefix is matched. -/
theorem tells_start (key : List α) :
    Tells (Matches []) [] key (true :: List.replicate key.length false) := by
  have rest : ∀ (key done : List α), done ≠ [] →
      Tells (Matches []) done key (List.replicate (key.length + 1) false) := by
    intro key
    induction key with
    | nil =>
      intro done filled
      exact ⟨false, rfl, iff_of_false Bool.false_ne_true filled⟩
    | cons word key ih =>
      intro done filled
      exact ⟨false, _, rfl, iff_of_false Bool.false_ne_true filled, ih _ (by simp)⟩
  cases key with
  | nil => exact ⟨true, rfl, iff_of_true rfl rfl⟩
  | cons word key => exact ⟨true, _, rfl, iff_of_true rfl rfl, rest key _ (by simp)⟩

end WordPattern
