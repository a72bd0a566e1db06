import Mathlib.Data.List.Basic
import Mathlib.Logic.Function.Basic

/-!
Three registers of the same entries, kept apart: an index from items to places,
the items each place holds, and for each owner the list of what it has. They agree
when all three are read off one table, which says for each item where it is and
who has it.
-/
structure Registers (τ π ω : Type) where
  index : τ → Option π
  held : π → τ → Prop
  owned : ω → List (π × τ)

namespace Registers
variable {τ π ω : Type} [DecidableEq τ] [DecidableEq π]

omit [DecidableEq τ] [DecidableEq π] in
theorem eq_of_held {r r' : Registers τ π ω} (index : r.index = r'.index)
    (held : ∀ p t, r.held p t ↔ r'.held p t) (owned : r.owned = r'.owned) : r = r' := by
  obtain ⟨i, h, o⟩ := r
  obtain ⟨i', h', o'⟩ := r'
  obtain rfl : i = i' := index
  obtain rfl : o = o' := owned
  congr 1
  exact funext fun p => funext fun t => propext (held p t)

/-- An item is indexed under a place exactly when the place holds it, and exactly
    when one owner has it, once. -/
def Agree (r : Registers τ π ω) : Prop :=
  ∀ t p, (r.index t = some p ↔ r.held p t) ∧
    (r.index t = some p ↔ ∃ o, (r.owned o).count (p, t) = 1 ∧ ∀ o', o' ≠ o → (p, t) ∉ r.owned o')

structure Tracks (r : Registers τ π ω) (table : τ → Option (π × ω)) (leaving : ω → Prop) :
    Prop where
  index : ∀ t, r.index t = (table t).map Prod.fst
  held : ∀ p t, r.held p t → ∃ o, table t = some (p, o)
  kept : ∀ p t o, table t = some (p, o) → r.held p t ∨ leaving o
  once : ∀ p t o, table t = some (p, o) → (r.owned o).count (p, t) = 1
  owned : ∀ p t o, (p, t) ∈ r.owned o → table t = some (p, o)

def IsEmpty (r : Registers τ π ω) : Prop :=
  (∀ t, r.index t = none) ∧ (∀ p t, ¬ r.held p t) ∧ ∀ o, r.owned o = []

variable {r : Registers τ π ω} {table : τ → Option (π × ω)} {leaving : ω → Prop}

theorem IsEmpty.tracks (empty : r.IsEmpty) (leaving : ω → Prop) :
    r.Tracks (fun _ => none) leaving where
  index t := empty.1 t
  held p t held := absurd held (empty.2.1 p t)
  kept p t o entry := by cases entry
  once p t o entry := by cases entry
  owned p t o member := by
    rw [empty.2.2 o] at member
    cases member

theorem Tracks.agree (h : r.Tracks table fun _ => False) : r.Agree := by
  intro t p
  have placed : r.index t = some p ↔ ∃ o, table t = some (p, o) := by
    rw [h.index t]
    constructor
    · intro found
      obtain ⟨⟨p', o⟩, entry, rfl⟩ := Option.map_eq_some_iff.mp found
      exact ⟨o, entry⟩
    · rintro ⟨o, entry⟩
      rw [entry]
      rfl
  constructor
  · rw [placed]
    constructor
    · rintro ⟨o, entry⟩
      exact (h.kept p t o entry).resolve_right id
    · exact h.held p t
  · rw [placed]
    constructor
    · rintro ⟨o, entry⟩
      refine ⟨o, h.once p t o entry, fun o' other member => ?_⟩
      have entry' := h.owned p t o' member
      rw [entry] at entry'
      exact other (congrArg Prod.snd (Option.some.inj entry')).symm
    · rintro ⟨o, once, -⟩
      have member : (p, t) ∈ r.owned o := List.count_pos_iff.mp (by omega)
      exact ⟨o, h.owned p t o member⟩

/-- A place goes, with the items in it. -/
def drop (r : Registers τ π ω) (p : π) : Registers τ π ω where
  index := r.index
  held p' t := p' ≠ p ∧ r.held p' t
  owned := r.owned

theorem Tracks.drop (h : r.Tracks table leaving) {p : π}
    (only : ∀ t, r.held p t → ∃ o, leaving o ∧ (p, t) ∈ r.owned o) :
    (r.drop p).Tracks table leaving where
  index := h.index
  held p' t held := h.held p' t held.2
  kept p' t o entry := by
    cases h.kept p' t o entry with
    | inr left => exact .inr left
    | inl held =>
      by_cases same : p' = p
      · subst same
        obtain ⟨o', left, listed⟩ := only t held
        have entry' := h.owned p' t o' listed
        rw [entry] at entry'
        have owner : o = o' := congrArg Prod.snd (Option.some.inj entry')
        exact .inr (owner ▸ left)
      · exact .inl ⟨same, held⟩
  once := h.once
  owned := h.owned

theorem Tracks.weaken {leaving' : ω → Prop} (h : r.Tracks table leaving)
    (more : ∀ o, leaving o → leaving' o) : r.Tracks table leaving' where
  index := h.index
  held := h.held
  kept p t o entry := (h.kept p t o entry).imp_right (more o)
  once := h.once
  owned := h.owned

section
variable [DecidableEq ω]

def enter (r : Registers τ π ω) (p : π) (t : τ) (o : ω) : Registers τ π ω where
  index := Function.update r.index t (some p)
  held p' t' := (p' = p ∧ t' = t) ∨ r.held p' t'
  owned := Function.update r.owned o (r.owned o ++ [(p, t)])

def leave (r : Registers τ π ω) (p : π) (t : τ) (o : ω) : Registers τ π ω where
  index := Function.update r.index t none
  held p' t' := ¬ (p' = p ∧ t' = t) ∧ r.held p' t'
  owned := Function.update r.owned o ((r.owned o).filter fun e => e.2 != t)

omit [DecidableEq ω] in
theorem Tracks.gone {o : ω} (h : r.Tracks table (· = o)) (nothing : r.owned o = []) :
    r.Tracks table fun _ => False where
  index := h.index
  held := h.held
  kept p t o' entry := by
    refine (h.kept p t o' entry).imp_right ?_
    rintro rfl
    have once := h.once p t o' entry
    rw [nothing] at once
    cases once
  once := h.once
  owned := h.owned

def release (r : Registers τ π ω) (o : ω) : Registers τ π ω where
  index t := if t ∈ (r.owned o).map Prod.snd then none else r.index t
  held p t := (p, t) ∉ r.owned o ∧ r.held p t
  owned := Function.update r.owned o []

omit [DecidableEq π] in
@[simp] theorem release_owned (r : Registers τ π ω) (o : ω) : (r.release o).owned o = [] := by
  simp [release]

theorem Tracks.enter (h : r.Tracks table leaving) {t : τ} (fresh : table t = none) (p : π)
    (o : ω) : (r.enter p t o).Tracks (Function.update table t (some (p, o))) leaving where
  index t' := by
    simp only [Registers.enter, Function.update_apply]
    split
    · rfl
    · exact h.index t'
  held p' t' held := by
    rw [Function.update_apply]
    cases held with
    | inl new =>
      obtain ⟨rfl, rfl⟩ := new
      exact ⟨o, if_pos rfl⟩
    | inr old =>
      obtain ⟨o', entry⟩ := h.held p' t' old
      refine ⟨o', ?_⟩
      rw [if_neg, entry]
      rintro rfl
      rw [fresh] at entry
      cases entry
  kept p' t' o' entry := by
    rw [Function.update_apply] at entry
    split at entry
    · rename_i same
      obtain ⟨rfl, rfl⟩ := Prod.mk.inj (Option.some.inj entry)
      exact .inl (.inl ⟨rfl, same⟩)
    · exact (h.kept p' t' o' entry).imp_left .inr
  once p' t' o' entry := by
    rw [Function.update_apply] at entry
    split at entry
    · rename_i same
      obtain ⟨rfl, rfl⟩ := Prod.mk.inj (Option.some.inj entry)
      have absent : (p, t) ∉ r.owned o := by
        intro member
        have entry := h.owned p t o member
        rw [fresh] at entry
        cases entry
      simp only [Registers.enter, Function.update_self]
      rw [same, List.count_append, List.count_eq_zero_of_not_mem absent, List.count_singleton_self]
    · rename_i other
      simp only [Registers.enter, Function.update_apply]
      split
      · rename_i same
        rw [List.count_append, ← same, h.once p' t' o' entry, List.count_singleton, if_neg]
        simp [Ne.symm other]
      · exact h.once p' t' o' entry
  owned p' t' o' member := by
    simp only [Registers.enter, Function.update_apply] at member
    have old : (p', t') ∈ r.owned o' →
        Function.update table t (some (p, o)) t' = some (p', o') := by
      intro member
      have entry := h.owned p' t' o' member
      rw [Function.update_apply, if_neg, entry]
      rintro rfl
      rw [fresh] at entry
      cases entry
    split at member
    · rename_i same
      cases List.mem_append.mp member with
      | inl listed =>
        rw [← same] at listed
        exact old listed
      | inr new =>
        obtain ⟨rfl, rfl⟩ := Prod.mk.inj (List.mem_singleton.mp new)
        rw [Function.update_self, same]
    · exact old member

theorem Tracks.leave (h : r.Tracks table leaving) {p : π} {t : τ} {o : ω}
    (entry : table t = some (p, o)) :
    (r.leave p t o).Tracks (Function.update table t none) leaving where
  index t' := by
    simp only [Registers.leave, Function.update_apply]
    split
    · rfl
    · exact h.index t'
  held p' t' held := by
    obtain ⟨o', entry'⟩ := h.held p' t' held.2
    refine ⟨o', ?_⟩
    rw [Function.update_apply, if_neg, entry']
    rintro rfl
    rw [entry] at entry'
    exact held.1 ⟨(congrArg Prod.fst (Option.some.inj entry')).symm, rfl⟩
  kept p' t' o' entry' := by
    rw [Function.update_apply] at entry'
    split at entry'
    · cases entry'
    · rename_i other
      exact (h.kept p' t' o' entry').imp_left fun held => ⟨fun same => other same.2, held⟩
  once p' t' o' entry' := by
    rw [Function.update_apply] at entry'
    split at entry'
    · cases entry'
    · rename_i other
      simp only [Registers.leave, Function.update_apply]
      split
      · rename_i same
        rw [List.count_filter (by simp [other]), ← same]
        exact h.once p' t' o' entry'
      · exact h.once p' t' o' entry'
  owned p' t' o' member := by
    have old : (p', t') ∈ r.owned o' ∧ t' ≠ t := by
      simp only [Registers.leave, Function.update_apply] at member
      split at member
      · rename_i same
        obtain ⟨listed, other⟩ := List.mem_filter.mp member
        exact ⟨same ▸ listed, by simpa using other⟩
      · rename_i other
        refine ⟨member, ?_⟩
        rintro rfl
        have entry' := h.owned p' t' o' member
        rw [entry] at entry'
        exact other (congrArg Prod.snd (Option.some.inj entry')).symm
    rw [Function.update_apply, if_neg old.2]
    exact h.owned p' t' o' old.1

theorem Tracks.release {o : ω} (h : r.Tracks table (· = o)) :
    ∃ table', (r.release o).Tracks table' fun _ => False := by
  have owns (p : π) (t : τ) : (p, t) ∈ r.owned o ↔ table t = some (p, o) := by
    refine ⟨h.owned p t o, fun entry => ?_⟩
    have once := h.once p t o entry
    exact List.count_pos_iff.mp (by omega)
  have others {p : π} {t : τ} {o' : ω} :
      (table t).filter (fun e => e.2 ≠ o) = some (p, o') ↔ table t = some (p, o') ∧ o' ≠ o := by
    rw [Option.filter_eq_some_iff]
    simp
  refine ⟨fun t => (table t).filter fun e => e.2 ≠ o, ?_, ?_, ?_, ?_, ?_⟩
  · intro t
    simp only [Registers.release, h.index t]
    cases entry : table t with
    | none => simp
    | some e =>
      obtain ⟨p, o'⟩ := e
      by_cases same : o' = o
      · subst same
        have member : t ∈ (r.owned o').map Prod.snd :=
          List.mem_map.mpr ⟨(p, t), (owns p t).mpr entry, rfl⟩
        simp [member, Option.filter]
      · have absent : t ∉ (r.owned o).map Prod.snd := by
          intro member
          obtain ⟨⟨p', t'⟩, listed, rfl⟩ := List.mem_map.mp member
          have entry' := (owns p' t').mp listed
          dsimp only at entry
          rw [entry] at entry'
          exact same (congrArg Prod.snd (Option.some.inj entry'))
        simp [absent, same, Option.filter]
  · intro p t held
    obtain ⟨o', entry⟩ := h.held p t held.2
    refine ⟨o', others.mpr ⟨entry, ?_⟩⟩
    rintro rfl
    exact held.1 ((owns p t).mpr entry)
  · intro p t o' entry
    obtain ⟨entry, other⟩ := others.mp entry
    refine .inl ⟨fun listed => ?_, (h.kept p t o' entry).resolve_right other⟩
    have entry' := (owns p t).mp listed
    rw [entry] at entry'
    exact other (congrArg Prod.snd (Option.some.inj entry'))
  · intro p t o' entry
    obtain ⟨entry, other⟩ := others.mp entry
    simp only [Registers.release, Function.update_apply, if_neg other]
    exact h.once p t o' entry
  · intro p t o' member
    simp only [Registers.release, Function.update_apply] at member
    split at member
    · cases member
    · rename_i other
      exact others.mpr ⟨h.owned p t o' member, other⟩

end
end Registers
