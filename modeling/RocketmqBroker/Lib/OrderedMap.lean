import Mathlib.Data.List.Perm.Basic
import Mathlib.Order.Lattice

/-!
A finite map whose keys are in order: the list of its entries by ascending key. The
operations are those of an ordered tree: insert or replace, look up, take off at either
end, split at a key.
-/
structure OrderedMap (κ α : Type) [LinearOrder κ] where
  entries : List (κ × α)
  sorted : entries.Pairwise (fun a b => a.1 < b.1)

namespace OrderedMap
variable {κ α : Type} [LinearOrder κ]

def insertEntry (k : κ) (a : α) : List (κ × α) → List (κ × α)
  | [] => [(k, a)]
  | (k', a') :: rest =>
    if k < k' then (k, a) :: (k', a') :: rest
    else if k = k' then (k, a) :: rest
    else (k', a') :: insertEntry k a rest

theorem mem_insertEntry {k : κ} {a : α} {e : κ × α} {entries : List (κ × α)}
    (member : e ∈ insertEntry k a entries) : e = (k, a) ∨ e ∈ entries := by
  induction entries with
  | nil => exact .inl (List.mem_singleton.mp member)
  | cons e' rest ih =>
    obtain ⟨k', a'⟩ := e'
    simp only [insertEntry] at member
    split at member
    · simpa using member
    · split at member
      · rcases List.mem_cons.mp member with here | later
        · exact .inl here
        · exact .inr (List.mem_cons_of_mem _ later)
      · rcases List.mem_cons.mp member with here | later
        · exact .inr (List.mem_cons.mpr (.inl here))
        · exact (ih later).imp_right (List.mem_cons_of_mem _)

theorem insertEntry_sorted (k : κ) (a : α) {entries : List (κ × α)}
    (sorted : entries.Pairwise (fun a b => a.1 < b.1)) :
    (insertEntry k a entries).Pairwise (fun a b => a.1 < b.1) := by
  induction entries with
  | nil => exact List.pairwise_singleton _ _
  | cons e rest ih =>
    obtain ⟨k', a'⟩ := e
    obtain ⟨above, tail⟩ := List.pairwise_cons.mp sorted
    simp only [insertEntry]
    split
    · rename_i before
      refine List.pairwise_cons.mpr ⟨?_, sorted⟩
      intro e member
      rcases List.mem_cons.mp member with rfl | later
      · exact before
      · exact before.trans (above e later)
    · split
      · rename_i same
        subst same
        exact List.pairwise_cons.mpr ⟨above, tail⟩
      · rename_i notBefore other
        refine List.pairwise_cons.mpr ⟨?_, ih tail⟩
        intro e member
        rcases mem_insertEntry member with rfl | old
        · exact lt_of_le_of_ne (not_lt.mp notBefore) (Ne.symm other)
        · exact above e old

theorem insertEntry_behind {k : κ} (a : α) {front : List (κ × α)} (rest : List (κ × α))
    (below : ∀ e ∈ front, e.1 < k) :
    insertEntry k a (front ++ rest) = front ++ insertEntry k a rest := by
  induction front with
  | nil => rfl
  | cons e front ih =>
    have here : e.1 < k := below e List.mem_cons_self
    rw [List.cons_append, insertEntry, if_neg here.asymm, if_neg here.ne',
      ih fun e' member => below e' (List.mem_cons_of_mem _ member)]
    rfl

theorem insertEntry_perm {k : κ} (a : α) {entries : List (κ × α)}
    (fresh : ∀ e ∈ entries, e.1 ≠ k) : (insertEntry k a entries).Perm ((k, a) :: entries) := by
  induction entries with
  | nil => exact List.Perm.refl _
  | cons e rest ih =>
    obtain ⟨k', a'⟩ := e
    have other : k' ≠ k := fresh (k', a') List.mem_cons_self
    simp only [insertEntry]
    split
    · exact List.Perm.refl _
    · rw [if_neg (Ne.symm other)]
      have later := ih fun e member => fresh e (List.mem_cons_of_mem _ member)
      exact (later.cons (k', a')).trans (List.Perm.swap (k, a) (k', a') rest)

def empty : OrderedMap κ α := ⟨[], .nil⟩

def insert (k : κ) (a : α) (m : OrderedMap κ α) : OrderedMap κ α :=
  ⟨insertEntry k a m.entries, insertEntry_sorted k a m.sorted⟩

def erase (k : κ) (m : OrderedMap κ α) : OrderedMap κ α :=
  ⟨m.entries.filter fun e => e.1 ≠ k, m.sorted.filter _⟩

def modify (k : κ) (f : α → α) (m : OrderedMap κ α) : OrderedMap κ α :=
  ⟨m.entries.map fun e => (e.1, if e.1 = k then f e.2 else e.2), m.sorted.map _ fun _ _ => id⟩

def get? (k : κ) (m : OrderedMap κ α) : Option α :=
  (m.entries.find? fun e => e.1 = k).map Prod.snd

def firstKey? (m : OrderedMap κ α) : Option κ := m.entries.head?.map Prod.fst

def lastKey? (m : OrderedMap κ α) : Option κ := m.entries.getLast?.map Prod.fst

def size (m : OrderedMap κ α) : Nat := m.entries.length

def values (m : OrderedMap κ α) : List α := m.entries.map Prod.snd

def splitOff (k : κ) (m : OrderedMap κ α) : OrderedMap κ α × OrderedMap κ α :=
  (⟨m.entries.filter fun e => e.1 < k, m.sorted.filter _⟩,
    ⟨m.entries.filter fun e => k ≤ e.1, m.sorted.filter _⟩)

section
variable {m : OrderedMap κ α} {k : κ} {a : α} {front rest : List (κ × α)}

theorem split_keys (split : m.entries = front ++ (k, a) :: rest) :
    (∀ e ∈ front, e.1 < k) ∧ ∀ e ∈ rest, k < e.1 := by
  have sorted := m.sorted
  rw [split, List.pairwise_append] at sorted
  obtain ⟨-, behind, across⟩ := sorted
  exact ⟨fun e member => across e member (k, a) List.mem_cons_self,
    (List.pairwise_cons.mp behind).1⟩

theorem get?_split (split : m.entries = front ++ (k, a) :: rest) : m.get? k = some a := by
  have before : front.find? (fun e => decide (e.1 = k)) = none :=
    List.find?_eq_none.mpr fun e member => by
      simpa using ((split_keys split).1 e member).ne
  rw [get?, split, List.find?_append, before]
  simp

theorem modify_split (f : α → α) (split : m.entries = front ++ (k, a) :: rest) :
    (m.modify k f).entries = front ++ (k, f a) :: rest := by
  obtain ⟨below, above⟩ := split_keys split
  have same (part : List (κ × α)) (other : ∀ e ∈ part, e.1 ≠ k) :
      part.map (fun e => (e.1, if e.1 = k then f e.2 else e.2)) = part := by
    refine (List.map_congr_left fun e member => ?_).trans (List.map_id part)
    rw [if_neg (other e member)]
    rfl
  change m.entries.map _ = _
  rw [split, List.map_append, List.map_cons, if_pos rfl,
    same front fun e member => (below e member).ne,
    same rest fun e member => (above e member).ne']

theorem erase_split (split : m.entries = front ++ (k, a) :: rest) :
    (m.erase k).entries = front ++ rest := by
  obtain ⟨below, above⟩ := split_keys split
  change m.entries.filter _ = _
  rw [split, List.filter_append, List.filter_cons, if_neg (by simp)]
  congr 1
  · exact List.filter_eq_self.mpr fun e member => by simpa using (below e member).ne
  · exact List.filter_eq_self.mpr fun e member => by simpa using (above e member).ne'

theorem insert_split (split : m.entries = front ++ rest) (below : ∀ e ∈ front, e.1 < k) :
    (m.insert k a).entries = front ++ insertEntry k a rest := by
  change insertEntry k a m.entries = _
  rw [split, insertEntry_behind a rest below]

end

end OrderedMap
