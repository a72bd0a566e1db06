import Mathlib.Data.List.Basic
import Mathlib.Order.Lattice

/-!
An ordered map from keys to non-empty queues, as a list of buckets sorted by
key. The operations are those of a multi-level queue: add to one bucket, take
from the lowest or from the highest.
-/
namespace Buckets
variable {κ α : Type} [LinearOrder κ]

def upsert (k : κ) (f : List α → List α) : List (κ × List α) → List (κ × List α)
  | [] => [(k, f [])]
  | (k', xs) :: rest =>
    if k < k' then (k, f []) :: (k', xs) :: rest
    else if k = k' then (k', f xs) :: rest
    else (k', xs) :: upsert k f rest

def popLowest : List (κ × List α) → Option (α × List (κ × List α))
  | (k, x :: xs) :: rest => some (x, if xs.isEmpty then rest else (k, xs) :: rest)
  | _ => none

def popHighest : List (κ × List α) → Option (α × List (κ × List α))
  | [] => none
  | [b] => popLowest [b]
  | b :: rest => (popHighest rest).map fun popped => (popped.1, b :: popped.2)

omit [LinearOrder κ] in
theorem popHighest_eq (bs : List (κ × List α)) : popHighest bs = bs.getLast?.bind fun b =>
    b.2.head?.map fun x =>
      (x, if b.2.tail.isEmpty then bs.dropLast else bs.dropLast ++ [(b.1, b.2.tail)]) := by
  induction bs with
  | nil => rfl
  | cons b bs ih =>
    cases bs with
    | nil =>
      obtain ⟨k, xs⟩ := b
      cases xs <;> rfl
    | cons b' bs' =>
      have later : popHighest (b :: b' :: bs') =
          (popHighest (b' :: bs')).map fun popped => (popped.1, b :: popped.2) := rfl
      rw [later, ih, List.getLast?_cons_cons]
      cases (b' :: bs').getLast? with
      | none => rfl
      | some last =>
        obtain ⟨k, xs⟩ := last
        cases xs with
        | nil => rfl
        | cons x xs => cases xs <;> rfl

structure WellFormed (bs : List (κ × List α)) : Prop where
  sorted : (bs.map Prod.fst).Pairwise (· < ·)
  nonempty : ∀ b ∈ bs, b.2 ≠ []

def items (bs : List (κ × List α)) : List α := bs.flatMap Prod.snd

omit [LinearOrder κ] in
@[simp] theorem items_nil : items ([] : List (κ × List α)) = [] := rfl

omit [LinearOrder κ] in
@[simp] theorem items_cons (b : κ × List α) (bs : List (κ × List α)) :
    items (b :: bs) = b.2 ++ items bs := by
  simp [items]

/-- The elements as `popHighest` hands them out. -/
def descending (bs : List (κ × List α)) : List α := items bs.reverse

theorem upsert_keys {k : κ} {f : List α → List α} {bs : List (κ × List α)} {k' : κ}
    (member : k' ∈ (upsert k f bs).map Prod.fst) : k' = k ∨ k' ∈ bs.map Prod.fst := by
  induction bs with
  | nil => simpa [upsert] using member
  | cons b rest ih =>
    obtain ⟨kb, xs⟩ := b
    simp only [upsert] at member
    split at member
    · simpa using member
    · split at member
      · exact Or.inr (by simpa using member)
      · simp only [List.map_cons, List.mem_cons] at member ⊢
        rcases member with here | later
        · exact Or.inr (Or.inl here)
        · rcases ih later with new | old
          · exact Or.inl new
          · exact Or.inr (Or.inr old)

theorem upsert_wellFormed {k : κ} {f : List α → List α} (grows : ∀ xs, f xs ≠ [])
    {bs : List (κ × List α)} (h : WellFormed bs) : WellFormed (upsert k f bs) := by
  induction bs with
  | nil => exact ⟨by simp [upsert], by simp [upsert, grows]⟩
  | cons b rest ih =>
    obtain ⟨kb, xs⟩ := b
    have below : ∀ k' ∈ rest.map Prod.fst, kb < k' := (List.pairwise_cons.mp h.sorted).1
    have tail : WellFormed rest :=
      ⟨(List.pairwise_cons.mp h.sorted).2, fun b hb => h.nonempty b (by simp [hb])⟩
    simp only [upsert]
    split
    · rename_i before
      refine ⟨?_, ?_⟩
      · rw [List.map_cons, List.pairwise_cons]
        refine ⟨?_, h.sorted⟩
        intro k' member
        rw [List.map_cons, List.mem_cons] at member
        rcases member with rfl | later
        · exact before
        · exact lt_trans before (below k' later)
      · intro b hb
        rcases List.mem_cons.mp hb with rfl | hb
        · exact grows []
        · exact h.nonempty b hb
    · split
      · refine ⟨h.sorted, ?_⟩
        intro b hb
        rcases List.mem_cons.mp hb with rfl | hb
        · exact grows xs
        · exact tail.nonempty b hb
      · rename_i notBefore notHere
        have after : kb < k := lt_of_le_of_ne (not_lt.mp notBefore) (Ne.symm notHere)
        refine ⟨?_, ?_⟩
        · rw [List.map_cons, List.pairwise_cons]
          refine ⟨?_, (ih tail).sorted⟩
          intro k' member
          rcases upsert_keys member with rfl | old
          · exact after
          · exact below k' old
        · intro b hb
          rcases List.mem_cons.mp hb with rfl | hb
          · exact h.nonempty _ (by simp)
          · exact (ih tail).nonempty b hb

theorem items_upsert {k : κ} {f : List α → List α} {x : α} (adds : ∀ xs, (f xs).Perm (x :: xs))
    (bs : List (κ × List α)) : (items (upsert k f bs)).Perm (x :: items bs) := by
  induction bs with
  | nil => simpa [upsert] using adds []
  | cons b rest ih =>
    obtain ⟨kb, xs⟩ := b
    simp only [upsert]
    split
    · simpa using (adds []).append_right (xs ++ items rest)
    · split
      · simpa using (adds xs).append_right (items rest)
      · rw [items_cons, items_cons]
        exact (ih.append_left xs).trans List.perm_middle

/-! Both ways of taking an element leave the buckets as they are but for one, which gives up its
front and goes if that leaves it empty. -/

omit [LinearOrder κ] in
theorem popLowest_split {bs rest : List (κ × List α)} {x : α}
    (popped : popLowest bs = some (x, rest)) : ∃ k xs back, bs = (k, x :: xs) :: back ∧
      rest = if xs.isEmpty then back else (k, xs) :: back := by
  unfold popLowest at popped
  split at popped
  · rename_i k y ys tail
    obtain ⟨rfl, rfl⟩ := Prod.mk.inj (Option.some.inj popped)
    exact ⟨k, ys, tail, rfl, rfl⟩
  · contradiction

omit [LinearOrder κ] in
theorem popHighest_split {bs rest : List (κ × List α)} {x : α}
    (popped : popHighest bs = some (x, rest)) : ∃ front k xs, bs = front ++ [(k, x :: xs)] ∧
      rest = front ++ if xs.isEmpty then [] else [(k, xs)] := by
  rw [popHighest_eq, Option.bind_eq_some_iff] at popped
  obtain ⟨b, last, popped⟩ := popped
  obtain ⟨y, front, taken⟩ := Option.map_eq_some_iff.mp popped
  obtain ⟨rfl, rfl⟩ := Prod.mk.inj taken
  obtain ⟨k, xs⟩ := b
  obtain ⟨xs, rfl⟩ := List.head?_eq_some_iff.mp front
  refine ⟨bs.dropLast, k, xs, ?_, ?_⟩
  · exact (List.dropLast_append_getLast? _ last).symm
  · rw [List.tail_cons]
    split
    · exact (List.append_nil _).symm
    · rfl

theorem wellFormed_popped {front back : List (κ × List α)} {k : κ} {x : α} {xs : List α}
    (h : WellFormed (front ++ (k, x :: xs) :: back)) :
    WellFormed (front ++ if xs.isEmpty then back else (k, xs) :: back) := by
  split
  · have fewer : (front ++ back).Sublist (front ++ (k, x :: xs) :: back) :=
      (List.Sublist.refl front).append (List.sublist_cons_self _ back)
    exact ⟨h.sorted.sublist (fewer.map Prod.fst), fun b member => h.nonempty b (fewer.subset member)⟩
  · rename_i left
    constructor
    · simpa using h.sorted
    · intro b member
      rcases List.mem_append.mp member with early | later
      · exact h.nonempty b (List.mem_append_left _ early)
      · rcases List.mem_cons.mp later with rfl | later
        · simpa using left
        · exact h.nonempty b (List.mem_append_right _ (List.mem_cons_of_mem _ later))

theorem popLowest_wellFormed {bs rest : List (κ × List α)} {x : α} (h : WellFormed bs)
    (popped : popLowest bs = some (x, rest)) : WellFormed rest := by
  obtain ⟨k, xs, back, rfl, rfl⟩ := popLowest_split popped
  exact @wellFormed_popped κ α _ [] back k x xs h

theorem popHighest_wellFormed {bs rest : List (κ × List α)} {x : α} (h : WellFormed bs)
    (popped : popHighest bs = some (x, rest)) : WellFormed rest := by
  obtain ⟨front, k, xs, rfl, rfl⟩ := popHighest_split popped
  exact wellFormed_popped h

omit [LinearOrder κ] in
theorem items_popLowest {bs rest : List (κ × List α)} {x : α}
    (popped : popLowest bs = some (x, rest)) : items bs = x :: items rest := by
  obtain ⟨k, xs, back, rfl, rfl⟩ := popLowest_split popped
  split
  · rename_i empty
    simp [List.isEmpty_iff.mp empty]
  · simp

omit [LinearOrder κ] in
theorem items_popHighest {bs rest : List (κ × List α)} {x : α}
    (popped : popHighest bs = some (x, rest)) : (items bs).Perm (x :: items rest) := by
  obtain ⟨front, k, xs, rfl, rfl⟩ := popHighest_split popped
  have left : items (front ++ if xs.isEmpty then [] else [(k, xs)]) = items front ++ xs := by
    split
    · rename_i empty
      simp [items, List.isEmpty_iff.mp empty]
    · simp [items]
  rw [left]
  simp [items]

omit [LinearOrder κ] in
theorem popHighest_none {bs : List (κ × List α)} (filled : ∀ b ∈ bs, b.2 ≠ [])
    (none_left : popHighest bs = none) : bs = [] := by
  by_contra some_left
  have last := List.getLast?_eq_some_getLast some_left
  rw [popHighest_eq, last, Option.bind_some, Option.map_eq_none_iff, List.head?_eq_none_iff]
    at none_left
  exact filled _ (List.getLast_mem some_left) none_left

omit [LinearOrder κ] in
theorem popLowest_none {bs : List (κ × List α)} (filled : ∀ b ∈ bs, b.2 ≠ [])
    (none_left : popLowest bs = none) : bs = [] := by
  cases bs with
  | nil => rfl
  | cons b bs =>
    obtain ⟨k, xs⟩ := b
    cases xs with
    | nil => exact absurd rfl (filled (k, []) (by simp))
    | cons x xs => simp [popLowest] at none_left

omit [LinearOrder κ] in
theorem descending_cons (b : κ × List α) (bs : List (κ × List α)) :
    descending (b :: bs) = descending bs ++ b.2 := by
  simp [descending, items]

omit [LinearOrder κ] in
theorem descending_popHighest {bs rest : List (κ × List α)} {x : α}
    (popped : popHighest bs = some (x, rest)) : descending bs = x :: descending rest := by
  obtain ⟨front, k, xs, rfl, rfl⟩ := popHighest_split popped
  split
  · rename_i empty
    simp [descending, List.isEmpty_iff.mp empty]
  · simp [descending]

omit [LinearOrder κ] in
/-- The elements left come out in the same order. -/
theorem descending_popLowest {bs rest : List (κ × List α)} {x : α}
    (popped : popLowest bs = some (x, rest)) : (descending rest).Sublist (descending bs) := by
  obtain ⟨k, xs, back, rfl, rfl⟩ := popLowest_split popped
  rw [descending_cons]
  split
  · exact List.sublist_append_left _ _
  · rw [descending_cons]
    exact (List.Sublist.refl _).append (List.sublist_cons_self x xs)

theorem descending_upsert_lowest {k : κ} {x : α} {bs : List (κ × List α)}
    (lowest : ∀ b ∈ bs, k ≤ b.1) :
    descending (upsert k (· ++ [x]) bs) = descending bs ++ [x] := by
  cases bs with
  | nil => simp [upsert, descending, items]
  | cons b rest =>
    obtain ⟨kb, xs⟩ := b
    have below : k ≤ kb := lowest (kb, xs) (by simp)
    simp only [upsert]
    split
    · simp [descending_cons]
    · rename_i notBefore
      have same : k = kb := le_antisymm below (not_lt.mp notBefore)
      rw [if_pos same]
      simp [descending_cons]

def Keyed (key : α → κ) (bs : List (κ × List α)) : Prop := ∀ b ∈ bs, ∀ x ∈ b.2, key x = b.1

section
variable {key : α → κ} {bs rest : List (κ × List α)} {x : α}

theorem upsert_keyed {k : κ} {f : List α → List α} (adds : ∀ xs, ∀ y ∈ f xs, y = x ∨ y ∈ xs)
    (own : key x = k) (h : Keyed key bs) : Keyed key (upsert k f bs) := by
  have alone : ∀ y ∈ f [], key y = k := by
    intro y member
    rcases adds [] y member with rfl | old
    · exact own
    · contradiction
  induction bs with
  | nil =>
    intro b member y inside
    obtain rfl := List.mem_singleton.mp member
    exact alone y inside
  | cons first bs ih =>
    obtain ⟨k', xs⟩ := first
    have later : Keyed key bs := fun b member => h b (List.mem_cons_of_mem _ member)
    simp only [upsert]
    split
    · intro b member y inside
      rcases List.mem_cons.mp member with rfl | old
      · exact alone y inside
      · exact h b old y inside
    · split
      · rename_i same
        subst same
        intro b member y inside
        rcases List.mem_cons.mp member with rfl | old
        · rcases adds xs y inside with rfl | here
          · exact own
          · exact h _ List.mem_cons_self y here
        · exact later b old y inside
      · intro b member y inside
        rcases List.mem_cons.mp member with rfl | old
        · exact h _ List.mem_cons_self y inside
        · exact ih later b old y inside

omit [LinearOrder κ] in
theorem keyed_popped {front back : List (κ × List α)} {k : κ} {xs : List α}
    (h : Keyed key (front ++ (k, x :: xs) :: back)) :
    Keyed key (front ++ if xs.isEmpty then back else (k, xs) :: back) := by
  have early : ∀ b ∈ front, ∀ y ∈ b.2, key y = b.1 :=
    fun b member => h b (List.mem_append_left _ member)
  have later : ∀ b ∈ back, ∀ y ∈ b.2, key y = b.1 :=
    fun b member => h b (List.mem_append_right _ (List.mem_cons_of_mem _ member))
  have own : ∀ y ∈ xs, key y = k := fun y member =>
    h (k, x :: xs) (List.mem_append_right _ List.mem_cons_self) y (List.mem_cons_of_mem _ member)
  intro b member
  rcases List.mem_append.mp member with here | here
  · exact early b here
  · split at here
    · exact later b here
    · rcases List.mem_cons.mp here with rfl | here
      · exact own
      · exact later b here

omit [LinearOrder κ] in
theorem popLowest_keyed (h : Keyed key bs) (popped : popLowest bs = some (x, rest)) :
    Keyed key rest := by
  obtain ⟨k, xs, back, rfl, rfl⟩ := popLowest_split popped
  exact @keyed_popped κ α key x [] back k xs h

omit [LinearOrder κ] in
theorem popHighest_keyed (h : Keyed key bs) (popped : popHighest bs = some (x, rest)) :
    Keyed key rest := by
  obtain ⟨front, k, xs, rfl, rfl⟩ := popHighest_split popped
  exact keyed_popped h

theorem descending_above {kb : κ} {xs : List α} (sorted : (((kb, xs) :: bs).map Prod.fst).Pairwise
    (· < ·)) (h : Keyed key bs) : ∀ y ∈ descending bs, kb < key y := by
  intro y member
  rw [descending, items, List.mem_flatMap] at member
  obtain ⟨b, inside, here⟩ := member
  rw [List.mem_reverse] at inside
  rw [h b inside y here]
  exact (List.pairwise_cons.mp sorted).1 b.1 (List.mem_map_of_mem inside)

theorem descending_popLowest_split (sorted : (bs.map Prod.fst).Pairwise (· < ·))
    (h : Keyed key bs) (popped : popLowest bs = some (x, rest)) :
    ∃ front back, descending bs = front ++ x :: back ∧ descending rest = front ++ back ∧
      (∀ y ∈ front, key x < key y) ∧ ∀ y ∈ back, key y = key x := by
  obtain ⟨k, xs, back, rfl, rfl⟩ := popLowest_split popped
  have own : ∀ z ∈ x :: xs, key z = k := h _ List.mem_cons_self
  have first : key x = k := own x List.mem_cons_self
  have above := descending_above sorted fun b member => h b (List.mem_cons_of_mem _ member)
  refine ⟨descending back, xs, descending_cons _ _, ?_, ?_, ?_⟩
  · split
    · rename_i empty
      simp [List.isEmpty_iff.mp empty]
    · exact descending_cons _ _
  · intro z member
    rw [first]
    exact above z member
  · intro z member
    rw [first]
    exact own z (List.mem_cons_of_mem _ member)

theorem descending_ordered (sorted : (bs.map Prod.fst).Pairwise (· < ·)) (h : Keyed key bs) :
    (descending bs).Pairwise fun a b => key b ≤ key a := by
  induction bs with
  | nil => exact .nil
  | cons first bs ih =>
    obtain ⟨kb, xs⟩ := first
    have later : Keyed key bs := fun b member => h b (List.mem_cons_of_mem _ member)
    have own : ∀ y ∈ xs, key y = kb := h _ List.mem_cons_self
    rw [descending_cons, List.pairwise_append]
    refine ⟨ih (List.pairwise_cons.mp sorted).2 later, ?_, ?_⟩
    · refine List.Pairwise.imp_of_mem ?_ (List.pairwise_of_forall fun _ _ => trivial)
      intro a b first second _
      rw [own a first, own b second]
    · intro a before b here
      rw [own b here]
      exact (descending_above sorted later a before).le

/-- A bucket stands behind those above its key and in front of those below, and what is done to
    it is done in its place. -/
theorem descending_upsert {k : κ} (f : List α → List α)
    (sorted : (bs.map Prod.fst).Pairwise (· < ·)) (h : Keyed key bs) :
    ∃ above own below, descending bs = above ++ own ++ below ∧
      descending (upsert k f bs) = above ++ f own ++ below ∧
      (∀ y ∈ above, k < key y) ∧ (∀ y ∈ own, key y = k) ∧ ∀ y ∈ below, key y < k := by
  induction bs with
  | nil => exact ⟨[], [], [], by simp [descending, items, upsert]⟩
  | cons first bs ih =>
    obtain ⟨kb, xs⟩ := first
    have higher := descending_above sorted fun b member => h b (List.mem_cons_of_mem _ member)
    have same_key : ∀ y ∈ xs, key y = kb := h _ List.mem_cons_self
    simp only [upsert]
    split
    · rename_i before
      refine ⟨descending ((kb, xs) :: bs), [], [], by simp, by simp [descending_cons], ?_,
        by simp, by simp⟩
      intro y member
      rw [descending_cons] at member
      rcases List.mem_append.mp member with later | here
      · exact lt_trans before (higher y later)
      · rw [same_key y here]
        exact before
    · split
      · rename_i same
        subst same
        exact ⟨descending bs, xs, [], by simp [descending_cons], by simp [descending_cons], higher,
          same_key, by simp⟩
      · rename_i notBefore notSame
        have after : kb < k := lt_of_le_of_ne (not_lt.mp notBefore) (Ne.symm notSame)
        obtain ⟨above, own, below, eq, eq', high, mid, low⟩ := ih (List.pairwise_cons.mp sorted).2
          fun b member => h b (List.mem_cons_of_mem _ member)
        refine ⟨above, own, below ++ xs, by simp [descending_cons, eq],
          by simp [descending_cons, eq'], high, mid, ?_⟩
        intro y member
        rcases List.mem_append.mp member with old | here
        · exact low y old
        · rw [same_key y here]
          exact after

/-- An element added at the back of its bucket stands behind those of its key or
    above, in front of those below. -/
theorem descending_upsert_back {k : κ} (sorted : (bs.map Prod.fst).Pairwise (· < ·))
    (h : Keyed key bs) :
    ∃ front back, descending bs = front ++ back ∧
      descending (upsert k (· ++ [x]) bs) = front ++ x :: back ∧
      (∀ y ∈ front, k ≤ key y) ∧ ∀ y ∈ back, key y < k := by
  obtain ⟨above, own, below, eq, eq', high, mid, low⟩ := descending_upsert (· ++ [x]) sorted h
  refine ⟨above ++ own, below, eq, by simp [eq'], ?_, low⟩
  intro y member
  rcases List.mem_append.mp member with higher | here
  · exact le_of_lt (high y higher)
  · exact le_of_eq (mid y here).symm

/-- An element added at the front of its bucket stands behind those above its key
    only. -/
theorem descending_upsert_front {k : κ} (sorted : (bs.map Prod.fst).Pairwise (· < ·))
    (h : Keyed key bs) :
    ∃ front back, descending bs = front ++ back ∧
      descending (upsert k (x :: ·) bs) = front ++ x :: back ∧
      (∀ y ∈ front, k < key y) ∧ ∀ y ∈ back, key y ≤ k := by
  obtain ⟨above, own, below, eq, eq', high, mid, low⟩ := descending_upsert (x :: ·) sorted h
  refine ⟨above, own ++ below, by simp [eq], by simp [eq'], high, ?_⟩
  intro y member
  rcases List.mem_append.mp member with here | lower
  · exact le_of_eq (mid y here)
  · exact le_of_lt (low y lower)

end

end Buckets
