import RocketmqBroker.Lib.StableList
import Mathlib.Data.List.Rotate

/-!
Elements of a list in descending order of a key that are taken from the front, read and put
back behind their key. They never get past the elements of the highest key, so as many as
are taken these are turned round; what cannot be read does not come back.
-/
namespace StableList
variable {α β κ : Type} [LinearOrder κ] (key : α → κ) (read : α → Option β)

def leaders : List α → List α
  | [] => []
  | x :: xs => x :: xs.takeWhile fun y => key x ≤ key y

def followers : List α → List α
  | [] => []
  | x :: xs => xs.dropWhile fun y => key x ≤ key y

def takeTurn : List α → List β × List α
  | [] => ([], [])
  | x :: xs =>
    match read x with
    | none => ([], xs)
    | some b => ([b], insertBack key x xs)

def takeTurns : Nat → List α → List β × List α
  | 0, xs => ([], xs)
  | n + 1, xs =>
    let first := takeTurn key read xs
    let later := takeTurns n first.2
    (first.1 ++ later.1, later.2)

/-- As many elements as there are turns were read, from the front, and nothing has moved. -/
def ReadInPlace (n : Nat) (xs : List α) : Prop :=
  (takeTurns key read n xs).1.map some = (xs.take n).map read ∧ (takeTurns key read n xs).2 = xs

variable {key read} {xs front back low : List α} {n : Nat}

theorem leaders_append (xs : List α) : leaders key xs ++ followers key xs = xs := by
  cases xs with
  | nil => rfl
  | cons x xs => exact congrArg (x :: ·) List.takeWhile_append_dropWhile

theorem leaders_key {x y : α} (sorted : Descending key (x :: xs))
    (member : y ∈ leaders key (x :: xs)) : key y = key x := by
  cases List.mem_cons.mp member with
  | inl first => rw [first]
  | inr later =>
    have high : key x ≤ key y := by simpa using List.mem_takeWhile_imp later
    exact le_antisymm (List.rel_of_pairwise_cons sorted (List.takeWhile_subset _ later)) high

theorem leaders_alike (sorted : Descending key xs) :
    ∀ y ∈ leaders key xs, ∀ z ∈ leaders key xs, key y = key z := by
  cases xs with
  | nil => nofun
  | cons x xs =>
    intro y here z there
    rw [leaders_key sorted here, leaders_key sorted there]

theorem followers_lower (sorted : Descending key xs) :
    ∀ y ∈ leaders key xs, ∀ z ∈ followers key xs, key z < key y := by
  cases xs with
  | nil => nofun
  | cons x xs =>
    intro y here z behind
    have less := dropWhile_low (fun a b less above => by
      simp only [decide_eq_true_eq] at above ⊢
      exact above.trans less) (List.pairwise_cons.mp sorted).2 z behind
    rw [leaders_key sorted here]
    simpa using less

theorem takeTurns_add (m n : Nat) (xs : List α) :
    takeTurns key read (m + n) xs =
      ((takeTurns key read m xs).1 ++ (takeTurns key read n (takeTurns key read m xs).2).1,
        (takeTurns key read n (takeTurns key read m xs).2).2) := by
  induction m generalizing xs with
  | zero =>
    rw [Nat.zero_add]
    rfl
  | succ m ih =>
    rw [Nat.succ_add]
    simp only [takeTurns, ih, List.append_assoc]

theorem takeTurns_alike (alike : ∀ y ∈ front ++ back, ∀ z ∈ front ++ back, key y = key z)
    (lower : ∀ y ∈ front ++ back, ∀ z ∈ low, key z < key y)
    (readable : ∀ y ∈ front, (read y).isSome = true) :
    (takeTurns key read front.length (front ++ back ++ low)).1.map some = front.map read ∧
      (takeTurns key read front.length (front ++ back ++ low)).2 = back ++ front ++ low := by
  induction front generalizing back with
  | nil => exact ⟨rfl, by rw [List.append_nil]; rfl⟩
  | cons x front ih =>
    have moved : ∀ y ∈ front ++ (back ++ [x]), y ∈ x :: front ++ back := by
      intro y member
      simp only [List.mem_append, List.cons_append, List.mem_cons] at member ⊢
      tauto
    obtain ⟨b, found⟩ := Option.isSome_iff_exists.mp (readable x List.mem_cons_self)
    have behind : insertBack key x (front ++ back ++ low) = front ++ (back ++ [x]) ++ low := by
      have split := @insertBack_split _ _ _ key x (front ++ back) low
        (fun y member => (alike x List.mem_cons_self y (List.mem_cons_of_mem x member)).le)
        (lower x List.mem_cons_self)
      rw [split]
      simp only [List.append_assoc, List.singleton_append]
    have turn : takeTurn key read (x :: front ++ back ++ low) =
        ([b], front ++ (back ++ [x]) ++ low) := by
      rw [List.cons_append, List.cons_append, takeTurn, found]
      exact congrArg ([b], ·) behind
    obtain ⟨taken, left⟩ := @ih (back ++ [x])
      (fun y here z there => alike y (moved y here) z (moved z there))
      (fun y here => lower y (moved y here))
      (fun y member => readable y (List.mem_cons_of_mem x member))
    rw [List.length_cons, takeTurns, turn]
    constructor
    · rw [List.map_append, taken]
      change some b :: front.map read = read x :: front.map read
      rw [found]
    · rw [left]
      simp only [List.append_assoc, List.singleton_append]

theorem takeTurns_leaders (sorted : Descending key xs) (few : n ≤ (leaders key xs).length)
    (readable : ∀ x ∈ (leaders key xs).take n, (read x).isSome = true) :
    (takeTurns key read n xs).1.map some = ((leaders key xs).take n).map read ∧
      (takeTurns key read n xs).2 = (leaders key xs).rotate n ++ followers key xs := by
  have parts : (leaders key xs).take n ++ (leaders key xs).drop n = leaders key xs :=
    List.take_append_drop _ _
  have length : ((leaders key xs).take n).length = n := List.length_take_of_le few
  have turned := @takeTurns_alike _ _ _ _ key read ((leaders key xs).take n)
    ((leaders key xs).drop n) (followers key xs)
    (by rw [parts]; exact leaders_alike sorted) (by rw [parts]; exact followers_lower sorted)
    readable
  rw [length, parts, leaders_append] at turned
  rwa [List.rotate_eq_drop_append_take few]

theorem take_leaders (few : n ≤ (leaders key xs).length) :
    xs.take n = (leaders key xs).take n := by
  conv => lhs; rw [← @leaders_append α κ _ key xs]
  exact List.take_append_of_le_length few

theorem not_readInPlace_past {other : β → κ} (keyed : ∀ x b, read x = some b → other b = key x)
    (sorted : Descending key xs) (within : n ≤ xs.length) (past : (leaders key xs).length < n)
    (readable : ∀ x ∈ xs.take n, (read x).isSome = true) : ¬ ReadInPlace key read n xs := by
  rintro ⟨taken, -⟩
  obtain ⟨more, rfl⟩ := Nat.exists_eq_add_of_lt past
  have front : xs.take (leaders key xs).length = leaders key xs := by
    rw [@take_leaders α κ _ key xs _ le_rfl, List.take_length]
  have all_read : ∀ x ∈ (leaders key xs).take (leaders key xs).length,
      (read x).isSome = true := by
    intro x member
    rw [← @take_leaders α κ _ key xs _ le_rfl] at member
    exact readable x (List.take_subset_take_left xs (by omega) member)
  obtain ⟨first, round⟩ := takeTurns_leaders sorted le_rfl all_read
  rw [List.rotate_length, leaders_append] at round
  rw [List.take_length] at first all_read
  have behind : xs.drop (leaders key xs).length = followers key xs := by
    have dropped := @List.drop_left _ (leaders key xs) (followers key xs)
    rwa [leaders_append] at dropped
  -- Behind the leaders the turns start over, where the list has a follower.
  rw [Nat.add_assoc, takeTurns_add, round, List.map_append, first, List.take_add,
    List.map_append, front, behind] at taken
  have again := List.append_cancel_left taken
  have lower := followers_lower sorted
  have split := @leaders_append α κ _ key xs
  cases followed : followers key xs with
  | nil =>
    rw [followed, List.append_nil] at split
    rw [split] at past within
    omega
  | cons z others =>
    cases xs with
    | nil => cases followed
    | cons x xs =>
      obtain ⟨b, found⟩ := Option.isSome_iff_exists.mp (all_read x List.mem_cons_self)
      rw [followed, List.take_succ_cons, List.map_cons, takeTurns, takeTurn, found] at again
      have same : some b = read z := (List.cons.inj again).1
      have less := lower x List.mem_cons_self z (by rw [followed]; exact List.mem_cons_self)
      rw [← keyed x b found, ← keyed z b same.symm] at less
      exact less.false

/-- Turns read what is in front and leave it there exactly if it can be read, there are not
    more turns than leaders, and as many turns bring the leaders round. -/
theorem readInPlace_iff {other : β → κ} (keyed : ∀ x b, read x = some b → other b = key x)
    (sorted : Descending key xs) (within : n ≤ xs.length) :
    ReadInPlace key read n xs ↔ (∀ x ∈ xs.take n, (read x).isSome = true) ∧
      n ≤ (leaders key xs).length ∧ (leaders key xs).rotate n = leaders key xs := by
  constructor
  · intro in_place
    have readable : ∀ x ∈ xs.take n, (read x).isSome = true := by
      intro x member
      have listed := List.mem_map_of_mem (f := read) member
      rw [← in_place.1] at listed
      obtain ⟨b, -, same⟩ := List.mem_map.mp listed
      rw [← same]
      rfl
    have few : n ≤ (leaders key xs).length := Nat.le_of_not_lt fun past =>
      not_readInPlace_past keyed sorted within past readable in_place
    refine ⟨readable, few, ?_⟩
    rw [take_leaders few] at readable
    have turned := (takeTurns_leaders sorted few readable).2.symm.trans in_place.2
    conv at turned => rhs; rw [← @leaders_append α κ _ key xs]
    exact List.append_cancel_right turned
  · rintro ⟨readable, few, round⟩
    rw [take_leaders few] at readable
    obtain ⟨taken, left⟩ := takeTurns_leaders sorted few readable
    rw [round, leaders_append] at left
    rw [← take_leaders few] at taken
    exact ⟨taken, left⟩

/-- Among leaders of which none is there twice only a full round changes nothing. -/
theorem rotate_leaders_iff (distinct : (leaders key xs).Nodup)
    (few : n ≤ (leaders key xs).length) :
    (leaders key xs).rotate n = leaders key xs ↔ n = 0 ∨ n = (leaders key xs).length := by
  rw [distinct.rotate_eq_self_iff, ← List.length_eq_zero_iff]
  constructor
  · rintro (whole | none_there)
    · rcases Nat.lt_or_eq_of_le few with less | same
      · exact .inl ((Nat.mod_eq_of_lt less).symm.trans whole)
      · exact .inr same
    · exact .inl (by omega)
  · rintro (rfl | rfl)
    · exact .inl (Nat.zero_mod _)
    · exact .inl (Nat.mod_self _)

end StableList
