import Mathlib.Data.List.TakeWhile
import Mathlib.Order.Lattice

/-!
Lists in descending order of a key, where the elements of one key keep the order in which
they were added: at the back or at the front of their key.
-/
namespace StableList
variable {α κ : Type} [LinearOrder κ] (key : α → κ)

def Descending (xs : List α) : Prop := xs.Pairwise fun a b => key b ≤ key a

def insertBack (x : α) (xs : List α) : List α :=
  xs.takeWhile (fun y => key x ≤ key y) ++ x :: xs.dropWhile (fun y => key x ≤ key y)

def insertFront (x : α) (xs : List α) : List α :=
  xs.takeWhile (fun y => key x < key y) ++ x :: xs.dropWhile (fun y => key x < key y)

def takeLowest (xs : List α) : Option (α × List α) :=
  xs.getLast?.bind fun last =>
    (xs.dropWhile fun y => key last < key y).head?.map fun x =>
      (x, xs.takeWhile (fun y => key last < key y) ++
        (xs.dropWhile fun y => key last < key y).tail)

theorem takeWhile_split {p : α → Bool} {front back : List α} (yes : ∀ y ∈ front, p y = true)
    (no : ∀ y ∈ back, p y = false) : (front ++ back).takeWhile p = front ∧
      (front ++ back).dropWhile p = back := by
  induction front with
  | nil =>
    cases back with
    | nil => exact ⟨rfl, rfl⟩
    | cons y back => simp [no y]
  | cons y front ih =>
    have rest := ih fun z member => yes z (List.mem_cons_of_mem _ member)
    simp [yes y, rest]

variable {key} {x : α} {xs front back : List α}

theorem insertBack_split (high : ∀ y ∈ front, key x ≤ key y) (low : ∀ y ∈ back, key y < key x) :
    insertBack key x (front ++ back) = front ++ x :: back := by
  obtain ⟨taken, left⟩ := @takeWhile_split _ (fun y => key x ≤ key y) front back
    (fun y member => by simpa using high y member) (fun y member => by simpa using low y member)
  rw [insertBack, taken, left]

theorem insertFront_split (high : ∀ y ∈ front, key x < key y) (low : ∀ y ∈ back, key y ≤ key x) :
    insertFront key x (front ++ back) = front ++ x :: back := by
  obtain ⟨taken, left⟩ := @takeWhile_split _ (fun y => key x < key y) front back
    (fun y member => by simpa using high y member) (fun y member => by simpa using low y member)
  rw [insertFront, taken, left]

theorem insertFront_first (low : ∀ y ∈ xs, key y ≤ key x) : insertFront key x xs = x :: xs :=
  @insertFront_split _ _ _ key x [] xs (fun _ none => by cases none) low

theorem insertBack_last (high : ∀ y ∈ xs, key x ≤ key y) : insertBack key x xs = xs ++ [x] := by
  have split := @insertBack_split _ _ _ key x xs [] high (fun _ none => by cases none)
  rwa [List.append_nil] at split

theorem foldl_insertBack (sorted : Descending key (front ++ back)) :
    back.foldl (fun xs x => insertBack key x xs) front = front ++ back := by
  induction back generalizing front with
  | nil => exact (List.append_nil _).symm
  | cons x back ih =>
    have high : ∀ y ∈ front, key x ≤ key y := fun y member =>
      (List.pairwise_append.mp sorted).2.2 y member x List.mem_cons_self
    have parts : front ++ [x] ++ back = front ++ x :: back := List.append_assoc _ _ _
    rw [List.foldl_cons, insertBack_last high, ih (by rw [parts]; exact sorted), parts]

theorem insertBack_map {β : Type} {other : β → κ} {f : α → β} (same : ∀ y, other (f y) = key y)
    (x : α) (xs : List α) :
    insertBack other (f x) (xs.map f) = (insertBack key x xs).map f := by
  have keys : (fun y => decide (other (f x) ≤ other y)) ∘ f =
      fun y => decide (key x ≤ key y) := by
    funext y
    rw [Function.comp_apply, same, same]
  rw [insertBack, insertBack, List.map_append, List.map_cons, List.takeWhile_map,
    List.dropWhile_map, keys]

theorem insertFront_map {β : Type} {other : β → κ} {f : α → β} (same : ∀ y, other (f y) = key y)
    (x : α) (xs : List α) :
    insertFront other (f x) (xs.map f) = (insertFront key x xs).map f := by
  have keys : (fun y => decide (other (f x) < other y)) ∘ f =
      fun y => decide (key x < key y) := by
    funext y
    rw [Function.comp_apply, same, same]
  rw [insertFront, insertFront, List.map_append, List.map_cons, List.takeWhile_map,
    List.dropWhile_map, keys]

theorem takeLowest_map {β : Type} {other : β → κ} {f : α → β} (same : ∀ y, other (f y) = key y)
    (xs : List α) :
    takeLowest other (xs.map f) = (takeLowest key xs).map fun taken => (f taken.1, taken.2.map f) := by
  unfold takeLowest
  rw [List.getLast?_map, Option.map_bind, Option.bind_map]
  refine congrArg (Option.bind _) (funext fun last => ?_)
  have keys : (fun y => decide (other (f last) < other y)) ∘ f =
      fun y => decide (key last < key y) := by
    funext y
    rw [Function.comp_apply, same, same]
  simp only [Function.comp_apply, List.takeWhile_map, List.dropWhile_map, keys, List.head?_map,
    Option.map_map]
  refine congrArg (Option.map · _) (funext fun x => ?_)
  simp only [Function.comp_apply, List.map_append, List.map_tail]

theorem takeLowest_split (high : ∀ y ∈ front, key x < key y) (own : ∀ y ∈ back, key y = key x) :
    takeLowest key (front ++ x :: back) = some (x, front ++ back) := by
  have lowest : ∃ last, (front ++ x :: back).getLast? = some last ∧ key last = key x := by
    rw [List.getLast?_append, List.getLast?_cons, Option.some_or]
    refine ⟨_, rfl, ?_⟩
    cases found : back.getLast? with
    | none => rfl
    | some y => exact own y (List.mem_of_getLast? found)
  obtain ⟨last, found, same⟩ := lowest
  obtain ⟨taken, left⟩ := @takeWhile_split _ (fun y => key x < key y) front (x :: back)
    (fun y member => by simpa using high y member) (fun y member => by
      rcases List.mem_cons.mp member with rfl | later
      · simp
      · simp [own y later])
  rw [takeLowest, found, Option.bind_some, same, taken, left]
  rfl

theorem dropWhile_low {p : α → Bool} (closed : ∀ y z, key z ≤ key y → p z = true → p y = true)
    (sorted : Descending key xs) : ∀ y ∈ xs.dropWhile p, p y = false := by
  induction xs with
  | nil => simp
  | cons x xs ih =>
    obtain ⟨below, tail⟩ := List.pairwise_cons.mp sorted
    cases above : p x with
    | true =>
      rw [List.dropWhile_cons_of_pos above]
      exact ih tail
    | false =>
      rw [List.dropWhile_cons_of_neg (by simp [above])]
      intro y member
      rcases List.mem_cons.mp member with rfl | later
      · exact above
      · by_contra over_it
        have := closed x y (below y later) (by simpa using over_it)
        simp [above] at this

theorem back_split (x : α) (sorted : Descending key xs) : ∃ front back, xs = front ++ back ∧
    (∀ y ∈ front, key x ≤ key y) ∧ ∀ y ∈ back, key y < key x := by
  refine ⟨_, _, (List.takeWhile_append_dropWhile (p := fun y => key x ≤ key y)).symm, ?_, ?_⟩
  · intro y member
    simpa using List.mem_takeWhile_imp member
  · intro y member
    have low := dropWhile_low (fun y z less above => by
      simp only [decide_eq_true_eq] at above ⊢
      exact above.trans less) sorted y member
    simpa using low

theorem front_split (x : α) (sorted : Descending key xs) : ∃ front back, xs = front ++ back ∧
    (∀ y ∈ front, key x < key y) ∧ ∀ y ∈ back, key y ≤ key x := by
  refine ⟨_, _, (List.takeWhile_append_dropWhile (p := fun y => key x < key y)).symm, ?_, ?_⟩
  · intro y member
    simpa using List.mem_takeWhile_imp member
  · intro y member
    have low := dropWhile_low (fun y z less above => by
      simp only [decide_eq_true_eq] at above ⊢
      exact above.trans_le less) sorted y member
    simpa using low

theorem insertBack_stable (x : α) (sorted : Descending key xs) (k : κ) :
    (insertBack key x xs).filter (key · = k) =
      xs.filter (key · = k) ++ [x].filter (key · = k) := by
  obtain ⟨front, back, rfl, high, low⟩ := back_split x sorted
  rw [insertBack_split high low, List.filter_append, List.filter_append]
  by_cases own : key x = k
  · have none_behind : back.filter (key · = k) = [] :=
      List.filter_eq_nil_iff.mpr fun y member => by simpa [own] using (low y member).ne
    simp [own, none_behind]
  · simp [own]

theorem insertFront_stable (x : α) (sorted : Descending key xs) (k : κ) :
    (insertFront key x xs).filter (key · = k) =
      [x].filter (key · = k) ++ xs.filter (key · = k) := by
  obtain ⟨front, back, rfl, high, low⟩ := front_split x sorted
  rw [insertFront_split high low, List.filter_append, List.filter_append]
  by_cases own : key x = k
  · have none_before : front.filter (key · = k) = [] :=
      List.filter_eq_nil_iff.mpr fun y member => by simpa [own] using (high y member).ne'
    simp [own, none_before]
  · simp [own]

end StableList
