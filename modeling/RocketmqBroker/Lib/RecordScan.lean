import Mathlib.Data.List.Basic

/-!
Streams of self-delimiting records. A codec writes one record, and takes one
record off the front of a stream or refuses it. Scanning repeats the second
until a refusal, so everything behind the refused bytes is given up.
-/
namespace RecordScan

structure Codec (α β : Type) where
  encode : α → List β
  next : List β → Option (α × List β)
  Valid : α → Prop
  next_encode : ∀ a tail, Valid a → next (encode a ++ tail) = some (a, tail)
  canonical : ∀ bs a rest, next bs = some (a, rest) → Valid a ∧ bs = encode a ++ rest
  encode_pos : ∀ a, 0 < (encode a).length

variable {α β : Type} (c : Codec α β)

def encodeAll (as : List α) : List β := as.flatMap c.encode

def scanFuel (next : List β → Option (α × List β)) : Nat → List β → List α
  | 0, _ => []
  | fuel + 1, bs =>
    match next bs with
    | none => []
    | some (a, rest) => a :: scanFuel next fuel rest

def scan (next : List β → Option (α × List β)) (bs : List β) : List α :=
  scanFuel next bs.length bs

/-- The leading records that end at or before position k. -/
def whole (k : Nat) : List α → List α
  | [] => []
  | a :: as => if (c.encode a).length ≤ k then a :: whole (k - (c.encode a).length) as else []

def torn (k : Nat) : List α → List β
  | [] => []
  | a :: as =>
    if (c.encode a).length ≤ k then torn (k - (c.encode a).length) as else (c.encode a).take k

@[simp] theorem encodeAll_nil : encodeAll c [] = [] := rfl

@[simp] theorem encodeAll_cons (a : α) (as : List α) :
    encodeAll c (a :: as) = c.encode a ++ encodeAll c as := by
  simp [encodeAll]

@[simp] theorem encodeAll_append (as bs : List α) :
    encodeAll c (as ++ bs) = encodeAll c as ++ encodeAll c bs := by
  simp [encodeAll]

theorem next_shrinks {bs rest : List β} {a : α} (h : c.next bs = some (a, rest)) :
    rest.length < bs.length := by
  have eq := (c.canonical bs a rest h).2
  have pos := c.encode_pos a
  have len := congrArg List.length eq
  simp only [List.length_append] at len
  omega

theorem next_nil : c.next [] = none := by
  cases h : c.next [] with
  | none => rfl
  | some found =>
    obtain ⟨a, rest⟩ := found
    have shorter := next_shrinks c h
    simp at shorter

theorem length_le_encodeAll (as : List α) : as.length ≤ (encodeAll c as).length := by
  induction as with
  | nil => exact Nat.le_refl _
  | cons a as ih =>
    have pos := c.encode_pos a
    rw [encodeAll_cons, List.length_append, List.length_cons]
    omega

theorem scanFuel_stable {fuel : Nat} {bs : List β} (enough : bs.length ≤ fuel) :
    scanFuel c.next fuel bs = scan c.next bs := by
  suffices same : ∀ n m bs, bs.length ≤ n → bs.length ≤ m →
      scanFuel c.next n bs = scanFuel c.next m bs from same _ _ _ enough (Nat.le_refl _)
  intro n
  induction n with
  | zero =>
    intro m bs hn _
    have empty : bs = [] := List.length_eq_zero_iff.mp (by omega)
    subst empty
    cases m with
    | zero => rfl
    | succ m => simp [scanFuel, next_nil]
  | succ n ih =>
    intro m bs hn hm
    cases h : c.next bs with
    | none => cases m <;> simp [scanFuel, h]
    | some found =>
      obtain ⟨a, rest⟩ := found
      have small := next_shrinks c h
      cases m with
      | zero => omega
      | succ m => simp only [scanFuel, h, ih m rest (by omega) (by omega)]

theorem scan_refused {bs : List β} (h : c.next bs = none) : scan c.next bs = [] := by
  cases bs with
  | nil => rfl
  | cons b bs => simp [scan, scanFuel, h]

theorem scan_accepted {bs rest : List β} {a : α} (h : c.next bs = some (a, rest)) :
    scan c.next bs = a :: scan c.next rest := by
  have small := next_shrinks c h
  cases bs with
  | nil => simp at small
  | cons b bs =>
    simp only [scan, List.length_cons, scanFuel, h]
    rw [scanFuel_stable c (by simpa using Nat.lt_succ_iff.mp small)]
    rfl

theorem scan_encodeAll_append {as : List α} (valid : ∀ a ∈ as, c.Valid a) (tail : List β) :
    scan c.next (encodeAll c as ++ tail) = as ++ scan c.next tail := by
  induction as with
  | nil => simp
  | cons a as ih =>
    have first : c.next (encodeAll c (a :: as) ++ tail) = some (a, encodeAll c as ++ tail) := by
      rw [encodeAll_cons, List.append_assoc]
      exact c.next_encode a _ (valid a (by simp))
    rw [scan_accepted c first, ih (fun b hb => valid b (by simp [hb])), List.cons_append]

theorem scan_encodeAll {as : List α} (valid : ∀ a ∈ as, c.Valid a) :
    scan c.next (encodeAll c as) = as := by
  have h := scan_encodeAll_append c valid []
  rw [List.append_nil, scan_refused c (next_nil c), List.append_nil] at h
  exact h

theorem scan_partition (bs : List β) :
    (∀ a ∈ scan c.next bs, c.Valid a) ∧
      ∃ left, bs = encodeAll c (scan c.next bs) ++ left ∧ c.next left = none := by
  induction h : bs.length using Nat.strongRecOn generalizing bs with
  | ind n ih =>
    cases hn : c.next bs with
    | none => simp [scan_refused c hn, hn]
    | some found =>
      obtain ⟨a, rest⟩ := found
      obtain ⟨ok, eq⟩ := c.canonical bs a rest hn
      obtain ⟨valid, left, split, stuck⟩ := ih rest.length (h ▸ next_shrinks c hn) rest rfl
      rw [scan_accepted c hn]
      refine ⟨?_, left, ?_, stuck⟩
      · intro b hb
        rcases List.mem_cons.mp hb with rfl | hb
        · exact ok
        · exact valid b hb
      · rw [encodeAll_cons, List.append_assoc, ← split, ← eq]

theorem scan_eq_iff {as : List α} (valid : ∀ a ∈ as, c.Valid a) (bs : List β) :
    scan c.next bs = as ↔ ∃ left, bs = encodeAll c as ++ left ∧ c.next left = none := by
  constructor
  · rintro rfl
    exact (scan_partition c bs).2
  · rintro ⟨left, rfl, stuck⟩
    rw [scan_encodeAll_append c valid, scan_refused c stuck, List.append_nil]

theorem next_strict_prefix {a : α} (valid : c.Valid a) {cut : List β}
    (pre : cut <+: c.encode a) (short : cut.length < (c.encode a).length) : c.next cut = none := by
  cases h : c.next cut with
  | none => rfl
  | some found =>
    obtain ⟨b, rest⟩ := found
    obtain ⟨more, whole⟩ := pre
    obtain ⟨vb, eq⟩ := c.canonical cut b rest h
    have one : c.next (c.encode a) = some (a, []) := by
      have := c.next_encode a [] valid
      rwa [List.append_nil] at this
    have two : c.next (c.encode a) = some (b, rest ++ more) := by
      rw [← whole, eq, List.append_assoc]
      exact c.next_encode b _ vb
    rw [one] at two
    have empty : rest ++ more = [] := ((Prod.mk.inj (Option.some.inj two)).2).symm
    have : more = [] := (List.append_eq_nil_iff.mp empty).2
    rw [this, List.append_nil] at whole
    rw [whole] at short
    omega

theorem cut_split (k : Nat) (as : List α) :
    (encodeAll c as).take k = encodeAll c (whole c k as) ++ torn c k as := by
  induction as generalizing k with
  | nil => simp [whole, torn]
  | cons a as ih =>
    rw [encodeAll_cons, List.take_append]
    by_cases fits : (c.encode a).length ≤ k
    · simp only [whole, torn, fits, ↓reduceIte, encodeAll_cons, List.append_assoc, ← ih]
      rw [List.take_of_length_le fits]
    · have none_left : k - (c.encode a).length = 0 := by omega
      simp [whole, torn, fits, none_left]

theorem whole_subset (k : Nat) (as : List α) : whole c k as ⊆ as := by
  induction as generalizing k with
  | nil => simp [whole]
  | cons a as ih =>
    simp only [whole]
    split
    · exact List.cons_subset_cons a (ih _)
    · simp

theorem whole_front (k : Nat) (as : List α) : whole c k as <+: as := by
  induction as generalizing k with
  | nil => exact List.prefix_rfl
  | cons a as ih =>
    simp only [whole]
    split
    · exact List.cons_prefix_cons.mpr ⟨rfl, ih _⟩
    · exact List.nil_prefix

theorem torn_prefix (k : Nat) (as : List α) : torn c k as = [] ∨
    ∃ a ∈ as, torn c k as <+: c.encode a ∧ (torn c k as).length < (c.encode a).length := by
  induction as generalizing k with
  | nil => exact .inl rfl
  | cons a as ih =>
    simp only [torn]
    split
    · rcases ih (k - (c.encode a).length) with none | ⟨b, member, front⟩
      · exact .inl none
      · exact .inr ⟨b, List.mem_cons_of_mem a member, front⟩
    · rename_i longer
      refine .inr ⟨a, List.mem_cons_self, List.take_prefix _ _, ?_⟩
      rw [List.length_take]
      omega

theorem torn_refused {as : List α} (valid : ∀ a ∈ as, c.Valid a) (k : Nat) :
    c.next (torn c k as) = none := by
  rcases torn_prefix c k as with none | ⟨a, member, front, short⟩
  · rw [none, next_nil]
  · exact next_strict_prefix c (valid a member) front short

theorem scan_cut {as : List α} (valid : ∀ a ∈ as, c.Valid a) (k : Nat) :
    scan c.next ((encodeAll c as).take k) = whole c k as := by
  rw [cut_split, scan_encodeAll_append c (fun a ha => valid a (whole_subset c k as ha)),
    scan_refused c (torn_refused c valid k), List.append_nil]

theorem whole_all {as : List α} (valid : ∀ a ∈ as, c.Valid a) :
    whole c (encodeAll c as).length as = as := by
  rw [← scan_cut c valid, List.take_length, scan_encodeAll c valid]

end RecordScan
