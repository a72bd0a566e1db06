import RocketmqBroker.Lib.StableList

/-!
Waiting lines where everyone draws a ticket on arrival. Who leaves the front and comes back has no
ticket any more. The line is in descending order of a key; within one key it is served in the
order of arrival, however often others come back.
-/
namespace WaitingLine
open StableList

abbrev Ticketed (α : Type) := Option Nat × α

/-- What can become of a line. Who goes from the front is served, or is not. -/
inductive Change (α : Type) where
  | stay
  | arrive (x : α)
  | comeBack (x : α)
  | renew (x : α)
  | rotate (x : α)
  | leave (served : Option α)
  | evict
  | clear
  | remove (p : α → Bool)
  | refill (xs : List α)

def Change.still {α : Type} : Change α → Bool
  | renew _ => false
  | rotate _ => false
  | leave _ => false
  | _ => true

/-- Whoever goes from the front is the first in the line as far as the tag tells. -/
def Change.Fits {α ι : Type} (tag : α → ι) (line : List (Ticketed α)) : Change α → Prop
  | renew x => ∀ first ∈ line.head?, tag first.2 = tag x
  | rotate x => ∀ first ∈ line.head?, tag first.2 = tag x
  | leave (some x) => ∀ first ∈ line.head?, tag first.2 = tag x
  | _ => True

theorem Change.still_fits {α ι : Type} {tag : α → ι} {line : List (Ticketed α)} {c : Change α}
    (still : c.still = true) : c.Fits tag line := by
  cases c with
  | renew | rotate | leave => contradiction
  | _ => trivial

def Bears {α ι : Type} (tag : α → ι) (drawn : List ι) (xs : List (Ticketed α)) : Prop :=
  ∀ t x, (some t, x) ∈ xs → drawn[t]? = some (tag x)

section
variable {α κ : Type} [LinearOrder κ] (key : α → κ)

def Change.plain (xs : List α) : Change α → List α
  | stay => xs
  | arrive x => insertBack key x xs
  | comeBack x => insertFront key x xs
  | renew x => xs.head?.elim [] fun _ => x :: xs.tail
  | rotate x => insertBack key x xs.tail
  | leave _ => xs.tail
  | evict => (takeLowest key xs).elim xs Prod.snd
  | clear => []
  | remove p => xs.filter fun x => !p x
  | refill ys => ys

def Change.apply (given : Nat) (line : List (Ticketed α)) : Change α → List (Ticketed α)
  | stay => line
  | arrive x => insertBack (key ·.2) (some given, x) line
  | comeBack x => insertFront (key ·.2) (none, x) line
  | renew x => line.head?.elim [] fun first => (first.1, x) :: line.tail
  | rotate x => insertBack (key ·.2) (none, x) line.tail
  | leave _ => line.tail
  | evict => (takeLowest (key ·.2) line).elim line Prod.snd
  | clear => []
  | remove p => line.filter fun x => !p x.2
  | refill ys => ys.map (none, ·)

def Change.serves (line : List (Ticketed α)) : Change α → List (Ticketed α)
  | rotate x => line.head?.toList.map fun first => (first.1, x)
  | leave (some x) => line.head?.toList.map fun first => (first.1, x)
  | _ => []

theorem Change.still_serves {line : List (Ticketed α)} {c : Change α} (still : c.still = true) :
    c.serves line = [] := by
  cases c with
  | renew | rotate | leave => contradiction
  | _ => rfl

def Change.arrives : Change α → List α
  | arrive x => [x]
  | _ => []

def tickets (k : κ) (xs : List (Ticketed α)) : List Nat :=
  (xs.filter (key ·.2 = k)).filterMap Prod.fst

/-- Within each key, those who are served and then those who wait have ascending tickets, all of
    them drawn. -/
structure Orderly (given : Nat) (served line : List (Ticketed α)) : Prop where
  ascending : ∀ k, (tickets key k (served ++ line)).Pairwise (· < ·)
  drawn : ∀ k, ∀ t ∈ tickets key k (served ++ line), t < given

variable {key} {given : Nat} {served line line' : List (Ticketed α)}

theorem tickets_append (k : κ) (xs ys : List (Ticketed α)) :
    tickets key k (xs ++ ys) = tickets key k xs ++ tickets key k ys := by
  rw [tickets, List.filter_append, List.filterMap_append]
  rfl

theorem tickets_same {t : Option Nat} {x y : α} (same : key x = key y) (k : κ)
    (xs : List (Ticketed α)) : tickets key k ((t, x) :: xs) = tickets key k ((t, y) :: xs) := by
  unfold tickets
  rw [List.filter_cons, List.filter_cons]
  simp only [same]
  split <;> rfl

theorem tickets_none (k : κ) (xs : List α) : tickets key k (xs.map (none, ·)) = [] := by
  induction xs with
  | nil => rfl
  | cons x xs ih =>
    rw [List.map_cons, tickets, List.filter_cons]
    split <;> exact ih

theorem tickets_insertFront (sorted : Descending (key ·.2) line) (k : κ) (x : α) :
    tickets key k (insertFront (key ·.2) (none, x) line) = tickets key k line := by
  rw [tickets, insertFront_stable _ sorted, List.filterMap_append]
  exact congrArg (· ++ tickets key k line) (tickets_none k [x])

theorem tickets_insertBack (sorted : Descending (key ·.2) line) (k : κ) (t : Option Nat) (x : α) :
    tickets key k (insertBack (key ·.2) (t, x) line) =
      tickets key k line ++ tickets key k [(t, x)] := by
  rw [tickets, insertBack_stable _ sorted, List.filterMap_append]
  rfl

theorem Orderly.same {served' : List (Ticketed α)} (h : Orderly key given served line)
    (tickets_eq : ∀ k, tickets key k (served' ++ line') = tickets key k (served ++ line)) :
    Orderly key given served' line' where
  ascending k := tickets_eq k ▸ h.ascending k
  drawn k := tickets_eq k ▸ h.drawn k

theorem Orderly.waits (h : Orderly key given served line)
    (waiting : ∀ k, tickets key k line' = tickets key k line) :
    Orderly key given (served ++ []) line' := by
  refine h.same fun k => ?_
  rw [List.append_nil, tickets_append, waiting, ← tickets_append]

theorem Orderly.fewer (h : Orderly key given served line) (fewer : line'.Sublist line) :
    Orderly key given served line' := by
  have sub (k : κ) : (tickets key k (served ++ line')).Sublist (tickets key k (served ++ line)) :=
    (((List.Sublist.refl served).append fewer).filter _).filterMap _
  exact ⟨fun k => (h.ascending k).sublist (sub k),
    fun k t member => h.drawn k t ((sub k).subset member)⟩

theorem Orderly.arrive (h : Orderly key given served line) (sorted : Descending (key ·.2) line)
    (x : α) : Orderly key (given + 1) served (insertBack (key ·.2) (some given, x) line) := by
  have all (k : κ) : tickets key k (served ++ insertBack (key ·.2) (some given, x) line) =
      tickets key k (served ++ line) ++ tickets key k [(some given, x)] := by
    rw [tickets_append, tickets_insertBack sorted, tickets_append, List.append_assoc]
  have last (k : κ) : ∀ t ∈ tickets key k [(some given, x)], t = given := by
    intro t member
    obtain ⟨e, inside, ticket⟩ := List.mem_filterMap.mp member
    rw [List.mem_singleton.mp (List.mem_filter.mp inside).1] at ticket
    exact (Option.some.inj ticket).symm
  constructor
  · intro k
    rw [all, List.pairwise_append]
    refine ⟨h.ascending k, ?_, fun t earlier t' latest => last k t' latest ▸ h.drawn k t earlier⟩
    exact (List.pairwise_singleton (· < ·) given).sublist
      (List.Sublist.filterMap Prod.fst List.filter_sublist)
  · intro k t member
    rw [all] at member
    rcases List.mem_append.mp member with old | new
    · exact Nat.lt_succ_of_lt (h.drawn k t old)
    · exact last k t new ▸ Nat.lt_succ_self _

theorem mem_insertBack {xs : List α} {x y : α} (member : y ∈ insertBack key x xs) :
    y = x ∨ y ∈ xs := by
  rw [insertBack, List.mem_append, List.mem_cons] at member
  rcases member with front | rfl | back
  · exact .inr ((List.takeWhile_sublist _).subset front)
  · exact .inl rfl
  · exact .inr ((List.dropWhile_sublist _).subset back)

theorem mem_insertFront {xs : List α} {x y : α} (member : y ∈ insertFront key x xs) :
    y = x ∨ y ∈ xs := by
  rw [insertFront, List.mem_append, List.mem_cons] at member
  rcases member with front | rfl | back
  · exact .inr ((List.takeWhile_sublist _).subset front)
  · exact .inl rfl
  · exact .inr ((List.dropWhile_sublist _).subset back)

theorem takeLowest_sublist {xs rest : List α} {x : α} (taken : takeLowest key xs = some (x, rest)) :
    rest.Sublist xs := by
  obtain ⟨last, -, taken⟩ := Option.bind_eq_some_iff.mp taken
  obtain ⟨y, -, same⟩ := Option.map_eq_some_iff.mp taken
  rw [← (Prod.mk.inj same).2]
  have fewer : (xs.takeWhile (fun y => key last < key y) ++
      (xs.dropWhile fun y => key last < key y).tail).Sublist
      (xs.takeWhile (fun y => key last < key y) ++ xs.dropWhile fun y => key last < key y) :=
    (List.Sublist.refl _).append (List.tail_sublist _)
  rw [List.takeWhile_append_dropWhile] at fewer
  exact fewer

/-- The tickets change nothing for the line. -/
theorem map_apply (c : Change α) (given : Nat) (line : List (Ticketed α)) :
    (c.apply key given line).map Prod.snd = c.plain key (line.map Prod.snd) := by
  have same (y : Ticketed α) : key y.2 = key y.2 := rfl
  cases c with
  | stay | clear => rfl
  | arrive x => exact (insertBack_map same (some given, x) line).symm
  | comeBack x => exact (insertFront_map same (none, x) line).symm
  | renew x =>
    cases line with
    | nil => rfl
    | cons first line => rfl
  | rotate x =>
    rw [Change.apply, Change.plain, ← List.map_tail]
    exact (insertBack_map same (none, x) line.tail).symm
  | leave served => exact List.map_tail
  | evict =>
    rw [Change.apply, Change.plain, takeLowest_map same]
    cases takeLowest (fun x : Ticketed α => key x.2) line <;> rfl
  | remove p =>
    rw [Change.apply, Change.plain, List.filter_map]
    rfl
  | refill xs =>
    rw [Change.apply, Change.plain, List.map_map]
    exact List.map_id xs

theorem Orderly.leave (h : Orderly key given served line) (x : α)
    (fits : ∀ first ∈ line.head?, key first.2 = key x) :
    Orderly key given (served ++ line.head?.toList.map fun first => (first.1, x)) line.tail := by
  cases line with
  | nil => exact h.same fun k => by rw [List.append_assoc]; rfl
  | cons first line =>
    refine h.same fun k => ?_
    rw [List.append_assoc, tickets_append k served, tickets_append k served]
    exact congrArg (tickets key k served ++ ·) (tickets_same (fits first rfl).symm k line)

/-- One change keeps the order, if the line is sorted by the key. -/
theorem Orderly.change (h : Orderly key given served line) (sorted : Descending (key ·.2) line)
    (c : Change α) (fits : c.Fits key line) :
    Orderly key (given + c.arrives.length) (served ++ c.serves line) (c.apply key given line) := by
  have idle {line' : List (Ticketed α)} (sub : line'.Sublist line) :
      Orderly key given (served ++ []) line' := (List.append_nil served).symm ▸ h.fewer sub
  cases c with
  | stay => exact idle (List.Sublist.refl _)
  | clear => exact idle (List.nil_sublist _)
  | remove p => exact idle List.filter_sublist
  | arrive x =>
    have arrived := h.arrive sorted x
    exact (List.append_nil served).symm ▸ arrived
  | comeBack x =>
    exact h.waits fun k => tickets_insertFront sorted k x
  | renew x =>
    cases line with
    | nil => exact idle (List.Sublist.refl _)
    | cons first line =>
      exact h.waits fun k => tickets_same (fits first rfl).symm k line
  | rotate x =>
    refine (h.leave x fits).same fun k => ?_
    have tail : Descending (fun y : Ticketed α => key y.2) line.tail :=
      List.Pairwise.sublist (List.tail_sublist line) sorted
    have none : tickets key k [((none : Option Nat), x)] = [] := tickets_none k [x]
    rw [tickets_append, Change.apply, tickets_insertBack tail, none, List.append_nil,
      ← tickets_append]
    rfl
  | leave given =>
    cases given with
    | none => exact idle (List.tail_sublist line)
    | some x => exact h.leave x fits
  | evict =>
    refine idle ?_
    rw [Change.apply]
    cases taken : takeLowest (fun x : Ticketed α => key x.2) line with
    | none => exact List.Sublist.refl _
    | some pair => exact takeLowest_sublist taken
  | refill xs =>
    refine (idle (List.nil_sublist line)).same fun k => ?_
    change tickets key k ((served ++ []) ++ xs.map (none, ·)) = _
    rw [tickets_append, tickets_none, List.append_nil, List.append_nil, List.append_nil]

section
variable {ι : Type} {tag : α → ι} {drawn : List ι}

theorem Change.origin {c : Change α} (fits : c.Fits tag line) {e : Ticketed α}
    (member : e ∈ c.serves line ++ c.apply key given line) :
    e.1 = none ∨ (∃ old ∈ line, old.1 = e.1 ∧ tag old.2 = tag e.2) ∨
      e.1 = some given ∧ c.arrives = [e.2] := by
  have kept (inside : e ∈ line) : e.1 = none ∨ (∃ old ∈ line, old.1 = e.1 ∧ tag old.2 = tag e.2) ∨
      e.1 = some given ∧ c.arrives = [e.2] := .inr (.inl ⟨e, inside, rfl, rfl⟩)
  have left {x : α} (fits : ∀ first ∈ line.head?, tag first.2 = tag x)
      (gone : e ∈ line.head?.toList.map fun first => (first.1, x)) :
      ∃ old ∈ line, old.1 = e.1 ∧ tag old.2 = tag e.2 := by
    obtain ⟨first, front, rfl⟩ := List.mem_map.mp gone
    have front : first ∈ line.head? := Option.mem_toList.mp front
    exact ⟨first, List.mem_of_mem_head? front, rfl, fits first front⟩
  cases c with
  | stay => exact kept member
  | clear => contradiction
  | remove p => exact kept (List.mem_filter.mp member).1
  | arrive x =>
    have member : e ∈ insertBack (key ·.2) (some given, x) line := member
    rcases mem_insertBack member with rfl | old
    · exact .inr (.inr ⟨rfl, rfl⟩)
    · exact kept old
  | comeBack x =>
    have member : e ∈ insertFront (key ·.2) (none, x) line := member
    rcases mem_insertFront member with rfl | old
    · exact .inl rfl
    · exact kept old
  | renew x =>
    cases line with
    | nil => contradiction
    | cons first line =>
      rcases List.mem_cons.mp member with rfl | old
      · exact .inr (.inl ⟨first, List.mem_cons_self, rfl, fits first rfl⟩)
      · exact kept (List.mem_cons_of_mem _ old)
  | rotate x =>
    rcases List.mem_append.mp member with gone | waits
    · exact .inr (.inl (left fits gone))
    · have waits : e ∈ insertBack (key ·.2) (none, x) line.tail := waits
      rcases mem_insertBack waits with rfl | old
      · exact .inl rfl
      · exact kept (List.mem_of_mem_tail old)
  | leave given =>
    rcases List.mem_append.mp member with gone | waits
    · cases given with
      | none => contradiction
      | some x => exact .inr (.inl (left fits gone))
    · exact kept (List.mem_of_mem_tail waits)
  | evict =>
    have member : e ∈ (takeLowest (key ·.2) line).elim line Prod.snd := member
    cases taken : takeLowest (fun x : Ticketed α => key x.2) line with
    | none =>
      rw [taken] at member
      exact kept member
    | some pair =>
      rw [taken] at member
      exact kept ((takeLowest_sublist taken).subset member)
  | refill xs =>
    obtain ⟨x, -, rfl⟩ := List.mem_map.mp member
    exact .inl rfl

theorem Bears.change (h : Bears tag drawn (served ++ line)) {c : Change α}
    (fits : c.Fits tag line) :
    Bears tag (drawn ++ c.arrives.map tag)
      ((served ++ c.serves line) ++ c.apply key drawn.length line) := by
  intro t x member
  have earlier {xs : List ι} {y : α} (drew : drawn[t]? = some (tag y)) :
      (drawn ++ xs)[t]? = some (tag y) := by
    obtain ⟨inside, -⟩ := List.getElem?_eq_some_iff.mp drew
    rw [List.getElem?_append_left inside, drew]
  rw [List.append_assoc] at member
  rcases List.mem_append.mp member with before | now
  · exact earlier (h t x (List.mem_append_left _ before))
  · rcases Change.origin fits now with none | ⟨⟨t', y⟩, old, ticket, same⟩ | ⟨ticket, arrives⟩
    · contradiction
    · cases ticket
      exact (earlier (h t y (List.mem_append_right _ old))).trans (congrArg some same)
    · cases ticket
      rw [arrives, List.map_singleton, List.getElem?_concat_length]

end

end

end WaitingLine
