import Mathlib.Data.List.Basic
import Mathlib.Data.List.Rotate

/-!
Things handed out in turn. A pointer goes around a list, and the next turn is that of the first one
from there on that has room; whether one has room may depend on who had a turn before.
-/
namespace RoundRobin
variable {κ : Type}

section
variable (eligible : κ → Bool) (xs : List κ)

def pick (pointer : Nat) : Nat → Nat × Option κ
  | 0 => (pointer, none)
  | steps + 1 =>
    match xs[pointer % xs.length]? with
    | none => (pointer, none)
    | some x => if eligible x then (pointer + 1, some x) else pick (pointer + 1) steps

variable {eligible xs} {x : κ}

theorem pick_eq_some {pointer steps next : Nat}
    (picked : pick eligible xs pointer steps = (next, some x)) :
    x ∈ xs ∧ eligible x = true := by
  induction steps generalizing pointer with
  | zero => cases picked
  | succ steps ih =>
    unfold pick at picked
    split at picked
    · cases picked
    · rename_i y here
      split at picked
      · rename_i room
        obtain ⟨-, same⟩ := Prod.mk.inj picked
        obtain rfl := Option.some.inj same
        exact ⟨List.mem_of_getElem? here, room⟩
      · exact ih picked

theorem pick_eq_none {steps : Nat} (pointer : Nat)
    (none : (pick eligible xs pointer steps).2 = none)
    {i : Nat} (here : xs[i]? = some x) (offset : Nat) (within : offset < steps)
    (on_way : (pointer + offset) % xs.length = i) : eligible x = false := by
  induction steps generalizing pointer offset with
  | zero => omega
  | succ steps ih =>
    unfold pick at none
    split at none
    · rename_i nothing
      have bound : pointer % xs.length < xs.length := by
        have := (List.getElem?_eq_some_iff.mp here).1
        exact Nat.mod_lt _ (by omega)
      rw [List.getElem?_eq_getElem bound] at nothing
      cases nothing
    · rename_i y first
      split at none
      · cases none
      · rename_i full
        cases offset with
        | zero =>
          rw [Nat.add_zero] at on_way
          rw [on_way, here] at first
          obtain rfl := Option.some.inj first
          exact Bool.eq_false_iff.mpr full
        | succ offset =>
          have later : (pointer + 1 + offset) % xs.length = i := by
            rw [Nat.add_assoc, Nat.add_comm 1 offset]
            exact on_way
          exact ih (pointer + 1) none offset (by omega) later

theorem offset_to (pointer : Nat) {i n : Nat} (bound : i < n) :
    ∃ offset < n, (pointer + offset) % n = i := by
  have split := Nat.div_add_mod pointer n
  have start := Nat.mod_lt pointer (Nat.zero_lt_of_lt bound)
  by_cases ahead : pointer % n ≤ i
  · refine ⟨i - pointer % n, by omega, ?_⟩
    have place : pointer + (i - pointer % n) = n * (pointer / n) + i := by omega
    rw [place, Nat.mul_add_mod, Nat.mod_eq_of_lt bound]
  · refine ⟨i + n - pointer % n, by omega, ?_⟩
    have place : pointer + (i + n - pointer % n) = n * (pointer / n + 1) + i := by
      rw [Nat.mul_add]
      omega
    rw [place, Nat.mul_add_mod, Nat.mod_eq_of_lt bound]

theorem full_of_pick_none {pointer : Nat}
    (none : (pick eligible xs pointer xs.length).2 = none) (member : x ∈ xs) :
    eligible x = false := by
  obtain ⟨i, bound, here⟩ := List.mem_iff_getElem.mp member
  obtain ⟨offset, within, on_way⟩ := offset_to pointer bound
  exact pick_eq_none pointer none (List.getElem?_eq_some_iff.mpr ⟨bound, here⟩) offset within on_way

/-- A search finds nobody only if nobody has room, and else somebody who has. -/
def Finds (eligible : κ → Bool) (xs : List κ) (found : Option κ) : Prop :=
  (found = none ↔ ∀ x ∈ xs, eligible x = false) ∧ ∀ x ∈ found, x ∈ xs ∧ eligible x = true

theorem finds_pick (pointer : Nat) :
    Finds eligible xs (pick eligible xs pointer xs.length).2 := by
  refine ⟨⟨fun none x member => full_of_pick_none none member, fun full => ?_⟩, ?_⟩
  · cases found : (pick eligible xs pointer xs.length).2 with
    | none => rfl
    | some x =>
      obtain ⟨member, room⟩ := pick_eq_some (Prod.ext rfl found)
      rw [full x member] at room
      cases room
  · exact fun x found => pick_eq_some (Prod.ext rfl found)

theorem pick_first {pointer steps : Nat} (here : xs[pointer % xs.length]? = some x)
    (room : eligible x = true) (some_steps : 0 < steps) :
    pick eligible xs pointer steps = (pointer + 1, some x) := by
  cases steps with
  | zero => cases some_steps
  | succ steps =>
    unfold pick
    rw [here]
    dsimp only
    rw [if_pos room]

end

section
variable {eligible : Nat → κ → Bool} {xs : List κ} {pointers : Nat → Nat}

def EachOnce (xs : List κ) (results : Nat → Option κ) : Prop :=
  ((List.range xs.length).map results).Perm (xs.map some)

theorem eachOnce_picks (all : ∀ i < xs.length, ∀ x ∈ xs, eligible i x = true)
    (goes_on : ∀ i, i + 1 < xs.length →
      pointers (i + 1) = (pick (eligible i) xs (pointers i) xs.length).1) :
    EachOnce xs fun i => (pick (eligible i) xs (pointers i) xs.length).2 := by
  have turn (i : Nat) (within : i < xs.length) : pick (eligible i) xs (pointers i) xs.length =
      (pointers i + 1, xs[pointers i % xs.length]?) := by
    have nonempty := Nat.zero_lt_of_lt within
    have here := List.getElem?_eq_getElem (Nat.mod_lt (pointers i) nonempty)
    rw [here]
    exact pick_first here (all i within _ (List.mem_of_getElem? here)) nonempty
  have moved (i : Nat) (within : i < xs.length) : pointers i = pointers 0 + i := by
    induction i with
    | zero => rfl
    | succ i ih =>
      have before := Nat.lt_of_succ_lt within
      rw [goes_on i within, turn i before, ih before, Nat.add_assoc]
  have turned : (List.range xs.length).map
      (fun i => (pick (eligible i) xs (pointers i) xs.length).2) =
        (xs.rotate (pointers 0)).map some := by
    refine List.ext_getElem (by simp) fun i within within' => ?_
    have inside : i < xs.length := by simpa using within
    rw [List.getElem_map, List.getElem_map, List.getElem_range, List.getElem_rotate,
      turn i inside]
    change xs[pointers i % xs.length]? = _
    simp only [moved i inside, Nat.add_comm i]
    exact List.getElem?_eq_getElem _
  unfold EachOnce
  rw [turned]
  exact (xs.rotate_perm (pointers 0)).map some

end

/-- Calls take turns: each finds somebody with room if there is somebody, from wherever it starts,
    and as many as there are elements, each of which goes on from the one before while all have
    room, find each element once. -/
structure TakesTurns {σ : Type} (xs : List κ) (eligible : σ → κ → Bool) (known : σ → Prop)
    (call : σ → Option κ) (goesOn : σ → σ → Prop) : Prop where
  finds : ∀ s, known s → Finds (eligible s) xs (call s)
  rotates : ∀ calls : Nat → σ, (∀ i, known (calls i)) →
    (∀ i < xs.length, ∀ x ∈ xs, eligible (calls i) x = true) →
    (∀ i, i + 1 < xs.length → goesOn (calls i) (calls (i + 1))) →
    EachOnce xs fun i => call (calls i)

theorem takesTurns {σ : Type} {xs : List κ} {eligible : σ → κ → Bool} {known : σ → Prop}
    {call : σ → Option κ} {goesOn : σ → σ → Prop} (pointer : σ → Nat)
    (turn : ∀ s, known s → call s = (pick (eligible s) xs (pointer s) xs.length).2)
    (moves : ∀ s t, known s → known t → goesOn s t →
      pointer t = (pick (eligible s) xs (pointer s) xs.length).1) :
    TakesTurns xs eligible known call goesOn := by
  constructor
  · intro s here
    rw [turn s here]
    exact finds_pick (pointer s)
  · intro calls here all follows
    simp only [turn _ (here _)]
    exact eachOnce_picks all fun i within => moves _ _ (here i) (here (i + 1)) (follows i within)

section
variable (room : List κ → κ → Bool) (xs : List κ) (start : Nat)

/-- Who has had the first so many turns, and where the pointer is then; none when somewhere before
    nobody has room. -/
def schedule : Nat → Option (List κ × Nat)
  | 0 => some ([], start)
  | i + 1 =>
    match schedule i with
    | none => none
    | some (before, pointer) =>
      match pick (room before) xs pointer xs.length with
      | (next, some x) => some (before ++ [x], next)
      | (_, none) => none

def turnAt (i : Nat) : Option κ :=
  (schedule room xs start i).bind fun turns => (pick (room turns.1) xs turns.2 xs.length).2

variable {room xs start} {i : Nat} {turns : List κ} {pointer : Nat}

theorem concat_eq_some {x y : κ} (here : (turns ++ [x])[i]? = some y) :
    (i < turns.length ∧ turns[i]? = some y) ∨ i = turns.length ∧ y = x := by
  by_cases old : i < turns.length
  · rw [List.getElem?_append_left old] at here
    exact .inl ⟨old, here⟩
  · have last : i = turns.length := by
      have := (List.getElem?_eq_some_iff.mp here).1
      rw [List.length_append, List.length_singleton] at this
      omega
    rw [last, List.getElem?_concat_length] at here
    exact .inr ⟨last, (Option.some.inj here).symm⟩

theorem turnAt_of_schedule (known : schedule room xs start i = some (turns, pointer)) :
    turnAt room xs start i = (pick (room turns) xs pointer xs.length).2 := by
  unfold turnAt
  rw [known]
  rfl

theorem schedule_succ {x : κ} {next : Nat}
    (known : schedule room xs start i = some (turns, pointer))
    (picked : pick (room turns) xs pointer xs.length = (next, some x)) :
    schedule room xs start (i + 1) = some (turns ++ [x], next) := by
  unfold schedule
  rw [known]
  dsimp only
  rw [picked]

/-- One turn more is a turn of somebody with room. -/
theorem schedule_succ_eq_some (known : schedule room xs start (i + 1) = some (turns, pointer)) :
    ∃ before p x, schedule room xs start i = some (before, p) ∧
      pick (room before) xs p xs.length = (pointer, some x) ∧ turns = before ++ [x] := by
  unfold schedule at known
  split at known
  · cases known
  · rename_i before p earlier
    split at known
    · rename_i next x picked
      obtain ⟨rfl, rfl⟩ := Prod.mk.inj (Option.some.inj known)
      exact ⟨before, p, x, earlier, picked, rfl⟩
    · cases known

theorem schedule_length (known : schedule room xs start i = some (turns, pointer)) :
    turns.length = i := by
  induction i generalizing turns pointer with
  | zero =>
    obtain ⟨rfl, -⟩ := Prod.mk.inj (Option.some.inj known)
    rfl
  | succ i ih =>
    obtain ⟨before, p, x, earlier, -, rfl⟩ := schedule_succ_eq_some known
    rw [List.length_append, ih earlier]
    rfl

theorem schedule_fair (known : schedule room xs start i = some (turns, pointer)) {j : Nat} {x : κ}
    (here : turns[j]? = some x) : x ∈ xs ∧ room (turns.take j) x = true := by
  induction i generalizing turns pointer with
  | zero =>
    obtain ⟨rfl, -⟩ := Prod.mk.inj (Option.some.inj known)
    cases here
  | succ i ih =>
    obtain ⟨before, p, y, earlier, picked, rfl⟩ := schedule_succ_eq_some known
    cases concat_eq_some here with
    | inl old =>
      rw [List.take_append_of_le_length (Nat.le_of_lt old.1)]
      exact ih earlier old.2
    | inr last =>
      obtain ⟨rfl, rfl⟩ := last
      rw [List.take_left]
      exact pick_eq_some picked

theorem schedule_turnAt (known : schedule room xs start i = some (turns, pointer)) {j : Nat} {x : κ}
    (here : turns[j]? = some x) : turnAt room xs start j = some x := by
  induction i generalizing turns pointer with
  | zero =>
    obtain ⟨rfl, -⟩ := Prod.mk.inj (Option.some.inj known)
    cases here
  | succ i ih =>
    obtain ⟨before, p, y, earlier, picked, rfl⟩ := schedule_succ_eq_some known
    cases concat_eq_some here with
    | inl old => exact ih earlier old.2
    | inr last =>
      obtain ⟨rfl, rfl⟩ := last
      rw [schedule_length earlier, turnAt_of_schedule earlier, picked]

theorem turnAt_mem {x : κ} (known : turnAt room xs start i = some x) : x ∈ xs := by
  obtain ⟨⟨turns, pointer⟩, -, picked⟩ := Option.bind_eq_some_iff.mp known
  exact (pick_eq_some (Prod.ext rfl picked)).1

theorem turnAt_before {j : Nat} {x : κ} (later : turnAt room xs start j = some x) (before : i < j) :
    ∃ y, turnAt room xs start i = some y := by
  obtain ⟨⟨turns, pointer⟩, known, -⟩ := Option.bind_eq_some_iff.mp later
  have bound : i < turns.length := by
    rw [schedule_length known]
    exact before
  exact ⟨turns[i], schedule_turnAt known (List.getElem?_eq_getElem bound)⟩

end
end RoundRobin
