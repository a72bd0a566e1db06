import RocketmqBroker.Lib.Run
import Mathlib.Data.List.Basic
import Mathlib.Logic.Function.Basic

/-!
A state in memory that is saved to a file. A change and its saving are not one step: the state
is copied first and written later, the copies of several savers may be under way at once, and a
write may fail or break off. A restart reads the file back, and saves again. A change is one step,
and so is the taking of a copy: no change falls between the parts of either.

What memory and file carry is told by lists of changes: every keeper of states follows the one
that keeps nothing but these.
-/
namespace Saving
open Run

structure Keeper (σ δ ρ φ : Type) where
  apply : σ → δ → σ
  save : σ → φ
  load : ρ → φ → σ

structure Kept (σ φ : Type) where
  memory : σ
  file : φ
  copies : Nat → Option φ

inductive Written (φ : Type) where
  | whole
  | failed
  | torn (left : φ)

inductive Event (δ ρ φ : Type) where
  | change (d : δ)
  | copy (saver : Nat)
  | write (saver : Nat) (outcome : Written φ)
  | restart (choice : ρ) (outcome : Written φ)

variable {σ δ ρ φ : Type}

def Written.after (file content : φ) : Written φ → φ
  | whole => content
  | failed => file
  | torn left => left

def step (k : Keeper σ δ ρ φ) (s : Kept σ φ) : Event δ ρ φ → Kept σ φ
  | .change d => { s with memory := k.apply s.memory d }
  | .copy saver => { s with copies := Function.update s.copies saver (some (k.save s.memory)) }
  | .write saver outcome =>
    match s.copies saver with
    | some content => { s with
        file := outcome.after s.file content
        copies := Function.update s.copies saver none }
    | none => s
  | .restart choice outcome =>
    let memory := k.load choice s.file
    ⟨memory, outcome.after s.file (k.save memory), fun _ => none⟩

/-- What is kept are the changes. A file that cannot be read carries none of them. -/
def changes (δ ρ : Type) : Keeper (List δ) δ ρ (Option (List δ)) where
  apply ds d := ds ++ [d]
  save := some
  load _ file := file.getD []

/-- Of a torn file nothing is known but that it cannot be read. -/
def Written.blank {ψ : Type} : Written φ → Written (Option ψ)
  | whole => .whole
  | failed => .failed
  | torn _ => .torn none

def Event.blank : Event δ ρ φ → Event δ ρ (Option (List δ))
  | change d => .change d
  | copy saver => .copy saver
  | write saver outcome => .write saver outcome.blank
  | restart choice outcome => .restart choice outcome.blank

/-- The copy is written before another one is taken, and no write breaks off. -/
def Orderly (s : Kept σ φ) : Event δ ρ φ → Prop
  | .copy _ => ∀ saver, s.copies saver = none
  | .write _ (.torn _) | .restart _ (.torn _) => False
  | _ => True

def Event.left? : Event δ ρ φ → Option φ
  | write _ (.torn left) | restart _ (.torn left) => some left
  | _ => none

theorem Orderly.left?_eq_none {s : Kept σ φ} {e : Event δ ρ φ} (orderly : Orderly s e) :
    e.left? = none := by
  cases e with
  | change d => rfl
  | copy saver => rfl
  | write saver outcome =>
    cases outcome with
    | torn left => exact absurd orderly id
    | _ => rfl
  | restart choice outcome =>
    cases outcome with
    | torn left => exact absurd orderly id
    | _ => rfl

section
variable (k : Keeper σ δ ρ φ) (Carries : List δ → σ → Prop)

/-- The file carries these changes, or loads as if there had been none. -/
def FileCarries : Option (List δ) → φ → Prop
  | some ds, file => ∃ s, Carries ds s ∧ file = k.save s
  | none, file => ∀ choice, Carries [] (k.load choice file)

structure Reflects (l : Kept (List δ) (Option (List δ))) (s : Kept σ φ) : Prop where
  memory : Carries l.memory s.memory
  file : FileCarries k Carries l.file s.file
  copies : ∀ saver, Option.Rel (FileCarries k Carries) (l.copies saver) (s.copies saver)

variable {k Carries}

theorem carries_load
    (reload : ∀ choice ds s, Carries ds s → Carries ds (k.load choice (k.save s)))
    {content : Option (List δ)} {file : φ} (carries : FileCarries k Carries content file)
    (choice : ρ) : Carries (content.getD []) (k.load choice file) := by
  cases content with
  | none => exact carries choice
  | some ds =>
    obtain ⟨s, holds, rfl⟩ := carries
    exact reload choice ds s holds

theorem fileCarries_after {old new : Option (List δ)} {file content : φ}
    (before : FileCarries k Carries old file) (written : FileCarries k Carries new content)
    (outcome : Written φ)
    (unread : ∀ left, outcome = .torn left → ∀ choice, Carries [] (k.load choice left)) :
    FileCarries k Carries (outcome.blank.after old new) (outcome.after file content) := by
  cases outcome with
  | whole => exact written
  | failed => exact before
  | torn left => exact unread left rfl

theorem rel_update {R : Option (List δ) → φ → Prop} {ls : Nat → Option (Option (List δ))}
    {ss : Nat → Option φ} (rel : ∀ saver, Option.Rel R (ls saver) (ss saver)) (saver : Nat)
    {l : Option (Option (List δ))} {s : Option φ} (new : Option.Rel R l s) (i : Nat) :
    Option.Rel R (Function.update ls saver l i) (Function.update ss saver s i) := by
  by_cases same : i = saver
  · rw [same, Function.update_self, Function.update_self]
    exact new
  · rw [Function.update_of_ne same, Function.update_of_ne same]
    exact rel i

/-- One step of any keeper is one step of the changes that it carries. -/
theorem Reflects.step (change : ∀ ds s d, Carries ds s → Carries (ds ++ [d]) (k.apply s d))
    (reload : ∀ choice ds s, Carries ds s → Carries ds (k.load choice (k.save s)))
    {l : Kept (List δ) (Option (List δ))} {s : Kept σ φ} (follows : Reflects k Carries l s)
    (e : Event δ ρ φ) (unread : ∀ left ∈ e.left?, ∀ choice, Carries [] (k.load choice left)) :
    Reflects k Carries (Saving.step (changes δ ρ) l e.blank) (Saving.step k s e) := by
  obtain ⟨memory, file, copies⟩ := follows
  have saved {ds : List δ} {m : σ} (carries : Carries ds m) :
      FileCarries k Carries (some ds) (k.save m) := ⟨m, carries, rfl⟩
  cases e with
  | change d => exact ⟨change _ _ d memory, file, copies⟩
  | copy saver => exact ⟨memory, file, rel_update copies saver (.some (saved memory))⟩
  | write saver outcome =>
    have torn : ∀ left, outcome = .torn left → ∀ choice, Carries [] (k.load choice left) := by
      rintro left rfl
      exact unread left rfl
    have here := copies saver
    simp only [Event.blank, Saving.step]
    generalize l.copies saver = old, s.copies saver = new at here
    cases here with
    | none => exact ⟨memory, file, copies⟩
    | some content =>
      exact ⟨memory, fileCarries_after file content outcome torn, rel_update copies saver .none⟩
  | restart choice outcome =>
    have torn : ∀ left, outcome = .torn left → ∀ choice, Carries [] (k.load choice left) := by
      rintro left rfl
      exact unread left rfl
    have loaded := carries_load reload file choice
    exact ⟨loaded, fileCarries_after file (saved loaded) outcome torn, fun _ => .none⟩

theorem Reflects.run (change : ∀ ds s d, Carries ds s → Carries (ds ++ [d]) (k.apply s d))
    (reload : ∀ choice ds s, Carries ds s → Carries ds (k.load choice (k.save s)))
    {l : Kept (List δ) (Option (List δ))} {s : Kept σ φ} (follows : Reflects k Carries l s)
    {es : List (Event δ ρ φ)}
    (unread : ∀ e ∈ es, ∀ left ∈ e.left?, ∀ choice, Carries [] (k.load choice left)) :
    Reflects k Carries (Run.run (Saving.step (changes δ ρ)) l (es.map Event.blank))
      (Run.run (Saving.step k) s es) := by
  induction es generalizing l s with
  | nil => exact follows
  | cons e es ih =>
    exact ih (follows.step change reload e (unread e List.mem_cons_self))
      fun f member => unread f (List.mem_cons_of_mem _ member)

theorem Reflects.orderly {l : Kept (List δ) (Option (List δ))} {s : Kept σ φ}
    (follows : Reflects k Carries l s) {e : Event δ ρ φ} (orderly : Orderly s e) :
    Orderly l e.blank := by
  cases e with
  | change d => trivial
  | copy saver =>
    intro i
    have here := follows.copies i
    rw [orderly i] at here
    generalize l.copies i = copied at here
    cases here
    rfl
  | write saver outcome => cases outcome <;> exact orderly
  | restart choice outcome => cases outcome <;> exact orderly

/-- In an orderly run the changes that are carried are orderly too. -/
theorem Reflects.along (change : ∀ ds s d, Carries ds s → Carries (ds ++ [d]) (k.apply s d))
    (reload : ∀ choice ds s, Carries ds s → Carries ds (k.load choice (k.save s)))
    {l : Kept (List δ) (Option (List δ))} {s : Kept σ φ} (follows : Reflects k Carries l s)
    {es : List (Event δ ρ φ)} (along : Along (Saving.step k) Orderly s es) :
    Along (Saving.step (changes δ ρ)) Orderly l (es.map Event.blank) := by
  induction es generalizing l s with
  | nil => trivial
  | cons e es ih =>
    refine ⟨follows.orderly along.1, ih (follows.step change reload e ?_) along.2⟩
    intro left torn
    exact absurd (along.1.left?_eq_none ▸ torn) (Option.not_mem_none left)

end

abbrev Kept.saved (s : Kept (List δ) (Option (List δ))) : List δ := s.file.getD []

/-- The file is behind the copy, and the copy is behind memory. -/
structure InOrder (s : Kept (List δ) (Option (List δ))) : Prop where
  file : s.saved <+: s.memory
  copies : ∀ saver content, s.copies saver = some content →
    s.saved <+: content.getD [] ∧ content.getD [] <+: s.memory
  single : ∀ i j, s.copies i ≠ none → s.copies j ≠ none → i = j

theorem update_none {f : Nat → Option (Option (List δ))} {saver i : Nat}
    (there : Function.update f saver none i ≠ none) : i ≠ saver ∧ f i ≠ none := by
  by_cases same : i = saver
  · rw [same, Function.update_self] at there
    exact absurd rfl there
  · rw [Function.update_of_ne same] at there
    exact ⟨same, there⟩

section
variable {s : Kept (List δ) (Option (List δ))} {e : Event δ ρ (Option (List δ))}

theorem inOrder_write (order : InOrder s) {saver : Nat} {content : Option (List δ)}
    (copied : s.copies saver = some content) (outcome : Written (Option (List δ)))
    (orderly : @Orderly _ δ ρ _ s (.write saver outcome)) :
    let after := outcome.after s.file content
    InOrder { s with file := after, copies := Function.update s.copies saver none } ∧
      s.saved <+: after.getD [] := by
  obtain ⟨behind, below⟩ := order.copies saver content copied
  have others : ∀ i, Function.update s.copies saver none i = none := by
    intro i
    by_contra there
    obtain ⟨ne, here⟩ := update_none there
    exact ne (order.single i saver here (by rw [copied]; exact Option.some_ne_none _))
  have alone (file : Option (List δ)) (front : file.getD [] <+: s.memory) :
      InOrder { s with file, copies := Function.update s.copies saver none } := by
    refine ⟨front, ?_, ?_⟩
    · intro i c here
      exact absurd ((others i).symm.trans here).symm (Option.some_ne_none _)
    · intro i j here
      exact absurd (others i) here
  cases outcome with
  | whole => exact ⟨alone content below, behind⟩
  | failed => exact ⟨alone s.file order.file, List.prefix_rfl⟩
  | torn left => exact absurd orderly id

theorem inOrder_step (order : InOrder s) (orderly : Orderly s e) :
    InOrder (step (changes δ ρ) s e) ∧ s.saved <+: (step (changes δ ρ) s e).saved := by
  cases e with
  | change d =>
    have longer : s.memory <+: s.memory ++ [d] := List.prefix_append _ _
    refine ⟨⟨order.file.trans longer, ?_, order.single⟩, List.prefix_rfl⟩
    intro saver content copied
    obtain ⟨behind, below⟩ := order.copies saver content copied
    exact ⟨behind, below.trans longer⟩
  | copy saver =>
    refine ⟨⟨order.file, ?_, ?_⟩, List.prefix_rfl⟩
    · intro i content copied
      change Function.update s.copies saver _ i = _ at copied
      by_cases same : i = saver
      · rw [same, Function.update_self] at copied
        obtain rfl := Option.some.inj copied
        exact ⟨order.file, List.prefix_rfl⟩
      · rw [Function.update_of_ne same, orderly i] at copied
        exact absurd copied.symm (Option.some_ne_none _)
    · have only (i : Nat) (here : Function.update s.copies saver (some (some s.memory)) i ≠ none) :
          i = saver := by
        by_contra ne
        rw [Function.update_of_ne ne] at here
        exact here (orderly i)
      intro i j here there
      exact (only i here).trans (only j there).symm
  | write saver outcome =>
    rw [step]
    cases copied : s.copies saver with
    | none => exact ⟨order, List.prefix_rfl⟩
    | some content => exact inOrder_write order copied outcome orderly
  | restart choice outcome =>
    have reloaded (file : Option (List δ)) (same : file.getD [] = s.saved) :
        InOrder (⟨s.saved, file, fun _ => none⟩ : Kept (List δ) (Option (List δ))) ∧
          s.saved <+: file.getD [] := by
      refine ⟨⟨?_, ?_, ?_⟩, ?_⟩
      · exact same ▸ List.prefix_rfl
      · intro saver content copied
        exact absurd copied.symm (Option.some_ne_none _)
      · intro i j here
        exact absurd rfl here
      · exact same ▸ List.prefix_rfl
    cases outcome with
    | whole => exact reloaded (some s.saved) rfl
    | failed => exact reloaded s.file rfl
    | torn left => exact absurd orderly id

/-- As long as all goes in order, the file only ever carries more. -/
theorem saved_grows (order : InOrder s) {es : List (Event δ ρ (Option (List δ)))}
    (along : Along (step (changes δ ρ)) Orderly s es) :
    InOrder (run (step (changes δ ρ)) s es) ∧
      s.saved <+: (run (step (changes δ ρ)) s es).saved := by
  induction es generalizing s with
  | nil => exact ⟨order, List.prefix_rfl⟩
  | cons e es ih =>
    obtain ⟨next, grown⟩ := inOrder_step order along.1
    obtain ⟨final, further⟩ := ih next along.2
    exact ⟨final, grown.trans further⟩

/-- The event leaves a saver's copy, and what is in memory. -/
def Event.Spares {ψ : Type} (saver : Nat) : Event δ ρ ψ → Prop
  | .change _ => True
  | .copy i | .write i _ => i ≠ saver
  | .restart _ _ => False

theorem spares_blank {saver : Nat} {es : List (Event δ ρ φ)} (spares : ∀ e ∈ es, e.Spares saver) :
    ∀ e ∈ es.map Event.blank, e.Spares saver := by
  intro e member
  obtain ⟨e, inside, rfl⟩ := List.mem_map.mp member
  have here := spares e inside
  cases e <;> exact here

theorem spares_step {saver : Nat} (spares : e.Spares saver) :
    s.memory <+: (step (changes δ ρ) s e).memory ∧
      (step (changes δ ρ) s e).copies saver = s.copies saver := by
  cases e with
  | change d => exact ⟨List.prefix_append _ _, rfl⟩
  | copy i => exact ⟨List.prefix_rfl, Function.update_of_ne (Ne.symm spares) ..⟩
  | write i outcome =>
    rw [step]
    cases s.copies i with
    | none => exact ⟨List.prefix_rfl, rfl⟩
    | some content => exact ⟨List.prefix_rfl, Function.update_of_ne (Ne.symm spares) ..⟩
  | restart choice outcome => exact absurd spares id

theorem spares_run {saver : Nat} {es : List (Event δ ρ (Option (List δ)))}
    (spares : ∀ e ∈ es, e.Spares saver) : s.memory <+: (run (step (changes δ ρ)) s es).memory ∧
      (run (step (changes δ ρ)) s es).copies saver = s.copies saver := by
  induction es generalizing s with
  | nil => exact ⟨List.prefix_rfl, rfl⟩
  | cons e es ih =>
    obtain ⟨grown, same⟩ := spares_step (s := s) (spares e List.mem_cons_self)
    obtain ⟨further, still⟩ := ih (s := step (changes δ ρ) s e) fun f member =>
      spares f (List.mem_cons_of_mem _ member)
    exact ⟨grown.trans further, still.trans same⟩

/-- What was in memory when a saver began is in the file once it has written its copy, and
    stays there. -/
theorem written_kept (order : InOrder s) {saver : Nat}
    {before during rest : List (Event δ ρ (Option (List δ)))}
    (first : ∀ e ∈ before, e.Spares saver) (second : ∀ e ∈ during, e.Spares saver)
    (along : Along (step (changes δ ρ)) Orderly s
      (before ++ .copy saver :: (during ++ .write saver .whole :: rest))) :
    s.memory <+: (run (step (changes δ ρ)) s
      (before ++ .copy saver :: (during ++ .write saver .whole :: rest))).saved := by
  obtain ⟨grown, -⟩ := spares_run first
  obtain ⟨early, begins, later⟩ := along_append.mp along
  obtain ⟨order, -⟩ := saved_grows order early
  rw [run_append]
  generalize run (step (changes δ ρ)) s before = t at grown order begins later ⊢
  obtain ⟨between, ends, last⟩ := along_append.mp later
  have copied : (step (changes δ ρ) t (.copy saver)).copies saver = some (some t.memory) :=
    Function.update_self ..
  obtain ⟨order, -⟩ := saved_grows (inOrder_step order begins).1 between
  have still := (spares_run (s := step (changes δ ρ) t (.copy saver)) second).2.trans copied
  change _ <+: (run _ (step (changes δ ρ) t (.copy saver)) (during ++ _)).saved
  rw [run_append]
  generalize run (step (changes δ ρ)) (step (changes δ ρ) t (.copy saver)) during = u
    at order still ends last ⊢
  have written : (step (changes δ ρ) u (.write saver .whole)).saved = t.memory := by
    rw [step, still]
    rfl
  have grows := (saved_grows (inOrder_step order ends).1 last).2
  rw [written] at grows
  exact grown.trans grows

end

end Saving
