import RocketmqBroker.Lib.Run
import Mathlib.Data.List.Dedup
import Mathlib.Data.List.Induction
import Mathlib.Data.List.Perm.Basic

/-!
One machine that serves the events of several channels. As long as no event comes while
another channel is in the middle of something, every channel is served as if it had the
machine to itself.

And messages of many channels in flight in one list, where a channel is what a predicate
selects: taking a message out leaves the other channels alone, and its own one without its
first message when that is the one taken.
-/
namespace Demux
open Run

variable {κ σ ε ω : Type} [DecidableEq κ]

def next (step : σ → ε → σ × List ω) (s : σ) (e : ε) : σ := (step s e).1

def outputs (step : σ → ε → σ × List ω) : σ → List ε → List ω
  | _, [] => []
  | s, e :: es => (step s e).2 ++ outputs step (step s e).1 es

def own (channel : ε → κ) (c : κ) (es : List ε) : List ε := es.filter fun e => channel e = c

def Resting (step : σ → ε → σ × List ω) (idle : σ) (channel : ε → κ) (es : List ε) (c : κ) :
    Prop := run (next step) idle (own channel c es) = idle

/-- No event comes while another channel is in the middle of something. -/
def Apart (step : σ → ε → σ × List ω) (idle : σ) (channel : ε → κ) (es : List ε) : Prop :=
  ∀ before e after, es = before ++ e :: after →
    ∀ d, d ≠ channel e → Resting step idle channel before d

variable {step : σ → ε → σ × List ω} {idle : σ} {channel : ε → κ}

theorem outputs_append (s : σ) (es fs : List ε) :
    outputs step s (es ++ fs) = outputs step s es ++ outputs step (run (next step) s es) fs := by
  induction es generalizing s with
  | nil => rfl
  | cons e es ih =>
    have rest := ih (step s e).1
    simp only [List.cons_append, outputs, List.append_assoc, rest]
    rfl

theorem own_append (c : κ) (es fs : List ε) :
    own channel c (es ++ fs) = own channel c es ++ own channel c fs := List.filter_append ..

theorem own_same (e : ε) : own channel (channel e) [e] = [e] := by simp [own]

theorem own_other {c : κ} {e : ε} (other : c ≠ channel e) : own channel c [e] = [] := by
  simp [own, Ne.symm other]

theorem resting_other {c : κ} {es : List ε} {e : ε} (other : c ≠ channel e) :
    Resting step idle channel (es ++ [e]) c ↔ Resting step idle channel es c := by
  rw [Resting, own_append, own_other other, List.append_nil, Resting]

theorem Apart.front {es fs : List ε} (apart : Apart step idle channel (es ++ fs)) :
    Apart step idle channel es := by
  intro before e after split
  exact apart before e (after ++ fs) (by rw [split, List.append_assoc, List.cons_append])

theorem Apart.last {es : List ε} {e : ε} (apart : Apart step idle channel (es ++ [e])) :
    ∀ d, d ≠ channel e → Resting step idle channel es d := apart es e [] rfl

theorem apart_one {es : List ε} {c : κ} (one : ∀ e ∈ es, channel e = c) :
    Apart step idle channel es := by
  intro before e after split d other
  have mine : channel e = c := one e (by rw [split]; simp)
  have none : own channel d before = [] := by
    refine List.filter_eq_nil_iff.mpr ?_
    intro f member same
    have inside : f ∈ es := by
      rw [split]
      exact List.mem_append_left _ member
    rw [← of_decide_eq_true same, mine] at other
    exact other (one f inside)
  rw [Resting, none]
  rfl

theorem Apart.append {es fs : List ε} (first : Apart step idle channel es)
    (rests : ∀ d, Resting step idle channel es d) (second : Apart step idle channel fs) :
    Apart step idle channel (es ++ fs) := by
  intro before e after split d other
  rcases List.append_eq_append_iff.mp split with ⟨more, rfl, rest⟩ | ⟨more, whole, rest⟩
  · have idles := rests d
    rw [Resting] at idles
    rw [Resting, own_append, run_append, idles]
    exact second more e after rest d other
  · cases more with
    | nil =>
      rw [List.append_nil] at whole
      rw [← whole]
      exact rests d
    | cons f more =>
      obtain ⟨rfl, _⟩ := List.cons.inj rest
      exact first before e more whole d other

theorem run_own {es : List ε} (apart : Apart step idle channel es) (c : κ)
    (others : ∀ d, d ≠ c → Resting step idle channel es d) :
    run (next step) idle es = run (next step) idle (own channel c es) := by
  induction es using List.reverseRecOn generalizing c with
  | nil => rfl
  | append_singleton es e ih =>
    have before := ih apart.front (channel e) apart.last
    have both : run (next step) idle (es ++ [e]) =
        run (next step) idle (own channel (channel e) (es ++ [e])) := by
      rw [own_append, own_same, run_append, run_append, before]
    by_cases same : c = channel e
    · rw [same]
      exact both
    · have left : Resting step idle channel (es ++ [e]) c :=
        (resting_other same).mpr (apart.last c same)
      have rests : Resting step idle channel (es ++ [e]) (channel e) := others _ (Ne.symm same)
      calc run (next step) idle (es ++ [e]) = idle := both.trans rests
        _ = run (next step) idle (own channel c (es ++ [e])) := left.symm

theorem Apart.one {es : List ε} (apart : Apart step idle channel es) {c d : κ} (ne : c ≠ d)
    (busy : ¬ Resting step idle channel es c) : Resting step idle channel es d := by
  induction es using List.reverseRecOn with
  | nil => rfl
  | append_singleton es e ih =>
    by_cases same : d = channel e
    · have other : c ≠ channel e := fun eq => ne (eq.trans same.symm)
      exact absurd ((resting_other other).mpr (apart.last c other)) busy
    · exact (resting_other same).mpr (apart.last d same)

/-- What comes out for a channel is what it would get alone. -/
theorem outputs_own {label : ω → κ}
    (labelled : ∀ c es, (∀ e ∈ es, channel e = c) → ∀ o ∈ outputs step idle es, label o = c)
    {es : List ε} (apart : Apart step idle channel es) (c : κ) :
    (outputs step idle es).filter (fun o => label o = c) =
      outputs step idle (own channel c es) := by
  induction es using List.reverseRecOn with
  | nil => rfl
  | append_singleton es e ih =>
    have before := run_own apart.front (channel e) apart.last
    have mine : ∀ o ∈ outputs step (run (next step) idle es) [e], label o = channel e := by
      intro o member
      refine labelled (channel e) (own channel (channel e) (es ++ [e])) ?_ o ?_
      · intro f inside
        exact of_decide_eq_true (List.mem_filter.mp inside).2
      · rw [own_append, own_same, outputs_append, ← before]
        exact List.mem_append_right _ member
    rw [outputs_append, List.filter_append, ih apart.front, own_append, outputs_append]
    congr 1
    by_cases same : c = channel e
    · rw [same, own_same, ← before, List.filter_eq_self]
      intro o member
      exact decide_eq_true (mine o member)
    · rw [own_other same, outputs, List.filter_eq_nil_iff]
      intro o member
      rw [mine o member]
      exact fun eq => same (of_decide_eq_true eq).symm

/-- Where channels come into each other's way, the first event that does so begins
    something of its channel while the machine is not idle. -/
theorem first_clash {es : List ε} (clash : ¬ Apart step idle channel es) :
    ∃ before e after, es = before ++ e :: after ∧ Apart step idle channel before ∧
      Resting step idle channel before (channel e) ∧ run (next step) idle before ≠ idle := by
  induction es using List.reverseRecOn with
  | nil =>
    refine absurd ?_ clash
    intro before e after split
    exact absurd split.symm (List.append_ne_nil_of_right_ne_nil _ (List.cons_ne_nil _ _))
  | append_singleton es e ih =>
    by_cases apart : Apart step idle channel es
    · have disturbed : ¬ ∀ d, d ≠ channel e → Resting step idle channel es d := by
        intro none
        refine clash ?_
        intro before f after split
        rcases List.eq_nil_or_concat after with rfl | ⟨front, last, rfl⟩
        · obtain ⟨rfl, eq⟩ := List.append_inj' split rfl
          obtain rfl := (List.cons.inj eq).1
          exact none
        · rw [List.concat_eq_append, ← List.cons_append, ← List.append_assoc] at split
          exact apart before f front (List.append_inj_left' split rfl)
      simp only [not_forall] at disturbed
      obtain ⟨d, ne, busy⟩ := disturbed
      refine ⟨es, e, [], rfl, apart, apart.one ne busy, ?_⟩
      rw [run_own apart d fun d' other => apart.one (Ne.symm other) busy]
      exact busy
    · obtain ⟨before, f, after, rfl, found⟩ := ih apart
      exact ⟨before, f, after ++ [e], by simp, found⟩

/-- The second list is the first with events of a kind put in anywhere. -/
inductive Interposed (aside : ε → Prop) : List ε → List ε → Prop where
  | done : Interposed aside [] []
  | own (e : ε) {es fs : List ε} (rest : Interposed aside es fs) :
    Interposed aside (e :: es) (e :: fs)
  | between (e : ε) (kind : aside e) {es fs : List ε} (rest : Interposed aside es fs) :
    Interposed aside es (e :: fs)

section
variable {aside : ε → Prop} {es fs : List ε}

theorem Interposed.refl (es : List ε) : Interposed aside es es := by
  induction es with
  | nil => exact .done
  | cons e es ih => exact .own e ih

theorem run_interposed (still : ∀ s e, aside e → next step s e = s)
    (h : Interposed aside es fs) (s : σ) : run (next step) s fs = run (next step) s es := by
  induction h generalizing s with
  | done => rfl
  | own e rest ih => exact ih (next step s e)
  | @between e kind es fs rest ih =>
    change run (next step) (next step s e) fs = _
    rw [still s e kind, ih s]

theorem outputs_interposed {keep : ω → Bool} (still : ∀ s e, aside e → next step s e = s)
    (quiet : ∀ s e, aside e → (step s e).2.filter keep = []) (h : Interposed aside es fs) (s : σ) :
    (outputs step s fs).filter keep = (outputs step s es).filter keep := by
  induction h generalizing s with
  | done => rfl
  | own e rest ih => simp only [outputs, List.filter_append, ih]
  | @between e kind es fs rest ih =>
    have stays : (step s e).1 = s := still s e kind
    rw [outputs, List.filter_append, quiet s e kind, stays, List.nil_append, ih s]

theorem along_interposed {allowed : σ → ε → Prop} (still : ∀ s e, aside e → next step s e = s)
    (free : ∀ s e, aside e → allowed s e) (h : Interposed aside es fs) {s : σ}
    (along : Along (next step) allowed s es) : Along (next step) allowed s fs := by
  induction h generalizing s with
  | done => trivial
  | own e rest ih => exact ⟨along.1, ih along.2⟩
  | between e kind rest ih =>
    refine ⟨free s e kind, ?_⟩
    rw [still s e kind]
    exact ih along

end

/-- Two lists that have as many elements of every channel are of one length. -/
theorem length_eq_of_own {α β : Type} (f : α → κ) (g : β → κ) {as : List α} {bs : List β}
    (same : ∀ c, (as.filter fun a => f a = c).length = (bs.filter fun b => g b = c).length) :
    as.length = bs.length := by
  have perm : (as.map f).Perm (bs.map g) := by
    rw [List.perm_iff_count]
    intro c
    rw [List.count_eq_countP, List.count_eq_countP, List.countP_map, List.countP_map,
      List.countP_eq_length_filter, List.countP_eq_length_filter]
    exact same c
  simpa using perm.length_eq

end Demux

namespace InFlight
variable {α β : Type} {net : List α} {k : Nat} {f : α}

theorem split_at (found : net[k]? = some f) :
    net = net.take k ++ f :: net.drop (k + 1) ∧
      net.eraseIdx k = net.take k ++ net.drop (k + 1) := by
  obtain ⟨inside, rfl⟩ := List.getElem?_eq_some_iff.mp found
  refine ⟨?_, List.eraseIdx_eq_take_drop_succ net k⟩
  rw [← List.drop_eq_getElem_cons inside, List.take_append_drop]

theorem filter_other (found : net[k]? = some f) {channel : α → Bool} (other : channel f = false) :
    (net.eraseIdx k).filter channel = net.filter channel := by
  obtain ⟨whole, rest⟩ := split_at found
  rw [rest]
  conv => rhs; rw [whole]
  rw [List.filter_append, List.filter_append,
    List.filter_cons_of_neg (by rw [other]; exact Bool.false_ne_true)]

theorem filter_first (channel : α → Bool) (found : net[k]? = some f) (here : channel f = true)
    (first : ∀ g ∈ net.take k, channel g = false) :
    net.filter channel = f :: (net.eraseIdx k).filter channel := by
  obtain ⟨whole, rest⟩ := split_at found
  have none : (net.take k).filter channel = [] := by
    refine List.filter_eq_nil_iff.mpr fun g member => ?_
    rw [first g member]
    exact Bool.false_ne_true
  rw [rest]
  conv => lhs; rw [whole]
  rw [List.filter_append, List.filter_append, none, List.filter_cons_of_pos here]
  rfl

theorem filter_broadcast [DecidableEq β] {peers : List β} (distinct : peers.Nodup) {p : β}
    (member : p ∈ peers) (message : β → α) {channel : α → Bool}
    (own : ∀ q ∈ peers, channel (message q) = decide (q = p)) :
    (peers.map message).filter channel = [message p] := by
  have same : peers.filter (fun q => channel (message q)) = peers.filter fun q => decide (q = p) :=
    List.filter_congr own
  rw [List.filter_map, Function.comp_def, same, List.filter_eq,
    List.count_eq_one_of_mem distinct member]
  rfl

end InFlight
