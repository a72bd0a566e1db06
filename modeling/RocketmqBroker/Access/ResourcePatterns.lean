import RocketmqBroker.Lib.Regex
import RocketmqBroker.Storage.Replay

/-!
Permission patterns. The missing anchors are put before and behind the text of a pattern and not
around the expression, so `^` holds for its first alternative and `$` for its last one, and a
dollar that ends the text counts as an anchor whatever it stands for.
-/
namespace RocketmqBroker

/-- What a `$` put behind a text stands for. The flags `m` and `R` set in the text reach it, and
    under `x` a comment may take it. -/
inductive Dollar where
  | text
  | line
  | crlf
  | comment
  deriving DecidableEq, Repr

def Dollar.holds : Dollar → List Char → List Char → Bool
  | text, _, after => after.isEmpty
  | line, _, after => after.isEmpty || after.head? == some '\n'
  | crlf, before, after => after.isEmpty || after.head? == some '\r' ||
    (after.head? == some '\n' && before.getLast? != some '\r')
  | comment, _, _ => true

theorem Dollar.holds_nil (dollar : Dollar) (before : List Char) :
    dollar.holds before [] = true := by
  cases dollar <;> rfl

/-- A parsed text: its alternatives, each with what has to match one after the other. -/
structure Expression where
  branches : List (List (Regex Char))
  dollar : Dollar

namespace Expression

/-- An alternative, by its place, matches what is taken between the other two. -/
def Takes (e : Expression) (k : Nat) (before taken after : List Char) : Prop :=
  ∃ branch, e.branches[k]? = some branch ∧ (Regex.concat branch).Matches before taken after

def Search (e : Expression) (text : List Char) : Prop :=
  ∃ branch ∈ e.branches, (Regex.concat branch).Search text

def Whole (e : Expression) (text : List Char) : Prop :=
  ∃ branch ∈ e.branches, (Regex.concat branch).Whole text

instance (e : Expression) (text : List Char) : Decidable (e.Search text) :=
  inferInstanceAs (Decidable (∃ branch ∈ e.branches, (Regex.concat branch).Search text))

instance (e : Expression) (text : List Char) : Decidable (e.Whole text) :=
  inferInstanceAs (Decidable (∃ branch ∈ e.branches, (Regex.concat branch).Whole text))

/-- `^` binds to the first alternative. -/
def withStart (e : Expression) : Expression :=
  { e with branches := e.branches.modifyHead (.textStart :: ·) }

/-- `$` binds to the last one. -/
def withEnd (e : Expression) : Expression :=
  { e with
    branches := e.branches.modify (e.branches.length - 1) (· ++ [.look e.dollar.holds]) }

variable {e : Expression} {k : Nat} {before taken after text : List Char}

theorem search_iff : e.Search text ↔ ∃ k before taken after,
    text = before ++ taken ++ after ∧ e.Takes k before taken after := by
  constructor
  · rintro ⟨branch, member, before, taken, after, same, here⟩
    obtain ⟨k, at_k⟩ := List.mem_iff_getElem?.mp member
    exact ⟨k, before, taken, after, same, branch, at_k, here⟩
  · rintro ⟨k, before, taken, after, same, branch, at_k, here⟩
    exact ⟨branch, List.mem_of_getElem? at_k, before, taken, after, same, here⟩

theorem whole_iff : e.Whole text ↔ ∃ k, e.Takes k [] text [] := by
  constructor
  · rintro ⟨branch, member, here⟩
    obtain ⟨k, at_k⟩ := List.mem_iff_getElem?.mp member
    exact ⟨k, branch, at_k, here⟩
  · rintro ⟨k, branch, at_k, here⟩
    exact ⟨branch, List.mem_of_getElem? at_k, here⟩

theorem takes_withStart : e.withStart.Takes k before taken after ↔
    e.Takes k before taken after ∧ (k = 0 → before = []) := by
  unfold Takes withStart
  rw [List.getElem?_modifyHead]
  by_cases first : k = 0
  · rw [if_pos first]
    simp only [Option.map_eq_some_iff, exists_exists_and_eq_and, Regex.textStart,
      Regex.matches_look_concat, List.isEmpty_iff, first, forall_const]
    exact ⟨fun ⟨b, here, ok, m⟩ => ⟨⟨b, here, m⟩, ok⟩, fun ⟨⟨b, here, m⟩, ok⟩ => ⟨b, here, ok, m⟩⟩
  · rw [if_neg first]
    exact (and_iff_left fun first' => absurd first' first).symm

theorem takes_withEnd : e.withEnd.Takes k before taken after ↔ e.Takes k before taken after ∧
    (k + 1 = e.branches.length → e.dollar.holds (before ++ taken) after = true) := by
  unfold Takes withEnd
  rw [List.getElem?_modify]
  constructor
  · rintro ⟨branch, at_k, here⟩
    obtain ⟨own, own_at_k, rfl⟩ := Option.map_eq_some_iff.mp at_k
    by_cases last : e.branches.length - 1 = k
    · rw [if_pos last, Regex.matches_concat_look] at here
      exact ⟨⟨own, own_at_k, here.1⟩, fun _ => here.2⟩
    · rw [if_neg last] at here
      exact ⟨⟨own, own_at_k, here⟩, fun last' => absurd (by omega) last⟩
  · rintro ⟨⟨own, at_k, here⟩, ok⟩
    refine ⟨_, Option.map_eq_some_iff.mpr ⟨own, at_k, rfl⟩, ?_⟩
    have inside := (List.getElem?_eq_some_iff.mp at_k).1
    by_cases last : e.branches.length - 1 = k
    · rw [if_pos last, Regex.matches_concat_look]
      exact ⟨here, ok (by omega)⟩
    · rw [if_neg last]
      exact here

end Expression

/-- What is used of the crate `regex`. A text is compiled if it is an expression within the limits
    on size and nesting, and a compiled one is searched for. -/
structure RegexCrate where
  fits : String → Bool
  parse : String → Option Expression
  isMatch : Expression → String → Bool
  isMatch_iff : ∀ e text, isMatch e text = true ↔ e.Search text.toList
  caret : ∀ {text e}, parse text = some e → parse ("^" ++ text) = some e.withStart
  dollar : ∀ {text e}, parse text = some e → parse (text ++ "$") = some e.withEnd
  dotStar : parse ".*" = some ⟨[[.star (.one (· != '\n'))]], .text⟩

def RegexCrate.new (crate : RegexCrate) (text : String) : Option (String → Bool) :=
  if crate.fits text then (crate.parse text).map crate.isMatch else none

/-- The text that `matches_resource` compiles. -/
def anchored (pattern : String) : String :=
  let left := if pattern.toList.head? = some '^' then pattern else "^" ++ pattern
  if pattern.toList.getLast? = some '$' then left else left ++ "$"

theorem matchesResource_eq (env : Env) {pattern : String} (resource : String)
    (nonempty : pattern ≠ "") (restricted : pattern ≠ ".*") :
    matchesResource env pattern resource =
      ((env.regex (anchored pattern)).map (· resource)).getD false := by
  unfold matchesResource
  rw [if_neg (by simpa using nonempty), if_neg restricted]
  cases compiled : env.regex (anchored pattern) with
  | none =>
    unfold anchored at compiled
    simp only [compiled, Option.map_none, Option.getD_none]
  | some isMatch =>
    unfold anchored at compiled
    simp only [compiled, Option.map_some, Option.getD_some]

namespace Expression
variable {e : Expression} {text : List Char}

/-- An anchor stands in the way of a match of an alternative. -/
def Stopped (e : Expression) (pattern : String) (k : Nat) (before taken after : List Char) :
    Prop :=
  k = 0 ∧ pattern.toList.head? ≠ some '^' ∧ before ≠ [] ∨
    k + 1 = e.branches.length ∧ pattern.toList.getLast? ≠ some '$' ∧
      e.dollar.holds (before ++ taken) after = false

def Closed (e : Expression) (pattern : String) : Prop :=
  ∀ k before taken after, e.Takes k before taken after →
    e.Stopped pattern k before taken after ∨ e.Whole (before ++ taken ++ after)

theorem Whole.free (whole : e.Whole text) (pattern : String) : ∃ k before taken after,
    text = before ++ taken ++ after ∧ e.Takes k before taken after ∧
      ¬e.Stopped pattern k before taken after := by
  obtain ⟨k, here⟩ := whole_iff.mp whole
  refine ⟨k, [], text, [], (List.append_nil text).symm, here, ?_⟩
  rintro (⟨-, -, some_before⟩ | ⟨-, -, fails⟩)
  · exact some_before rfl
  · rw [Dollar.holds_nil] at fails
    cases fails

variable {crate : RegexCrate} {pattern : String}

theorem parse_anchored (valid : crate.parse pattern = some e) :
    ∃ compiled, crate.parse (anchored pattern) = some compiled ∧
      ∀ k before taken after, compiled.Takes k before taken after ↔
        e.Takes k before taken after ∧ ¬e.Stopped pattern k before taken after := by
  obtain ⟨left, parsed, alike, same, takes⟩ : ∃ left,
      crate.parse (if pattern.toList.head? = some '^' then pattern else "^" ++ pattern) =
        some left ∧ left.branches.length = e.branches.length ∧ left.dollar = e.dollar ∧
      ∀ k before taken after, left.Takes k before taken after ↔ e.Takes k before taken after ∧
        ¬(k = 0 ∧ pattern.toList.head? ≠ some '^' ∧ before ≠ []) := by
    by_cases starts : pattern.toList.head? = some '^'
    · rw [if_pos starts]
      exact ⟨e, valid, rfl, rfl, fun _ _ _ _ =>
        (and_iff_left fun stopped => stopped.2.1 starts).symm⟩
    · rw [if_neg starts]
      refine ⟨e.withStart, crate.caret valid, List.length_modifyHead, rfl, fun _ _ _ _ => ?_⟩
      rw [takes_withStart]
      simp only [ne_eq, starts, not_false_eq_true, true_and, not_and, not_not]
  have both (k : Nat) (before taken after : List Char) :
      e.Takes k before taken after ∧ ¬e.Stopped pattern k before taken after ↔
        left.Takes k before taken after ∧ ¬(k + 1 = e.branches.length ∧
          pattern.toList.getLast? ≠ some '$' ∧
          e.dollar.holds (before ++ taken) after = false) := by
    rw [Stopped, not_or, ← and_assoc, takes]
  simp only [both]
  unfold anchored
  by_cases stops : pattern.toList.getLast? = some '$'
  · rw [if_pos stops]
    exact ⟨left, parsed, fun _ _ _ _ => (and_iff_left fun stopped => stopped.2.1 stops).symm⟩
  · rw [if_neg stops]
    refine ⟨left.withEnd, crate.dollar parsed, fun _ _ _ _ => ?_⟩
    rw [takes_withEnd, alike, same]
    simp only [ne_eq, stops, not_false_eq_true, true_and, not_and, Bool.not_eq_false]

end Expression

section
variable {env : Env} {crate : RegexCrate} {pattern : String} {e : Expression}

/-- What gets through is what matches some part of the name where no anchor stands in the way. -/
theorem matchesResource_iff (uses : env.regex = crate.new) (nonempty : pattern ≠ "")
    (restricted : pattern ≠ ".*") (valid : crate.parse pattern = some e) (resource : String) :
    matchesResource env pattern resource = true ↔ crate.fits (anchored pattern) = true ∧
      ∃ k before taken after, resource.toList = before ++ taken ++ after ∧
        e.Takes k before taken after ∧ ¬e.Stopped pattern k before taken after := by
  obtain ⟨compiled, parsed, takes⟩ := Expression.parse_anchored valid
  rw [matchesResource_eq env resource nonempty restricted, uses, RegexCrate.new, parsed]
  by_cases fits : crate.fits (anchored pattern) = true
  · rw [if_pos fits, and_iff_right fits]
    simp only [Option.map_some, Option.getD_some]
    rw [crate.isMatch_iff, Expression.search_iff]
    simp only [takes]
  · rw [if_neg fits]
    exact iff_of_false (by simp) fun both => fits both.1

theorem whole_dotStar (valid : crate.parse ".*" = some e) (text : List Char) :
    e.Whole text ↔ '\n' ∉ text := by
  obtain rfl := Option.some.inj (valid.symm.trans crate.dotStar)
  have alone : (Regex.concat [.star (.one (· != '\n'))]).Whole text ↔
      ∀ c ∈ text, (c != '\n') = true := by
    rw [← Regex.matches_star_one]
    constructor
    · intro h
      obtain ⟨taken, nothing, rfl, here, there⟩ := Regex.matches_seq.mp h
      obtain rfl := Regex.matches_empty.mp there
      rw [List.append_nil]
      exact here
    · intro here
      exact Regex.matches_seq.mpr ⟨text, [], (List.append_nil _).symm, here, .empty⟩
  unfold Expression.Whole
  simp only [List.mem_singleton, exists_eq_left, alone, bne_iff_ne]
  exact ⟨fun all member => all _ member rfl, fun none c member same => none (same ▸ member)⟩

theorem matchesResource_dotStar (env : Env) (resource : String) :
    matchesResource env ".*" resource = true := rfl

/-- The anchors put on the text of a pattern make it match a name exactly if the whole name
    matches the pattern: if it does, as far as the text with the anchors is still accepted, or if
    they stand in the way of every match of an alternative. -/
theorem matches_resource_iff (uses : env.regex = crate.new) (nonempty : pattern ≠ "")
    (valid : crate.parse pattern = some e) (resource : String) :
    (matchesResource env pattern resource = true ↔ e.Whole resource.toList) ↔
      if pattern = ".*" then '\n' ∉ resource.toList
      else if crate.fits (anchored pattern) then
        e.Whole resource.toList ∨ ∀ k before taken after,
          resource.toList = before ++ taken ++ after → e.Takes k before taken after →
            e.Stopped pattern k before taken after
      else ¬e.Whole resource.toList := by
  by_cases star : pattern = ".*"
  · subst star
    rw [if_pos rfl, ← whole_dotStar valid]
    exact iff_of_eq (by rw [matchesResource_dotStar, eq_self, true_iff])
  · rw [if_neg star, matchesResource_iff uses nonempty star valid]
    split
    · rename_i fits
      rw [and_iff_right fits]
      constructor
      · intro agree
        by_cases whole : e.Whole resource.toList
        · exact Or.inl whole
        · refine Or.inr fun k before taken after same here => ?_
          by_contra free
          exact whole (agree.mp ⟨k, before, taken, after, same, here, free⟩)
      · rintro (whole | stopped)
        · exact iff_of_true (whole.free pattern) whole
        · have refused : ¬∃ k before taken after, resource.toList = before ++ taken ++ after ∧
              e.Takes k before taken after ∧ ¬e.Stopped pattern k before taken after := by
            rintro ⟨k, before, taken, after, same, here, free⟩
            exact free (stopped k before taken after same here)
          exact iff_of_false refused fun whole => refused (whole.free pattern)
    · rename_i fits
      exact iff_false_left fun both => fits both.1

/-- A pattern matches as it should, whatever the name, exactly if every match of an alternative
    that its anchors let through is part of a match of the whole. -/
theorem matches_all_iff (uses : env.regex = crate.new) (nonempty : pattern ≠ "")
    (valid : crate.parse pattern = some e) :
    (∀ resource, matchesResource env pattern resource = true ↔ e.Whole resource.toList) ↔
      pattern ≠ ".*" ∧ if crate.fits (anchored pattern) then e.Closed pattern
        else ∀ text, ¬e.Whole text := by
  by_cases star : pattern = ".*"
  · refine iff_of_false (fun agree => ?_) fun restricted => restricted.1 star
    have oneLine := (matches_resource_iff uses nonempty valid "\n").mp (agree "\n")
    rw [if_pos star] at oneLine
    exact oneLine (List.mem_singleton_self _)
  · simp only [matches_resource_iff uses nonempty valid, if_neg star]
    rw [ne_eq, and_iff_right star]
    split
    · constructor
      · intro agree k before taken after here
        rcases agree (String.ofList (before ++ taken ++ after)) with whole | stopped
        · rw [String.toList_ofList] at whole
          exact .inr whole
        · exact .inl (stopped k before taken after String.toList_ofList here)
      · intro closed resource
        by_cases whole : e.Whole resource.toList
        · exact .inl whole
        · refine .inr fun k before taken after same here => ?_
          exact (closed k before taken after here).resolve_right (same ▸ whole)
    · exact ⟨fun none text => String.toList_ofList (l := text) ▸ none (String.ofList text),
        fun none resource => none resource.toList⟩

theorem closed_of_single (single : e.branches.length = 1) (plain : e.dollar = .text)
    (starts : pattern.toList.head? ≠ some '^') (stops : pattern.toList.getLast? ≠ some '$') :
    e.Closed pattern := by
  intro k before taken after here
  by_cases free : e.Stopped pattern k before taken after
  · exact .inl free
  · obtain ⟨branch, at_k, -⟩ := id here
    have only : k = 0 := by
      have inside := (List.getElem?_eq_some_iff.mp at_k).1
      omega
    obtain rfl : before = [] := by
      by_contra some_before
      exact free (Or.inl ⟨only, starts, some_before⟩)
    obtain rfl : after = [] := by
      by_contra some_after
      refine free (Or.inr ⟨by omega, stops, ?_⟩)
      rw [plain]
      exact List.isEmpty_eq_false_iff.mpr some_after
    rw [List.append_nil]
    exact .inr (Expression.whole_iff.mpr ⟨k, here⟩)

end

/-- Reads a part of the syntax: single characters, escapes, `.`, `*`, `|` and the anchors. -/
structure Reader where
  closed : List (List (Regex Char))
  items : List (Regex Char)
  escaped : Bool

namespace Reader

def start : Reader := ⟨[], [], false⟩

def push (r : Reader) (x : Regex Char) : Reader :=
  { r with items := r.items ++ [x], escaped := false }

def bar (r : Reader) : Reader := ⟨r.closed ++ [r.items], [], false⟩

def repeatLast (r : Reader) : Option Reader :=
  r.items.getLast?.map fun x => { r with items := r.items.dropLast ++ [.star x] }

def escape (c : Char) : Option (Regex Char) :=
  if "\\.+*?()|[]\x7b\x7d^$".toList.contains c then some (.one (· == c)) else none

def symbol (c : Char) : Option (Regex Char) :=
  if c = '^' then some .textStart
  else if c = '$' then some .textEnd
  else if c = '.' then some (.one (· != '\n'))
  else if "+?()[]\x7b\x7d".toList.contains c then none
  else some (.one (· == c))

def step (r : Reader) (c : Char) : Option Reader :=
  if r.escaped then (escape c).map r.push
  else if c = '\\' then some { r with escaped := true }
  else if c = '|' then some r.bar
  else if c = '*' then r.repeatLast
  else (symbol c).map r.push

def expression (r : Reader) : Option Expression :=
  if r.escaped then none else some ⟨r.closed ++ [r.items], .text⟩

def parse (text : String) : Option Expression :=
  (text.toList.foldlM step start).bind expression

/-- The same with a `^` in front of all that is read. -/
def started (r : Reader) : Reader :=
  match r.closed with
  | [] => { r with items := .textStart :: r.items }
  | branch :: branches => { r with closed := (.textStart :: branch) :: branches }

theorem push_started (r : Reader) (x : Regex Char) : (r.push x).started = r.started.push x := by
  obtain ⟨_ | ⟨branch, branches⟩, items, escaped⟩ := r <;> rfl

theorem bar_started (r : Reader) : r.bar.started = r.started.bar := by
  obtain ⟨_ | ⟨branch, branches⟩, items, escaped⟩ := r <;> rfl

theorem repeatLast_started {r r' : Reader} (reads : r.repeatLast = some r') :
    r.started.repeatLast = some r'.started := by
  obtain ⟨x, last, rfl⟩ := Option.map_eq_some_iff.mp reads
  obtain ⟨_ | ⟨branch, branches⟩, items, escaped⟩ := r
  · cases items with
    | nil => cases last
    | cons y ys =>
      refine Option.map_eq_some_iff.mpr ⟨x, ?_, ?_⟩
      · exact last
      · rfl
  · exact Option.map_eq_some_iff.mpr ⟨x, last, rfl⟩

theorem step_started {r r' : Reader} {c : Char} (reads : r.step c = some r') :
    r.started.step c = some r'.started := by
  have same : r.started.escaped = r.escaped := by
    obtain ⟨_ | ⟨branch, branches⟩, items, escaped⟩ := r <;> rfl
  have pushed (read : Option (Regex Char)) (reads : read.map r.push = some r') :
      read.map r.started.push = some r'.started := by
    obtain ⟨x, rfl, rfl⟩ := Option.map_eq_some_iff.mp reads
    exact congrArg some (push_started r x).symm
  unfold step at reads ⊢
  rw [same]
  split_ifs at reads ⊢
  · exact pushed _ reads
  · obtain rfl := Option.some.inj reads
    obtain ⟨_ | ⟨branch, branches⟩, items, escaped⟩ := r <;> rfl
  · obtain rfl := Option.some.inj reads
    exact congrArg some (bar_started r).symm
  · exact repeatLast_started reads
  · exact pushed _ reads

theorem steps_started {cs : List Char} {r r' : Reader} (reads : cs.foldlM step r = some r') :
    cs.foldlM step r.started = some r'.started := by
  induction cs generalizing r with
  | nil =>
    obtain rfl := Option.some.inj reads
    rfl
  | cons c cs ih =>
    rw [List.foldlM_cons] at reads ⊢
    obtain ⟨next, here, rest⟩ := Option.bind_eq_some_iff.mp reads
    exact Option.bind_eq_some_iff.mpr ⟨next.started, step_started here, ih rest⟩

theorem expression_started {r : Reader} {e : Expression} (reads : r.expression = some e) :
    r.started.expression = some e.withStart := by
  obtain ⟨_ | ⟨branch, branches⟩, items, _ | _⟩ := r
  all_goals cases reads
  · rfl
  · rfl

theorem parse_caret {text : String} {e : Expression} (reads : parse text = some e) :
    parse ("^" ++ text) = some e.withStart := by
  obtain ⟨r, here, whole⟩ := Option.bind_eq_some_iff.mp reads
  unfold parse
  rw [String.toList_append]
  exact Option.bind_eq_some_iff.mpr ⟨r.started, steps_started here, expression_started whole⟩

theorem parse_dollar {text : String} {e : Expression} (reads : parse text = some e) :
    parse (text ++ "$") = some e.withEnd := by
  obtain ⟨r, here, whole⟩ := Option.bind_eq_some_iff.mp reads
  unfold parse
  rw [String.toList_append, List.foldlM_append, here]
  obtain ⟨closed, items, _ | _⟩ := r
  all_goals cases whole
  refine congrArg (fun branches => some (Expression.mk branches .text)) ?_
  change closed ++ [items ++ [.textEnd]] =
    (closed ++ [items]).modify ((closed ++ [items]).length - 1) (· ++ [.textEnd])
  rw [List.length_append, List.length_singleton, Nat.add_sub_cancel]
  clear reads here
  induction closed with
  | nil => rfl
  | cons branch branches ih => exact congrArg (branch :: ·) ih

end Reader

def readerCrate : RegexCrate where
  fits _ := true
  parse := Reader.parse
  isMatch e text := decide (e.Search text.toList)
  isMatch_iff _ _ := decide_eq_true_iff
  caret := Reader.parse_caret
  dollar := Reader.parse_dollar
  dotStar := rfl

def readerEnv : Env := { plainEnv 64 1 with regex := readerCrate.new }

-- The dollar is a character of the name, but no anchor is added behind it.
example : matchesResource readerEnv "a\\$" "a$b" = true := by decide

def aOrB : Expression := ⟨[[.one (· == 'a')], [.one (· == 'b')]], .text⟩

theorem matches_resource_b :
    matchesResource readerEnv "a|b" "b" = true ↔ aOrB.Whole "b".toList := by
  refine (@matches_resource_iff readerEnv readerCrate "a|b" aOrB rfl (by decide) rfl "b").mpr ?_
  have fits : readerCrate.fits (anchored "a|b") = true := rfl
  rw [if_neg (by decide), if_pos fits]
  exact Or.inl (by decide)

theorem resource_matched_in_part : readerEnv.regex = readerCrate.new ∧
    readerCrate.parse "a|b" = some aOrB ∧ matchesResource readerEnv "a|b" "ax" = true ∧
    ¬aOrB.Whole "ax".toList :=
  ⟨rfl, rfl, by decide, by decide⟩

end RocketmqBroker
