import Mathlib.Data.List.Induction
import RocketmqBroker.Lib.WordPattern
import RocketmqBroker.Routing.Exchange

/-!
Topic patterns against routing keys. The table of the code has a row for each word of the
pattern, and a row says which prefixes of the key the words so far match.
-/
namespace RocketmqBroker
open WordPattern

/-- What a word of a topic pattern stands for. -/
def segmentOf (word : String) : Segment String :=
  if word = "#" then .many else if word = "*" then .single else .literal word

theorem segmentOf_takes (word : String) : (segmentOf word).Takes [word] := by
  unfold segmentOf
  split
  · trivial
  · split
    · rfl
    · rfl

theorem segmentOf_one {word : String} (other : word ≠ "#") (ws : List String)
    (takes : (segmentOf word).Takes ws) : ws.length = 1 := by
  unfold segmentOf at takes
  rw [if_neg other] at takes
  split at takes
  · exact takes
  · rw [show ws = [word] from takes]
    rfl

def topicEntry (segment : String) (left before here : Bool) (word : String) : Bool :=
  if segment = "#" then here || left
  else if segment = "*" then before
  else before && segment == word

theorem topicRow_go_cons (segment : String) (left before here : Bool) (prev : List Bool)
    (word : String) (key : List String) :
    topicRow.go segment left (before :: here :: prev) (word :: key) =
      topicEntry segment left before here word ::
        topicRow.go segment (topicEntry segment left before here word) (here :: prev) key := rfl

theorem topicEntry_iff {pattern done : List String} {segment word : String}
    {left before here : Bool} (above : here = true ↔ Matches (pattern.map segmentOf)
      (done ++ [word])) (earlier : before = true ↔ Matches (pattern.map segmentOf) done)
    (beside : left = true ↔ Matches ((pattern ++ [segment]).map segmentOf) done) :
    topicEntry segment left before here word = true ↔
      Matches ((pattern ++ [segment]).map segmentOf) (done ++ [word]) := by
  rw [List.map_append, List.map_cons, List.map_nil] at beside ⊢
  unfold topicEntry
  by_cases many : segment = "#"
  · have kind : segmentOf segment = .many := if_pos many
    rw [if_pos many, Bool.or_eq_true, above, beside, kind, matches_many_snoc]
  · rw [if_neg many, matches_one_snoc (segmentOf_one many), ← earlier]
    by_cases single : segment = "*"
    · have kind : segmentOf segment = .single := (if_neg many).trans (if_pos single)
      rw [if_pos single, kind]
      exact (and_iff_left rfl).symm
    · have kind : segmentOf segment = .literal segment := (if_neg many).trans (if_neg single)
      rw [if_neg single, Bool.and_eq_true, beq_iff_eq, kind]
      refine and_congr_right fun _ => ?_
      change segment = word ↔ [word] = [segment]
      rw [List.singleton_inj]
      exact eq_comm

theorem tells_go {pattern done key : List String} {segment : String} {left : Bool}
    {prev : List Bool} (tells : Tells (Matches (pattern.map segmentOf)) done key prev)
    (beside : left = true ↔ Matches ((pattern ++ [segment]).map segmentOf) done) :
    Tells (Matches ((pattern ++ [segment]).map segmentOf)) done key
      (left :: topicRow.go segment left prev key) := by
  induction key generalizing done left prev with
  | nil =>
    obtain ⟨here, rfl, -⟩ := tells
    exact ⟨left, rfl, beside⟩
  | cons word key ih =>
    obtain ⟨before, rest, rfl, earlier, later⟩ := tells
    refine ⟨left, _, rfl, beside, ?_⟩
    have filled : ∃ here more, rest = here :: more ∧ (here = true ↔ Matches
        (pattern.map segmentOf) (done ++ [word])) := by
      cases key with
      | nil =>
        obtain ⟨here, rfl, above⟩ := later
        exact ⟨here, [], rfl, above⟩
      | cons =>
        obtain ⟨here, more, rfl, above, -⟩ := later
        exact ⟨here, more, rfl, above⟩
    obtain ⟨here, more, rfl, above⟩ := filled
    rw [topicRow_go_cons]
    exact ih later (topicEntry_iff above earlier beside)

/-- A row for some words gives the row for one word more. -/
theorem tells_topicRow {pattern key : List String} {prev : List Bool} (segment : String)
    (tells : Tells (Matches (pattern.map segmentOf)) [] key prev) :
    Tells (Matches ((pattern ++ [segment]).map segmentOf)) [] key (topicRow segment prev key) := by
  unfold topicRow
  refine tells_go tells ?_
  have filled : ∃ here more, prev = here :: more ∧
      (here = true ↔ Matches (pattern.map segmentOf) []) := by
    cases key with
    | nil =>
      obtain ⟨here, rfl, first⟩ := tells
      exact ⟨here, [], rfl, first⟩
    | cons =>
      obtain ⟨here, more, rfl, first, -⟩ := tells
      exact ⟨here, more, rfl, first⟩
  obtain ⟨here, more, rfl, first⟩ := filled
  rw [Bool.and_eq_true, decide_eq_true_iff, List.headD_cons, List.map_append, List.map_cons,
    List.map_nil, matches_snoc, first]
  constructor
  · rintro ⟨many, whole⟩
    refine ⟨[], [], rfl, whole, ?_⟩
    rw [many]
    trivial
  · rintro ⟨front, rest, split, whole, takes⟩
    obtain ⟨rfl, rfl⟩ := List.append_eq_nil_iff.mp split.symm
    refine ⟨?_, whole⟩
    by_contra other
    exact absurd (segmentOf_one other [] takes) (by decide)

theorem tells_rows (pattern key : List String) : Tells (Matches (pattern.map segmentOf)) [] key
    (pattern.foldl (fun prev segment => topicRow segment prev key)
      (true :: List.replicate key.length false)) := by
  induction pattern using List.reverseRecOn with
  | nil => exact tells_start key
  | append_singleton pattern segment ih =>
    rw [List.foldl_append]
    exact tells_topicRow segment ih

/-- The two shortcuts and the table agree with the definition on words. -/
theorem topicMatches_iff (pattern routingKey : String) : topicMatches pattern routingKey = true ↔
    Matches ((words pattern).map segmentOf) (words routingKey) := by
  unfold topicMatches
  by_cases same : pattern = routingKey
  · rw [if_pos same, same]
    exact iff_of_true rfl (matches_each segmentOf_takes _)
  · rw [if_neg same]
    by_cases lone : pattern = "#"
    · rw [if_pos lone, lone]
      exact iff_of_true rfl (matches_many _)
    · rw [if_neg lone]
      exact (tells_rows (words pattern) (words routingKey)).last

end RocketmqBroker
