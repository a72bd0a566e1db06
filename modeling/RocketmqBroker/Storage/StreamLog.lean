import RocketmqBroker.Storage.Stream
import Mathlib.Data.List.Range

/-!
A stream is a log that loses its oldest entries. Whatever segments there are, they stand one
behind the other in the log, and retention takes some of the first ones, never the last.
-/
/-- A log that is appended to and loses its oldest entries, never its newest one: all that was
    ever appended, and the number of the first entry that is still there. Entries keep the
    numbers that they were appended under. -/
structure TruncatedLog (α : Type) where
  appended : List α
  first : Nat
  within : first ≤ appended.length - 1

namespace TruncatedLog
variable {α : Type}

def empty : TruncatedLog α := ⟨[], 0, Nat.le_refl 0⟩

def append (log : TruncatedLog α) (a : α) : TruncatedLog α :=
  ⟨log.appended ++ [a], log.first, by
    have := log.within
    simp
    omega⟩

def truncate (log : TruncatedLog α) (bound : Nat) : TruncatedLog α :=
  ⟨log.appended, max log.first (min bound (log.appended.length - 1)), by
    have := log.within
    omega⟩

def offsets (log : TruncatedLog α) : List Nat :=
  List.range' log.first (log.appended.length - log.first)

def read (log : TruncatedLog α) (o : Nat) : Option α :=
  if log.first ≤ o then log.appended[o]? else none

theorem mem_offsets {log : TruncatedLog α} {o : Nat} :
    o ∈ log.offsets ↔ log.first ≤ o ∧ o < log.appended.length := by
  have := log.within
  rw [offsets, List.mem_range'_1]
  omega

theorem read_isSome {log : TruncatedLog α} {o : Nat} :
    (log.read o).isSome = true ↔ o ∈ log.offsets := by
  rw [mem_offsets, read]
  split
  · rename_i kept
    simp [kept]
  · rename_i gone
    simp [gone]

theorem newest_retained {log : TruncatedLog α} (some_left : log.appended ≠ []) :
    log.appended.length - 1 ∈ log.offsets := by
  have := List.length_pos_iff.mpr some_left
  exact mem_offsets.mpr ⟨log.within, by omega⟩

theorem truncate_first {log : TruncatedLog α} {bound : Nat} (behind : log.first ≤ bound)
    (inside : bound ≤ log.appended.length - 1) : (log.truncate bound).first = bound := by
  simp only [truncate]
  omega

end TruncatedLog

namespace RocketmqBroker
open StableList

abbrev SegmentEntry := Nat × StreamSegment

def heldBy (entries : List SegmentEntry) : List StreamMessage := entries.flatMap (·.2.messages)

def Chained : Nat → List SegmentEntry → Prop
  | _, [] => True
  | n, (k, s) :: rest => k = n ∧ s.startOffset = n ∧
      s.messages.map (·.offset) = List.range' n s.messages.length ∧
      Chained (n + s.messages.length) rest

def Dropped (segments left : StreamSegments) : Prop :=
  ∃ gone, segments.entries = gone ++ left.entries ∧ left.entries ≠ []

variable {n o : Nat} {k : Nat} {s : StreamSegment} {entries front rest : List SegmentEntry}
  {segments left : StreamSegments}

theorem heldBy_append : heldBy (front ++ rest) = heldBy front ++ heldBy rest := List.flatMap_append

theorem heldBy_concat : heldBy (front ++ [(k, s)]) = heldBy front ++ s.messages := by
  rw [heldBy_append]
  exact congrArg (heldBy front ++ ·) (List.append_nil _)

theorem chained_append :
    Chained n (front ++ rest) ↔ Chained n front ∧ Chained (n + (heldBy front).length) rest := by
  induction front generalizing n with
  | nil => simp [Chained, heldBy]
  | cons e front ih =>
    obtain ⟨k, s⟩ := e
    have length : (heldBy ((k, s) :: front)).length =
        s.messages.length + (heldBy front).length := by
      simp [heldBy]
    rw [List.cons_append, Chained, Chained, ih, length, Nat.add_assoc]
    tauto

theorem chained_one : Chained n [(k, s)] ↔ k = n ∧ s.startOffset = n ∧
    s.messages.map (·.offset) = List.range' n s.messages.length := by
  simp [Chained]

theorem heldBy_offsets (chained : Chained n entries) :
    (heldBy entries).map (·.offset) = List.range' n (heldBy entries).length := by
  induction entries generalizing n with
  | nil => rfl
  | cons e rest ih =>
    obtain ⟨k, s⟩ := e
    obtain ⟨-, -, numbered, behind⟩ := chained
    have parts : heldBy ((k, s) :: rest) = s.messages ++ heldBy rest := rfl
    rw [parts, List.map_append, numbered, ih behind, List.length_append, List.range'_append_1]

theorem find_segment (chained : Chained n entries) :
    (o < n → (entries.map Prod.snd).reverse.find? (fun s => s.startOffset ≤ o) = none) ∧
      (n ≤ o → entries ≠ [] →
        ((entries.map Prod.snd).reverse.find? fun s => s.startOffset ≤ o).isSome = true) := by
  constructor
  · intro below
    refine List.find?_eq_none.mpr fun s member => ?_
    have starts : ∀ e ∈ entries, n ≤ e.2.startOffset := by
      clear member
      induction entries generalizing n with
      | nil => simp
      | cons e rest ih =>
        obtain ⟨k, s⟩ := e
        obtain ⟨-, start, -, behind⟩ := chained
        intro e' member
        rcases List.mem_cons.mp member with rfl | later
        · exact start.ge
        · exact (Nat.le_add_right _ _).trans (ih behind (by omega) e' later)
    obtain ⟨e, found, rfl⟩ := List.mem_map.mp (List.mem_reverse.mp member)
    have := starts e found
    simp
    omega
  · intro reached some_left
    cases entries with
    | nil => exact absurd rfl some_left
    | cons e rest =>
      obtain ⟨k, s⟩ := e
      obtain ⟨-, start, -, -⟩ := chained
      rw [List.find?_isSome]
      exact ⟨s, by simp, by simp [start, reached]⟩

theorem read_chained (chained : Chained n entries) :
    ((entries.map Prod.snd).reverse.find? fun s => s.startOffset ≤ o).bind (·.get? o) =
      if n ≤ o then (heldBy entries)[o - n]? else none := by
  induction entries generalizing n with
  | nil => simp [heldBy]
  | cons e rest ih =>
    obtain ⟨k, s⟩ := e
    obtain ⟨-, start, numbered, behind⟩ := chained
    have parts : heldBy ((k, s) :: rest) = s.messages ++ heldBy rest := rfl
    obtain ⟨below, reached⟩ := @find_segment _ o _ behind
    rw [List.map_cons, List.reverse_cons, List.find?_append, parts]
    by_cases here : o < n + s.messages.length
    · rw [below here, Option.none_or]
      by_cases inside : n ≤ o
      · rw [if_pos inside, List.getElem?_append_left (by omega)]
        simp [start, inside, StreamSegment.get?]
      · rw [if_neg inside]
        simp [start, inside]
    · rw [if_pos (by omega), List.getElem?_append_right (by omega)]
      have later := ih behind
      rw [if_pos (by omega)] at later
      cases rest with
      | nil =>
        have past : s.messages.length ≤ o - n := by omega
        have inside : n ≤ o := by omega
        simp [heldBy, start, inside, StreamSegment.get?, past]
      | cons e' rest =>
        obtain ⟨found, some_found⟩ :=
          Option.isSome_iff_exists.mp (reached (by omega) (List.cons_ne_nil _ _))
        rw [some_found] at later ⊢
        rw [Option.some_or, later, Nat.sub_sub]

namespace Dropped

theorem some_left (evicted : Dropped segments left) : left.entries ≠ [] := evicted.choose_spec.2

theorem refl (some_left : segments.entries ≠ []) : Dropped segments segments :=
  ⟨[], rfl, some_left⟩

theorem trans {m₁ m₂ m₃ : StreamSegments} (first : Dropped m₁ m₂) (second : Dropped m₂ m₃) :
    Dropped m₁ m₃ := by
  obtain ⟨gone, whole, -⟩ := first
  obtain ⟨gone', whole', some_left⟩ := second
  exact ⟨gone ++ gone', by rw [whole, whole', List.append_assoc], some_left⟩

theorem last (evicted : Dropped segments left) :
    left.entries.getLast? = segments.entries.getLast? := by
  obtain ⟨gone, whole, some_left⟩ := evicted
  rw [whole, List.getLast?_append_of_ne_nil _ some_left]

end Dropped

theorem dropped_first (split : segments.entries = (k, s) :: rest) (another : 1 < segments.size) :
    Dropped segments (segments.erase k) ∧ (segments.erase k).entries = rest := by
  have erased : (segments.erase k).entries = rest := @OrderedMap.erase_split _ _ _ _ _ _ [] _ split
  refine ⟨⟨[(k, s)], by rw [erased, split]; rfl, ?_⟩, erased⟩
  rw [erased]
  rintro rfl
  simp [OrderedMap.size, split] at another

theorem evictKeys_alone (alone : ¬1 < segments.size) (keys : List Nat) :
    segments.evictKeys keys = segments := by
  induction keys with
  | nil => rfl
  | cons k keys ih =>
    rw [StreamSegments.evictKeys, List.foldl_cons, if_neg alone]
    exact ih

theorem dropped_keys (split : segments.entries = front ++ rest)
    (some_left : segments.entries ≠ []) :
    Dropped segments (segments.evictKeys (front.map Prod.fst)) := by
  induction front generalizing segments with
  | nil => exact .refl some_left
  | cons e front ih =>
    obtain ⟨k, s⟩ := e
    by_cases another : 1 < segments.size
    · obtain ⟨first, erased⟩ := dropped_first split another
      have later := ih erased first.some_left
      rw [List.map_cons, StreamSegments.evictKeys, List.foldl_cons, if_pos another]
      exact first.trans later
    · rw [evictKeys_alone another]
      exact .refl some_left

theorem dropped_expired (created : segments.entries.Pairwise
    fun a b => a.2.createdAt ≤ b.2.createdAt) (some_left : segments.entries ≠ [])
    (now : Instant) (maxAge : Nat) :
    Dropped segments (StreamStore.evictExpired now maxAge segments) := by
  have aged : Descending (fun e : SegmentEntry => now - e.2.createdAt) segments.entries :=
    created.imp fun older => Nat.sub_le_sub_left older now
  have young := dropWhile_low (p := fun e => decide (maxAge < now - e.2.createdAt))
    (fun a b less old => by
      simp only [decide_eq_true_eq] at old ⊢
      exact old.trans_le less) aged
  have split := List.takeWhile_append_dropWhile
    (p := fun e : SegmentEntry => decide (maxAge < now - e.2.createdAt)) (l := segments.entries)
  have expired : segments.entries.filter (fun e => decide (maxAge < now - e.2.createdAt)) =
      segments.entries.takeWhile fun e => decide (maxAge < now - e.2.createdAt) := by
    conv => lhs; rw [← split]
    rw [List.filter_append, List.filter_eq_self.mpr fun e => List.mem_takeWhile_imp,
      List.filter_eq_nil_iff.mpr fun e member => by simp [young e member], List.append_nil]
  rw [StreamStore.evictExpired, expired]
  exact dropped_keys split.symm some_left

theorem dropped_bytes (maxBytes : Nat) (some_left : segments.entries ≠ []) (fuel : Nat) :
    Dropped segments (segments.evictBytes maxBytes fuel) := by
  induction fuel generalizing segments with
  | zero => exact .refl some_left
  | succ fuel ih =>
    rw [StreamSegments.evictBytes]
    split
    · rename_i full
      cases split : segments.entries with
      | nil => exact absurd split some_left
      | cons e rest =>
        obtain ⟨first, erased⟩ := dropped_first split full.2
        have oldest : segments.firstKey? = some e.1 := by rw [OrderedMap.firstKey?, split]; rfl
        rw [oldest]
        exact first.trans (ih first.some_left)
    · exact .refl some_left

theorem evictBytes_done (maxBytes fuel : Nat) (turns : segments.size ≤ fuel) :
    ¬(maxBytes < (segments.evictBytes maxBytes fuel).totalBytes ∧
      1 < (segments.evictBytes maxBytes fuel).size) := by
  induction fuel generalizing segments with
  | zero =>
    rw [StreamSegments.evictBytes]
    omega
  | succ fuel ih =>
    rw [StreamSegments.evictBytes]
    split
    · rename_i full
      cases split : segments.entries with
      | nil => simp [OrderedMap.size, split] at full
      | cons e rest =>
        obtain ⟨-, erased⟩ := dropped_first split full.2
        have oldest : segments.firstKey? = some e.1 := by rw [OrderedMap.firstKey?, split]; rfl
        have fewer : (segments.erase e.1).size + 1 = segments.size := by
          rw [OrderedMap.size, OrderedMap.size, erased, split, List.length_cons]
        rw [oldest]
        exact ih (by omega)
    · assumption

theorem dropped_applyRetention {store : StreamStore} (created : store.segments.entries.Pairwise
    fun a b => a.2.createdAt ≤ b.2.createdAt) (some_left : store.segments.entries ≠ [])
    (now : Instant) : Dropped store.segments (store.applyRetention now).segments := by
  unfold StreamStore.applyRetention
  dsimp only
  cases store.retention.maxAge with
  | none =>
    cases store.retention.maxBytes with
    | none => exact .refl some_left
    | some maxBytes => exact dropped_bytes maxBytes some_left _
  | some maxAge =>
    have young := dropped_expired created some_left now maxAge
    cases store.retention.maxBytes with
    | none => exact young
    | some maxBytes => exact young.trans (dropped_bytes maxBytes young.some_left _)

/-- The store holds what the log retains, and the clock has not gone back. -/
structure StreamStore.Sound (store : StreamStore) (log : TruncatedLog Bytes) (latest : Instant) :
    Prop where
  chained : Chained log.first store.segments.entries
  bodies : (heldBy store.segments.entries).map (·.body) = log.appended.drop log.first
  next : store.nextOffset = log.appended.length
  some_left : store.segments.entries ≠ []
  newest : ∀ e ∈ store.segments.entries.getLast?, e.2.messages = [] → log.appended = []
  created : store.segments.entries.Pairwise fun a b => a.2.createdAt ≤ b.2.createdAt
  past : ∀ e ∈ store.segments.entries, e.2.createdAt ≤ latest

namespace StreamStore.Sound
variable {store : StreamStore} {log : TruncatedLog Bytes} {latest : Instant}

theorem new (maxSegmentSize : Nat) (now : Instant) :
    Sound (.new maxSegmentSize now) .empty now where
  chained := ⟨rfl, rfl, rfl, trivial⟩
  bodies := rfl
  next := rfl
  some_left := List.cons_ne_nil _ _
  newest _ _ _ := rfl
  created := List.pairwise_singleton _ _
  past e member := by
    obtain rfl := List.mem_singleton.mp member
    exact Nat.le_refl now

theorem heldBy_length (sound : store.Sound log latest) :
    log.first + (heldBy store.segments.entries).length = log.appended.length := by
  have lengths := congrArg List.length sound.bodies
  have := log.within
  rw [List.length_map, List.length_drop] at lengths
  omega

theorem split_last (sound : store.Sound log latest) :
    ∃ front k s, store.segments.entries = front ++ [(k, s)] := by
  obtain ⟨front, e, split⟩ := (List.eq_nil_or_concat _).resolve_left sound.some_left
  exact ⟨front, e.1, e.2, split.trans List.concat_eq_append⟩

theorem rolled (sound : store.Sound log latest) {opened : Instant} (later : latest ≤ opened) :
    ∃ front k s, (store.rolled opened).entries = front ++ [(k, s)] ∧
      Chained log.first (front ++ [(k, s)]) ∧
      heldBy (front ++ [(k, s)]) = heldBy store.segments.entries ∧
      front.Pairwise (fun a b => a.2.createdAt ≤ b.2.createdAt) ∧
      (∀ e ∈ front, e.2.createdAt ≤ s.createdAt) ∧ s.createdAt ≤ opened := by
  obtain ⟨front, k, s, split⟩ := sound.split_last
  have chained := sound.chained
  have length := sound.heldBy_length
  have created := sound.created
  have past : ∀ e ∈ store.segments.entries, e.2.createdAt ≤ opened :=
    fun e member => (sound.past e member).trans later
  rw [split] at chained length created past
  obtain ⟨ordered, -, across⟩ := List.pairwise_append.mp created
  rw [split]
  unfold StreamStore.rolled
  split
  · obtain ⟨below, -⟩ := OrderedMap.split_keys split
    obtain ⟨before, last⟩ := chained_append.mp chained
    obtain ⟨rfl, start, numbered⟩ := chained_one.mp last
    rw [heldBy_concat, List.length_append, ← Nat.add_assoc, ← sound.next] at length
    by_cases empty : s.messages = []
    · -- Only a segment that was never appended to is put in again.
      have same : store.nextOffset = log.first + (heldBy front).length := by
        rw [← length, empty, List.length_nil, Nat.add_zero]
      have entries := OrderedMap.insert_split (a := StreamSegment.new store.nextOffset opened)
        split (same ▸ below)
      rw [same] at entries ⊢
      refine ⟨front, log.first + (heldBy front).length,
        .new (log.first + (heldBy front).length) opened, entries.trans ?_, ?_, ?_, ordered, ?_,
        Nat.le_refl opened⟩
      · simp [OrderedMap.insertEntry]
      · exact chained_append.mpr ⟨before, chained_one.mpr ⟨rfl, rfl, rfl⟩⟩
      · rw [heldBy_concat, heldBy_concat, empty]
        rfl
      · exact fun e member => past e (List.mem_append_left _ member)
    · have behind : log.first + (heldBy front).length < store.nextOffset := by
        have := List.length_pos_iff.mpr empty
        omega
      have above : ∀ e ∈ front ++ [(log.first + (heldBy front).length, s)],
          e.1 < store.nextOffset := by
        intro e member
        rcases List.mem_append.mp member with old | new
        · exact (below e old).trans behind
        · obtain rfl := List.mem_singleton.mp new
          exact behind
      have entries := OrderedMap.insert_split (a := StreamSegment.new store.nextOffset opened)
        (split.trans (List.append_nil _).symm) above
      have next : store.nextOffset = log.first +
          (heldBy (front ++ [(log.first + (heldBy front).length, s)])).length := by
        rw [heldBy_concat, List.length_append]
        omega
      refine ⟨_, _, _, entries, ?_, ?_, created, past, Nat.le_refl opened⟩
      · exact chained_append.mpr ⟨chained, chained_one.mpr ⟨next, next, rfl⟩⟩
      · rw [heldBy_concat]
        exact List.append_nil _
  · exact ⟨front, k, s, split, chained, rfl, ordered, fun e member => across e member _
      List.mem_cons_self, past (k, s) (List.mem_append_right _ List.mem_cons_self)⟩

theorem append (sound : store.Sound log latest) {opened stamped : Instant}
    (later : latest ≤ opened) (after : opened ≤ stamped) (body : Bytes) :
    ∃ store', store.append body opened stamped = some (log.appended.length, store') ∧
      store'.Sound (log.append body) stamped := by
  have length := sound.heldBy_length
  have bodies := sound.bodies
  obtain ⟨front, k, s, split, chained, same, ordered, older, past⟩ := sound.rolled later
  rw [← same] at length bodies
  obtain ⟨before, last⟩ := chained_append.mp chained
  obtain ⟨rfl, start, numbered⟩ := chained_one.mp last
  rw [heldBy_concat] at bodies
  rw [heldBy_concat, List.length_append, ← Nat.add_assoc, ← start] at length
  have current : (store.rolled opened).currentStart = log.first + (heldBy front).length := by
    rw [StreamSegments.currentStart, OrderedMap.lastKey?, split, List.getLast?_concat]
    rfl
  have appended : store.append body opened stamped = some (log.appended.length, { store with
      segments := (store.rolled opened).modify (log.first + (heldBy front).length)
        fun s => (s.append body stamped).2
      nextOffset := log.appended.length + 1 }) := by
    unfold StreamStore.append
    dsimp only
    rw [current, OrderedMap.get?_split split, Option.map_some]
    simp only [StreamSegment.append, length]
  have changed := OrderedMap.modify_split (fun s => (s.append body stamped).2) split
  have next : log.appended.length + 1 = (log.append body).appended.length := by
    simp [TruncatedLog.append]
  refine ⟨_, appended, ?_, ?_, next, ?_, ?_, ?_, ?_⟩ <;> dsimp only <;> rw [changed]
  · refine chained_append.mpr ⟨before, chained_one.mpr ⟨rfl, start, ?_⟩⟩
    rw [StreamSegment.append, List.map_append, numbered, List.length_append, start,
      List.length_singleton, List.range'_1_concat]
    rfl
  · rw [heldBy_concat, StreamSegment.append, ← List.append_assoc, List.map_append, bodies]
    exact (List.drop_append_of_le_length (by have := log.within; omega)).symm
  · exact List.append_ne_nil_of_right_ne_nil _ (List.cons_ne_nil _ _)
  · rw [List.getLast?_concat]
    intro e member empty
    obtain rfl := Option.some.inj member
    simp [StreamSegment.append] at empty
  · refine List.pairwise_append.mpr ⟨ordered, List.pairwise_singleton _ _, ?_⟩
    intro e member e' new
    obtain rfl := List.mem_singleton.mp new
    exact older e member
  · intro e member
    rcases List.mem_append.mp member with old | new
    · exact ((older e old).trans past).trans after
    · obtain rfl := List.mem_singleton.mp new
      exact past.trans after

theorem applyRetention (sound : store.Sound log latest) {now : Instant} (later : latest ≤ now) :
    ∃ bound, (store.applyRetention now).Sound (log.truncate bound) now := by
  have length := sound.heldBy_length
  have bodies := sound.bodies
  have chained := sound.chained
  have created := sound.created
  have evicted := dropped_applyRetention sound.created sound.some_left now
  have last := evicted.last
  obtain ⟨gone, whole, some_left⟩ := evicted
  rw [whole] at chained
  obtain ⟨-, chained⟩ := chained_append.mp chained
  rw [whole, heldBy_append] at bodies length
  rw [whole] at created
  rw [List.length_append] at length
  have inside : log.first + (heldBy gone).length ≤ log.appended.length - 1 := by
    by_cases none_yet : log.appended = []
    · have := log.within
      rw [none_yet, List.length_nil] at length this ⊢
      omega
    · obtain ⟨front, e, split⟩ := (List.eq_nil_or_concat _).resolve_left some_left
      rw [List.concat_eq_append] at split
      have filled : e.2.messages ≠ [] := fun empty =>
        none_yet (sound.newest e (by rw [← last, split, List.getLast?_concat]; rfl) empty)
      have := List.length_pos_iff.mpr filled
      have parts : (heldBy (store.applyRetention now).segments.entries).length =
          (heldBy front).length + e.2.messages.length := by
        rw [split]
        exact (congrArg List.length heldBy_concat).trans List.length_append
      omega
  have first := TruncatedLog.truncate_first (Nat.le_add_right log.first (heldBy gone).length) inside
  refine ⟨log.first + (heldBy gone).length, ?_, ?_, sound.next, some_left, ?_, ?_, ?_⟩
  · rw [first]
    exact chained
  · rw [first]
    change _ = log.appended.drop _
    rw [← List.drop_drop, ← bodies, List.map_append,
      List.drop_left' (List.length_map _)]
  · rw [last]
    exact sound.newest
  · exact (List.pairwise_append.mp created).2.1
  · intro e member
    refine (sound.past e ?_).trans later
    rw [whole]
    exact List.mem_append_right _ member

theorem setRetention (sound : store.Sound log latest) (policy : RetentionPolicy) :
    { store with retention := policy }.Sound log latest :=
  ⟨sound.chained, sound.bodies, sound.next, sound.some_left, sound.newest, sound.created,
    sound.past⟩

end StreamStore.Sound

/-- What calls do to a log, which decides itself where it is truncated. -/
inductive LogRun : TruncatedLog Bytes → List StreamCall → TruncatedLog Bytes → Prop where
  | nil {log} : LogRun log [] log
  | append {log last calls body opened stamped} (behind : LogRun (log.append body) calls last) :
    LogRun log (.append body opened stamped :: calls) last
  | applyRetention {log last calls now} (bound : Nat)
    (behind : LogRun (log.truncate bound) calls last) :
    LogRun log (.applyRetention now :: calls) last
  | setRetention {log last calls policy} (behind : LogRun log calls last) :
    LogRun log (.setRetention policy :: calls) last

/-- What shows that a store holds what a log retains. -/
structure StreamStore.Shows (store : StreamStore) (log : TruncatedLog Bytes) : Prop where
  offsets : store.offsets = log.offsets
  read : ∀ o, (store.read o).map (·.body) = log.read o
  retained : ∀ o, (store.read o).isSome = true ↔ o ∈ store.offsets
  numbered : ∀ o m, store.read o = some m → m.offset = o
  first : log.appended ≠ [] →
    store.firstOffset ∈ store.offsets ∧ ∀ o ∈ store.offsets, store.firstOffset ≤ o
  newest : log.appended ≠ [] → log.appended.length - 1 ∈ store.offsets ∧
    ∃ e m, store.segments.entries.getLast? = some e ∧ e.2.messages.getLast? = some m ∧
      m.offset = log.appended.length - 1
  kept : ∀ now, (store.applyRetention now).segments.entries.getLast? =
    store.segments.entries.getLast?

theorem StreamStore.Sound.shows {store : StreamStore} {log : TruncatedLog Bytes}
    {latest : Instant} (sound : store.Sound log latest) : store.Shows log := by
  have length := sound.heldBy_length
  have chained := sound.chained
  have read (o : Nat) : store.read o =
      if log.first ≤ o then (heldBy store.segments.entries)[o - log.first]? else none :=
    read_chained chained
  have numbers := heldBy_offsets chained
  have all : store.offsets = (heldBy store.segments.entries).map (·.offset) := by
    rw [StreamStore.offsets, heldBy, List.map_flatMap, OrderedMap.values, List.flatMap_map]
  have offsets : store.offsets = log.offsets := by
    rw [all, numbers, TruncatedLog.offsets, ← length, Nat.add_sub_cancel_left]
  have reads (o : Nat) : (store.read o).map (·.body) = log.read o := by
    rw [read, TruncatedLog.read]
    split
    · rename_i inside
      rw [← List.getElem?_map, sound.bodies, List.getElem?_drop, Nat.add_sub_cancel' inside]
    · rfl
  refine ⟨offsets, reads, ?_, ?_, ?_, ?_, ?_⟩
  · intro o
    rw [offsets, ← TruncatedLog.read_isSome, ← reads, Option.isSome_map]
  · intro o m found
    rw [read] at found
    split at found
    · rename_i inside
      have number := congrArg (·[o - log.first]?) numbers
      simp only [List.getElem?_map, found, Option.map_some] at number
      obtain ⟨here, same⟩ := List.getElem?_eq_some_iff.mp number.symm
      rw [List.getElem_range'_1] at same
      omega
    · cases found
  · intro some_left
    have first : store.firstOffset = log.first := by
      obtain ⟨e, rest, split⟩ := List.exists_cons_of_ne_nil sound.some_left
      rw [split] at chained
      obtain ⟨-, start, -⟩ := chained
      rw [StreamStore.firstOffset, OrderedMap.values, split]
      exact start
    have newest := TruncatedLog.mem_offsets.mp (TruncatedLog.newest_retained some_left)
    rw [offsets, first]
    refine ⟨TruncatedLog.mem_offsets.mpr ⟨Nat.le_refl _, by omega⟩, ?_⟩
    exact fun o member => (TruncatedLog.mem_offsets.mp member).1
  · intro some_left
    obtain ⟨front, k, s, split⟩ := sound.split_last
    have last : store.segments.entries.getLast? = some (k, s) := by
      rw [split, List.getLast?_concat]
    have filled : s.messages ≠ [] := fun empty => some_left (sound.newest (k, s) last empty)
    obtain ⟨others, m, messages⟩ := (List.eq_nil_or_concat _).resolve_left filled
    rw [List.concat_eq_append] at messages
    refine ⟨offsets ▸ TruncatedLog.newest_retained some_left, (k, s), m, last,
      by rw [messages, List.getLast?_concat], ?_⟩
    rw [split, heldBy_concat, messages, ← List.append_assoc, List.length_append,
      List.length_singleton] at numbers length
    rw [List.range'_1_concat, List.map_append] at numbers
    have newest : m.offset = log.first + (heldBy front ++ others).length :=
      List.singleton_inj.mp (List.append_inj_right' numbers rfl)
    omega
  · exact fun now => (dropped_applyRetention sound.created sound.some_left now).last

theorem LogRun.appended_eq {log last : TruncatedLog Bytes} {calls : List StreamCall}
    (behind : LogRun log calls last) :
    last.appended = log.appended ++ StreamCall.bodies calls := by
  induction behind with
  | nil => exact (List.append_nil _).symm
  | append behind ih =>
    rw [ih]
    exact List.append_assoc _ _ _
  | applyRetention bound behind ih => exact ih
  | setRetention behind ih => exact ih

/-- One call after the other, each keeps the store and the log together. -/
theorem StreamStore.Sound.perform {store : StreamStore} {log : TruncatedLog Bytes}
    {latest : Instant} (sound : store.Sound log latest) (calls : List StreamCall)
    (monotone : (latest :: calls.flatMap StreamCall.readings).Pairwise (· ≤ ·)) :
    ∃ store' log' latest', store.perform calls =
        some (List.range' log.appended.length (StreamCall.bodies calls).length, store') ∧
      LogRun log calls log' ∧ store'.Sound log' latest' := by
  induction calls generalizing store log latest with
  | nil => exact ⟨store, log, latest, rfl, .nil, sound⟩
  | cons call calls ih =>
    obtain ⟨ahead, monotone⟩ := List.pairwise_cons.mp monotone
    cases call with
    | append body opened stamped =>
      obtain ⟨before, monotone⟩ := List.pairwise_cons.mp monotone
      have later : latest ≤ opened := ahead opened (by simp [StreamCall.readings])
      have after : opened ≤ stamped := before stamped (by simp [StreamCall.readings])
      obtain ⟨store₁, appended, sound₁⟩ := sound.append later after body
      obtain ⟨store', log', latest', performed, run, sound'⟩ := ih sound₁ monotone
      refine ⟨store', log', latest', ?_, .append run, sound'⟩
      have length : (log.append body).appended.length = log.appended.length + 1 := by
        simp [TruncatedLog.append]
      rw [StreamStore.perform, StreamStore.step, appended]
      change (store₁.perform calls).bind _ = _
      rw [performed, length]
      rfl
    | applyRetention now =>
      have later : latest ≤ now := ahead now (by simp [StreamCall.readings])
      obtain ⟨bound, sound₁⟩ := sound.applyRetention later
      obtain ⟨store', log', latest', performed, run, sound'⟩ := ih sound₁ monotone
      refine ⟨store', log', latest', ?_, .applyRetention bound run, sound'⟩
      rw [StreamStore.perform]
      change ((store.applyRetention now).perform calls).bind _ = _
      rw [performed]
      rfl
    | setRetention policy =>
      obtain ⟨store', log', latest', performed, run, sound'⟩ :=
        ih (sound.setRetention policy) (List.pairwise_cons.mpr ⟨ahead, monotone⟩)
      refine ⟨store', log', latest', ?_, .setRetention run, sound'⟩
      rw [StreamStore.perform]
      change (StreamStore.perform _ calls).bind _ = _
      rw [performed]
      rfl

/-- Whatever is called, no call panics, the offsets returned count up from 0, and the store
    shows a log of all bodies that was only truncated. -/
theorem stream_is_truncated_log (maxSegmentSize : Nat) (created : Instant)
    (calls : List StreamCall)
    (monotone : (created :: calls.flatMap StreamCall.readings).Pairwise (· ≤ ·)) :
    ∃ store log, (StreamStore.new maxSegmentSize created).perform calls =
        some (List.range (StreamCall.bodies calls).length, store) ∧
      LogRun .empty calls log ∧ log.appended = StreamCall.bodies calls ∧ store.Shows log := by
  obtain ⟨store, log, latest, performed, run, sound⟩ :=
    (StreamStore.Sound.new maxSegmentSize created).perform calls monotone
  refine ⟨store, log, ?_, run, run.appended_eq, sound.shows⟩
  rw [performed, List.range_eq_range']
  rfl

/-- Each message in a segment of its own, where a policy leaves room for one. -/
def threeAppends : List StreamCall :=
  [.append [1] 0 0, .append [] 1 1, .setRetention ⟨some 1, some 1⟩, .append [3] 2 2,
    .applyRetention 9]

theorem stream_is_truncated_log_three : ∃ store log,
    (StreamStore.new 0 0).perform threeAppends = some ([0, 1, 2], store) ∧
      LogRun .empty threeAppends log ∧ log.appended = [[1], [], [3]] ∧ store.Shows log :=
  stream_is_truncated_log 0 0 threeAppends (by decide)

end RocketmqBroker
