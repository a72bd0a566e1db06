import Mathlib.Algebra.GroupWithZero.Nat
import RocketmqBroker.Storage.SegmentCoordinator

/-!
What the segment directory looks like: files 1, 2, ... with the last one active.
Appending extends the last file or starts a new one. A log of well-sized entries
is the case where every file is the concatenation of its records, and there
reading everything gives the appended entries.
-/
namespace RocketmqBroker
open BigEndian ByteReader RecordScan

structure SegmentFiles (dir : Dir) (files : List Bytes) : Prop where
  content : ∀ i, dir.get? (segmentPath (i + 1)) = files[i]?
  only : ∀ name ∈ dir.keys, ∃ i, name = segmentPath (i + 1)

structure Segments (w : SegmentCoordinator) (closed : List Bytes) (last : Bytes) : Prop where
  active : w.active = ⟨closed.length + 1, segmentPath (closed.length + 1), last.length,
    w.maxSegmentSize⟩
  files : SegmentFiles w.dir (closed ++ [last])

variable {w : SegmentCoordinator} {dir : Dir} {closed : List Bytes} {last : Bytes}

theorem Segments.active_file (h : Segments w closed last) :
    w.dir.get? (segmentPath (closed.length + 1)) = some last := by
  rw [h.files.content, List.getElem?_concat_length]

theorem removeFiles_lookup (dir : Dir) (names : List String) (name : String) :
    (dir.removeFiles names).get? name = if name ∈ names then none else dir.get? name := by
  induction names generalizing dir with
  | nil => simp [Dir.removeFiles]
  | cons n ns ih =>
    change (Dir.removeFiles (dir.erase n) ns).get? name = _
    rw [ih, FinMap.get?_erase]
    by_cases same : name = n
    · simp [same]
    · simp [same]

theorem removeFiles_all (dir : Dir) : dir.removeFiles dir.keys = ∅ := by
  apply AList.ext
  apply List.eq_nil_iff_forall_not_mem.mpr
  intro entry member
  have found := FinMap.get?_eq_some_iff_mem.mpr member
  rw [removeFiles_lookup] at found
  split at found
  · contradiction
  · rename_i absent
    exact absent (FinMap.mem_keys_iff.mpr ⟨entry.2, found⟩)

theorem truncate_dir (w : SegmentCoordinator) :
    w.truncate.dir = (∅ : Dir).touch (segmentPath 1) := by
  rw [SegmentCoordinator.truncate, removeFiles_all]

theorem segmentFiles_one_empty : SegmentFiles ((∅ : Dir).touch (segmentPath 1)) [[]] := by
  refine ⟨?_, ?_⟩
  · intro i
    rw [Dir.touch, FinMap.get?_orInsert]
    cases i with
    | zero => simp
    | succ i =>
      have other : segmentPath (i + 1 + 1) ≠ segmentPath 1 := fun same => by
        have := segmentPath_injective same
        omega
      simp [other]
  · intro name member
    obtain ⟨bytes, found⟩ := FinMap.mem_keys_iff.mp member
    rw [Dir.touch, FinMap.get?_orInsert] at found
    split at found
    · exact ⟨0, by assumption⟩
    · simp at found

theorem segments_new_empty (max : Nat) : Segments (SegmentCoordinator.new ∅ max) [] [] := by
  have none_yet : discoverSegmentIds (∅ : Dir) = [] := by decide
  refine ⟨?_, ?_⟩
  · simp [SegmentCoordinator.new, none_yet, Dir.touch, FinMap.get?_orInsert]
  · simpa [SegmentCoordinator.new, none_yet] using segmentFiles_one_empty

theorem truncate_eq_new (w : SegmentCoordinator) :
    w.truncate = SegmentCoordinator.new ∅ w.maxSegmentSize := by
  have none_yet : discoverSegmentIds (∅ : Dir) = [] := by decide
  rw [SegmentCoordinator.truncate, removeFiles_all]
  simp [SegmentCoordinator.new, none_yet, Dir.touch, FinMap.get?_orInsert]

/-- Sorting the discovered ids gives 1, 2, ... whatever order the directory is
    listed in. -/
theorem segmentFiles_discover {files : List Bytes} (h : SegmentFiles dir files) :
    discoverSegmentIds dir = List.range' 1 files.length := by
  have paths : dir.keys.Perm ((List.range' 1 files.length).map segmentPath) := by
    apply (List.perm_ext_iff_of_nodup (FinMap.keys_nodup dir) ?_).mpr
    · intro name
      rw [List.mem_map]
      constructor
      · intro member
        obtain ⟨i, rfl⟩ := h.only name member
        obtain ⟨bytes, found⟩ := FinMap.mem_keys_iff.mp member
        rw [h.content] at found
        have bound := (List.getElem?_eq_some_iff.mp found).1
        exact ⟨i + 1, List.mem_range'_1.mpr (by omega), rfl⟩
      · rintro ⟨id, inside, rfl⟩
        have bounds := List.mem_range'_1.mp inside
        obtain ⟨i, rfl⟩ : ∃ i, id = i + 1 := ⟨id - 1, by omega⟩
        have inRange : i < files.length := by omega
        exact FinMap.mem_keys_iff.mpr ⟨_, by rw [h.content, List.getElem?_eq_getElem inRange]⟩
    · exact (List.nodup_range' (s := 1) (n := files.length)).map
        fun _ _ same => segmentPath_injective same
  have ids : (dir.keys.filterMap segmentIdOf).Perm (List.range' 1 files.length) := by
    have mapped := paths.filterMap segmentIdOf
    rw [List.filterMap_map] at mapped
    have inverse : (segmentIdOf ∘ segmentPath) = some := by
      funext id
      rw [Function.comp_apply, segmentIdOf_segmentPath]
    rwa [inverse, List.filterMap_some] at mapped
  have sorted : (List.range' 1 files.length).Pairwise (· ≤ ·) :=
    (List.pairwise_lt_range' (s := 1) (n := files.length)).imp Nat.le_of_lt
  exact ((List.perm_insertionSort _ _).trans ids).eq_of_pairwise
    (fun _ _ _ _ => Nat.le_antisymm) (List.pairwise_insertionSort _ _) sorted

theorem segments_new (h : SegmentFiles dir (closed ++ [last])) (max : Nat) :
    (SegmentCoordinator.new dir max).dir = dir ∧
      Segments (SegmentCoordinator.new dir max) closed last := by
  have lastId : (discoverSegmentIds dir).getLast?.getD 1 = closed.length + 1 := by
    rw [segmentFiles_discover h, List.length_append, List.length_singleton, List.range'_concat]
    simp
    omega
  have here : dir.get? (segmentPath (closed.length + 1)) = some last := by
    rw [h.content, List.getElem?_concat_length]
  have kept : dir.touch (segmentPath (closed.length + 1)) = dir := by
    simp [Dir.touch, FinMap.orInsert, here]
  refine ⟨?_, ?_, ?_⟩
  · simp [SegmentCoordinator.new, lastId, kept]
  · simp [SegmentCoordinator.new, lastId, kept, here]
  · simpa [SegmentCoordinator.new, lastId, kept] using h

/-- Opening a directory again with the limit it was written under changes
    nothing. -/
theorem new_of_segments (h : Segments w closed last) :
    SegmentCoordinator.new w.dir w.maxSegmentSize = w := by
  obtain ⟨dir, again⟩ := segments_new h.files w.maxSegmentSize
  have active : (SegmentCoordinator.new w.dir w.maxSegmentSize).active = w.active :=
    again.active.trans h.active.symm
  calc SegmentCoordinator.new w.dir w.maxSegmentSize
      = ⟨(SegmentCoordinator.new w.dir w.maxSegmentSize).dir,
          (SegmentCoordinator.new w.dir w.maxSegmentSize).active, w.maxSegmentSize⟩ := rfl
    _ = w := by rw [dir, active]

theorem appendTo_lookup (dir : Dir) (name other : String) (bytes : Bytes) :
    (dir.appendTo name bytes).get? other =
      if other = name then some ((dir.get? name).getD [] ++ bytes) else dir.get? other := by
  rw [Dir.appendTo, FinMap.get?_insert]

theorem segmentFiles_last {dir' : Dir} {last' : Bytes}
    (h : SegmentFiles dir (closed ++ [last]))
    (changed : ∀ name, dir'.get? name =
      if name = segmentPath (closed.length + 1) then some last' else dir.get? name) :
    SegmentFiles dir' (closed ++ [last']) := by
  refine ⟨?_, ?_⟩
  · intro i
    rw [changed]
    by_cases here : i = closed.length
    · subst here
      rw [if_pos rfl, List.getElem?_concat_length]
    · have other : segmentPath (i + 1) ≠ segmentPath (closed.length + 1) := fun same =>
        here (by have := segmentPath_injective same; omega)
      rw [if_neg other, h.content]
      rcases Nat.lt_or_gt_of_ne here with before | after
      · rw [List.getElem?_append_left before, List.getElem?_append_left before]
      · rw [List.getElem?_eq_none (by simp; omega), List.getElem?_eq_none (by simp; omega)]
  · intro name member
    obtain ⟨bytes, found⟩ := FinMap.mem_keys_iff.mp member
    rw [changed] at found
    split at found
    · exact ⟨closed.length, by assumption⟩
    · exact h.only name (FinMap.mem_keys_iff.mpr ⟨bytes, found⟩)

theorem segments_rotate (h : Segments w closed last) : Segments w.rotate (closed ++ [last]) [] := by
  have fresh : w.dir.get? (segmentPath (closed.length + 1 + 1)) = none := by
    rw [h.files.content]
    simp
  refine ⟨?_, ?_, ?_⟩
  · simp [SegmentCoordinator.rotate, h.active]
  · intro i
    simp only [SegmentCoordinator.rotate, h.active, Dir.touch, FinMap.get?_orInsert, fresh]
    by_cases next : i = closed.length + 1
    · subst next
      simp
    · have other : segmentPath (i + 1) ≠ segmentPath (closed.length + 1 + 1) := fun same =>
        next (by have := segmentPath_injective same; omega)
      rw [if_neg other, h.files.content]
      rcases Nat.lt_or_gt_of_ne next with before | after
      · have inside : i < (closed ++ [last]).length := by simp; omega
        rw [List.getElem?_append_left inside]
      · rw [List.getElem?_eq_none (by simp; omega), List.getElem?_eq_none (by simp; omega)]
  · intro name member
    simp only [SegmentCoordinator.rotate, h.active, Dir.touch, FinMap.mem_keys_iff,
      FinMap.get?_orInsert] at member
    obtain ⟨bytes, found⟩ := member
    split at found
    · exact ⟨closed.length + 1, by assumption⟩
    · exact h.files.only name (FinMap.mem_keys_iff.mpr ⟨bytes, found⟩)

/-- The whole record, header included, is shorter than 2^32 bytes. -/
def WalEntry.Fits (e : WalEntry) : Prop := walHeaderSize + e.data.length < 2 ^ 32

instance (e : WalEntry) : Decidable e.Fits := inferInstanceAs (Decidable (_ < _))

theorem WalEntry.Fits.valid {e : WalEntry} (h : e.Fits) (crc32 : Bytes → UInt32) :
    (recordCodec crc32).Valid e := by
  simp only [Fits, walHeaderSize] at h
  change 1 + e.data.length < 2 ^ 32
  omega

variable {crc32 : Bytes → UInt32}

theorem segments_write (h : Segments w closed last) {e : WalEntry} (fits : e.Fits) :
    Segments { w with
      dir := (w.active.append crc32 w.dir e).1
      active := (w.active.append crc32 w.dir e).2.1 } closed (last ++ recordBytes crc32 e) := by
  have fits32 : (recordBytes crc32 e).length % 2 ^ 32 = (recordBytes crc32 e).length := by
    rw [recordBytes_length]
    exact Nat.mod_eq_of_lt fits
  refine ⟨?_, segmentFiles_last h.files ?_⟩
  · simp only [Segment.append, fits32, h.active, List.length_append]
  · intro name
    simp only [Segment.append, h.active, appendTo_lookup, h.active_file, Option.getD_some]

def SegmentCoordinator.rotates (w : SegmentCoordinator) (e : WalEntry) : Bool :=
  w.active.size + (walHeaderSize + e.data.length) > w.active.maxSize

theorem segments_log_stays (crc32 : Bytes → UInt32) (h : Segments w closed last) {e : WalEntry}
    (fits : e.Fits) (stays : w.rotates e = false) :
    Segments (w.log crc32 e) closed (last ++ recordBytes crc32 e) := by
  have same : ¬ w.active.size + (walHeaderSize + e.data.length) > w.active.maxSize := by
    simpa [SegmentCoordinator.rotates] using stays
  simpa only [SegmentCoordinator.log, SegmentCoordinator.append, same, ↓reduceIte] using
    segments_write h fits

theorem segments_log_rotates (crc32 : Bytes → UInt32) (h : Segments w closed last) {e : WalEntry}
    (fits : e.Fits) (turns : w.rotates e = true) :
    Segments (w.log crc32 e) (closed ++ [last]) (recordBytes crc32 e) := by
  have exceeds : w.active.size + (walHeaderSize + e.data.length) > w.active.maxSize := by
    simpa [SegmentCoordinator.rotates] using turns
  simpa only [SegmentCoordinator.log, SegmentCoordinator.append, exceeds, ↓reduceIte,
    List.nil_append] using segments_write (segments_rotate h) fits

theorem log_maxSegmentSize (w : SegmentCoordinator) (e : WalEntry) :
    (w.log crc32 e).maxSegmentSize = w.maxSegmentSize := by
  simp only [SegmentCoordinator.log, SegmentCoordinator.append]
  split
  · rfl
  · rfl

theorem logAll_maxSegmentSize (w : SegmentCoordinator) (es : List WalEntry) :
    (w.logAll crc32 es).maxSegmentSize = w.maxSegmentSize := by
  induction es generalizing w with
  | nil => rfl
  | cons e es ih => exact (ih (w.log crc32 e)).trans (log_maxSegmentSize w e)

theorem logAll_append (w : SegmentCoordinator) (es fs : List WalEntry) :
    w.logAll crc32 (es ++ fs) = (w.logAll crc32 es).logAll crc32 fs := by
  simp [SegmentCoordinator.logAll]

theorem logAll_cons (w : SegmentCoordinator) (e : WalEntry) (es : List WalEntry) :
    w.logAll crc32 (e :: es) = (w.log crc32 e).logAll crc32 es := rfl

theorem segments_readAllEntries (h : Segments w closed last) :
    w.readAllEntries crc32 = (closed ++ [last]).flatMap (readEntries crc32) := by
  have segments : (List.range (closed ++ [last]).length).map
      (fun i => (w.dir.get? (segmentPath (1 + i))).getD []) = closed ++ [last] := by
    apply List.ext_getElem
    · simp
    · intro i _ hi
      rw [List.getElem_map, List.getElem_range, Nat.add_comm, h.files.content,
        List.getElem?_eq_getElem hi, Option.getD_some]
  rw [SegmentCoordinator.readAllEntries, segmentFiles_discover h.files, List.range'_eq_map_range,
    List.flatMap_map]
  conv_rhs => rw [← segments, List.flatMap_map]

variable (crc32)

abbrev segmentBytes (es : List WalEntry) : Bytes := encodeAll (recordCodec crc32) es

theorem segmentBytes_cons (e : WalEntry) (es : List WalEntry) :
    segmentBytes crc32 (e :: es) = recordBytes crc32 e ++ segmentBytes crc32 es :=
  encodeAll_cons _ e es

theorem segmentBytes_snoc (es : List WalEntry) (e : WalEntry) :
    segmentBytes crc32 (es ++ [e]) = segmentBytes crc32 es ++ recordBytes crc32 e := by
  simp [segmentBytes, recordCodec]

theorem readEntries_segmentBytes {es : List WalEntry} (fits : ∀ e ∈ es, e.Fits) :
    readEntries crc32 (segmentBytes crc32 es) = es :=
  scan_encodeAll (recordCodec crc32) fun e he => (fits e he).valid crc32

/-- The segments hold the records of `full` and, in the active one, of `cur`. -/
structure Layout (w : SegmentCoordinator) (full : List (List WalEntry)) (cur : List WalEntry) :
    Prop where
  segments : Segments w (full.map (segmentBytes crc32)) (segmentBytes crc32 cur)
  fits : ∀ e ∈ (full ++ [cur]).flatten, e.Fits

variable {crc32} {full : List (List WalEntry)} {cur : List WalEntry}

theorem layout_new_empty (max : Nat) : Layout crc32 (SegmentCoordinator.new ∅ max) [] [] :=
  ⟨segments_new_empty max, by simp⟩

theorem layout_log_stays (h : Layout crc32 w full cur) {e : WalEntry} (fits : e.Fits)
    (stays : w.rotates e = false) : Layout crc32 (w.log crc32 e) full (cur ++ [e]) := by
  refine ⟨?_, ?_⟩
  · rw [segmentBytes_snoc]
    exact segments_log_stays crc32 h.segments fits stays
  · intro x member
    simp only [List.flatten_append, List.flatten_singleton, List.mem_append,
      List.mem_singleton] at member
    rcases member with old | old | rfl
    · exact h.fits x (by simp [old])
    · exact h.fits x (by simp [old])
    · exact fits

theorem layout_log_rotates (h : Layout crc32 w full cur) {e : WalEntry} (fits : e.Fits)
    (turns : w.rotates e = true) : Layout crc32 (w.log crc32 e) (full ++ [cur]) [e] := by
  refine ⟨?_, ?_⟩
  · have one : segmentBytes crc32 [e] = recordBytes crc32 e := by simp [segmentBytes, recordCodec]
    rw [List.map_append, one]
    exact segments_log_rotates crc32 h.segments fits turns
  · intro x member
    rw [List.flatten_append, List.flatten_singleton, List.mem_append,
      List.mem_singleton] at member
    rcases member with old | rfl
    · exact h.fits x old
    · exact fits

theorem layout_log (h : Layout crc32 w full cur) {e : WalEntry} (fits : e.Fits) :
    ∃ full' cur', Layout crc32 (w.log crc32 e) full' cur' ∧
      (full' ++ [cur']).flatten = (full ++ [cur]).flatten ++ [e] := by
  cases turn : w.rotates e with
  | false => exact ⟨full, cur ++ [e], layout_log_stays h fits turn, by simp⟩
  | true => exact ⟨full ++ [cur], [e], layout_log_rotates h fits turn, by simp⟩

theorem layout_logAll (h : Layout crc32 w full cur) {es : List WalEntry}
    (fits : ∀ e ∈ es, e.Fits) :
    ∃ full' cur', Layout crc32 (w.logAll crc32 es) full' cur' ∧
      (full' ++ [cur']).flatten = (full ++ [cur]).flatten ++ es := by
  induction es generalizing w full cur with
  | nil => exact ⟨full, cur, h, by simp⟩
  | cons e es ih =>
    obtain ⟨full₁, cur₁, h₁, eq₁⟩ := layout_log h (fits e (by simp))
    obtain ⟨full₂, cur₂, h₂, eq₂⟩ := ih h₁ fun x hx => fits x (by simp [hx])
    exact ⟨full₂, cur₂, h₂, by rw [eq₂, eq₁, List.append_assoc, List.singleton_append]⟩

theorem layout_readAllEntries (h : Layout crc32 w full cur) :
    w.readAllEntries crc32 = (full ++ [cur]).flatten := by
  have each : ∀ seg ∈ full ++ [cur], readEntries crc32 (segmentBytes crc32 seg) = seg := by
    intro seg member
    exact readEntries_segmentBytes crc32 fun e he => h.fits e (List.mem_flatten_of_mem member he)
  have files : full.map (segmentBytes crc32) ++ [segmentBytes crc32 cur] =
      (full ++ [cur]).map (segmentBytes crc32) := by simp
  rw [segments_readAllEntries h.segments, files, List.flatMap_map, List.flatMap_def,
    List.map_congr_left each, List.map_id']

variable (crc32)

/-- The log after these appends, starting from an empty directory. -/
def walOf (max : Nat) (es : List WalEntry) : SegmentCoordinator :=
  (SegmentCoordinator.new ∅ max).logAll crc32 es

variable {crc32} {max : Nat} {es : List WalEntry}

theorem walOf_layout (crc32 : Bytes → UInt32) (max : Nat) (fits : ∀ e ∈ es, e.Fits) :
    ∃ full cur, Layout crc32 (walOf crc32 max es) full cur ∧ (full ++ [cur]).flatten = es := by
  obtain ⟨full, cur, h, eq⟩ := layout_logAll (layout_new_empty max) fits
  exact ⟨full, cur, h, by simpa using eq⟩

theorem walOf_readAllEntries (fits : ∀ e ∈ es, e.Fits) :
    (walOf crc32 max es).readAllEntries crc32 = es := by
  obtain ⟨full, cur, h, eq⟩ := walOf_layout crc32 max fits
  rw [layout_readAllEntries h, eq]

theorem walOf_maxSegmentSize : (walOf crc32 max es).maxSegmentSize = max := by
  rw [walOf, logAll_maxSegmentSize]
  rfl

theorem walOf_logAll (fs : List WalEntry) :
    (walOf crc32 max es).logAll crc32 fs = walOf crc32 max (es ++ fs) :=
  (logAll_append _ es fs).symm

theorem walOf_log (e : WalEntry) : (walOf crc32 max es).log crc32 e = walOf crc32 max (es ++ [e]) :=
  walOf_logAll [e]

theorem walOf_truncate : (walOf crc32 max es).truncate = walOf crc32 max [] := by
  rw [truncate_eq_new, walOf_maxSegmentSize]
  rfl

theorem walOf_reopen (fits : ∀ e ∈ es, e.Fits) :
    SegmentCoordinator.new (walOf crc32 max es).dir max = walOf crc32 max es := by
  obtain ⟨full, cur, h, _⟩ := walOf_layout crc32 max fits
  have same := new_of_segments h.segments
  rwa [walOf_maxSegmentSize] at same

end RocketmqBroker
