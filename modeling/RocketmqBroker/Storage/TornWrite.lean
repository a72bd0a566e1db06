import RocketmqBroker.Storage.WalRoundTrip

/-!
A torn last write. The active segment is cut at an arbitrary byte, the log is
reopened and appended to. The reader stops at the torn bytes, so what follows
them in the same segment is reached only when those bytes are harmless.
-/
namespace RocketmqBroker
open BigEndian ByteReader RecordScan

def recordSize (e : WalEntry) : Nat := walHeaderSize + e.data.length

def packStep (max : Nat) (segs : List (List WalEntry) × List WalEntry) (e : WalEntry) :
    List (List WalEntry) × List WalEntry :=
  if (segs.2.map recordSize).sum + recordSize e > max then (segs.1 ++ [segs.2], [e])
  else (segs.1, segs.2 ++ [e])

def packed (max : Nat) (es : List WalEntry) : List (List WalEntry) × List WalEntry :=
  es.foldl (packStep max) ([], [])

def beforeRotation (max : Nat) : Nat → List WalEntry → List WalEntry
  | _, [] => []
  | size, e :: es =>
    if size + recordSize e > max then [] else e :: beforeRotation max (size + recordSize e) es

def Dir.cut (dir : Dir) (name : String) (k : Nat) : Dir := dir.modify name (List.take k)

variable (crc32 : Bytes → UInt32)

def survivors (max k : Nat) (es : List WalEntry) : List WalEntry :=
  (packed max es).1.flatten ++ whole (recordCodec crc32) k (packed max es).2

def tornBytes (max k : Nat) (es : List WalEntry) : Bytes :=
  torn (recordCodec crc32) k (packed max es).2

/-- Reading past torn bytes gives the records behind them: the torn bytes only
    shift these records, and what is left over starts no record. -/
def Harmless (tornBytes : Bytes) (behind : List WalEntry) : Prop :=
  ∃ left, tornBytes ++ segmentBytes crc32 behind = segmentBytes crc32 behind ++ left ∧
    readRecord crc32 left = none

variable {crc32} {w : SegmentCoordinator}

theorem segmentBytes_length (es : List WalEntry) :
    (segmentBytes crc32 es).length = (es.map recordSize).sum := by
  induction es with
  | nil => rfl
  | cons e es ih =>
    rw [segmentBytes_cons, List.length_append, ih, List.map_cons, List.sum_cons,
      recordBytes_length, recordSize]

theorem layout_packStep {segs : List (List WalEntry) × List WalEntry}
    (h : Layout crc32 w segs.1 segs.2) {e : WalEntry} (fits : e.Fits) :
    Layout crc32 (w.log crc32 e) (packStep w.maxSegmentSize segs e).1
      (packStep w.maxSegmentSize segs e).2 := by
  have same : w.rotates e = decide ((segs.2.map recordSize).sum + recordSize e >
      w.maxSegmentSize) := by
    rw [SegmentCoordinator.rotates, h.segments.active, segmentBytes_length, recordSize]
  by_cases exceeds : (segs.2.map recordSize).sum + recordSize e > w.maxSegmentSize
  · simp only [packStep, exceeds, ↓reduceIte]
    exact layout_log_rotates h fits (by simp [same, exceeds])
  · simp only [packStep, exceeds, ↓reduceIte]
    exact layout_log_stays h fits (by simp [same, exceeds])

theorem layout_foldl_packStep {es : List WalEntry} (fits : ∀ e ∈ es, e.Fits)
    {segs : List (List WalEntry) × List WalEntry} (h : Layout crc32 w segs.1 segs.2) :
    Layout crc32 (w.logAll crc32 es) (es.foldl (packStep w.maxSegmentSize) segs).1
      (es.foldl (packStep w.maxSegmentSize) segs).2 := by
  induction es generalizing w segs with
  | nil => exact h
  | cons e es ih =>
    have step := layout_packStep h (fits e (by simp))
    have rest := ih (fun x hx => fits x (by simp [hx])) step
    rwa [log_maxSegmentSize] at rest

theorem layout_packed (crc32 : Bytes → UInt32) {es : List WalEntry} (fits : ∀ e ∈ es, e.Fits)
    (max : Nat) :
    Layout crc32 ((SegmentCoordinator.new ∅ max).logAll crc32 es) (packed max es).1
      (packed max es).2 := by
  let none_yet : List (List WalEntry) × List WalEntry := ([], [])
  have start : Layout crc32 (SegmentCoordinator.new ∅ max) none_yet.1 none_yet.2 :=
    layout_new_empty max
  exact layout_foldl_packStep fits start

theorem beforeRotation_prefix (max size : Nat) (es : List WalEntry) :
    beforeRotation max size es <+: es := by
  induction es generalizing size with
  | nil => exact List.prefix_refl []
  | cons e es ih =>
    simp only [beforeRotation]
    split
    · exact List.nil_prefix
    · exact (List.cons_prefix_cons).mpr ⟨rfl, ih _⟩

/-- Whatever the active segment holds, appending reaches it until the first
    rotation, and every later segment is read back in full. -/
theorem readAllEntries_logAll (crc32 : Bytes → UInt32) {closed : List Bytes} {last : Bytes}
    (h : Segments w closed last) {fs : List WalEntry} (fits : ∀ e ∈ fs, e.Fits) :
    (w.logAll crc32 fs).readAllEntries crc32 = closed.flatMap (readEntries crc32) ++
      (readEntries crc32
          (last ++ segmentBytes crc32 (beforeRotation w.maxSegmentSize last.length fs)) ++
        fs.drop (beforeRotation w.maxSegmentSize last.length fs).length) := by
  induction fs generalizing w closed last with
  | nil =>
    have empty : w.logAll crc32 [] = w := rfl
    rw [empty, segments_readAllEntries h]
    simp [beforeRotation, segmentBytes]
  | cons e fs ih =>
    have fitsRest : ∀ x ∈ fs, x.Fits := fun x hx => fits x (by simp [hx])
    have same : w.rotates e = decide (last.length + recordSize e > w.maxSegmentSize) := by
      rw [SegmentCoordinator.rotates, h.active, recordSize]
    rw [logAll_cons]
    by_cases exceeds : last.length + recordSize e > w.maxSegmentSize
    · have turned := segments_log_rotates crc32 h (fits e (by simp))
        (by simp [same, exceeds])
      rw [ih turned fitsRest]
      -- The new segment starts with e and holds records only.
      generalize reached : beforeRotation (w.log crc32 e).maxSegmentSize
        (recordBytes crc32 e).length fs = g
      have inside : g <+: fs := reached ▸ beforeRotation_prefix _ _ fs
      have records : readEntries crc32 (recordBytes crc32 e ++ segmentBytes crc32 g) = e :: g := by
        rw [← segmentBytes_cons]
        apply readEntries_segmentBytes
        intro x hx
        rcases List.mem_cons.mp hx with rfl | hx
        · exact fits x (by simp)
        · exact fitsRest x (inside.subset hx)
      have joined : g ++ fs.drop g.length = fs := by
        obtain ⟨tail, rfl⟩ := inside
        simp
      simp only [beforeRotation, exceeds, ↓reduceIte]
      simp [records, joined, List.flatMap_append]
    · have stayed := segments_log_stays crc32 h (fits e (by simp))
        (by simp [same, exceeds])
      have longer : (last ++ recordBytes crc32 e).length = last.length + recordSize e := by
        rw [List.length_append, recordBytes_length, recordSize]
      rw [ih stayed fitsRest, log_maxSegmentSize, longer]
      simp only [beforeRotation, exceeds, ↓reduceIte, segmentBytes_cons, List.append_assoc,
        List.length_cons, List.drop_succ_cons]

theorem segments_reopened {full : List (List WalEntry)} {cur : List WalEntry}
    (h : Layout crc32 w full cur) (k max : Nat) :
    Segments (SegmentCoordinator.new (w.dir.cut w.active.path k) max)
      (full.map (segmentBytes crc32)) ((segmentBytes crc32 cur).take k) := by
  apply (segments_new (segmentFiles_last h.segments.files ?_) max).2
  intro name
  rw [Dir.cut, FinMap.get?_modify, h.segments.active, h.segments.active_file, Option.map_some]

/-- Exactly the entries before the cut and the appended ones come back if and
    only if the torn bytes are harmless to what is appended behind them. -/
theorem torn_write_reads_back_iff (crc32 : Bytes → UInt32) (max max' k : Nat)
    (es fs : List WalEntry) (fits : ∀ e ∈ es, e.Fits) (fits' : ∀ e ∈ fs, e.Fits) :
    let written := (SegmentCoordinator.new ∅ max).logAll crc32 es
    let reopened := SegmentCoordinator.new (written.dir.cut written.active.path k) max'
    (reopened.logAll crc32 fs).readAllEntries crc32 = survivors crc32 max k es ++ fs ↔
      Harmless crc32 (tornBytes crc32 max k es)
        (beforeRotation max' (min k ((packed max es).2.map recordSize).sum) fs) := by
  intro written reopened
  have layout := layout_packed crc32 fits max
  have cutAt := segments_reopened layout k max'
  have limit : reopened.maxSegmentSize = max' := rfl
  have size : ((segmentBytes crc32 (packed max es).2).take k).length =
      min k ((packed max es).2.map recordSize).sum := by
    rw [List.length_take, segmentBytes_length]
  have read := readAllEntries_logAll crc32 cutAt fits'
  rw [limit, size] at read
  generalize reached : beforeRotation max' (min k ((packed max es).2.map recordSize).sum) fs = g
    at read ⊢
  have inside : g <+: fs := reached ▸ beforeRotation_prefix _ _ fs
  obtain ⟨later, rfl⟩ := inside
  have validCur : ∀ e ∈ (packed max es).2, (recordCodec crc32).Valid e := fun e he =>
    (layout.fits e (by simp [he])).valid crc32
  have validWhole : ∀ e ∈ whole (recordCodec crc32) k (packed max es).2,
      (recordCodec crc32).Valid e := fun e he => validCur e (whole_subset _ _ _ he)
  have validBehind : ∀ e ∈ g, (recordCodec crc32).Valid e := fun e he =>
    (fits' e (by simp [he])).valid crc32
  have closedRead : ((packed max es).1.map (segmentBytes crc32)).flatMap (readEntries crc32) =
      (packed max es).1.flatten := by
    rw [List.flatMap_map, List.flatMap_def, List.map_congr_left (g := id), List.map_id]
    intro seg member
    apply readEntries_segmentBytes
    intro e he
    exact layout.fits e (List.mem_flatten_of_mem (List.mem_append_left _ member) he)
  have activeRead : readEntries crc32
      ((segmentBytes crc32 (packed max es).2).take k ++ segmentBytes crc32 g) =
        whole (recordCodec crc32) k (packed max es).2 ++
          scan (readRecord crc32) (tornBytes crc32 max k es ++ segmentBytes crc32 g) := by
    rw [segmentBytes, cut_split, List.append_assoc]
    exact scan_encodeAll_append (recordCodec crc32) validWhole _
  have exact_iff := scan_eq_iff (recordCodec crc32) validBehind
    (tornBytes crc32 max k es ++ segmentBytes crc32 g)
  rw [read, closedRead, activeRead, survivors, List.drop_left]
  simp only [List.append_assoc, List.append_cancel_left_eq]
  rw [List.append_left_inj]
  exact exact_iff

/-- A cut inside the second of two acks: the ack appended after reopening is in
    the file, and is not read. -/
theorem torn_write_hides_append :
    let written := (SegmentCoordinator.new ∅ 4096).logAll crc32Ieee [ackEntry 7, ackEntry 8]
    let reopened := SegmentCoordinator.new (written.dir.cut written.active.path 25) 4096
    survivors crc32Ieee 4096 25 [ackEntry 7, ackEntry 8] = [ackEntry 7] ∧
      (reopened.logAll crc32Ieee [ackEntry 9]).readAllEntries crc32Ieee = [ackEntry 7] ∧
      (reopened.logAll crc32Ieee [ackEntry 9]).readAllEntries crc32Ieee ≠
        survivors crc32Ieee 4096 25 [ackEntry 7, ackEntry 8] ++ [ackEntry 9] := by
  decide +kernel

theorem torn_write_at_boundary :
    let written := (SegmentCoordinator.new ∅ 4096).logAll crc32Ieee [ackEntry 7, ackEntry 8]
    let reopened := SegmentCoordinator.new (written.dir.cut written.active.path 17) 4096
    (reopened.logAll crc32Ieee [ackEntry 9]).readAllEntries crc32Ieee =
      survivors crc32Ieee 4096 17 [ackEntry 7, ackEntry 8] ++ [ackEntry 9] := by
  intro written reopened
  have fits : ∀ e ∈ [ackEntry 7, ackEntry 8], e.Fits := by decide
  have fits' : ∀ e ∈ [ackEntry 9], e.Fits := by decide
  apply (torn_write_reads_back_iff crc32Ieee 4096 4096 17 _ _ fits fits').mpr
  exact ⟨[], by decide +kernel, by decide +kernel⟩

end RocketmqBroker
