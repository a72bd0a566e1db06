import RocketmqBroker.Storage.TornWrite

/-!
The loop of `read_entries` as it runs: a file with a read position of its own, the position
the loop counts beside it, and the points where the loop breaks off. A turn that goes on is a
record read at the position; so the loop ends, and it ends with the entries of the scan.
-/
namespace RocketmqBroker
open BigEndian ByteReader RecordScan

structure OpenFile where
  bytes : Bytes
  cursor : Nat
  deriving Repr, DecidableEq

/-- `read_exact`: a read past the end of the file fails. -/
def OpenFile.readExact (file : OpenFile) (len : Nat) : Option (Bytes × OpenFile) :=
  (readSlice len (file.bytes.drop file.cursor)).map fun read =>
    (read.1, { file with cursor := file.cursor + len })

/-- The variables of the loop of `read_entries`. -/
structure Reading where
  file : OpenFile
  pos : Nat
  entries : List WalEntry

def Reading.start (bytes : Bytes) : Reading := ⟨⟨bytes, 0⟩, 0, []⟩

variable (crc32 : Bytes → UInt32)

/-- A turn of the loop; none when the loop is over, at its head or by a break. -/
def readTurn (fileLen : Nat) (r : Reading) : Option Reading := do
  guard (r.pos + walHeaderSize ≤ fileLen)
  let (lenBuf, file) ← r.file.readExact 4
  let totalLen := fromBeBytes lenBuf
  let (crcBuf, file) ← file.readExact 4
  let expectedCrc := fromBeBytes crcBuf
  guard ¬ (totalLen = 0 ∨ r.pos + walHeaderSize + (totalLen - 1) > fileLen)
  let (payload, file) ← file.readExact totalLen
  guard ((crc32 payload).toNat = expectedCrc)
  match payload with
  | [] => none
  | byte :: data =>
    let entryType ← EntryType.tryFrom byte
    some ⟨file, r.pos + walHeaderSize + (totalLen - 1), r.entries ++ [⟨entryType, data⟩]⟩

/-- The loop, for as many turns as there is fuel; none when it is not over by then. -/
def readLoop (fileLen : Nat) : Nat → Reading → Option (List WalEntry)
  | 0, _ => none
  | fuel + 1, r =>
    match readTurn crc32 fileLen r with
    | none => some r.entries
    | some r => readLoop fileLen fuel r

structure Reading.Aligned (bytes : Bytes) (r : Reading) : Prop where
  file : r.file = ⟨bytes, r.pos⟩
  inside : r.pos ≤ bytes.length

theorem readExact_within {bytes : Bytes} {start len : Nat} (enough : start + len ≤ bytes.length) :
    OpenFile.readExact ⟨bytes, start⟩ len =
      some ((bytes.drop start).take len, ⟨bytes, start + len⟩) := by
  have left : len ≤ (bytes.drop start).length := by
    rw [List.length_drop]
    omega
  simp only [OpenFile.readExact, readSlice, left, ↓reduceIte, Option.map_some]

/-- A turn reads one record at the position. -/
theorem readTurn_eq {bytes : Bytes} {r : Reading} (aligned : r.Aligned bytes) :
    readTurn crc32 bytes.length r = (readRecord crc32 (bytes.drop r.pos)).map fun read =>
      ⟨⟨bytes, r.pos + recordSize read.1⟩, r.pos + recordSize read.1, r.entries ++ [read.1]⟩ := by
  obtain ⟨file, pos, entries⟩ := r
  obtain ⟨same, inside⟩ := aligned
  change file = ⟨bytes, pos⟩ at same
  change pos ≤ bytes.length at inside
  subst same
  simp only [readTurn, readRecord, List.length_drop, List.drop_drop]
  by_cases header : pos + walHeaderSize ≤ bytes.length
  · have fits : walHeaderSize ≤ bytes.length - pos := by omega
    have words : pos + 4 + 4 ≤ bytes.length := by
      unfold walHeaderSize at header
      omega
    simp only [guard, header, fits, ↓reduceIte, readExact_within (Nat.le_of_add_right_le words),
      readExact_within words, Option.bind_eq_bind, Option.bind_some, Option.pure_def]
    generalize fromBeBytes ((bytes.drop pos).take 4) = totalLen
    by_cases room : totalLen = 0 ∨ pos + walHeaderSize + (totalLen - 1) > bytes.length
    · have tooLong : totalLen = 0 ∨ walHeaderSize + (totalLen - 1) > bytes.length - pos := by omega
      simp only [room, tooLong, not_true_eq_false, ↓reduceIte, Option.failure_eq_none,
        Option.bind_none, Option.map_none]
    · have under : ¬ (totalLen = 0 ∨ walHeaderSize + (totalLen - 1) > bytes.length - pos) := by
        omega
      have whole : pos + 4 + 4 + totalLen ≤ bytes.length := by
        unfold walHeaderSize at room
        omega
      have size : ((bytes.drop (pos + 8)).take totalLen).length = totalLen := by
        rw [List.length_take, List.length_drop]
        omega
      simp only [room, under, not_false_eq_true, ↓reduceIte, Option.bind_some,
        readExact_within whole]
      simp only [Nat.add_assoc, Nat.reduceAdd]
      generalize (bytes.drop (pos + 8)).take totalLen = payload at size
      by_cases sum : (crc32 payload).toNat = fromBeBytes ((bytes.drop (pos + 4)).take 4)
      · simp only [sum, ne_eq, not_true_eq_false, ↓reduceIte, Option.bind_some]
        cases payload with
        | nil => rfl
        | cons byte data =>
          rw [List.length_cons] at size
          cases known : EntryType.tryFrom byte with
          | none => simp only [known, Option.bind_none, Option.map_none]
          | some entryType =>
            have step : recordSize ⟨entryType, data⟩ = 8 + totalLen := by
              simp only [recordSize, walHeaderSize]
              omega
            have counted : walHeaderSize + (totalLen - 1) = 8 + totalLen := by
              unfold walHeaderSize
              omega
            simp only [known, Option.bind_some, Option.map_some, step, counted]
      · simp only [sum, ne_eq, not_false_eq_true, ↓reduceIte, Option.failure_eq_none,
          Option.bind_none, Option.map_none]
  · have short : ¬ walHeaderSize ≤ bytes.length - pos := by omega
    simp only [guard, header, short, ↓reduceIte, Option.failure_eq_none, Option.bind_eq_bind,
      Option.bind_none, Option.map_none]

/-- The loop ends, with the entries so far and those from the position on. -/
theorem readLoop_eq {bytes : Bytes} {fuel : Nat} {r : Reading} (aligned : r.Aligned bytes)
    (enough : bytes.length - r.pos < fuel) : readLoop crc32 bytes.length fuel r =
      some (r.entries ++ readEntries crc32 (bytes.drop r.pos)) := by
  induction fuel generalizing r with
  | zero => omega
  | succ fuel ih =>
    have turn := readTurn_eq crc32 aligned
    cases read : readRecord crc32 (bytes.drop r.pos) with
    | none =>
      have stop : readEntries crc32 (bytes.drop r.pos) = [] :=
        scan_refused (recordCodec crc32) read
      rw [read, Option.map_none] at turn
      simp only [readLoop, turn, stop, List.append_nil]
    | some found =>
      obtain ⟨e, rest⟩ := found
      have record := (readRecord_canonical crc32 read).2
      have len := congrArg List.length record
      rw [List.length_drop, List.length_append, recordBytes_length] at len
      have moved : bytes.drop (r.pos + recordSize e) = rest := by
        rw [← List.drop_drop, record]
        exact List.drop_left' (recordBytes_length crc32 e)
      have later : readEntries crc32 (bytes.drop r.pos) = e :: readEntries crc32 rest :=
        scan_accepted (recordCodec crc32) read
      have inside := aligned.inside
      have next : Reading.Aligned bytes ⟨⟨bytes, r.pos + recordSize e⟩, r.pos + recordSize e,
          r.entries ++ [e]⟩ := by
        refine ⟨rfl, ?_⟩
        simp only [recordSize]
        omega
      have left : bytes.length - (r.pos + recordSize e) < fuel := by
        simp only [recordSize, walHeaderSize] at len ⊢
        omega
      rw [read, Option.map_some] at turn
      simp only [readLoop, turn, ih next left, moved, later, List.append_assoc,
        List.singleton_append]

theorem whole_eq_take (k : Nat) (es : List WalEntry) : ∃ n, whole (recordCodec crc32) k es =
    es.take n ∧ ∀ i < es.length, i < n ↔ (segmentBytes crc32 (es.take (i + 1))).length ≤ k := by
  induction es generalizing k with
  | nil => exact ⟨0, rfl, fun i inside => absurd inside (Nat.not_lt_zero i)⟩
  | cons e es ih =>
    have size : ∀ i, (segmentBytes crc32 ((e :: es).take (i + 1))).length =
        (recordBytes crc32 e).length + (segmentBytes crc32 (es.take i)).length := by
      intro i
      rw [List.take_succ_cons, segmentBytes_cons, List.length_append]
    by_cases fits : (recordBytes crc32 e).length ≤ k
    · obtain ⟨n, kept, ends⟩ := ih (k - (recordBytes crc32 e).length)
      refine ⟨n + 1, ?_, ?_⟩
      · have first : ((recordCodec crc32).encode e).length ≤ k := fits
        simp only [whole, first, ↓reduceIte, List.take_succ_cons]
        exact congrArg (e :: ·) kept
      · intro i inside
        rw [size]
        cases i with
        | zero => simp [fits]
        | succ i =>
          rw [Nat.add_lt_add_iff_right, ends i (Nat.lt_of_succ_lt_succ inside)]
          omega
    · refine ⟨0, ?_, ?_⟩
      · have first : ¬ ((recordCodec crc32).encode e).length ≤ k := fits
        simp only [whole, first, ↓reduceIte, List.take_zero]
      · intro i _
        rw [size]
        omega

/-- The bytes from a position on are the record of the entry: its length word, its checksum,
    its type and its data. -/
structure RecordAt (file : Bytes) (start : Nat) (e : WalEntry) : Prop where
  inside : start + recordSize e ≤ file.length
  size : fromBeBytes ((file.drop start).take 4) = 1 + e.data.length
  checksum : fromBeBytes ((file.drop (start + 4)).take 4) =
    (crc32 (e.entryType.toByte :: e.data)).toNat
  payload : (file.drop (start + 8)).take (1 + e.data.length) = e.entryType.toByte :: e.data

theorem recordAt_append {e : WalEntry} (valid : (recordCodec crc32).Valid e)
    (before after : Bytes) :
    RecordAt crc32 (before ++ (recordBytes crc32 e ++ after)) before.length e := by
  have skip : ∀ n, (before ++ (recordBytes crc32 e ++ after)).drop (before.length + n) =
      (recordBytes crc32 e ++ after).drop n := by
    intro n
    rw [← List.drop_drop, List.drop_left]
  have word : (toBeBytes 4 (1 + e.data.length)).length = 4 := toBeBytes_length _ _
  have sum : (toBeBytes 4 (crc32 (e.entryType.toByte :: e.data)).toNat).length = 4 :=
    toBeBytes_length _ _
  constructor
  · simp only [List.length_append, recordBytes_length, recordSize]
    omega
  · rw [List.drop_left, recordBytes, List.append_assoc, List.append_assoc, List.take_left' word]
    exact fromBeBytes_toBeBytes valid
  · rw [skip, recordBytes, List.append_assoc, List.append_assoc, List.drop_left' word,
      List.take_left' sum]
    exact fromBeBytes_toBeBytes (crc32 (e.entryType.toByte :: e.data)).toNat_lt
  · rw [skip, recordBytes, List.append_assoc,
      List.drop_left' (by rw [List.length_append, word, sum])]
    exact List.take_left' (by rw [List.length_cons, Nat.add_comm])

theorem readEntries_recordAt {file : Bytes} {i : Nat} {e : WalEntry}
    (entry : (readEntries crc32 file)[i]? = some e) :
    RecordAt crc32 file (segmentBytes crc32 ((readEntries crc32 file).take i)).length e := by
  obtain ⟨valid, left, split, -⟩ := scan_partition (recordCodec crc32) file
  change file = segmentBytes crc32 (readEntries crc32 file) ++ left at split
  obtain ⟨inside, rfl⟩ := List.getElem?_eq_some_iff.mp entry
  have here := valid _ (List.getElem_mem inside)
  generalize readEntries crc32 file = entries at split inside here ⊢
  have parts : segmentBytes crc32 entries = segmentBytes crc32 (entries.take i) ++
      (recordBytes crc32 entries[i] ++ segmentBytes crc32 (entries.drop (i + 1))) := by
    rw [← segmentBytes_cons, ← List.drop_eq_getElem_cons inside, ← encodeAll_append,
      List.take_append_drop]
  rw [parts, List.append_assoc, List.append_assoc] at split
  rw [split]
  exact recordAt_append crc32 here _ _

/-- The loop ends on every file. On records cut off at a byte it gives those that end before
    it; on any bytes, what it gives lies in the file, one record behind the other. -/
theorem readLoop_exact :
    (∀ (es : List WalEntry) (k : Nat), (∀ e ∈ es, (recordCodec crc32).Valid e) →
      let file := (segmentBytes crc32 es).take k
      ∃ n, (∀ i < es.length, i < n ↔ (segmentBytes crc32 (es.take (i + 1))).length ≤ k) ∧
        ∀ fuel > file.length,
          readLoop crc32 file.length fuel (.start file) = some (es.take n)) ∧
    ∀ file : Bytes, ∃ entries : List WalEntry,
      (∀ fuel > file.length, readLoop crc32 file.length fuel (.start file) = some entries) ∧
      ∀ i e, entries[i]? = some e →
        RecordAt crc32 file (segmentBytes crc32 (entries.take i)).length e := by
  have ends : ∀ file : Bytes, ∀ fuel > file.length,
      readLoop crc32 file.length fuel (.start file) = some (readEntries crc32 file) := by
    intro file fuel enough
    have start : (Reading.start file).Aligned file := ⟨rfl, Nat.zero_le _⟩
    exact readLoop_eq crc32 start enough
  constructor
  · intro es k valid file
    obtain ⟨n, kept, last⟩ := whole_eq_take crc32 k es
    refine ⟨n, last, fun fuel enough => ?_⟩
    rw [ends file fuel enough, ← kept]
    exact congrArg some (scan_cut (recordCodec crc32) valid k)
  · intro file
    exact ⟨readEntries crc32 file, ends file, fun i e entry => readEntries_recordAt crc32 entry⟩

end RocketmqBroker
