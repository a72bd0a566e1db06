import RocketmqBroker.Lib.RecordScan
import RocketmqBroker.Lib.FinMap
import RocketmqBroker.Storage.WalEntry
import Mathlib.Data.List.Sort

/-!
Segment files: their names, the framing of one record, and the reader that
walks a whole file (storage/wal.rs). The checksum is any function of the bytes
fed to it; segment ids are unbounded, a 64-bit id would take 2^64 rotations to
run out.
-/
namespace RocketmqBroker
open BigEndian ByteReader RecordScan

abbrev Dir := FinMap String Bytes

def walHeaderSize : Nat := 9
def segmentExt : String := "seg"
def segmentIdWidth : Nat := 16

def segmentPath (id : Nat) : String :=
  String.ofList (List.leftpad segmentIdWidth '0' (Nat.toDigits 10 id) ++ '.' :: segmentExt.toList)

/-- `Path::file_stem` and `Path::extension`: split at the last dot, which may
    not be the first character. -/
def splitExtension (name : List Char) : Option (List Char × List Char) :=
  match name.reverse.dropWhile (· != '.') with
  | _ :: stem =>
    if stem.isEmpty then none else some (stem.reverse, (name.reverse.takeWhile (· != '.')).reverse)
  | [] => none

/-- `str::parse::<u64>`, without its upper bound. -/
def parseU64 (text : List Char) : Option Nat :=
  let digits := if text.head? = some '+' then text.tail else text
  if digits.isEmpty then none
  else if digits.all Char.isDigit then some (Nat.ofDigitChars 10 digits 0)
  else none

def segmentIdOf (name : String) : Option Nat :=
  match splitExtension name.toList with
  | some (stem, ext) => if ext = segmentExt.toList then parseU64 stem else none
  | none => none

def discoverSegmentIds (dir : Dir) : List Nat :=
  (dir.keys.filterMap segmentIdOf).insertionSort (· ≤ ·)

theorem splitExtension_dot {stem ext : List Char} (some_stem : stem ≠ [])
    (plain : ∀ ch ∈ ext, ch ≠ '.') : splitExtension (stem ++ '.' :: ext) = some (stem, ext) := by
  have rev : (stem ++ '.' :: ext).reverse = ext.reverse ++ '.' :: stem.reverse := by simp
  have plain_rev : ∀ ch ∈ ext.reverse, (ch != '.') = true := by
    intro ch hc
    simpa using plain ch (List.mem_reverse.mp hc)
  simp only [splitExtension, rev]
  rw [List.dropWhile_append_of_pos plain_rev, List.takeWhile_append_of_pos plain_rev]
  simp [some_stem]

theorem parseU64_padded (width n : Nat) :
    parseU64 (List.leftpad width '0' (Nat.toDigits 10 n)) = some n := by
  have digit : ∀ ch ∈ List.leftpad width '0' (Nat.toDigits 10 n), ch.isDigit = true := by
    intro ch hc
    rw [List.leftpad, List.mem_append] at hc
    rcases hc with pad | own
    · rw [List.eq_of_mem_replicate pad]; rfl
    · exact Nat.isDigit_of_mem_toDigits (by decide) (by decide) own
  have nonempty : List.leftpad width '0' (Nat.toDigits 10 n) ≠ [] := by
    intro empty
    have := congrArg List.length empty
    simp [List.leftpad] at this
  have value : Nat.ofDigitChars 10 (List.leftpad width '0' (Nat.toDigits 10 n)) 0 = n := by
    simp [List.leftpad, Nat.ofDigitChars_append]
  generalize List.leftpad width '0' (Nat.toDigits 10 n) = text at digit nonempty value
  cases text with
  | nil => exact absurd rfl nonempty
  | cons ch rest =>
    have unsigned : ch ≠ '+' := by
      intro plus
      have := digit ch (by simp)
      rw [plus] at this
      exact absurd this (by decide)
    have all : (ch :: rest).all Char.isDigit = true := List.all_eq_true.mpr digit
    simp [parseU64, unsigned, value, all]

/-- A segment's name gives its id back; so names of different segments differ. -/
theorem segmentIdOf_segmentPath (id : Nat) : segmentIdOf (segmentPath id) = some id := by
  have stem : List.leftpad segmentIdWidth '0' (Nat.toDigits 10 id) ≠ [] := by
    intro empty
    have := congrArg List.length empty
    simp [List.leftpad, segmentIdWidth] at this
  have ext : ∀ ch ∈ segmentExt.toList, ch ≠ '.' := by simp [segmentExt]
  simp only [segmentIdOf, segmentPath, String.toList_ofList, splitExtension_dot stem ext,
    ↓reduceIte, parseU64_padded]

theorem segmentPath_injective {a b : Nat} (same : segmentPath a = segmentPath b) : a = b := by
  have h := segmentIdOf_segmentPath a
  rw [same, segmentIdOf_segmentPath] at h
  exact (Option.some.inj h).symm

variable (crc32 : Bytes → UInt32)

/-- The record that `Segment::append` writes. -/
def recordBytes (e : WalEntry) : Bytes :=
  toBeBytes 4 (1 + e.data.length) ++ toBeBytes 4 (crc32 (e.entryType.toByte :: e.data)).toNat ++
    e.entryType.toByte :: e.data

/-- One turn of the loop of `read_entries` at the unread part of the file. -/
def readRecord (file : Bytes) : Option (WalEntry × Bytes) :=
  if walHeaderSize ≤ file.length then
    let totalLen := fromBeBytes (file.take 4)
    let expectedCrc := fromBeBytes ((file.drop 4).take 4)
    if totalLen = 0 ∨ walHeaderSize + (totalLen - 1) > file.length then none
    else
      let payload := (file.drop 8).take totalLen
      if (crc32 payload).toNat ≠ expectedCrc then none
      else
        match payload with
        | [] => none
        | byte :: data =>
          match EntryType.tryFrom byte with
          | none => none
          | some entryType => some (⟨entryType, data⟩, file.drop (8 + totalLen))
  else none

def readEntries (file : Bytes) : List WalEntry := scan (readRecord crc32) file

theorem recordBytes_length (e : WalEntry) :
    (recordBytes crc32 e).length = walHeaderSize + e.data.length := by
  simp [recordBytes, walHeaderSize]
  omega

theorem readRecord_recordBytes (e : WalEntry) (tail : Bytes) (fits : 1 + e.data.length < 2 ^ 32) :
    readRecord crc32 (recordBytes crc32 e ++ tail) = some (e, tail) := by
  have len : walHeaderSize ≤ (recordBytes crc32 e ++ tail).length := by
    simp [recordBytes_length]
    omega
  have total : fromBeBytes ((recordBytes crc32 e ++ tail).take 4) = 1 + e.data.length := by
    rw [recordBytes, List.append_assoc, List.append_assoc, List.take_left' (toBeBytes_length _ _),
      fromBeBytes_toBeBytes fits]
  have stored : fromBeBytes (((recordBytes crc32 e ++ tail).drop 4).take 4) =
      (crc32 (e.entryType.toByte :: e.data)).toNat := by
    rw [recordBytes, List.append_assoc, List.append_assoc, List.drop_left' (toBeBytes_length _ _),
      List.take_left' (toBeBytes_length _ _),
      fromBeBytes_toBeBytes (crc32 (e.entryType.toByte :: e.data)).toNat_lt]
  have body : (recordBytes crc32 e ++ tail).drop 8 = (e.entryType.toByte :: e.data) ++ tail := by
    rw [recordBytes, List.append_assoc, List.drop_left' (by simp)]
  have payload : ((recordBytes crc32 e ++ tail).drop 8).take (1 + e.data.length) =
      e.entryType.toByte :: e.data := by
    rw [body, List.take_left' (by simp [Nat.add_comm])]
  have rest : (recordBytes crc32 e ++ tail).drop (8 + (1 + e.data.length)) = tail := by
    rw [← List.drop_drop, body, List.drop_left' (by simp [Nat.add_comm])]
  have room : ¬ (1 + e.data.length = 0 ∨
      walHeaderSize + (1 + e.data.length - 1) > (recordBytes crc32 e ++ tail).length) := by
    simp [recordBytes_length, walHeaderSize]
  simp only [readRecord, len, ↓reduceIte, total, stored, payload, room, rest, ne_eq,
    not_true_eq_false, EntryType.tryFrom_toByte]

theorem readRecord_canonical {file rest : Bytes} {e : WalEntry}
    (h : readRecord crc32 file = some (e, rest)) :
    1 + e.data.length < 2 ^ 32 ∧ file = recordBytes crc32 e ++ rest := by
  unfold readRecord at h
  split at h
  · rename_i header
    simp only at h
    split at h
    · contradiction
    · rename_i room
      split at h
      · contradiction
      · rename_i sum
        split at h
        · contradiction
        · rename_i byte data payload
          split at h
          · contradiction
          · rename_i entryType ok
            obtain ⟨rfl, rfl⟩ := Prod.mk.inj (Option.some.inj h)
            have tag := EntryType.toByte_of_tryFrom ok
            have word := toBeBytes_fromBeBytes (file.take 4)
            have check := toBeBytes_fromBeBytes ((file.drop 4).take 4)
            have bound := fromBeBytes_lt (file.take 4)
            simp only [walHeaderSize] at header room
            have len4 : (file.take 4).length = 4 := by rw [List.length_take]; omega
            have crc4 : ((file.drop 4).take 4).length = 4 := by
              rw [List.length_take, List.length_drop]; omega
            rw [len4] at word bound
            rw [crc4] at check
            have size : fromBeBytes (file.take 4) = 1 + data.length := by
              have := congrArg List.length payload
              rw [List.length_take, List.length_drop, List.length_cons] at this
              omega
            refine ⟨by simp only; omega, ?_⟩
            have agree : (crc32 (byte :: data)).toNat = fromBeBytes ((file.drop 4).take 4) := by
              rw [← payload]
              exact Decidable.not_not.mp sum
            have skip : file.drop (8 + fromBeBytes (file.take 4)) =
                (file.drop 8).drop (fromBeBytes (file.take 4)) := by
              rw [List.drop_drop]
            calc file = file.take 4 ++ ((file.drop 4).take 4 ++ file.drop 8) := by
                  rw [← List.drop_drop (i := 4) (j := 4), List.take_append_drop,
                    List.take_append_drop]
              _ = recordBytes crc32 ⟨entryType, data⟩ ++
                    file.drop (8 + fromBeBytes (file.take 4)) := by
                  rw [recordBytes, tag, agree, check, ← size, word, skip, ← payload]
                  simp only [List.append_assoc, List.take_append_drop]
  · contradiction

/-- The record format is a codec for entries whose length fits its word. -/
def recordCodec : Codec WalEntry UInt8 where
  encode := recordBytes crc32
  next := readRecord crc32
  Valid e := 1 + e.data.length < 2 ^ 32
  next_encode e tail fits := readRecord_recordBytes crc32 e tail fits
  canonical _ _ _ h := readRecord_canonical crc32 h
  encode_pos e := by
    rw [recordBytes_length]
    unfold walHeaderSize
    omega

end RocketmqBroker
