import RocketmqBroker.Protocol.BasicProperties
import RocketmqBroker.Queue.Message

/-!
Field tables and basic properties as the broker reads them (protocol/amqp/types.rs,
protocol/amqp/properties.rs). A reader takes what it wants off the front and gives the
rest back, or fails.
-/
namespace RocketmqBroker
open BigEndian ByteReader

def readShortstr (bs : Bytes) : Option (String × Bytes) := do
  let (data, rest) ← readPrefixed 1 bs
  let s ← fromUtf8 data
  return (s, rest)

def readOctet (bs : Bytes) : Option (UInt8 × Bytes) :=
  (readWord 1 bs).map fun read => (.ofNat read.1, read.2)

def FieldTable.insertEntry (name : String) (value : FieldValue) : FieldTable → FieldTable
  | [] => [(name, value)]
  | (n, v) :: rest =>
    if name < n then (name, value) :: (n, v) :: rest
    else if name = n then (name, value) :: rest
    else (n, v) :: insertEntry name value rest

def readWordAs (width : Nat) (value : Nat → FieldValue) (bs : Bytes) :
    Option (FieldValue × Bytes) :=
  (readWord width bs).map fun read => (value read.1, read.2)

mutual

/-- A table inside takes up more bytes than its entries do, so as many turns as there
    are bytes are enough. -/
def readFieldValue (fuel : Nat) : Bytes → Option (FieldValue × Bytes)
  | [] => none
  | tag :: bs =>
    match Char.ofNat tag.toNat with
    | 't' => readWordAs 1 (fun n => .boolean (n != 0)) bs
    | 'b' => readWordAs 1 (fun n => .shortShortInt (UInt8.ofNat n).toInt8) bs
    | 'B' => readWordAs 1 (fun n => .shortShortUint (.ofNat n)) bs
    | 'U' => readWordAs 2 (fun n => .shortInt (UInt16.ofNat n).toInt16) bs
    | 'u' => readWordAs 2 (fun n => .shortUint (.ofNat n)) bs
    | 'I' => readWordAs 4 (fun n => .longInt (UInt32.ofNat n).toInt32) bs
    | 'i' => readWordAs 4 (fun n => .longUint (.ofNat n)) bs
    | 'L' => readWordAs 8 (fun n => .longLongInt (UInt64.ofNat n).toInt64) bs
    | 'l' => readWordAs 8 (fun n => .longLongUint (.ofNat n)) bs
    | 'f' => readWordAs 4 (fun n => .float (.ofNat n)) bs
    | 'd' => readWordAs 8 (fun n => .double (.ofNat n)) bs
    | 's' => (readShortstr bs).map fun read => (.shortString read.1, read.2)
    | 'S' => (readPrefixed 4 bs).map fun read => (.longString read.1, read.2)
    | 'T' => readWordAs 8 (fun n => .timestamp (.ofNat n)) bs
    | 'F' =>
      match fuel with
      | 0 => none
      | fuel + 1 => do
        let (data, rest) ← readPrefixed 4 bs
        let table ← readFieldEntries fuel [] data
        return (.fieldTable table, rest)
    | 'V' => some (.void, bs)
    | _ => none

def readFieldEntries (fuel : Nat) (table : FieldTable) (bs : Bytes) : Option FieldTable :=
  if bs.isEmpty then some table
  else
    match fuel with
    | 0 => none
    | fuel + 1 => do
      let (name, bs) ← readShortstr bs
      let (value, bs) ← readFieldValue fuel bs
      readFieldEntries fuel (table.insertEntry name value) bs

end

def readFieldTable (bs : Bytes) : Option (FieldTable × Bytes) := do
  let (data, rest) ← readPrefixed 4 bs
  let table ← readFieldEntries data.length [] data
  return (table, rest)

namespace BasicProperties

def readOpt {α : Type} (flags bit : Nat) (read : Bytes → Option (α × Bytes)) (bs : Bytes) :
    Option (Option α × Bytes) :=
  if flags.testBit bit then (read bs).map fun r => (some r.1, r.2) else some (none, bs)

def decode (bs : Bytes) : Option (BasicProperties × Bytes) := do
  let (flags, bs) ← readWord 2 bs
  let (contentType, bs) ← readOpt flags 15 readShortstr bs
  let (contentEncoding, bs) ← readOpt flags 14 readShortstr bs
  let (headers, bs) ← readOpt flags 13 readFieldTable bs
  let (deliveryMode, bs) ← readOpt flags 12 readOctet bs
  let (priority, bs) ← readOpt flags 11 readOctet bs
  let (correlationId, bs) ← readOpt flags 10 readShortstr bs
  let (replyTo, bs) ← readOpt flags 9 readShortstr bs
  let (expiration, bs) ← readOpt flags 8 readShortstr bs
  let (messageId, bs) ← readOpt flags 7 readShortstr bs
  let (timestamp, bs) ← readOpt flags 6 (fun bs =>
    (readWord 8 bs).map fun r => (.ofNat r.1, r.2)) bs
  let (typeField, bs) ← readOpt flags 5 readShortstr bs
  let (userId, bs) ← readOpt flags 4 readShortstr bs
  let (appId, bs) ← readOpt flags 3 readShortstr bs
  let (clusterId, bs) ← readOpt flags 2 readShortstr bs
  return (⟨contentType, contentEncoding, headers, deliveryMode, priority, correlationId, replyTo,
    expiration, messageId, timestamp, typeField, userId, appId, clusterId⟩, bs)

theorem no_bits {present : List Bool} {bits : Nat}
    (zero : present.foldl (fun bits b => 2 * bits + if b then 1 else 0) bits = 0) :
    bits = 0 ∧ ∀ b ∈ present, b = false := by
  induction present generalizing bits with
  | nil => exact ⟨zero, nofun⟩
  | cons b present ih =>
    obtain ⟨first, later⟩ := ih zero
    cases b with
    | true => exact absurd first (Nat.succ_ne_zero _)
    | false =>
      have none : 2 * bits + 0 = 0 := first
      exact ⟨by omega, List.forall_mem_cons.mpr ⟨rfl, later⟩⟩

theorem eq_default_of_flags {p : BasicProperties} (zero : p.flags = 0) : p = .default := by
  have absent := (no_bits ((Nat.mul_eq_zero.mp zero).resolve_right (by decide))).2
  simp only [List.forall_mem_cons, Option.isSome_eq_false_iff, Option.isNone_iff_eq_none] at absent
  cases p
  simp only at absent
  simp only [default, mk.injEq]
  tauto

end BasicProperties

/-- The properties that a message is delivered with: bytes that cannot be read count as
    none. -/
def Message.properties (m : Message) : BasicProperties :=
  if m.headers.isEmpty then .default
  else ((BasicProperties.decode m.headers).map Prod.fst).getD .default

theorem readShortstr_shrinks {bs rest : Bytes} {s : String}
    (read : readShortstr bs = some (s, rest)) : rest.length < bs.length := by
  obtain ⟨⟨data, tail⟩, prefixed, text⟩ := Option.bind_eq_some_iff.mp read
  obtain ⟨s', -, same⟩ := Option.bind_eq_some_iff.mp text
  obtain ⟨-, rfl⟩ := Prod.mk.inj (Option.some.inj same)
  obtain ⟨room, rfl⟩ := readPrefixed_eq_some prefixed
  rw [List.length_drop]
  omega

theorem readPrefixed_length {width : Nat} {bs data rest : Bytes}
    (read : readPrefixed width bs = some (data, rest)) :
    width + data.length + rest.length = bs.length := by
  obtain ⟨⟨len, tail⟩, word, slice⟩ := Option.bind_eq_some_iff.mp read
  obtain ⟨enough, rfl, rfl⟩ := readWord_eq_some word
  obtain ⟨room, rfl, rfl⟩ := readSlice_eq_some slice
  simp only [List.length_drop, List.length_take] at room ⊢
  omega

theorem readWordAs_shrinks {width : Nat} {value : Nat → FieldValue} {bs rest : Bytes}
    {v : FieldValue} (read : readWordAs width value bs = some (v, rest)) :
    rest.length ≤ bs.length := by
  obtain ⟨⟨n, tail⟩, found, same⟩ := Option.map_eq_some_iff.mp read
  obtain ⟨-, rfl⟩ := Prod.mk.inj same
  obtain ⟨-, -, rfl⟩ := readWord_eq_some found
  rw [List.length_drop]
  exact Nat.sub_le _ _

/-- Whatever its kind, a value takes up its tag at least. -/
theorem readFieldValue_shrinks {fuel : Nat} {bs rest : Bytes} {v : FieldValue}
    (read : readFieldValue fuel bs = some (v, rest)) : rest.length < bs.length := by
  unfold readFieldValue at read
  split at read
  · cases read
  · rename_i tag bs
    refine Nat.lt_succ_of_le ?_
    dsimp only at read
    split at read
    case h_12 =>
      obtain ⟨⟨s, tail⟩, found, same⟩ := Option.map_eq_some_iff.mp read
      obtain ⟨-, rfl⟩ := Prod.mk.inj same
      exact Nat.le_of_lt (readShortstr_shrinks found)
    case h_13 =>
      obtain ⟨⟨data, tail⟩, found, same⟩ := Option.map_eq_some_iff.mp read
      obtain ⟨-, rfl⟩ := Prod.mk.inj same
      have length := readPrefixed_length found
      dsimp only
      omega
    case h_15 =>
      cases fuel with
      | zero => cases read
      | succ fuel =>
        obtain ⟨⟨data, tail⟩, found, entries⟩ := Option.bind_eq_some_iff.mp read
        obtain ⟨table, -, same⟩ := Option.bind_eq_some_iff.mp entries
        obtain ⟨-, rfl⟩ := Prod.mk.inj (Option.some.inj same)
        have length := readPrefixed_length found
        dsimp only
        omega
    case h_16 =>
      obtain ⟨-, rfl⟩ := Prod.mk.inj (Option.some.inj read)
      exact Nat.le_refl _
    case h_17 => cases read
    all_goals exact readWordAs_shrinks read

/-- As many turns as there are bytes give what any greater number gives. -/
theorem read_enough (k n m : Nat) (n_enough : k ≤ n) (m_enough : k ≤ m) :
    (∀ bs : Bytes, bs.length ≤ k → readFieldValue n bs = readFieldValue m bs) ∧
      ∀ table, ∀ bs : Bytes, bs.length ≤ k →
        readFieldEntries n table bs = readFieldEntries m table bs := by
  induction k generalizing n m with
  | zero =>
    refine ⟨fun bs none => ?_, fun table bs none => ?_⟩
    all_goals
      obtain rfl := List.eq_nil_of_length_eq_zero (Nat.le_zero.mp none)
    · unfold readFieldValue
      rfl
    · unfold readFieldEntries
      rfl
  | succ k ih =>
    obtain ⟨n, rfl⟩ := Nat.exists_eq_add_of_le' (Nat.le_trans (Nat.le_add_left 1 k) n_enough)
    obtain ⟨m, rfl⟩ := Nat.exists_eq_add_of_le' (Nat.le_trans (Nat.le_add_left 1 k) m_enough)
    obtain ⟨values, entries⟩ := ih n m (Nat.le_of_succ_le_succ n_enough)
      (Nat.le_of_succ_le_succ m_enough)
    refine ⟨fun bs short => ?_, fun table bs short => ?_⟩
    · cases bs with
      | nil =>
        unfold readFieldValue
        rfl
      | cons tag bs =>
        have tables : (readPrefixed 4 bs).bind (fun read =>
            (readFieldEntries n [] read.1).bind fun table =>
              some (FieldValue.fieldTable table, read.2)) =
            (readPrefixed 4 bs).bind (fun read =>
            (readFieldEntries m [] read.1).bind fun table =>
              some (FieldValue.fieldTable table, read.2)) := by
          cases found : readPrefixed 4 bs with
          | none => rfl
          | some read =>
            have length := readPrefixed_length found
            rw [List.length_cons] at short
            rw [Option.bind_some, Option.bind_some, entries [] read.1 (by omega)]
        unfold readFieldValue
        dsimp only
        split
        case h_15 => exact tables
        all_goals rfl
    · unfold readFieldEntries
      split
      · rfl
      · dsimp only
        cases name : readShortstr bs with
        | none => rfl
        | some read =>
          have shorter := readShortstr_shrinks name
          rw [Option.bind_eq_bind, Option.bind_eq_bind, Option.bind_some, Option.bind_some,
            values read.2 (by omega)]
          cases value : readFieldValue m read.2 with
          | none => rfl
          | some read' =>
            have shorter' := readFieldValue_shrinks value
            exact entries _ read'.2 (by omega)

end RocketmqBroker
