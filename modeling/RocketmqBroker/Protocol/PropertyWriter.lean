import RocketmqBroker.Lib.OrderedMap
import RocketmqBroker.Protocol.PropertyReader
import Mathlib.Data.List.Induction
import Mathlib.Data.String.Basic
import Mathlib.Tactic.Linarith

/-!
Properties that are written and read back. A short string has at most 255 bytes, a table has
a length of four bytes and its entries in key order; whatever came off the wire is like
this, and is read back from what is written of it.
-/
namespace RocketmqBroker
open BigEndian ByteReader

mutual

def FieldValue.Writable : FieldValue → Prop
  | .shortString s => (strBytes s).length ≤ 255
  | .longString data => data.length < 256 ^ 4
  | .fieldTable table => WritableEntries table ∧ (writeFieldEntries table).1.length < 256 ^ 4
  | _ => True

def WritableEntries : List (String × FieldValue) → Prop
  | [] => True
  | (name, value) :: rest => (strBytes name).length ≤ 255 ∧ value.Writable ∧
      WritableEntries rest ∧ ∀ e ∈ rest, name < e.1

end

def FieldTable.Writable (table : FieldTable) : Prop :=
  WritableEntries table ∧ (writeFieldEntries table).1.length < 256 ^ 4

theorem strBytes_fromUtf8 {data : Bytes} {s : String} (read : fromUtf8 data = some s) :
    strBytes s = data := by
  unfold fromUtf8 String.fromUTF8? at read
  split at read
  · obtain rfl := Option.some.inj read
    simp [strBytes, String.fromUTF8]
  · cases read

theorem writeShortstr_ok {s : String} (short : (strBytes s).length ≤ 255) :
    writeShortstr s = (prefixed 1 (strBytes s), true) := by
  unfold writeShortstr
  rw [if_neg (Nat.not_lt.mpr short)]
  simp [prefixed, toBeBytes]

theorem writeShortstr_ok_iff {s : String} :
    (writeShortstr s).2 = true ↔ (strBytes s).length ≤ 255 := by
  unfold writeShortstr
  dsimp only
  split
  · simp; omega
  · simp; omega

theorem writeShortstr_ne_nil {s : String} (short : (strBytes s).length ≤ 255) :
    (writeShortstr s).1 ≠ [] := by
  rw [writeShortstr_ok short, prefixed]
  exact List.append_ne_nil_of_left_ne_nil (List.cons_ne_nil _ _) _

theorem readShortstr_write {s : String} (short : (strBytes s).length ≤ 255) (rest : Bytes) :
    readShortstr ((writeShortstr s).1 ++ rest) = some (s, rest) := by
  rw [writeShortstr_ok short, readShortstr, readPrefixed_prefixed (by omega)]
  simp

theorem readWordAs_write {width n : Nat} {value : Nat → FieldValue} {v : FieldValue}
    (fits : n < 256 ^ width) (same : value n = v) (rest : Bytes) :
    readWordAs width value (toBeBytes width n ++ rest) = some (v, rest) := by
  rw [readWordAs, readWord_toBeBytes fits, Option.map_some, same]

theorem toBeBytes_octet (b : UInt8) : toBeBytes 1 b.toNat = [b] := by simp [toBeBytes]

theorem readWordAs_octet {b : UInt8} {value : Nat → FieldValue} {v : FieldValue}
    (same : value b.toNat = v) (rest : Bytes) :
    readWordAs 1 value (b :: rest) = some (v, rest) := by
  have fits : b.toNat < 256 ^ 1 := b.toNat_lt
  have read := readWordAs_write fits same rest
  rw [toBeBytes_octet] at read
  exact read

theorem andThen_ok {first next : Written} (ok : first.2 = true) :
    first.andThen next = (first.1 ++ next.1, next.2) := if_pos ok

theorem insertEntry_last {name : String} (value : FieldValue) {table : FieldTable}
    (last : ∀ e ∈ table, e.1 < name) :
    table.insertEntry name value = table ++ [(name, value)] := by
  induction table with
  | nil => rfl
  | cons e table ih =>
    obtain ⟨n, v⟩ := e
    have here : n < name := last (n, v) List.mem_cons_self
    unfold FieldTable.insertEntry
    rw [if_neg (lt_asymm here), if_neg (ne_of_gt here),
      ih fun e member => last e (List.mem_cons_of_mem _ member)]
    rfl

theorem writeFieldEntries_cons {name : String} {value : FieldValue}
    (name_ok : (writeShortstr name).2 = true) (value_ok : (writeFieldValue value).2 = true)
    (rest : List (String × FieldValue)) : writeFieldEntries ((name, value) :: rest) =
      ((writeShortstr name).1 ++ ((writeFieldValue value).1 ++ (writeFieldEntries rest).1),
        (writeFieldEntries rest).2) := by
  have both : ((writeShortstr name).andThen (writeFieldValue value)).2 = true := by
    rw [andThen_ok name_ok]
    exact value_ok
  rw [writeFieldEntries, andThen_ok both, andThen_ok name_ok, List.append_assoc]

mutual

theorem writeFieldValue_ok : ∀ v : FieldValue, v.Writable → (writeFieldValue v).2 = true
  | .shortString s, short => by
    unfold writeFieldValue
    rw [andThen_ok rfl]
    exact writeShortstr_ok_iff.mpr short
  | .fieldTable table, writable => by
    have inner := writeFieldEntries_ok table writable.1
    unfold writeFieldValue
    dsimp only
    rw [if_pos inner]
    rfl
  | .boolean _, _ | .shortShortInt _, _ | .shortShortUint _, _ | .shortInt _, _
  | .shortUint _, _ | .longInt _, _ | .longUint _, _ | .longLongInt _, _
  | .longLongUint _, _ | .float _, _ | .double _, _ | .longString _, _ | .timestamp _, _
  | .void, _ => rfl

theorem writeFieldEntries_ok : ∀ entries : List (String × FieldValue), WritableEntries entries →
    (writeFieldEntries entries).2 = true
  | [], _ => rfl
  | (name, value) :: rest, writable => by
    obtain ⟨short, value_ok, rest_ok, _⟩ := writable
    rw [writeFieldEntries_cons (writeShortstr_ok_iff.mpr short) (writeFieldValue_ok value value_ok)]
    exact writeFieldEntries_ok rest rest_ok

end

theorem writeFieldValue_table {table : FieldTable} (writable : WritableEntries table) :
    writeFieldValue (.fieldTable table) =
      (70 :: prefixed 4 (writeFieldEntries table).1, true) := by
  unfold writeFieldValue
  dsimp only
  rw [if_pos (writeFieldEntries_ok table writable)]
  rfl

mutual

theorem readFieldValue_write : ∀ (v : FieldValue) (fuel : Nat) (rest : Bytes), v.Writable →
    (writeFieldValue v).1.length ≤ fuel →
    readFieldValue fuel ((writeFieldValue v).1 ++ rest) = some (v, rest)
  | .boolean b, fuel, rest, _, _ => by
    unfold readFieldValue
    cases b <;> rfl
  | .shortShortInt v, fuel, rest, _, _ => by
    unfold readFieldValue
    exact readWordAs_octet (by simp) rest
  | .shortShortUint v, fuel, rest, _, _ => by
    unfold readFieldValue
    exact readWordAs_octet (by simp) rest
  | .shortInt v, fuel, rest, _, _ => by
    unfold readFieldValue
    exact readWordAs_write v.toUInt16.toNat_lt (by simp) rest
  | .shortUint v, fuel, rest, _, _ => by
    unfold readFieldValue
    exact readWordAs_write v.toNat_lt (by simp) rest
  | .longInt v, fuel, rest, _, _ => by
    unfold readFieldValue
    exact readWordAs_write v.toUInt32.toNat_lt (by simp) rest
  | .longUint v, fuel, rest, _, _ => by
    unfold readFieldValue
    exact readWordAs_write v.toNat_lt (by simp) rest
  | .longLongInt v, fuel, rest, _, _ => by
    unfold readFieldValue
    exact readWordAs_write v.toUInt64.toNat_lt (by simp) rest
  | .longLongUint v, fuel, rest, _, _ => by
    unfold readFieldValue
    exact readWordAs_write v.toNat_lt (by simp) rest
  | .float v, fuel, rest, _, _ => by
    unfold readFieldValue
    exact readWordAs_write v.toNat_lt (by simp) rest
  | .double v, fuel, rest, _, _ => by
    unfold readFieldValue
    exact readWordAs_write v.toNat_lt (by simp) rest
  | .timestamp v, fuel, rest, _, _ => by
    unfold readFieldValue
    exact readWordAs_write v.toNat_lt (by simp) rest
  | .void, fuel, rest, _, _ => by
    unfold readFieldValue
    rfl
  | .shortString s, fuel, rest, short, _ => by
    unfold readFieldValue
    change (readShortstr ((writeShortstr s).1 ++ rest)).map _ = _
    rw [readShortstr_write short]
    rfl
  | .longString data, fuel, rest, short, _ => by
    have read := readPrefixed_prefixed short rest
    unfold readFieldValue
    change (readPrefixed 4 (prefixed 4 data ++ rest)).map _ = _
    rw [read]
    rfl
  | .fieldTable table, fuel, rest, ⟨writable, short⟩, enough => by
    have read := readPrefixed_prefixed short rest
    rw [writeFieldValue_table writable] at enough ⊢
    cases fuel with
    | zero => exact absurd enough (by simp)
    | succ fuel =>
      have inner := readFieldEntries_write table fuel [] writable (by
        simp only [List.length_cons, prefixed, List.length_append] at enough
        omega) (by simp)
      unfold readFieldValue
      change (readPrefixed 4 (prefixed 4 (writeFieldEntries table).1 ++ rest)).bind _ = _
      rw [read, Option.bind_some]
      change (readFieldEntries fuel [] (writeFieldEntries table).1).bind _ = _
      rw [inner]
      rfl

theorem readFieldEntries_write : ∀ (entries : List (String × FieldValue)) (fuel : Nat)
    (table : FieldTable), WritableEntries entries → (writeFieldEntries entries).1.length ≤ fuel →
    (∀ e ∈ table, ∀ e' ∈ entries, e.1 < e'.1) →
    readFieldEntries fuel table (writeFieldEntries entries).1 = some (table ++ entries)
  | [], fuel, table, _, _, _ => by
    unfold readFieldEntries
    exact congrArg some (List.append_nil table).symm
  | (name, value) :: rest, fuel, table, writable, enough, ascending => by
    obtain ⟨short, value_ok, rest_ok, later⟩ := writable
    have named := List.length_pos_iff.mpr (writeShortstr_ne_nil short)
    rw [writeFieldEntries_cons (writeShortstr_ok_iff.mpr short)
      (writeFieldValue_ok value value_ok)] at enough ⊢
    simp only [List.length_append] at enough
    cases fuel with
    | zero => exact absurd enough (by omega)
    | succ fuel =>
      have first := readFieldValue_write value fuel (writeFieldEntries rest).1 value_ok (by omega)
      have last : table.insertEntry name value = table ++ [(name, value)] :=
        insertEntry_last value fun e member => ascending e member _ List.mem_cons_self
      have others := readFieldEntries_write rest fuel (table ++ [(name, value)]) rest_ok (by omega)
        fun e member e' member' => by
          cases List.mem_append.mp member with
          | inl before => exact ascending e before e' (List.mem_cons_of_mem _ member')
          | inr here =>
            obtain rfl := List.mem_singleton.mp here
            exact later e' member'
      rw [readFieldEntries, if_neg (by simp [writeShortstr_ne_nil short])]
      dsimp only
      rw [readShortstr_write short, Option.bind_eq_bind, Option.bind_some, first,
        Option.bind_eq_bind, Option.bind_some, last, others, List.append_assoc]
      rfl

end

theorem readPrefixed_lt {width : Nat} {bs data rest : Bytes}
    (read : readPrefixed width bs = some (data, rest)) : data.length < 256 ^ width := by
  obtain ⟨⟨len, tail⟩, word, slice⟩ := Option.bind_eq_some_iff.mp read
  obtain ⟨enough, rfl, -⟩ := readWord_eq_some word
  have bound := fromBeBytes_lt (bs.take width)
  rw [List.length_take_of_le enough] at bound
  rw [(readSlice_eq_some_iff.mp slice).1]
  exact bound

theorem readShortstr_writable {bs rest : Bytes} {name : String}
    (read : readShortstr bs = some (name, rest)) : (strBytes name).length ≤ 255 ∧
      (writeShortstr name).1.length + rest.length = bs.length := by
  obtain ⟨⟨data, tail⟩, prefixed, text⟩ := Option.bind_eq_some_iff.mp read
  obtain ⟨name', utf8, same⟩ := Option.bind_eq_some_iff.mp text
  obtain ⟨rfl, rfl⟩ := Prod.mk.inj (Option.some.inj same)
  have length := readPrefixed_length prefixed
  have short : (strBytes name').length ≤ 255 := by
    rw [strBytes_fromUtf8 utf8]
    exact Nat.le_of_lt_succ (readPrefixed_lt prefixed)
  refine ⟨short, ?_⟩
  rw [writeShortstr_ok short, strBytes_fromUtf8 utf8]
  simp only [ByteReader.prefixed, List.length_append, toBeBytes_length]
  exact length

theorem readWordAs_eq_some {width : Nat} {value : Nat → FieldValue} {bs rest : Bytes}
    {v : FieldValue} (read : readWordAs width value bs = some (v, rest)) :
    (∃ n, v = value n) ∧ width + rest.length = bs.length := by
  obtain ⟨⟨n, tail⟩, found, same⟩ := Option.map_eq_some_iff.mp read
  obtain ⟨rfl, rfl⟩ := Prod.mk.inj same
  obtain ⟨enough, -, rfl⟩ := readWord_eq_some found
  exact ⟨⟨n, rfl⟩, by rw [List.length_drop]; omega⟩

section
variable {name : String} {value : FieldValue} {table : FieldTable}

theorem FieldTable.insertEntry_eq (name : String) (value : FieldValue) (table : FieldTable) :
    table.insertEntry name value = OrderedMap.insertEntry name value table := by
  induction table with
  | nil => rfl
  | cons e table ih =>
    obtain ⟨n, v⟩ := e
    unfold FieldTable.insertEntry OrderedMap.insertEntry
    rw [ih]

theorem writeFieldEntries_length (short : (strBytes name).length ≤ 255)
    (value_ok : value.Writable) (rest : List (String × FieldValue)) :
    (writeFieldEntries ((name, value) :: rest)).1.length = (writeShortstr name).1.length +
      (writeFieldValue value).1.length + (writeFieldEntries rest).1.length := by
  rw [writeFieldEntries_cons (writeShortstr_ok_iff.mpr short) (writeFieldValue_ok value value_ok),
    List.length_append, List.length_append, Nat.add_assoc]

theorem writable_insertEntry (short : (strBytes name).length ≤ 255) (value_ok : value.Writable)
    (table_ok : WritableEntries table) : WritableEntries (table.insertEntry name value) := by
  induction table with
  | nil => exact ⟨short, value_ok, trivial, nofun⟩
  | cons e table ih =>
    obtain ⟨n, v⟩ := e
    obtain ⟨n_short, v_ok, rest_ok, later⟩ := table_ok
    unfold FieldTable.insertEntry
    split
    · rename_i before
      refine ⟨short, value_ok, ⟨n_short, v_ok, rest_ok, later⟩, fun e member => ?_⟩
      cases List.mem_cons.mp member with
      | inl head =>
        rw [head]
        exact before
      | inr tail => exact lt_trans before (later e tail)
    · split
      · rename_i same
        subst same
        exact ⟨short, value_ok, rest_ok, later⟩
      · rename_i not_before other
        have behind : n < name := lt_of_le_of_ne (not_lt.mp not_before) (Ne.symm other)
        refine ⟨n_short, v_ok, ih rest_ok, fun e member => ?_⟩
        rw [FieldTable.insertEntry_eq] at member
        cases OrderedMap.mem_insertEntry member with
        | inl new =>
          rw [new]
          exact behind
        | inr old => exact later e old

theorem insertEntry_length (short : (strBytes name).length ≤ 255) (value_ok : value.Writable)
    (table_ok : WritableEntries table) :
    (writeFieldEntries (table.insertEntry name value)).1.length ≤
      (writeShortstr name).1.length + (writeFieldValue value).1.length +
        (writeFieldEntries table).1.length := by
  induction table with
  | nil => exact (writeFieldEntries_length short value_ok []).le
  | cons e table ih =>
    obtain ⟨n, v⟩ := e
    obtain ⟨n_short, v_ok, rest_ok, -⟩ := table_ok
    have length := ih rest_ok
    unfold FieldTable.insertEntry
    split
    · exact (writeFieldEntries_length short value_ok _).le
    · split
      · rw [writeFieldEntries_length short value_ok, writeFieldEntries_length n_short v_ok]
        omega
      · rw [writeFieldEntries_length n_short v_ok, writeFieldEntries_length n_short v_ok]
        omega

end

theorem readFieldValue_writable {fuel : Nat} (tables : ∀ inner, fuel = inner + 1 →
      ∀ (data : Bytes) (table : FieldTable), readFieldEntries inner [] data = some table →
        WritableEntries table ∧ (writeFieldEntries table).1.length ≤ data.length)
    {bs rest : Bytes} {v : FieldValue} (read : readFieldValue fuel bs = some (v, rest)) :
    v.Writable ∧ (writeFieldValue v).1.length + rest.length ≤ bs.length := by
  unfold readFieldValue at read
  split at read
  · cases read
  · rename_i tag bs
    rw [List.length_cons]
    split at read
    case h_12 =>
      obtain ⟨⟨name, tail⟩, found, same⟩ := Option.map_eq_some_iff.mp read
      obtain ⟨rfl, rfl⟩ := Prod.mk.inj same
      obtain ⟨short, length⟩ := readShortstr_writable found
      refine ⟨short, ?_⟩
      rw [writeFieldValue, andThen_ok rfl, List.length_append]
      change 1 + (writeShortstr name).1.length + tail.length ≤ bs.length + 1
      omega
    case h_13 =>
      obtain ⟨⟨data, tail⟩, found, same⟩ := Option.map_eq_some_iff.mp read
      obtain ⟨rfl, rfl⟩ := Prod.mk.inj same
      have length := readPrefixed_length found
      refine ⟨readPrefixed_lt found, ?_⟩
      simp only [writeFieldValue, writeTag, writeLongstr, prefixed, List.length_cons,
        List.length_append, toBeBytes_length]
      omega
    case h_15 =>
      split at read
      · cases read
      · rename_i inner
        obtain ⟨⟨data, tail⟩, found, read⟩ := Option.bind_eq_some_iff.mp read
        obtain ⟨table, entries, same⟩ := Option.bind_eq_some_iff.mp read
        obtain ⟨rfl, rfl⟩ := Prod.mk.inj (Option.some.inj same)
        obtain ⟨table_ok, less⟩ := tables inner rfl data table entries
        have length := readPrefixed_length found
        have bound := readPrefixed_lt found
        refine ⟨⟨table_ok, Nat.lt_of_le_of_lt less bound⟩, ?_⟩
        rw [writeFieldValue_table table_ok]
        simp only [prefixed, List.length_cons, List.length_append, toBeBytes_length]
        omega
    case h_16 =>
      obtain ⟨rfl, rfl⟩ := Prod.mk.inj (Option.some.inj read)
      exact ⟨trivial, by rw [writeFieldValue, Nat.add_comm]; rfl⟩
    case h_17 => cases read
    all_goals
      obtain ⟨⟨n, rfl⟩, length⟩ := readWordAs_eq_some read
      refine ⟨trivial, ?_⟩
      simp only [writeFieldValue, writeTag, List.length_cons, List.length_nil, toBeBytes_length]
      omega

theorem readFieldEntries_writable {fuel : Nat} : ∀ {bs : Bytes} {table table' : FieldTable},
    WritableEntries table → readFieldEntries fuel table bs = some table' →
    WritableEntries table' ∧ (writeFieldEntries table').1.length ≤
      (writeFieldEntries table).1.length + bs.length := by
  induction fuel using Nat.strongRecOn with
  | ind fuel ih =>
    intro bs table table' table_ok read
    unfold readFieldEntries at read
    split at read
    · obtain rfl := Option.some.inj read
      exact ⟨table_ok, Nat.le_add_right _ _⟩
    · split at read
      · cases read
      · rename_i inner
        obtain ⟨⟨name, bs'⟩, found, read⟩ := Option.bind_eq_some_iff.mp read
        obtain ⟨⟨value, rest⟩, valued, read⟩ := Option.bind_eq_some_iff.mp read
        obtain ⟨short, name_length⟩ := readShortstr_writable found
        obtain ⟨value_ok, value_length⟩ := readFieldValue_writable (by
          rintro fuel rfl data table entries
          have inside := @ih fuel (by omega) data [] table trivial entries
          simpa [writeFieldEntries] using inside) valued
        have inserted_ok := writable_insertEntry short value_ok table_ok
        have inserted_length := insertEntry_length short value_ok table_ok
        obtain ⟨table_ok', length⟩ := ih inner (Nat.lt_succ_self inner) inserted_ok read
        exact ⟨table_ok', by omega⟩

theorem readFieldTable_write {table : FieldTable} (writable : table.Writable) (rest : Bytes) :
    readFieldTable ((writeFieldTable table).1 ++ rest) = some (table, rest) := by
  have written : (writeFieldTable table).1 = prefixed 4 (writeFieldEntries table).1 := by
    unfold writeFieldTable
    dsimp only
    rw [if_pos (writeFieldEntries_ok table writable.1)]
    rfl
  have inner := readFieldEntries_write table (writeFieldEntries table).1.length [] writable.1
    (Nat.le_refl _) (by simp)
  rw [written, readFieldTable, readPrefixed_prefixed writable.2, Option.bind_eq_bind,
    Option.bind_some]
  change (readFieldEntries _ [] (writeFieldEntries table).1).bind _ = _
  rw [inner]
  rfl

/-- A table of any depth is written and read back, and no byte behind it is taken. -/
theorem field_table_round_trip {table : FieldTable} (writable : table.Writable) (rest : Bytes) :
    (writeFieldTable table).2 = true ∧
      readFieldTable ((writeFieldTable table).1 ++ rest) = some (table, rest) := by
  refine ⟨?_, readFieldTable_write writable rest⟩
  unfold writeFieldTable
  dsimp only
  rw [if_pos (writeFieldEntries_ok table writable.1)]

theorem field_table_round_trip_nested :
    readFieldTable ((writeFieldTable [("a", .fieldTable [("a", .longInt (-2)), ("b", .void)]),
      ("x-match", .longString [97])]).1 ++ [1, 2]) =
        some ([("a", .fieldTable [("a", .longInt (-2)), ("b", .void)]),
          ("x-match", .longString [97])], [1, 2]) := by
  refine (field_table_round_trip ⟨?_, by decide +kernel⟩ [1, 2]).2
  simp only [WritableEntries, FieldValue.Writable]
  decide +kernel

/-- A number made of binary digits, the last one lowest. -/
theorem testBit_digits (bits : List Bool) (k : Nat) :
    (bits.foldl (fun (n : Nat) b => 2 * n + if b then 1 else 0) 0).testBit k =
      bits.reverse.getD k false := by
  induction bits using List.reverseRecOn generalizing k with
  | nil => simp
  | append_singleton bits b ih =>
    rw [List.foldl_append, List.reverse_append, List.foldl_cons, List.foldl_nil]
    cases k with
    | zero => cases b <;> simp [Nat.testBit_zero]
    | succ k =>
      have half (n : Nat) : (2 * n + if b then 1 else 0) / 2 = n := by
        cases b <;> simp; omega
      rw [Nat.testBit_succ, half, ih]
      rfl

theorem readOctet_cons (v : UInt8) (rest : Bytes) : readOctet (v :: rest) = some (v, rest) := by
  have fits : v.toNat < 256 ^ 1 := v.toNat_lt
  have read := readWord_toBeBytes fits rest
  rw [toBeBytes_octet] at read
  change (readWord 1 ([v] ++ rest)).map _ = _
  rw [read]
  simp

namespace BasicProperties

def shortstrs (p : BasicProperties) : List (Option String) :=
  [p.contentType, p.contentEncoding, p.correlationId, p.replyTo, p.expiration, p.messageId,
    p.typeField, p.userId, p.appId, p.clusterId]

structure Writable (p : BasicProperties) : Prop where
  strings : ∀ text ∈ p.shortstrs, ∀ s ∈ text, (strBytes s).length ≤ 255
  headers : ∀ table ∈ p.headers, table.Writable

theorem writable_default : Writable default := ⟨by simp [shortstrs, default], nofun⟩

variable {p : BasicProperties}

theorem foldl_andThen {first : Written} (first_ok : first.2 = true) {parts : List Written}
    (ok : ∀ part ∈ parts, part.2 = true) :
    parts.foldl Written.andThen first = (first.1 ++ (parts.map Prod.fst).flatten, true) := by
  induction parts generalizing first with
  | nil => simp [← first_ok]
  | cons part parts ih =>
    have part_ok := ok part List.mem_cons_self
    have both : (first.andThen part).2 = true := by
      rw [andThen_ok first_ok]
      exact part_ok
    rw [List.foldl_cons, ih both fun later member => ok later (List.mem_cons_of_mem _ member),
      andThen_ok first_ok]
    simp

theorem readOpt_write {α : Type} {write : α → Written} {read : Bytes → Option (α × Bytes)}
    {flags bit : Nat} {v : Option α} (announced : flags.testBit bit = v.isSome)
    (reads : ∀ a ∈ v, ∀ rest, read ((write a).1 ++ rest) = some (a, rest)) (rest : Bytes) :
    readOpt flags bit read ((writeOpt write v).1 ++ rest) = some (v, rest) := by
  unfold readOpt
  rw [announced]
  cases v with
  | none => rfl
  | some a =>
    rw [Option.isSome_some, if_pos rfl]
    change (read ((write a).1 ++ rest)).map _ = _
    rw [reads a rfl]
    rfl

theorem flags_bit {k : Nat} : p.flags.testBit (k + 2) =
    [p.clusterId.isSome, p.appId.isSome, p.userId.isSome, p.typeField.isSome,
      p.timestamp.isSome, p.messageId.isSome, p.expiration.isSome, p.replyTo.isSome,
      p.correlationId.isSome, p.priority.isSome, p.deliveryMode.isSome, p.headers.isSome,
      p.contentEncoding.isSome, p.contentType.isSome].getD k false := by
  unfold flags
  dsimp only
  rw [show (4 : Nat) = 2 ^ 2 from rfl, Nat.testBit_mul_two_pow, testBit_digits]
  simp

theorem flags_fit : p.flags < 256 ^ 2 := by
  have bits (present : List Bool) (n : Nat) :
      present.foldl (fun n b => 2 * n + if b then 1 else 0) n < (n + 1) * 2 ^ present.length := by
    induction present generalizing n with
    | nil => simp
    | cons b present ih =>
      refine Nat.lt_of_lt_of_le (ih _) ?_
      rw [List.length_cons, Nat.pow_succ', ← Nat.mul_assoc]
      refine Nat.mul_le_mul_right _ ?_
      cases b <;> simp <;> omega
  unfold flags
  have fourteen := bits [p.contentType.isSome, p.contentEncoding.isSome, p.headers.isSome,
    p.deliveryMode.isSome, p.priority.isSome, p.correlationId.isSome, p.replyTo.isSome,
    p.expiration.isSome, p.messageId.isSome, p.timestamp.isSome, p.typeField.isSome,
    p.userId.isSome, p.appId.isSome, p.clusterId.isSome] 0
  have length : ((0 : Nat) + 1) * 2 ^ 14 = 16384 := rfl
  simp only [List.length_cons, List.length_nil] at fourteen
  dsimp only
  omega

theorem bind_read {α β γ : Type} {read : Option (α × γ)} {next : α × γ → Option β} {a : α}
    {rest : γ} (found : read = some (a, rest)) : (read >>= next) = next (a, rest) := by
  rw [found]
  rfl

theorem writeOpt_ok {α : Type} {write : α → Written} {v : Option α}
    (ok : ∀ a ∈ v, (write a).2 = true) : (writeOpt write v).2 = true := by
  cases v with
  | none => rfl
  | some a => exact ok a rfl

theorem Writable.text_ok (writable : p.Writable) {text : Option String}
    (member : text ∈ p.shortstrs) : (writeOpt writeShortstr text).2 = true :=
  writeOpt_ok fun s here => writeShortstr_ok_iff.mpr (writable.strings text member s here)

theorem Writable.text_reads (writable : p.Writable) {text : Option String} {bit : Nat}
    (announced : p.flags.testBit bit = text.isSome) (member : text ∈ p.shortstrs) (rest : Bytes) :
    readOpt p.flags bit readShortstr ((writeOpt writeShortstr text).1 ++ rest) =
      some (text, rest) :=
  readOpt_write announced (fun s here rest =>
    readShortstr_write (writable.strings text member s here) rest) rest

theorem write_of_writable (writable : p.Writable) : p.write =
    (toBeBytes 2 p.flags ++ ((writeOpt writeShortstr p.contentType).1 ++
      ((writeOpt writeShortstr p.contentEncoding).1 ++ ((writeOpt writeFieldTable p.headers).1 ++
      ((writeOpt (fun v => ([v], true)) p.deliveryMode).1 ++
      ((writeOpt (fun v => ([v], true)) p.priority).1 ++
      ((writeOpt writeShortstr p.correlationId).1 ++ ((writeOpt writeShortstr p.replyTo).1 ++
      ((writeOpt writeShortstr p.expiration).1 ++ ((writeOpt writeShortstr p.messageId).1 ++
      ((writeOpt (fun v => (toBeBytes 8 v.toNat, true)) p.timestamp).1 ++
      ((writeOpt writeShortstr p.typeField).1 ++ ((writeOpt writeShortstr p.userId).1 ++
      ((writeOpt writeShortstr p.appId).1 ++
        (writeOpt writeShortstr p.clusterId).1))))))))))))), true) := by
  have texts := fun text member => @Writable.text_ok p writable text member
  have tables : (writeOpt writeFieldTable p.headers).2 = true :=
    writeOpt_ok fun table here => by
      have inner := writeFieldEntries_ok table (writable.headers table here).1
      unfold writeFieldTable
      dsimp only
      rw [if_pos inner]
  unfold write
  refine (foldl_andThen rfl ?_).trans ?_
  · simp only [shortstrs, List.forall_mem_cons] at texts ⊢
    obtain ⟨t1, t2, t3, t4, t5, t6, t7, t8, t9, t10, -⟩ := texts
    refine ⟨t1, t2, tables, writeOpt_ok fun _ _ => rfl, writeOpt_ok fun _ _ => rfl, t3, t4, t5, t6,
      writeOpt_ok fun _ _ => rfl, t7, t8, t9, t10, nofun⟩
  · simp

theorem foldl_andThen_failed {first : Written} (failed : first.2 = false) (parts : List Written) :
    parts.foldl Written.andThen first = first := by
  induction parts with
  | nil => rfl
  | cons part parts ih =>
    rw [List.foldl_cons, Written.andThen, if_neg (by rw [failed]; exact Bool.false_ne_true), ih]

theorem decode_long {text : String} (here : p.contentType = some text)
    (long : 255 < (strBytes text).length) : decode p.write.1 = none := by
  have failed : writeOpt writeShortstr p.contentType = ([], false) := by
    rw [here]
    exact if_pos long
  have written : p.write = (toBeBytes 2 p.flags ++ [], false) := by
    unfold write
    dsimp only
    rw [List.foldl_cons, failed, andThen_ok rfl, foldl_andThen_failed rfl]
  have bit : p.flags.testBit 15 = true := by
    rw [@flags_bit p 13, here]
    rfl
  have stuck : readOpt p.flags 15 readShortstr [] = none := if_pos bit
  rw [written]
  unfold decode
  refine (bind_read (readWord_toBeBytes flags_fit [])).trans ?_
  dsimp only
  rw [stuck]
  rfl

theorem decode_write (writable : p.Writable) (rest : Bytes) :
    decode (p.write.1 ++ rest) = some (p, rest) := by
  have text {v : Option String} {bit : Nat} := @Writable.text_reads p writable v bit
  have bit15 : p.flags.testBit 15 = p.contentType.isSome := flags_bit
  have bit14 : p.flags.testBit 14 = p.contentEncoding.isSome := flags_bit
  have bit13 : p.flags.testBit 13 = p.headers.isSome := flags_bit
  have bit12 : p.flags.testBit 12 = p.deliveryMode.isSome := flags_bit
  have bit11 : p.flags.testBit 11 = p.priority.isSome := flags_bit
  have bit10 : p.flags.testBit 10 = p.correlationId.isSome := flags_bit
  have bit9 : p.flags.testBit 9 = p.replyTo.isSome := flags_bit
  have bit8 : p.flags.testBit 8 = p.expiration.isSome := flags_bit
  have bit7 : p.flags.testBit 7 = p.messageId.isSome := flags_bit
  have bit6 : p.flags.testBit 6 = p.timestamp.isSome := flags_bit
  have bit5 : p.flags.testBit 5 = p.typeField.isSome := flags_bit
  have bit4 : p.flags.testBit 4 = p.userId.isSome := flags_bit
  have bit3 : p.flags.testBit 3 = p.appId.isSome := flags_bit
  have bit2 : p.flags.testBit 2 = p.clusterId.isSome := flags_bit
  have table := @readOpt_write _ writeFieldTable _ _ _ _ bit13 fun t here rest =>
    readFieldTable_write (writable.headers t here) rest
  have mode := @readOpt_write _ (fun v => ([v], true)) _ _ _ _ bit12 fun v _ rest =>
    readOctet_cons v rest
  have priority := @readOpt_write _ (fun v => ([v], true)) _ _ _ _ bit11 fun v _ rest =>
    readOctet_cons v rest
  have time := @readOpt_write UInt64 (fun v => (toBeBytes 8 v.toNat, true))
    (fun bs => (readWord 8 bs).map fun r => (.ofNat r.1, r.2)) _ _ _ bit6 fun v _ rest => by
      rw [readWord_toBeBytes v.toNat_lt]
      simp
  rw [write_of_writable writable]
  simp only [List.append_assoc]
  unfold decode
  refine (bind_read (readWord_toBeBytes flags_fit _)).trans ?_
  refine (bind_read (text bit15 (by simp [shortstrs]) _)).trans ?_
  refine (bind_read (text bit14 (by simp [shortstrs]) _)).trans ?_
  refine (bind_read (table _)).trans ?_
  refine (bind_read (mode _)).trans ?_
  refine (bind_read (priority _)).trans ?_
  refine (bind_read (text bit10 (by simp [shortstrs]) _)).trans ?_
  refine (bind_read (text bit9 (by simp [shortstrs]) _)).trans ?_
  refine (bind_read (text bit8 (by simp [shortstrs]) _)).trans ?_
  refine (bind_read (text bit7 (by simp [shortstrs]) _)).trans ?_
  refine (bind_read (time _)).trans ?_
  refine (bind_read (text bit5 (by simp [shortstrs]) _)).trans ?_
  refine (bind_read (text bit4 (by simp [shortstrs]) _)).trans ?_
  refine (bind_read (text bit3 (by simp [shortstrs]) _)).trans ?_
  exact bind_read (text bit2 (by simp [shortstrs]) _)

theorem readOpt_writable {α : Type} {write : α → Written} {read : Bytes → Option (α × Bytes)}
    {ok : α → Prop} (reads : ∀ {bs rest : Bytes} {a : α}, read bs = some (a, rest) →
      ok a ∧ (write a).1.length + rest.length ≤ bs.length) {flags bit : Nat} {bs rest : Bytes}
    {v : Option α} (found : readOpt flags bit read bs = some (v, rest)) :
    (∀ a ∈ v, ok a) ∧ (writeOpt write v).1.length + rest.length ≤ bs.length := by
  unfold readOpt at found
  split at found
  · obtain ⟨⟨a, tail⟩, here, same⟩ := Option.map_eq_some_iff.mp found
    obtain ⟨rfl, rfl⟩ := Prod.mk.inj same
    obtain ⟨fine, length⟩ := reads here
    refine ⟨?_, length⟩
    intro a' present
    obtain rfl := Option.some.inj present
    exact fine
  · obtain ⟨rfl, rfl⟩ := Prod.mk.inj (Option.some.inj found)
    exact ⟨nofun, by simp [writeOpt]⟩

theorem readOpt_length {α : Type} {write : α → Written} {read : Bytes → Option (α × Bytes)}
    (reads : ∀ {bs rest : Bytes} {a : α}, read bs = some (a, rest) →
      (write a).1.length + rest.length ≤ bs.length) {flags bit : Nat} {bs rest : Bytes}
    {v : Option α} (found : readOpt flags bit read bs = some (v, rest)) :
    (writeOpt write v).1.length + rest.length ≤ bs.length :=
  (@readOpt_writable α write read (fun _ => True) (fun here => ⟨trivial, reads here⟩) _ _ _ _ _
    found).2

theorem readFieldTable_writable {bs rest : Bytes} {table : FieldTable}
    (read : readFieldTable bs = some (table, rest)) :
    table.Writable ∧ (writeFieldTable table).1.length + rest.length ≤ bs.length := by
  obtain ⟨⟨data, tail⟩, found, read⟩ := Option.bind_eq_some_iff.mp read
  obtain ⟨table', entries, same⟩ := Option.bind_eq_some_iff.mp read
  obtain ⟨rfl, rfl⟩ := Prod.mk.inj (Option.some.inj same)
  obtain ⟨table_ok, less⟩ := @readFieldEntries_writable _ data [] table' trivial entries
  have none : (writeFieldEntries []).1.length = 0 := rfl
  have bound := readPrefixed_lt found
  have length := readPrefixed_length found
  refine ⟨⟨table_ok, by omega⟩, ?_⟩
  unfold writeFieldTable
  dsimp only
  rw [if_pos (writeFieldEntries_ok table' table_ok)]
  simp only [writeLongstr, prefixed, List.length_append, toBeBytes_length]
  omega

theorem decode_writable {bs rest : Bytes} (read : decode bs = some (p, rest)) :
    p.Writable ∧ p.write.1.length + rest.length ≤ bs.length := by
  have text {flags bit : Nat} {bs rest : Bytes} {v : Option String}
      (found : readOpt flags bit readShortstr bs = some (v, rest)) :=
    readOpt_writable (fun here => (readShortstr_writable here).imp_right Eq.le) found
  have octet {flags bit : Nat} {bs rest : Bytes} {v : Option UInt8}
      (found : readOpt flags bit readOctet bs = some (v, rest)) :
      (writeOpt (fun v => ([v], true)) v).1.length + rest.length ≤ bs.length := by
    refine readOpt_length (fun here => ?_) found
    obtain ⟨⟨n, tail⟩, word, same⟩ := Option.map_eq_some_iff.mp here
    obtain ⟨rfl, rfl⟩ := Prod.mk.inj same
    obtain ⟨enough, -, rfl⟩ := readWord_eq_some word
    simp; omega
  unfold decode at read
  obtain ⟨⟨flags, bs0⟩, word, read⟩ := Option.bind_eq_some_iff.mp read
  obtain ⟨⟨contentType, bs1⟩, r1, read⟩ := Option.bind_eq_some_iff.mp read
  obtain ⟨⟨contentEncoding, bs2⟩, r2, read⟩ := Option.bind_eq_some_iff.mp read
  obtain ⟨⟨headers, bs3⟩, r3, read⟩ := Option.bind_eq_some_iff.mp read
  obtain ⟨⟨deliveryMode, bs4⟩, r4, read⟩ := Option.bind_eq_some_iff.mp read
  obtain ⟨⟨priority, bs5⟩, r5, read⟩ := Option.bind_eq_some_iff.mp read
  obtain ⟨⟨correlationId, bs6⟩, r6, read⟩ := Option.bind_eq_some_iff.mp read
  obtain ⟨⟨replyTo, bs7⟩, r7, read⟩ := Option.bind_eq_some_iff.mp read
  obtain ⟨⟨expiration, bs8⟩, r8, read⟩ := Option.bind_eq_some_iff.mp read
  obtain ⟨⟨messageId, bs9⟩, r9, read⟩ := Option.bind_eq_some_iff.mp read
  obtain ⟨⟨timestamp, bs10⟩, r10, read⟩ := Option.bind_eq_some_iff.mp read
  obtain ⟨⟨typeField, bs11⟩, r11, read⟩ := Option.bind_eq_some_iff.mp read
  obtain ⟨⟨userId, bs12⟩, r12, read⟩ := Option.bind_eq_some_iff.mp read
  obtain ⟨⟨appId, bs13⟩, r13, read⟩ := Option.bind_eq_some_iff.mp read
  obtain ⟨⟨clusterId, bs14⟩, r14, read⟩ := Option.bind_eq_some_iff.mp read
  obtain ⟨rfl, rfl⟩ := Prod.mk.inj (Option.some.inj read)
  obtain ⟨enough, -, rfl⟩ := readWord_eq_some word
  have time : (writeOpt (fun v : UInt64 => (toBeBytes 8 v.toNat, true)) timestamp).1.length +
      bs10.length ≤ bs9.length := by
    refine readOpt_length (fun here => ?_) r10
    obtain ⟨⟨n, tail⟩, word, same⟩ := Option.map_eq_some_iff.mp here
    obtain ⟨rfl, rfl⟩ := Prod.mk.inj same
    obtain ⟨enough, -, rfl⟩ := readWord_eq_some word
    simp; omega
  obtain ⟨t1, l1⟩ := text r1
  rw [List.length_drop, Nat.le_sub_iff_add_le enough] at l1
  obtain ⟨t2, l2⟩ := text r2
  obtain ⟨t3, l3⟩ := readOpt_writable readFieldTable_writable r3
  have l4 := octet r4
  have l5 := octet r5
  obtain ⟨t6, l6⟩ := text r6
  obtain ⟨t7, l7⟩ := text r7
  obtain ⟨t8, l8⟩ := text r8
  obtain ⟨t9, l9⟩ := text r9
  obtain ⟨t11, l11⟩ := text r11
  obtain ⟨t12, l12⟩ := text r12
  obtain ⟨t13, l13⟩ := text r13
  obtain ⟨t14, l14⟩ := text r14
  have writable : Writable ⟨contentType, contentEncoding, headers, deliveryMode, priority,
      correlationId, replyTo, expiration, messageId, timestamp, typeField, userId, appId,
      clusterId⟩ := by
    refine ⟨?_, t3⟩
    simp only [shortstrs, List.forall_mem_cons]
    exact ⟨t1, t2, t6, t7, t8, t9, t11, t12, t13, t14, nofun⟩
  refine ⟨writable, ?_⟩
  rw [write_of_writable writable]
  simp only [List.length_append, toBeBytes_length]
  linarith

end BasicProperties

end RocketmqBroker
