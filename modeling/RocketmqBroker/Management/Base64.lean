import RocketmqBroker.Lib.Regrouping
import RocketmqBroker.Storage.WalEntry

/-!
Credentials of the management API come in base64 (management/routes/helpers.rs). The decoder keeps
all that it reads in one word, of which only the low bits that are not handed out yet matter.
-/
namespace RocketmqBroker
open Regrouping

def base64Alphabet : Bytes :=
  strBytes "ABCDEFGHIJKLMNOPQRSTUVWXYZabcdefghijklmnopqrstuvwxyz0123456789+/"

/-- The table of the values; what is no character of the alphabet has the value of `A`. -/
def base64Value : UInt8 → UInt8 :=
  base64Alphabet.zipIdx.foldl (fun map c => Function.update map c.1 (UInt8.ofNat c.2)) fun _ => 0

structure Base64Reader where
  buffer : UInt32
  bits : Nat
  result : Bytes

namespace Base64Reader

def new : Base64Reader := ⟨0, 0, []⟩

def take (r : Base64Reader) (val : UInt8) : Base64Reader :=
  let buffer := r.buffer <<< 6 ||| val.toUInt32
  let bits := r.bits + 6
  if bits ≥ 8 then
    let bits := bits - 8
    ⟨buffer, bits, r.result ++ [(buffer >>> UInt32.ofNat bits).toUInt8]⟩
  else ⟨buffer, bits, r.result⟩

/-- The loop over the bytes ends at a `=`. -/
def read (r : Base64Reader) : Bytes → Option Bytes
  | [] => some r.result
  | b :: bs =>
    if b = 0x3D then some r.result
    else
      let val := base64Value b
      if val = 0 ∧ b ≠ 0x41 then
        if b ≠ 0x0D ∧ b ≠ 0x0A ∧ b ≠ 0x20 then none else r.read bs
      else (r.take val).read bs

end Base64Reader

def decodeBase64 (s : String) : Option Bytes := Base64Reader.new.read (strBytes s)

def base64Digits : Bytes → List Nat
  | [] => []
  | [x] => [x.toNat / 4, x.toNat % 4 * 16]
  | [x, y] => [x.toNat / 4, x.toNat % 4 * 16 + y.toNat / 16, y.toNat % 16 * 4]
  | x :: y :: z :: rest =>
    [x.toNat / 4, x.toNat % 4 * 16 + y.toNat / 16, y.toNat % 16 * 4 + z.toNat / 64,
      z.toNat % 64] ++ base64Digits rest

/-- The standard encoding, padded to groups of four characters. -/
def encodeBase64 (b : Bytes) : Bytes :=
  (base64Digits b).map (base64Alphabet.getD · 0) ++ List.replicate ((3 - b.length % 3) % 3) 0x3D

def isBlank (b : UInt8) : Bool := b == 0x20 || b == 0x0D || b == 0x0A

example : encodeBase64 (strBytes "fooba") = strBytes "Zm9vYmE=" := by decide +kernel

theorem base64Value_alphabet {d : Nat} (digit : d < 64) :
    base64Value (base64Alphabet.getD d 0) = UInt8.ofNat d ∧ base64Alphabet.getD d 0 ≠ 0x3D ∧
      isBlank (base64Alphabet.getD d 0) = false ∧
      ¬(UInt8.ofNat d = 0 ∧ base64Alphabet.getD d 0 ≠ 0x41) := by
  have all : ∀ d : Fin 64, base64Value (base64Alphabet.getD d 0) = UInt8.ofNat d ∧
      base64Alphabet.getD d 0 ≠ 0x3D ∧ isBlank (base64Alphabet.getD d 0) = false ∧
      ¬(UInt8.ofNat d = 0 ∧ base64Alphabet.getD d 0 ≠ 0x41) := by decide +kernel
  exact all ⟨d, digit⟩

theorem isBlank_value {b : UInt8} (blank : isBlank b = true) :
    b ≠ 0x3D ∧ base64Value b = 0 ∧ b ≠ 0x41 ∧ ¬(b ≠ 0x0D ∧ b ≠ 0x0A ∧ b ≠ 0x20) := by
  simp only [isBlank, Bool.or_eq_true, beq_iff_eq] at blank
  obtain (rfl | rfl) | rfl := blank
  all_goals decide +kernel

namespace Base64Reader

structure Reads (r : Base64Reader) (ds : List Nat) : Prop where
  holds : Holds 6 8 ds (r.result.map UInt8.toNat) r.bits (r.buffer.toNat % 2 ^ r.bits)
  few : r.bits < 8

variable {r : Base64Reader} {ds : List Nat} {d : Nat}

theorem Reads.new : new.Reads [] := ⟨Holds.start, by decide⟩

theorem low_bits {bits : Nat} (buffer : UInt32) (digit : d < 64) (few : bits < 8) :
    (buffer <<< 6 ||| (UInt8.ofNat d).toUInt32).toNat % 2 ^ (bits + 6) =
      buffer.toNat % 2 ^ bits * 2 ^ 6 + d := by
  have val : (UInt8.ofNat d).toUInt32.toNat = d := by
    rw [UInt8.toNat_toUInt32, UInt8.toNat_ofNat', Nat.mod_eq_of_lt (by omega)]
  have shifted : (buffer <<< 6).toNat = 2 ^ 6 * (buffer.toNat % 2 ^ 26) := by
    rw [UInt32.toNat_shiftLeft]
    change buffer.toNat <<< 6 % 2 ^ 32 = _
    rw [Nat.shiftLeft_eq, Nat.mul_comm]
    exact Nat.mul_mod_mul_left (2 ^ 6) buffer.toNat (2 ^ 26)
  have high : (2 ^ 6 * (buffer.toNat % 2 ^ 26) + d) / 2 ^ 6 = buffer.toNat % 2 ^ 26 := by omega
  have low : (2 ^ 6 * (buffer.toNat % 2 ^ 26) + d) % 2 ^ 6 = d := by omega
  have within : 2 ^ bits ∣ 2 ^ 26 := Nat.pow_dvd_pow 2 (by omega)
  rw [UInt32.toNat_or, val, shifted, ← Nat.two_pow_add_eq_or_of_lt digit, Nat.pow_add,
    Nat.mul_comm (2 ^ bits), Nat.mod_mul, high, low, Nat.mod_mod_of_dvd _ within, Nat.add_comm,
    Nat.mul_comm]

theorem Reads.take (reads : r.Reads ds) (digit : d < 64) :
    (r.take (UInt8.ofNat d)).Reads (ds ++ [d]) := by
  have more := reads.holds.read digit
  rw [← low_bits r.buffer digit reads.few] at more
  unfold Base64Reader.take
  dsimp only
  split
  · rename_i enough
    obtain ⟨bits, same⟩ := Nat.exists_eq_add_of_le' enough
    have few : bits < 8 := by
      have before := reads.few
      omega
    rw [same] at more
    have out := more.handOut
    rw [Nat.mod_mod_of_dvd _ (Nat.pow_dvd_pow 2 (Nat.le_add_right bits 8)), Nat.pow_add,
      Nat.mod_mul_right_div_self] at out
    have byte : ((r.buffer <<< 6 ||| (UInt8.ofNat d).toUInt32) >>> UInt32.ofNat bits).toUInt8.toNat
        = (r.buffer <<< 6 ||| (UInt8.ofNat d).toUInt32).toNat / 2 ^ bits % 2 ^ 8 := by
      have by_bits : bits % 2 ^ 32 % 32 = bits := by omega
      rw [UInt32.toNat_toUInt8, UInt32.toNat_shiftRight, UInt32.toNat_ofNat', by_bits,
        Nat.shiftRight_eq_div_pow]
    rw [same, Nat.add_sub_cancel]
    refine ⟨?_, few⟩
    rw [List.map_append, List.map_singleton, byte]
    exact out
  · rename_i less
    exact ⟨more, Nat.lt_of_not_le less⟩

theorem read_digits (digits : ∀ d ∈ ds, d < 64) (rest : Bytes) :
    r.read (ds.map (base64Alphabet.getD · 0) ++ rest) =
      (ds.foldl (fun r d => r.take (UInt8.ofNat d)) r).read rest := by
  induction ds generalizing r with
  | nil => rfl
  | cons d ds ih =>
    obtain ⟨digit, digits⟩ := List.forall_mem_cons.mp digits
    obtain ⟨value, no_end, -, known⟩ := base64Value_alphabet digit
    rw [List.map_cons, List.cons_append, read, if_neg no_end]
    dsimp only
    rw [value, if_neg known]
    exact ih digits

theorem read_padding (r : Base64Reader) (k : Nat) :
    r.read (List.replicate k 0x3D) = some r.result := by
  cases k with
  | zero => rfl
  | succ k => rfl

theorem read_filter (r : Base64Reader) (bs : Bytes) :
    r.read (bs.filter fun c => !isBlank c) = r.read bs := by
  induction bs generalizing r with
  | nil => rfl
  | cons b bs ih =>
    by_cases blank : isBlank b = true
    · obtain ⟨no_end, value, no_a, passed⟩ := isBlank_value blank
      rw [List.filter_cons_of_neg (by simpa using blank), ih, read, if_neg no_end]
      dsimp only
      rw [if_pos ⟨value, no_a⟩, if_neg passed]
    · rw [List.filter_cons_of_pos (by simpa using blank), read, read]
      simp only [ih]

theorem Reads.takes (reads : r.Reads ds) {more : List Nat} (digits : ∀ d ∈ more, d < 64) :
    (more.foldl (fun r d => r.take (UInt8.ofNat d)) r).Reads (ds ++ more) := by
  induction more generalizing r ds with
  | nil =>
    rw [List.append_nil]
    exact reads
  | cons d more ih =>
    obtain ⟨digit, digits⟩ := List.forall_mem_cons.mp digits
    have later := ih (reads.take digit) digits
    rw [List.append_assoc] at later
    exact later

end Base64Reader

theorem base64Digits_lt (b : Bytes) : ∀ d ∈ base64Digits b, d < 64 := by
  induction b using base64Digits.induct with
  | case1 => nofun
  | case2 x =>
    have := x.toNat_lt
    simp only [base64Digits, List.forall_mem_cons]
    exact ⟨by omega, by omega, nofun⟩
  | case3 x y =>
    have := x.toNat_lt
    have := y.toNat_lt
    simp only [base64Digits, List.forall_mem_cons]
    exact ⟨by omega, by omega, by omega, nofun⟩
  | case4 x y z rest ih =>
    have := x.toNat_lt
    have := y.toNat_lt
    have := z.toNat_lt
    simp only [base64Digits, List.cons_append, List.nil_append, List.forall_mem_cons]
    exact ⟨by omega, by omega, by omega, by omega, ih⟩

theorem holds_base64Digits (b : Bytes) :
    ∃ bits < 8, Holds 6 8 (base64Digits b) (b.map UInt8.toNat) bits 0 := by
  have bytes (bs : Bytes) : ∀ d ∈ bs.map UInt8.toNat, d < 2 ^ 8 := by
    intro d member
    obtain ⟨x, -, rfl⟩ := List.mem_map.mp member
    exact x.toNat_lt
  induction b using base64Digits.induct with
  | case1 => exact ⟨0, by decide, Holds.start⟩
  | case2 x =>
    refine ⟨4, by decide, ?_, by decide, rfl, bytes [x]⟩
    simp only [base64Digits, List.map_cons, List.map_nil, value_cons, value_nil, List.length_cons,
      List.length_nil]
    omega
  | case3 x y =>
    refine ⟨2, by decide, ?_, by decide, rfl, bytes [x, y]⟩
    simp only [base64Digits, List.map_cons, List.map_nil, value_cons, value_nil, List.length_cons,
      List.length_nil]
    omega
  | case4 x y z rest ih =>
    obtain ⟨bits, few, later⟩ := ih
    have group : Holds 6 8 [x.toNat / 4, x.toNat % 4 * 16 + y.toNat / 16,
        y.toNat % 16 * 4 + z.toNat / 64, z.toNat % 64] ([x, y, z].map UInt8.toNat) 0 0 := by
      refine ⟨?_, by decide, rfl, bytes [x, y, z]⟩
      simp only [List.map_cons, List.map_nil, value_cons, value_nil, List.length_cons,
        List.length_nil]
      omega
    exact ⟨bits, few, group.append later⟩

/-- Whatever blanks are put into the encoding, the decoder gives the bytes back. -/
theorem decodeBase64_encode (b : Bytes) (s : String)
    (spaced : (strBytes s).filter (fun c => !isBlank c) = encodeBase64 b) :
    decodeBase64 s = some b := by
  unfold decodeBase64
  have digits := base64Digits_lt b
  rw [← Base64Reader.read_filter, spaced, encodeBase64, Base64Reader.read_digits digits,
    Base64Reader.read_padding]
  have reads := Base64Reader.Reads.new.takes digits
  obtain ⟨bits, few, whole⟩ := holds_base64Digits b
  have same := reads.holds.unique whole reads.few few
  exact congrArg some (List.map_injective_iff.mpr (fun _ _ => UInt8.toNat_inj.mp) same)

theorem decodeBase64_encode_guest :
    decodeBase64 "Z3Vlc3Q6\r\n Z3Vlc3Q=\n" = some (strBytes "guest:guest") :=
  decodeBase64_encode (strBytes "guest:guest") _ (by decide +kernel)

end RocketmqBroker
