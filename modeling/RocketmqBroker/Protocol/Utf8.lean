import RocketmqBroker.Protocol.BasicProperties
import Mathlib.Tactic.Common

/-!
A text in UTF-8 is not changed when it is read with replacement characters: the bytes of each
character are one valid chunk.
-/
namespace RocketmqBroker

section
variable {a b c d : UInt8}

theorem isContinuation_of (low : 128 ≤ b.toNat) (high : b.toNat < 192) :
    isContinuation b = true := by
  rw [isContinuation, Bool.and_eq_true, decide_eq_true_eq, decide_eq_true_eq,
    UInt8.le_iff_toNat_le, UInt8.le_iff_toNat_le]
  exact ⟨low, Nat.le_of_lt_succ high⟩

theorem utf8Chunk_one (first : a.toNat < 128) : utf8Chunk a b c d = (1, true) :=
  if_pos (UInt8.lt_iff_toNat_lt.mpr first)

theorem within_iff {low high x : UInt8} : (low ≤ x && x ≤ high) = true ↔
    low.toNat ≤ x.toNat ∧ x.toNat ≤ high.toNat := by
  rw [Bool.and_eq_true, decide_eq_true_eq, decide_eq_true_eq, UInt8.le_iff_toNat_le,
    UInt8.le_iff_toNat_le]

theorem not_ascii (above : 128 ≤ a.toNat) : ¬ a < 0x80 := by
  rw [UInt8.lt_iff_toNat_lt]
  exact Nat.not_lt.mpr above

theorem not_within {low high x : UInt8} (above : high.toNat < x.toNat) :
    ¬ (low ≤ x && x ≤ high) = true := by
  rw [within_iff]
  exact fun inside => Nat.not_le.mpr above inside.2

theorem second_within {p q : Prop} [Decidable p] [Decidable q] {least most : UInt8}
    (second : 128 ≤ b.toNat ∧ b.toNat < 192) (low : p → least.toNat ≤ b.toNat)
    (high : q → b.toNat ≤ most.toNat) :
    ((if p then least else 0x80) ≤ b && b ≤ (if q then most else 0xBF)) = true := by
  rw [within_iff]
  constructor
  · split
    · exact low ‹_›
    · exact second.1
  · split
    · exact high ‹_›
    · exact Nat.le_of_lt_succ second.2

theorem utf8Chunk_two (first : 194 ≤ a.toNat ∧ a.toNat < 224) (second : isContinuation b = true) :
    utf8Chunk a b c d = (2, true) := by
  have ascii : ¬ a < 0x80 := not_ascii (Nat.le_trans (by decide) first.1)
  have two : (0xC2 ≤ a && a ≤ 0xDF) = true := within_iff.mpr ⟨first.1, Nat.le_of_lt_succ first.2⟩
  rw [utf8Chunk, if_neg ascii, if_pos two, if_pos second]

theorem utf8Chunk_three (first : 224 ≤ a.toNat ∧ a.toNat < 240)
    (second : 128 ≤ b.toNat ∧ b.toNat < 192) (low : a.toNat = 224 → 160 ≤ b.toNat)
    (high : a.toNat = 237 → b.toNat < 160) (third : isContinuation c = true) :
    utf8Chunk a b c d = (3, true) := by
  have ascii : ¬ a < 0x80 := not_ascii (Nat.le_trans (by decide) first.1)
  have two : ¬ (0xC2 ≤ a && a ≤ 0xDF) = true := not_within (Nat.lt_of_lt_of_le (by decide) first.1)
  have three : (0xE0 ≤ a && a ≤ 0xEF) = true := within_iff.mpr ⟨first.1, Nat.le_of_lt_succ first.2⟩
  have inside : ((if a = 0xE0 then 0xA0 else 0x80) ≤ b &&
      b ≤ (if a = 0xED then 0x9F else 0xBF)) = true :=
    second_within second (fun same => low (congrArg UInt8.toNat same)) fun same =>
      Nat.le_of_lt_succ (high (congrArg UInt8.toNat same))
  rw [utf8Chunk, if_neg ascii, if_neg two, if_pos three]
  dsimp only
  rw [inside, third]
  rfl

theorem utf8Chunk_four (first : 240 ≤ a.toNat ∧ a.toNat < 245)
    (second : 128 ≤ b.toNat ∧ b.toNat < 192) (low : a.toNat = 240 → 144 ≤ b.toNat)
    (high : a.toNat = 244 → b.toNat < 144) (third : isContinuation c = true)
    (fourth : isContinuation d = true) : utf8Chunk a b c d = (4, true) := by
  have ascii : ¬ a < 0x80 := not_ascii (Nat.le_trans (by decide) first.1)
  have two : ¬ (0xC2 ≤ a && a ≤ 0xDF) = true := not_within (Nat.lt_of_lt_of_le (by decide) first.1)
  have three : ¬ (0xE0 ≤ a && a ≤ 0xEF) = true :=
    not_within (Nat.lt_of_lt_of_le (by decide) first.1)
  have four : (0xF0 ≤ a && a ≤ 0xF4) = true := within_iff.mpr ⟨first.1, Nat.le_of_lt_succ first.2⟩
  have inside : ((if a = 0xF0 then 0x90 else 0x80) ≤ b &&
      b ≤ (if a = 0xF4 then 0x8F else 0xBF)) = true :=
    second_within second (fun same => low (congrArg UInt8.toNat same)) fun same =>
      Nat.le_of_lt_succ (high (congrArg UInt8.toNat same))
  rw [utf8Chunk, if_neg ascii, if_neg two, if_neg three, if_pos four]
  dsimp only
  rw [inside, third, fourth]
  rfl

end

theorem utf8Chunk_char (c : Char) (rest : Bytes) : ∃ b bs, String.utf8EncodeChar c = b :: bs ∧
    utf8Chunk b ((bs ++ rest).getD 0 0) ((bs ++ rest).getD 1 0) ((bs ++ rest).getD 2 0) =
      (bs.length + 1, true) := by
  have valid : c.val.toNat < 0xD800 ∨ (0xDFFF < c.val.toNat ∧ c.val.toNat < 0x110000) := c.valid
  unfold String.utf8EncodeChar
  generalize c.val.toNat = v at valid
  have byte {n : Nat} (small : n < 256) : (UInt8.ofNat n).toNat = n := by
    rw [UInt8.toNat_ofNat', Nat.mod_eq_of_lt small]
  have continues (n : Nat) : isContinuation (.ofNat (n % 64 + 128)) = true := by
    have value := @byte (n % 64 + 128) (by omega)
    exact isContinuation_of (by omega) (by omega)
  dsimp only
  split
  · have first := @byte v (by omega)
    exact ⟨_, _, rfl, utf8Chunk_one (by omega)⟩
  split
  · have first := @byte (v / 64 % 32 + 192) (by omega)
    exact ⟨_, _, rfl, utf8Chunk_two (by omega) (continues v)⟩
  split
  · have first := @byte (v / 4096 % 16 + 224) (by omega)
    have second := @byte (v / 64 % 64 + 128) (by omega)
    exact ⟨_, _, rfl, @utf8Chunk_three (.ofNat (v / 4096 % 16 + 224))
      (.ofNat (v / 64 % 64 + 128)) (.ofNat (v % 64 + 128)) _ (by omega) (by omega) (by omega)
      (by omega) (continues v)⟩
  · have first := @byte (v / 262144 % 8 + 240) (by omega)
    have second := @byte (v / 4096 % 64 + 128) (by omega)
    exact ⟨_, _, rfl, @utf8Chunk_four (.ofNat (v / 262144 % 8 + 240))
      (.ofNat (v / 4096 % 64 + 128)) (.ofNat (v / 64 % 64 + 128)) (.ofNat (v % 64 + 128))
      (by omega) (by omega) (by omega) (by omega) (continues (v / 64)) (continues v)⟩

theorem lossyBytes_chars (cs : List Char) (fuel : Nat)
    (enough : (cs.flatMap String.utf8EncodeChar).length ≤ fuel) :
    lossyBytes fuel (cs.flatMap String.utf8EncodeChar) = cs.flatMap String.utf8EncodeChar := by
  induction cs generalizing fuel with
  | nil => cases fuel <;> rfl
  | cons c cs ih =>
    obtain ⟨b, bs, bytes, chunk⟩ := utf8Chunk_char c (cs.flatMap String.utf8EncodeChar)
    rw [List.flatMap_cons, bytes, List.length_append, List.length_cons] at enough
    rw [List.flatMap_cons, bytes, List.cons_append]
    cases fuel with
    | zero => omega
    | succ fuel =>
      rw [lossyBytes, chunk]
      dsimp only
      rw [if_pos rfl, List.take_succ_cons, List.drop_succ_cons, List.take_left', List.drop_left',
        ih fuel (by omega)]
      all_goals rfl

theorem strBytes_eq (s : String) : strBytes s = s.toList.flatMap String.utf8EncodeChar := by
  have same := String.utf8Encode_toList (b := s)
  rw [strBytes, ← same]
  simp [List.utf8Encode]

theorem fromUtf8Lossy_strBytes (s : String) : fromUtf8Lossy (strBytes s) = s := by
  rw [fromUtf8Lossy, strBytes_eq, lossyBytes_chars _ _ (Nat.le_refl _), ← strBytes_eq,
    fromUtf8_strBytes]
  rfl

end RocketmqBroker
