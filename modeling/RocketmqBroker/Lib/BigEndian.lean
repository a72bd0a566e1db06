import Mathlib.Algebra.Group.Nat.Defs
import Mathlib.Data.List.Basic

/-!
Fixed-width big-endian words over byte lists. A value wider than its field is
written modulo 256 ^ width, as a narrowing cast followed by a byte dump does.
-/
namespace BigEndian

def toBeBytes : Nat → Nat → List UInt8
  | 0, _ => []
  | width + 1, n => UInt8.ofNat (n / 256 ^ width) :: toBeBytes width n

def fromBeBytes : List UInt8 → Nat
  | [] => 0
  | b :: bs => b.toNat * 256 ^ bs.length + fromBeBytes bs

@[simp] theorem toBeBytes_length (width n : Nat) : (toBeBytes width n).length = width := by
  induction width with
  | zero => rfl
  | succ width ih => simp [toBeBytes, ih]

theorem fromBeBytes_lt (bs : List UInt8) : fromBeBytes bs < 256 ^ bs.length := by
  induction bs with
  | nil => simp [fromBeBytes]
  | cons b bs ih =>
    have room : (b.toNat + 1) * 256 ^ bs.length ≤ 256 * 256 ^ bs.length :=
      Nat.mul_le_mul_right _ b.toNat_lt
    rw [fromBeBytes, List.length_cons, Nat.pow_succ, Nat.mul_comm _ 256]
    rw [Nat.succ_mul] at room
    omega

/-- Reading back gives the value reduced to the field, whatever was written. -/
theorem fromBeBytes_toBeBytes_mod (width n : Nat) :
    fromBeBytes (toBeBytes width n) = n % 256 ^ width := by
  induction width with
  | zero => simp [toBeBytes, fromBeBytes, Nat.mod_one]
  | succ width ih =>
    have byte : (UInt8.ofNat (n / 256 ^ width)).toNat = n / 256 ^ width % 256 := rfl
    rw [toBeBytes, fromBeBytes, toBeBytes_length, ih, byte, Nat.pow_succ, Nat.mod_mul,
      Nat.mul_comm, Nat.add_comm]

theorem fromBeBytes_toBeBytes {width n : Nat} (fits : n < 256 ^ width) :
    fromBeBytes (toBeBytes width n) = n := by
  rw [fromBeBytes_toBeBytes_mod, Nat.mod_eq_of_lt fits]

theorem toBeBytes_add_high (width high n : Nat) :
    toBeBytes width (high * 256 ^ width + n) = toBeBytes width n := by
  induction width generalizing high with
  | zero => rfl
  | succ width ih =>
    have shift : high * 256 ^ (width + 1) + n = (high * 256) * 256 ^ width + n := by
      rw [Nat.pow_succ, Nat.mul_comm (256 ^ width), Nat.mul_assoc]
    have digit : ((high * 256) * 256 ^ width + n) / 256 ^ width = 256 * high + n / 256 ^ width := by
      rw [Nat.mul_comm (high * 256), Nat.mul_add_div (Nat.pow_pos (by decide)), Nat.mul_comm]
    rw [shift, toBeBytes, ih, toBeBytes, digit]
    congr 1
    apply UInt8.toNat_inj.mp
    change (256 * high + n / 256 ^ width) % 256 = n / 256 ^ width % 256
    rw [Nat.mul_add_mod]

theorem toBeBytes_fromBeBytes (bs : List UInt8) : toBeBytes bs.length (fromBeBytes bs) = bs := by
  induction bs with
  | nil => rfl
  | cons b bs ih =>
    have top : (b.toNat * 256 ^ bs.length + fromBeBytes bs) / 256 ^ bs.length = b.toNat := by
      rw [Nat.mul_comm, Nat.mul_add_div (Nat.pow_pos (by decide)),
        Nat.div_eq_of_lt (fromBeBytes_lt bs), Nat.add_zero]
    rw [List.length_cons, toBeBytes, fromBeBytes, top, toBeBytes_add_high, ih]
    congr 1
    exact UInt8.ofNat_toNat

end BigEndian
