import Mathlib.Algebra.Group.Nat.Defs

/-!
# Operators on thirty-two bits

The shifts, `|` and `&` of the language: the operands are taken modulo 2^32, and the result is a
signed number, that of `>>>` an unsigned one.

`int32` is what is left of a whole number that digits were shifted into, any number of them: its
lowest thirty-two bits, as a signed number (`int32_shift`).  Digits that lie in those bits are read
off it as they are in the whole number (`int32_digit`).
-/

set_option autoImplicit false

namespace Odudu.Numbers

def toInt32 (x : ℤ) : BitVec 32 := BitVec.ofInt 32 x

/-- `x << n` -/
def shiftLeft (x : ℤ) (n : ℕ) : ℤ := (toInt32 x <<< (n % 32)).toInt

/-- `x >>> n` -/
def shiftRightUnsigned (x : ℤ) (n : ℕ) : ℤ := (toInt32 x >>> (n % 32)).toNat

/-- `x | y` -/
def bitOr (x y : ℤ) : ℤ := (toInt32 x ||| toInt32 y).toInt

/-- `x & y` -/
def bitAnd (x y : ℤ) : ℤ := (toInt32 x &&& toInt32 y).toInt

/-- The lowest bits of a whole number, as a signed number. -/
def int32 (number : ℕ) : ℤ := (BitVec.ofNat 32 number).toInt

@[simp]
theorem toInt32_toInt (x : BitVec 32) : toInt32 x.toInt = x := BitVec.ofInt_toInt

@[simp]
theorem toInt32_natCast (n : ℕ) : toInt32 n = BitVec.ofNat 32 n := BitVec.ofInt_natCast 32 n

@[simp]
theorem toInt32_int32 (number : ℕ) : toInt32 (int32 number) = BitVec.ofNat 32 number :=
  toInt32_toInt _

theorem shiftLeft_int32 (number : ℕ) {n : ℕ} (hn : n < 32) :
    shiftLeft (int32 number) n = int32 (number * 2 ^ n) := by
  rw [shiftLeft, toInt32_int32, Nat.mod_eq_of_lt hn, int32]
  congr 1
  apply BitVec.eq_of_toNat_eq
  rw [BitVec.toNat_shiftLeft, BitVec.toNat_ofNat, BitVec.toNat_ofNat, Nat.shiftLeft_eq,
    Nat.mod_mul_mod]

theorem int32_shift (number : ℕ) {n digit : ℕ} (hn : n < 32) (hdigit : digit < 2 ^ n) :
    bitOr (shiftLeft (int32 number) n) digit = int32 (number * 2 ^ n + digit) := by
  rw [shiftLeft_int32 number hn, bitOr, toInt32_int32, toInt32_natCast, ← BitVec.ofNat_or,
    ← Nat.shiftLeft_eq, ← Nat.shiftLeft_add_eq_or_of_lt hdigit]
  rfl

/-- The lowest bits that are kept of a number are a digit. -/
theorem bitAnd_mask (x : ℤ) {v : ℕ} (hv : v < 32) :
    bitAnd x ((2 ^ v - 1 : ℕ) : ℤ) = ((toInt32 x).toNat % 2 ^ v : ℕ) := by
  have hmask : 2 ^ v - 1 < 2 ^ 32 :=
    Nat.lt_trans (Nat.sub_lt (Nat.two_pow_pos v) Nat.one_pos)
      (Nat.pow_lt_pow_right Nat.one_lt_two hv)
  have hand : (toInt32 x &&& BitVec.ofNat 32 (2 ^ v - 1)).toNat = (toInt32 x).toNat % 2 ^ v := by
    rw [BitVec.toNat_and, BitVec.toNat_ofNat, Nat.mod_eq_of_lt hmask,
      Nat.and_two_pow_sub_one_eq_mod]
  have hsmall : (toInt32 x).toNat % 2 ^ v < 2 ^ 31 :=
    Nat.lt_of_lt_of_le (Nat.mod_lt _ (Nat.two_pow_pos v))
      (Nat.pow_le_pow_right Nat.two_pos (Nat.le_of_lt_succ hv))
  rw [bitAnd, toInt32_natCast, BitVec.toInt_eq_toNat_of_lt, hand]
  rw [hand]
  omega

theorem int32_digit (number : ℕ) {n v : ℕ} (hn : n < 32) (hv : v < 32) (hfits : n + v ≤ 32) :
    bitAnd (shiftRightUnsigned (int32 number) n) ((2 ^ v - 1 : ℕ) : ℤ) =
      (number / 2 ^ n % 2 ^ v : ℕ) := by
  have hshifted : number % 2 ^ 32 / 2 ^ n < 2 ^ 32 :=
    Nat.lt_of_le_of_lt (Nat.div_le_self _ _) (Nat.mod_lt _ (Nat.two_pow_pos 32))
  have hpow : 2 ^ 32 = 2 ^ n * 2 ^ (32 - n) := by
    rw [← Nat.pow_add, Nat.add_sub_cancel' (Nat.le_of_lt hn)]
  have hdvd : 2 ^ v ∣ 2 ^ (32 - n) := Nat.pow_dvd_pow 2 (Nat.le_sub_of_add_le' hfits)
  rw [bitAnd_mask _ hv, shiftRightUnsigned, toInt32_int32, Nat.mod_eq_of_lt hn, toInt32_natCast,
    BitVec.toNat_ofNat, BitVec.toNat_ushiftRight, BitVec.toNat_ofNat, Nat.shiftRight_eq_div_pow,
    Nat.mod_eq_of_lt hshifted, hpow, Nat.mod_mul_right_div_self, Nat.mod_mod_of_dvd _ hdvd]

theorem int32_filled (number : ℕ) {n v : ℕ} (hn : n < 32) (hv : v < 32) :
    bitAnd (shiftLeft (int32 number) n) ((2 ^ v - 1 : ℕ) : ℤ) =
      (number * 2 ^ n % 2 ^ v : ℕ) := by
  have hdvd : 2 ^ v ∣ 2 ^ 32 := Nat.pow_dvd_pow 2 (Nat.le_of_lt hv)
  rw [bitAnd_mask _ hv, shiftLeft_int32 number hn, toInt32_int32, BitVec.toNat_ofNat,
    Nat.mod_mod_of_dvd _ hdvd]

end Odudu.Numbers
