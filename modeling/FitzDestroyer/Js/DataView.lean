import Mathlib.Algebra.Group.Nat.Defs
import Mathlib.Data.Nat.Notation
import Mathlib.Tactic.Common

/-!
# Integers of a fixed width

`DataView` writes and reads integers of a fixed width, with the most significant byte first.

* `bigEndian` : the bytes of an integer, which wraps if it does not fit;
* `ofBigEndian` : the integer of some bytes;
* `ofBigEndian_bigEndian`, `bigEndian_ofBigEndian` : they invert each other.
-/

namespace FitzDestroyer

namespace Js

/-- The bytes that `setUint` writes. -/
def bigEndian : ℕ → ℕ → List UInt8
  | 0, _ => []
  | width + 1, n => UInt8.ofNat (n / 256 ^ width) :: bigEndian width n

/-- The integer that `getUint` reads. -/
def ofBigEndian : List UInt8 → ℕ
  | [] => 0
  | byte :: bytes => byte.toNat * 256 ^ bytes.length + ofBigEndian bytes

@[simp] theorem length_bigEndian (width n : ℕ) : (bigEndian width n).length = width := by
  induction width with
  | zero => rfl
  | succ width ih => rw [bigEndian, List.length_cons, ih]

theorem ofBigEndian_lt (bytes : List UInt8) : ofBigEndian bytes < 256 ^ bytes.length := by
  induction bytes with
  | nil => exact Nat.one_pos
  | cons byte bytes ih =>
    have hbyte := Nat.mul_le_mul_right (256 ^ bytes.length) (Nat.le_of_lt_succ byte.toNat_lt)
    rw [ofBigEndian, List.length_cons, Nat.pow_succ]
    omega

/-- The bytes above the width are lost. -/
theorem bigEndian_mod (width n : ℕ) : bigEndian width (n % 256 ^ width) = bigEndian width n := by
  induction width generalizing n with
  | zero => rfl
  | succ width ih =>
    have hfirst : UInt8.ofNat (n % 256 ^ (width + 1) / 256 ^ width) =
        UInt8.ofNat (n / 256 ^ width) := by
      apply UInt8.toNat_inj.mp
      rw [Nat.pow_succ, Nat.mod_mul_right_div_self]
      simp
    have hrest : bigEndian width (n % 256 ^ (width + 1)) = bigEndian width n := by
      rw [← ih (n % 256 ^ (width + 1)), ← ih n, Nat.pow_succ, Nat.mod_mul_right_mod]
    rw [bigEndian, bigEndian, hfirst, hrest]

/-- **An integer that fits** is read back from its bytes. -/
theorem ofBigEndian_bigEndian {width n : ℕ} (h : n < 256 ^ width) :
    ofBigEndian (bigEndian width n) = n := by
  induction width generalizing n with
  | zero =>
    rw [Nat.pow_zero] at h
    simp only [bigEndian, ofBigEndian]
    omega
  | succ width ih =>
    have hquotient : n / 256 ^ width < 256 := by
      rw [Nat.pow_succ] at h
      exact Nat.div_lt_of_lt_mul h
    have hremainder := ih (Nat.mod_lt n (Nat.pow_pos (a := 256) (n := width) (by decide)))
    rw [bigEndian_mod] at hremainder
    rw [bigEndian, ofBigEndian, length_bigEndian, hremainder, UInt8.toNat_ofNat_of_lt' hquotient]
    exact Nat.div_add_mod' n _

/-- **Bytes are determined** by the integer that is read from them. -/
theorem bigEndian_ofBigEndian (bytes : List UInt8) :
    bigEndian bytes.length (ofBigEndian bytes) = bytes := by
  induction bytes with
  | nil => rfl
  | cons byte bytes ih =>
    have hpos : 0 < 256 ^ bytes.length := Nat.pow_pos (by decide)
    have hfirst : ofBigEndian (byte :: bytes) / 256 ^ bytes.length = byte.toNat := by
      rw [ofBigEndian, Nat.mul_comm, Nat.mul_add_div hpos,
        Nat.div_eq_of_lt (ofBigEndian_lt bytes), Nat.add_zero]
    have hrest : ofBigEndian (byte :: bytes) % 256 ^ bytes.length = ofBigEndian bytes := by
      rw [ofBigEndian, Nat.mul_comm, Nat.mul_add_mod, Nat.mod_eq_of_lt (ofBigEndian_lt bytes)]
    rw [List.length_cons, bigEndian, hfirst, UInt8.ofNat_toNat, ← bigEndian_mod, hrest, ih]

end Js

end FitzDestroyer
