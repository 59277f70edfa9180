import Mathlib.Data.BitVec
import Mathlib.Logic.Function.Iterate

/-!
# Bitwise operators

The bitwise operators turn their operands into words of 32 bits.  `^` and `<<` return the word as a
signed integer, `>>>` as an unsigned one.

* `word` : `ToInt32` and `ToUint32`, as bits;
* `xor`, `and`, `shiftLeft`, `shiftRight`, `imul` : the operators, and their words;
* `xor_linear_injective` : words are not confused when a shift of them is added.
-/

namespace FitzDestroyer

namespace Js

namespace Bitwise

/-- The word of an integer: it wraps. -/
def word (n : ℤ) : BitVec 32 := BitVec.ofInt 32 n

/-- `a ^ b` -/
def xor (a b : ℤ) : ℤ := (word a ^^^ word b).toInt

/-- `a & b` -/
def and (a b : ℤ) : ℤ := (word a &&& word b).toInt

/-- `Math.imul(a, b)` -/
def imul (a b : ℤ) : ℤ := (word a * word b).toInt

/-- `a << count` -/
def shiftLeft (a : ℤ) (count : ℕ) : ℤ := (word a <<< (count % 32)).toInt

/-- `a >>> count` -/
def shiftRight (a : ℤ) (count : ℕ) : ℤ := ((word a >>> (count % 32)).toNat : ℤ)

@[simp] theorem word_toInt (x : BitVec 32) : word x.toInt = x := BitVec.ofInt_toInt

@[simp] theorem word_toNat (x : BitVec 32) : word (x.toNat : ℤ) = x := by
  rw [word, BitVec.ofInt_natCast, BitVec.ofNat_toNat, BitVec.setWidth_eq]

@[simp] theorem word_xor (a b : ℤ) : word (xor a b) = word a ^^^ word b := word_toInt _

@[simp] theorem word_and (a b : ℤ) : word (and a b) = word a &&& word b := word_toInt _

@[simp] theorem word_imul (a b : ℤ) : word (imul a b) = word a * word b := word_toInt _

@[simp] theorem word_shiftLeft (a : ℤ) (count : ℕ) :
    word (shiftLeft a count) = word a <<< (count % 32) := word_toInt _

@[simp] theorem word_shiftRight (a : ℤ) (count : ℕ) :
    word (shiftRight a count) = word a >>> (count % 32) := word_toNat _

/-- A natural number that fits is zero as a word only if it is zero. -/
theorem word_natCast_eq_zero {n : ℕ} (h : n < 2 ^ 32) : word n = 0 ↔ n = 0 := by
  rw [word, BitVec.ofInt_natCast, ← BitVec.toNat_inj, BitVec.toNat_ofNat, Nat.mod_eq_of_lt h]
  rfl

section Linear

variable {w : ℕ}

/-- A linear map that loses all bits when it is repeated is not undone by adding the word: the
difference of two words with the same sum is fixed by it. -/
theorem xor_linear_injective {f : BitVec w → BitVec w} {n : ℕ}
    (hxor : ∀ x y, f (x ^^^ y) = f x ^^^ f y) (hzero : ∀ x, f^[n] x = 0#w) :
    Function.Injective fun x => x ^^^ f x := by
  intro x y h
  have hsum : (x ^^^ y) ^^^ f (x ^^^ y) = 0#w := by
    calc (x ^^^ y) ^^^ f (x ^^^ y) = (x ^^^ f x) ^^^ (y ^^^ f y) := by rw [hxor]; ac_rfl
      _ = 0#w := BitVec.xor_eq_zero_iff.mpr h
  have hfixed : f (x ^^^ y) = x ^^^ y := (BitVec.xor_eq_zero_iff.mp hsum).symm
  rw [← BitVec.xor_eq_zero_iff, ← hzero (x ^^^ y)]
  exact (Function.iterate_fixed hfixed n).symm

theorem iterate_shiftLeft (count n : ℕ) (x : BitVec w) :
    (fun y : BitVec w => y <<< count)^[n] x = x <<< (n * count) := by
  induction n with
  | zero => simp
  | succ n ih => rw [Function.iterate_succ_apply', ih, Nat.succ_mul, BitVec.shiftLeft_add]

theorem iterate_shiftRight (count n : ℕ) (x : BitVec w) :
    (fun y : BitVec w => y >>> count)^[n] x = x >>> (n * count) := by
  induction n with
  | zero => simp
  | succ n ih => rw [Function.iterate_succ_apply', ih, Nat.succ_mul, BitVec.shiftRight_add]

theorem xor_shiftLeft_injective {count : ℕ} (h : 0 < count) :
    Function.Injective fun x : BitVec w => x ^^^ x <<< count := by
  refine xor_linear_injective (n := w) (fun x y => BitVec.shiftLeft_xor_distrib x y count) ?_
  intro x
  rw [iterate_shiftLeft]
  exact BitVec.shiftLeft_eq_zero (Nat.le_mul_of_pos_right w h)

theorem xor_shiftRight_injective {count : ℕ} (h : 0 < count) :
    Function.Injective fun x : BitVec w => x ^^^ x >>> count := by
  refine xor_linear_injective (n := w) (fun x y => BitVec.ushiftRight_xor_distrib x y count) ?_
  intro x
  rw [iterate_shiftRight]
  exact BitVec.ushiftRight_eq_zero (Nat.le_mul_of_pos_right w h)

end Linear

end Bitwise

end Js

end FitzDestroyer
