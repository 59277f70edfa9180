import Mathlib.Data.Rat.Defs
import Mathlib.Data.Rat.Lemmas
import Mathlib.Tactic.NormNum

/-!
# Numbers of JavaScript

A `number` is an exact rational, an infinity or `NaN`; the sign of zero is not kept, since
neither `Set` nor the comparison operators see it.
-/

namespace FitzDestroyer

namespace Js

/-- A JavaScript number. -/
inductive Number where
  | nan
  | posInf
  | negInf
  | fin (q : ℚ)
  deriving DecidableEq

/-- `Number.MAX_SAFE_INTEGER`. -/
def maxSafeInteger : ℕ := 2 ^ 53 - 1

namespace Number

instance : Inhabited Number := ⟨.fin 0⟩

instance : Coe ℕ Number := ⟨fun n => .fin n⟩

/-- `Number.isSafeInteger`. -/
def isSafeInteger : Number → Bool
  | .fin q => q.den == 1 && decide (q.num.natAbs ≤ maxSafeInteger)
  | _ => false

/-- `value < 0`. -/
def isNegative : Number → Bool
  | .fin q => decide (q < 0)
  | .negInf => true
  | _ => false

/-- `left <= right` on finite numbers, as the comparator `left - right` sorts them. -/
def le : Number → Number → Bool
  | .fin p, .fin q => decide (p ≤ q)
  | _, _ => false

/-- A non-negative safe integer. -/
def IsSequence (x : Number) : Prop := x.isSafeInteger = true ∧ x.isNegative = false

instance (x : Number) : Decidable x.IsSequence := inferInstanceAs (Decidable (_ ∧ _))

/-- The natural number of a non-negative safe integer. -/
def sequence? : Number → Option ℕ
  | .fin q => if (fin q).IsSequence then some q.num.toNat else none
  | _ => none

theorem isSequence_iff {x : Number} : x.IsSequence ↔ ∃ n : ℕ, n ≤ maxSafeInteger ∧ x = n := by
  constructor
  · intro h
    cases x with
    | fin q =>
      obtain ⟨hs, hn⟩ := h
      simp only [isSafeInteger, Bool.and_eq_true, beq_iff_eq, decide_eq_true_eq] at hs
      simp only [isNegative, decide_eq_false_iff_not, not_lt] at hn
      refine ⟨q.num.natAbs, hs.2, ?_⟩
      have hnum : (q.num.natAbs : ℤ) = q.num := Int.natAbs_of_nonneg (Rat.num_nonneg.2 hn)
      rw [fin.injEq, ← Int.cast_natCast, hnum]
      exact (Rat.den_eq_one_iff q).1 hs.1 |>.symm
    | nan => exact absurd h.1 (by simp [isSafeInteger])
    | posInf => exact absurd h.1 (by simp [isSafeInteger])
    | negInf => exact absurd h.1 (by simp [isSafeInteger])
  · rintro ⟨n, hn, rfl⟩
    exact ⟨by simp [isSafeInteger, hn], by simp [isNegative]⟩

theorem isSequence_natCast {n : ℕ} : ((n : Number)).IsSequence ↔ n ≤ maxSafeInteger := by
  rw [isSequence_iff]
  constructor
  · rintro ⟨m, hm, h⟩
    obtain rfl : n = m := by simpa using h
    exact hm
  · exact fun h => ⟨n, h, rfl⟩

theorem sequence?_natCast {n : ℕ} (h : n ≤ maxSafeInteger) : (n : Number).sequence? = some n := by
  rw [sequence?, if_pos (isSequence_natCast.mpr h)]
  simp

theorem sequence?_natCast_eq_some {n m : ℕ} :
    (n : Number).sequence? = some m ↔ n ≤ maxSafeInteger ∧ m = n := by
  constructor
  · intro h
    by_cases hn : n ≤ maxSafeInteger
    · rw [sequence?_natCast hn] at h
      exact ⟨hn, (Option.some.inj h).symm⟩
    · rw [sequence?, if_neg (fun hs => hn (isSequence_natCast.mp hs))] at h
      cases h
  · rintro ⟨hn, rfl⟩
    exact sequence?_natCast hn

theorem isSequence_of_sequence? {x : Number} {s : ℕ} (h : x.sequence? = some s) :
    x.IsSequence ∧ s ≤ maxSafeInteger := by
  cases x with
  | fin q =>
    rw [sequence?] at h
    split_ifs at h with hsequence
    obtain ⟨n, hn, heq⟩ := isSequence_iff.mp hsequence
    obtain rfl := fin.inj heq
    refine ⟨hsequence, ?_⟩
    obtain rfl := Option.some.inj h
    simpa using hn
  | _ => cases h

theorem sequence?_of_isSequence {x : Number} (h : x.IsSequence) :
    ∃ s ≤ maxSafeInteger, x.sequence? = some s := by
  obtain ⟨n, hn, rfl⟩ := isSequence_iff.mp h
  exact ⟨n, hn, sequence?_natCast hn⟩

theorem eq_of_sequence? {x : Number} {n : ℕ} (h : x.sequence? = some n) : x = n := by
  obtain ⟨m, hm, rfl⟩ := isSequence_iff.mp (isSequence_of_sequence? h).1
  rw [sequence?_natCast hm] at h
  rw [Option.some.inj h]

theorem natCast_injective : Function.Injective (fun n : ℕ => (n : Number)) := fun a b h => by
  simpa using h

end Number

end Js

end FitzDestroyer
