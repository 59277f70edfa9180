import FitzDestroyer.Js.NumberText

/-!
# Arithmetic of numbers

Products and quotients round as sums do (`Number.add`).

* `Number.mul`, `Number.div`, `Number.max` : the operations;
* `Number.mathRound`, `Number.ceil` : `Math.round` and `Math.ceil`;
* `Number.Nonneg` : a number that is not negative, which sums and maxima keep.
-/

namespace FitzDestroyer

namespace Js

namespace Number

/-- `Number.isFinite`. -/
def isFinite : Number → Bool
  | .fin _ => true
  | _ => false

/-- The sign of a number, which is positive for zero as a divisor. -/
def sign : Number → ℤ
  | .nan => 0
  | .posInf => 1
  | .negInf => -1
  | .fin q => if q < 0 then -1 else if q = 0 then 0 else 1

/-- The infinite number of a sign. -/
def infinite (sign : ℤ) : Number :=
  if sign = 0 then .nan else if sign < 0 then .negInf else .posInf

/-- `left * right`. -/
def mul : Number → Number → Number
  | .nan, _ | _, .nan => .nan
  | .fin p, .fin q => round (p * q)
  | x, y => infinite (x.sign * y.sign)

/-- `left / right`. -/
def div : Number → Number → Number
  | .nan, _ | _, .nan => .nan
  | .fin p, .fin q => if q = 0 then infinite (fin p).sign else round (p / q)
  | .fin _, _ => .fin 0
  | x, .fin q => infinite (x.sign * if q < 0 then -1 else 1)
  | _, _ => .nan

/-- `Math.max(left, right)`. -/
def max : Number → Number → Number
  | .nan, _ | _, .nan => .nan
  | .posInf, _ | _, .posInf => .posInf
  | .negInf, y => y
  | x, .negInf => x
  | .fin p, .fin q => .fin (Max.max p q)

/-- `Math.round(value)`. -/
def mathRound : Number → Number
  | .fin q => .fin (q + 1 / 2).floor
  | x => x

/-- `Math.ceil(value)`. -/
def ceil : Number → Number
  | .fin q => .fin q.ceil
  | x => x

/-- The number is not negative. -/
def Nonneg : Number → Prop
  | .fin q => 0 ≤ q
  | .posInf => True
  | _ => False

theorem isNegative_of_nonneg {x : Number} (h : x.Nonneg) : x.isNegative = false := by
  cases x with
  | fin q => exact decide_eq_false (not_lt.mpr h)
  | posInf => rfl
  | _ => exact h.elim

theorem Nonneg.round {x : ℚ} (h : 0 ≤ x) : (round x).Nonneg := by
  have hmagnitude := roundMagnitude_nonneg (abs_nonneg x)
  unfold Number.round
  simp only [not_lt.mpr h, if_false]
  split_ifs with hzero hlarge
  · exact le_refl (0 : ℚ)
  · trivial
  · exact hmagnitude

theorem Nonneg.add {x y : Number} (hx : x.Nonneg) (hy : y.Nonneg) : (x.add y).Nonneg := by
  cases x with
  | fin p =>
    cases y with
    | fin q => exact Nonneg.round (add_nonneg hx hy)
    | posInf => trivial
    | _ => exact hy.elim
  | posInf =>
    cases y with
    | fin q => trivial
    | posInf => trivial
    | _ => exact hy.elim
  | _ => exact hx.elim

end Number

end Js

end FitzDestroyer
