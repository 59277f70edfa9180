import FitzDestroyer.Js.Rounding
import Mathlib.Data.Nat.Cast.Order.Field
import Mathlib.Tactic.Ring

/-!
# Quotients of whole numbers

A quotient is rounded before `Math.floor` cuts it off, and could be rounded up to the next whole
number.  It is not, for safe integers.

* `Number.sub`, `Number.floor`, `Number.min`, `remainder` : `left - right`, `Math.floor`, `Math.min`
  and `left % right`;
* `roundMagnitude_le_add`, `le_roundMagnitude_add` : how far a number is rounded;
* `Number.floor_div`, `Number.ceil_div` : the whole quotients of safe integers.
-/

namespace FitzDestroyer

namespace Js

namespace Number

/-- `-value`. -/
def neg : Number → Number
  | .nan => .nan
  | .posInf => .negInf
  | .negInf => .posInf
  | .fin q => .fin (-q)

/-- `left - right`. -/
def sub (left right : Number) : Number := left.add right.neg

/-- `Math.floor(value)`. -/
def floor : Number → Number
  | .fin q => .fin q.floor
  | x => x

/-- `Math.min(left, right)`. -/
def min : Number → Number → Number
  | .nan, _ | _, .nan => .nan
  | .negInf, _ | _, .negInf => .negInf
  | .posInf, y => y
  | x, .posInf => x
  | .fin p, .fin q => .fin (Min.min p q)

/-- `left !== right`. -/
def differs (left right : Number) : Bool := left = .nan ∨ right = .nan ∨ left ≠ right

/-- `Array.from({ length })`: the length of the array, unless it is too long. -/
def arrayLength? : Number → Option ℕ
  | .fin q => if q.floor.toNat < 2 ^ 32 then some q.floor.toNat else none
  | .posInf => none
  | _ => some 0

end Number

/-- `left % right`. -/
def remainder : Number → ℕ → Number
  | .fin q, n => .fin (q - (if q < 0 then (q / n).ceil else (q / n).floor) * n)
  | _, _ => .nan

/-! ### Rounding up and down -/

theorem nearestEven_le_add (x : ℚ) : (nearestEven x : ℚ) ≤ x + 1 / 2 := by
  have hfloor := Rat.floor_le x
  unfold nearestEven
  split_ifs <;> push_cast <;> linarith

/-- A number is rounded up by at most half of its last bit. -/
theorem roundMagnitude_le_add (x : ℚ) : roundMagnitude x ≤ x + 2 ^ lastExponent x / 2 := by
  have hpow : (0 : ℚ) < 2 ^ lastExponent x := zpow_pos two_pos _
  calc roundMagnitude x ≤ (x / 2 ^ lastExponent x + 1 / 2) * 2 ^ lastExponent x :=
        mul_le_mul_of_nonneg_right (nearestEven_le_add _) hpow.le
    _ = x + 2 ^ lastExponent x / 2 := by
      rw [add_mul, div_mul_cancel₀ _ hpow.ne']
      ring

theorem le_nearestEven_add (x : ℚ) : x ≤ nearestEven x + 1 / 2 := by
  have hceil : x < x.floor + 1 := by exact_mod_cast Rat.lt_floor_add_one x
  unfold nearestEven
  split_ifs <;> push_cast <;> linarith

/-- A number is rounded down by at most half of its last bit. -/
theorem le_roundMagnitude_add (x : ℚ) : x ≤ roundMagnitude x + 2 ^ lastExponent x / 2 := by
  have hpow : (0 : ℚ) < 2 ^ lastExponent x := zpow_pos two_pos _
  calc x = x / 2 ^ lastExponent x * 2 ^ lastExponent x := (div_mul_cancel₀ _ hpow.ne').symm
    _ ≤ (nearestEven (x / 2 ^ lastExponent x) + 1 / 2) * 2 ^ lastExponent x :=
        mul_le_mul_of_nonneg_right (le_nearestEven_add _) hpow.le
    _ = roundMagnitude x + 2 ^ lastExponent x / 2 := by
      rw [roundMagnitude]
      ring

/-- Half of the last bit of a quotient is less than the distance of two quotients. -/
theorem half_lastExponent_lt {n w : ℕ} (hpos : 0 < n) (hn : n ≤ maxSafeInteger) (hw : 0 < w)
    (hsafe : w ≤ maxSafeInteger) : (2 : ℚ) ^ lastExponent (n / w) / 2 < 1 / w := by
  have hw₀ : (0 : ℚ) < w := by exact_mod_cast hw
  have hx : (0 : ℚ) < n / w := div_pos (by exact_mod_cast hpos) hw₀
  have hn' : (n : ℚ) < 2 ^ 53 := by exact_mod_cast Nat.lt_of_le_pred (by decide) hn
  have hw' : (w : ℚ) < 2 ^ 53 := by exact_mod_cast Nat.lt_of_le_pred (by decide) hsafe
  have hlead := (le_div_iff₀ hw₀).mp (leadingExponent_spec hx).1
  rw [div_lt_div_iff₀ two_pos hw₀, one_mul]
  rcases max_choice (leadingExponent (n / w : ℚ) - 52) (-1074) with hmax | hmax
  · rw [lastExponent, hmax, zpow_sub₀ two_ne_zero, div_mul_eq_mul_div,
      div_lt_iff₀ (zpow_pos two_pos _)]
    linarith
  · rw [lastExponent, hmax]
    calc (2 : ℚ) ^ (-1074 : ℤ) * w ≤ 2 ^ (-53 : ℤ) * w :=
          mul_le_mul_of_nonneg_right (zpow_le_zpow_right₀ one_le_two (by decide)) hw₀.le
      _ < 2 ^ (-53 : ℤ) * 2 ^ 53 := mul_lt_mul_of_pos_left hw' (zpow_pos two_pos _)
      _ ≤ 2 := by norm_num

/-- **A quotient is not rounded up** to the next whole number. -/
theorem roundMagnitude_div_lt {n w : ℕ} (hpos : 0 < n) (hn : n ≤ maxSafeInteger) (hw : 0 < w)
    (hsafe : w ≤ maxSafeInteger) : roundMagnitude (n / w) < (n / w : ℕ) + 1 := by
  have hw₀ : (0 : ℚ) < w := by exact_mod_cast hw
  -- The next whole number is at least `1 / w` away.
  have hgap : (n / w : ℚ) + 1 / w ≤ (n / w : ℕ) + 1 := by
    have hnext : n + 1 ≤ (n / w + 1) * w := by
      have := Nat.lt_div_mul_add (a := n) hw
      rw [Nat.add_mul]
      omega
    rw [← add_div, div_le_iff₀ hw₀]
    exact_mod_cast hnext
  have hbit := half_lastExponent_lt hpos hn hw hsafe
  linarith [roundMagnitude_le_add (n / w : ℚ)]

/-- **A quotient is not rounded down** to the whole number before it. -/
theorem lt_roundMagnitude_div {n w k : ℕ} (hn : n ≤ maxSafeInteger) (hw : 0 < w)
    (hsafe : w ≤ maxSafeInteger) (hk : k * w < n) : (k : ℚ) < roundMagnitude (n / w) := by
  have hw₀ : (0 : ℚ) < w := by exact_mod_cast hw
  have hgap : (k : ℚ) + 1 / w ≤ n / w := by
    calc (k : ℚ) + 1 / w = ((k * w + 1 : ℕ) : ℚ) / w := by
          rw [Nat.cast_add, Nat.cast_mul, add_div, mul_div_cancel_right₀ _ hw₀.ne', Nat.cast_one]
      _ ≤ n / w := div_le_div_of_nonneg_right (by exact_mod_cast hk) hw₀.le
  have hbit := half_lastExponent_lt (Nat.zero_lt_of_lt hk) hn hw hsafe
  linarith [le_roundMagnitude_add (n / w : ℚ)]

namespace Number

theorem floor_eq {q : ℚ} {k : ℤ} (hlow : k ≤ q) (hhigh : q < k + 1) : q.floor = k := by
  have hle : k ≤ q.floor := Rat.le_floor_iff.mpr hlow
  have hlt : (q.floor : ℚ) < ((k + 1 : ℤ) : ℚ) := by
    push_cast
    exact (Rat.floor_le q).trans_lt hhigh
  have := Int.cast_lt.mp hlt
  omega

/-- The difference of whole numbers. -/
theorem sub_intCast {s t : ℤ} (h : s ≤ t) (hsafe : t - s ≤ maxSafeInteger) :
    (fin t).sub (fin s) = ((t - s).toNat : Number) := by
  obtain ⟨n, hn⟩ := Int.eq_ofNat_of_zero_le (sub_nonneg.mpr h)
  have hsafe' : n ≤ maxSafeInteger := by omega
  have hcast : (t : ℚ) + -(s : ℚ) = n := by
    rw [← sub_eq_add_neg]
    exact_mod_cast hn
  rw [hn, Int.toNat_natCast, ← round_natCast hsafe']
  show round ((t : ℚ) + -(s : ℚ)) = _
  rw [hcast]

/-- A quotient of safe integers is finite. -/
theorem div_natCast {n w : ℕ} (hpos : 0 < n) (hn : n ≤ maxSafeInteger) (hw : 0 < w)
    (hsafe : w ≤ maxSafeInteger) :
    (n : Number).div (w : Number) = .fin (roundMagnitude (n / w)) := by
  have hw₀ : ¬(w : ℚ) = 0 := by exact_mod_cast hw.ne'
  have hx : (0 : ℚ) < n / w := by positivity
  have hsmall : roundMagnitude (n / w) < 2 ^ 1024 := by
    have hnext : ((n / w : ℕ) : ℚ) + 1 ≤ 2 ^ 53 := by
      exact_mod_cast (Nat.succ_le_succ ((Nat.div_le_self n w).trans hn)).trans (by decide)
    exact ((roundMagnitude_div_lt hpos hn hw hsafe).trans_le hnext).trans_le
      (pow_le_pow_right₀ one_le_two (by decide))
  simp only [div, hw₀, round, abs_of_pos hx, hx.ne', not_lt.mpr hx.le, not_le.mpr hsmall, if_false]

/-- **The whole quotient** of safe integers. -/
theorem floor_div {n w : ℕ} (hn : n ≤ maxSafeInteger) (hw : 0 < w) (hsafe : w ≤ maxSafeInteger) :
    ((n : Number).div (w : Number)).floor = ((n / w : ℕ) : Number) := by
  have hw₀ : ¬(w : ℚ) = 0 := by exact_mod_cast hw.ne'
  rcases Nat.eq_zero_or_pos n with rfl | hpos
  · have hzero : (0 : ℚ).floor = 0 := floor_eq (by norm_num) (by norm_num)
    simp [div, hw₀, round, floor, hzero]
  · have hx : (0 : ℚ) < n / w := by positivity
    have hlt := roundMagnitude_div_lt hpos hn hw hsafe
    have hle : ((n / w : ℕ) : ℚ) ≤ roundMagnitude (n / w) := by
      rcases Nat.eq_zero_or_pos (n / w) with hzero | hquotient
      · rw [hzero]
        exact roundMagnitude_nonneg hx.le
      · have hmono := roundMagnitude_mono (x := ((n / w : ℕ) : ℚ)) (by exact_mod_cast hquotient)
          (Nat.cast_div_le (m := n) (n := w))
        rwa [roundMagnitude_natCast ((Nat.div_le_self n w).trans hn)] at hmono
    rw [div_natCast hpos hn hw hsafe]
    exact congrArg fin (by
      rw [floor_eq (k := (n / w : ℕ)) (by exact_mod_cast hle) (by exact_mod_cast hlt)]
      rfl)

theorem ceil_eq {q : ℚ} {k : ℤ} (hlow : (k : ℚ) < q) (hhigh : q ≤ k + 1) : q.ceil = k + 1 := by
  have hle : q.ceil ≤ k + 1 := Rat.ceil_le_iff.mpr (by push_cast; exact hhigh)
  have hlt : k < q.ceil := Rat.lt_ceil_iff.mpr hlow
  omega

/-- **The whole quotient** above a quotient of safe integers. -/
theorem ceil_div {n w k : ℕ} (hn : n ≤ maxSafeInteger) (hw : 0 < w) (hsafe : w ≤ maxSafeInteger)
    (hlow : k * w < n) (hhigh : n ≤ (k + 1) * w) :
    ((n : Number).div (w : Number)).ceil = ((k + 1 : ℕ) : Number) := by
  have hpos : 0 < n := Nat.zero_lt_of_lt hlow
  have hw₀ : (0 : ℚ) < w := by exact_mod_cast hw
  have hle : roundMagnitude (n / w) ≤ (k : ℤ) + 1 := by
    have hk : k + 1 ≤ maxSafeInteger :=
      (Nat.succ_le_of_lt (lt_of_le_of_lt (Nat.le_mul_of_pos_right k hw) hlow)).trans hn
    have hmono := roundMagnitude_mono (x := (n / w : ℚ)) (y := ((k + 1 : ℕ) : ℚ)) (by positivity)
      ((div_le_iff₀ hw₀).mpr (by exact_mod_cast hhigh))
    rw [roundMagnitude_natCast hk] at hmono
    exact_mod_cast hmono
  rw [div_natCast hpos hn hw hsafe]
  exact congrArg fin (by
    rw [ceil_eq (by exact_mod_cast lt_roundMagnitude_div hn hw hsafe hlow) hle]
    push_cast
    rfl)

theorem differs_eq_false {x y : Number} : x.differs y = false ↔ x = y ∧ x ≠ .nan := by
  simp only [differs, decide_eq_false_iff_not, not_or, not_not]
  constructor
  · exact fun h => ⟨h.2.2, h.1⟩
  · rintro ⟨rfl, h⟩
    exact ⟨h, h, rfl⟩

end Number

/-- The remainder of natural numbers. -/
theorem remainder_natCast {n w : ℕ} (hw : 0 < w) :
    remainder (n : Number) w = ((n % w : ℕ) : Number) := by
  have hw₀ : (0 : ℚ) < w := by exact_mod_cast hw
  have hfloor : ((n : ℚ) / w).floor = (n / w : ℕ) := by
    refine Number.floor_eq (by exact_mod_cast Nat.cast_div_le) ?_
    rw [div_lt_iff₀ hw₀]
    exact_mod_cast Nat.lt_mul_of_div_lt (Nat.lt_succ_self _) hw
  have hmod : (n : ℚ) = (n % w : ℕ) + (n / w : ℕ) * w := by
    exact_mod_cast (Nat.mod_add_div' n w).symm
  rw [remainder, if_neg (not_lt.mpr (Nat.cast_nonneg n)), hfloor, Int.cast_natCast]
  exact congrArg Number.fin (sub_eq_of_eq_add hmod)

end Js

end FitzDestroyer
