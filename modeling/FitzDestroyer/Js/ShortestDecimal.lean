import FitzDestroyer.Js.Division
import FitzDestroyer.Js.NumberString
import Mathlib.Tactic.Linarith
import Mathlib.Tactic.Positivity

/-!
# Shortest decimals

`String(x)` writes the shortest decimal that is read as the number.  There always is one with 17
digits: a decimal that is off by less than half a unit of the 17th digit rounds to the number it
was made from, since `2 ^ 53 < 10 ^ 16`.

* `IsDouble` : the finite numbers;
* `roundMagnitude_of_close` : what is close to a number rounds to it;
* `round_shortestFraction` : **the shortest decimal of a fraction is read as the fraction**;
* `round_shortest` : the shortest decimal of an integer is read as the integer.
-/

namespace FitzDestroyer

namespace Js

/-- A finite number: rounding keeps it. -/
def IsDouble (q : ℚ) : Prop := Number.round q = .fin q

instance (q : ℚ) : Decidable (IsDouble q) := inferInstanceAs (Decidable (_ = _))

variable {q y : ℚ}

theorem isDouble_natCast {n : ℕ} (h : n ≤ maxSafeInteger) : IsDouble n := Number.round_natCast h

/-- A positive finite number. -/
theorem isDouble_iff_of_pos (hpos : 0 < q) :
    IsDouble q ↔ roundMagnitude q = q ∧ q < 2 ^ 1024 := by
  unfold IsDouble Number.round
  rw [if_neg hpos.ne', abs_of_pos hpos]
  simp only [not_lt.mpr hpos.le, if_false]
  split_ifs with hlarge
  · simp only [false_iff, not_and]
    exact fun heq => by rw [heq] at hlarge; exact not_lt.mpr hlarge
  · rw [Number.fin.injEq]
    exact ⟨fun heq => ⟨heq, heq ▸ not_le.mp hlarge⟩, fun h => h.1⟩

theorem isDouble_abs (h : IsDouble q) : IsDouble |q| := by
  rcases lt_trichotomy q 0 with hneg | rfl | hpos
  · rw [abs_of_neg hneg, isDouble_iff_of_pos (neg_pos.mpr hneg)]
    unfold IsDouble Number.round at h
    rw [if_neg hneg.ne, abs_of_neg hneg] at h
    simp only [hneg, if_true] at h
    split_ifs at h with hlarge
    obtain heq := Number.fin.inj h
    have hmagnitude : roundMagnitude (-q) = -q := by linarith
    exact ⟨hmagnitude, hmagnitude ▸ not_le.mp hlarge⟩
  · simpa using h
  · rwa [abs_of_pos hpos]

/-! ### What is close to a number -/

/-- A number has 53 significant bits at most. -/
theorem lt_two_zpow (hpos : 0 < q) : q < 2 ^ 53 * 2 ^ lastExponent q := by
  refine (leadingExponent_spec hpos).2.trans_le ?_
  rw [← zpow_natCast, ← zpow_add₀ two_ne_zero]
  refine zpow_le_zpow_right₀ one_le_two ?_
  unfold lastExponent
  push_cast
  omega

/-- A number that is as close is less than half of the last bit away. -/
theorem close_lt (hpos : 0 < q) (hclose : |y - q| ≤ q / (2 * 10 ^ 16)) :
    |y - q| < 2 ^ lastExponent q / 2 := by
  have hlt := lt_two_zpow hpos
  have hpow : (0 : ℚ) < 2 ^ lastExponent q := zpow_pos two_pos _
  calc |y - q| ≤ q / (2 * 10 ^ 16) := hclose
    _ < 2 ^ 53 * 2 ^ lastExponent q / (2 * 10 ^ 16) :=
        div_lt_div_of_pos_right hlt (by norm_num)
    _ ≤ 2 ^ lastExponent q / 2 := by
        rw [div_le_div_iff₀ (by norm_num) two_pos]
        nlinarith

section

variable (hpos : 0 < q) (hround : roundMagnitude q = q)
include hpos hround

/-- A number is a multiple of its last bit. -/
theorem exists_mantissa : ∃ m : ℤ, 0 < m ∧ q = m * 2 ^ lastExponent q := by
  have hpow : (0 : ℚ) < 2 ^ lastExponent q := zpow_pos two_pos _
  refine ⟨nearestEven (q / 2 ^ lastExponent q), ?_, hround.symm⟩
  have hmul : 0 < (nearestEven (q / 2 ^ lastExponent q) : ℚ) * 2 ^ lastExponent q := by
    rw [show _ * _ = q from hround]
    exact hpos
  exact_mod_cast pos_of_mul_pos_left hmul hpow.le

theorem lastExponent_le_leadingExponent : lastExponent q ≤ leadingExponent q := by
  obtain ⟨m, hm, hq⟩ := exists_mantissa hpos hround
  have hlow : (2 : ℚ) ^ lastExponent q ≤ q := by
    conv_rhs => rw [hq]
    exact le_mul_of_one_le_left (zpow_pos two_pos _).le (by exact_mod_cast hm)
  have := (zpow_lt_zpow_iff_right₀ one_lt_two).mp
    (hlow.trans_lt (leadingExponent_spec hpos).2)
  omega

/-- Powers of two above the last bit are multiples of it, so a number is at least a last bit away
from those that it is not. -/
theorem two_zpow_add_le {k : ℤ} (hk : lastExponent q ≤ k) (hlt : 2 ^ k < q) :
    2 ^ k + 2 ^ lastExponent q ≤ q := by
  obtain ⟨m, -, hq⟩ := exists_mantissa hpos hround
  have hpow : (0 : ℚ) < 2 ^ lastExponent q := zpow_pos two_pos _
  rw [two_zpow_eq hk] at hlt ⊢
  conv_rhs at hlt => rw [hq]
  conv_rhs => rw [hq]
  have hm : ((2 ^ (k - lastExponent q).toNat : ℕ) : ℤ) < m := by
    exact_mod_cast lt_of_mul_lt_mul_right hlt hpow.le
  rw [← add_one_mul]
  refine mul_le_mul_of_nonneg_right ?_ hpow.le
  exact_mod_cast hm

theorem le_two_zpow_sub {k : ℤ} (hk : lastExponent q ≤ k) (hlt : q < 2 ^ k) :
    q + 2 ^ lastExponent q ≤ 2 ^ k := by
  obtain ⟨m, -, hq⟩ := exists_mantissa hpos hround
  have hpow : (0 : ℚ) < 2 ^ lastExponent q := zpow_pos two_pos _
  rw [two_zpow_eq hk] at hlt ⊢
  conv_lhs at hlt => rw [hq]
  conv_lhs => enter [1]; rw [hq]
  have hm : m < ((2 ^ (k - lastExponent q).toNat : ℕ) : ℤ) := by
    exact_mod_cast lt_of_mul_lt_mul_right hlt hpow.le
  rw [← add_one_mul]
  refine mul_le_mul_of_nonneg_right ?_ hpow.le
  exact_mod_cast hm

/-- The last bit of what is close is the one of the number, or half of it. -/
theorem exists_multiple (hclose : |y - q| ≤ q / (2 * 10 ^ 16)) :
    ∃ m : ℤ, m ≤ 2 ^ 53 ∧ q = m * 2 ^ lastExponent y := by
  have hpow : (0 : ℚ) < 2 ^ lastExponent q := zpow_pos two_pos _
  obtain ⟨hlow, hhigh⟩ := abs_lt.mp (close_lt hpos hclose)
  obtain ⟨hbelow, habove⟩ := leadingExponent_spec hpos
  have hlast := lastExponent_le_leadingExponent hpos hround
  have hy : q / 2 ≤ y := by
    have := (abs_le.mp hclose).1
    linarith
  have hypos : 0 < y := (half_pos hpos).trans_le hy
  obtain ⟨hybelow, hyabove⟩ := leadingExponent_spec hypos
  have hyupper : y < 2 ^ (leadingExponent q + 1) := by
    have := le_two_zpow_sub hpos hround (hlast.trans (Int.le_add_one le_rfl)) habove
    linarith
  have hle : leadingExponent y ≤ leadingExponent q := by
    have := (zpow_lt_zpow_iff_right₀ one_lt_two).mp (hybelow.trans_lt hyupper)
    omega
  rcases lt_or_ge y (2 ^ leadingExponent q) with hlt | hge
  · -- The number is a power of two.
    have heq : q = 2 ^ leadingExponent q := by
      refine le_antisymm (not_lt.mp fun hgt => ?_) hbelow
      have := two_zpow_add_le hpos hround hlast hgt
      linarith
    have hlead : leadingExponent q ≤ leadingExponent y + 1 := by
      have hhalf : (2 : ℚ) ^ (leadingExponent q - 1) = q / 2 := by
        rw [zpow_sub_one₀ two_ne_zero, ← heq, div_eq_mul_inv]
      have := (zpow_lt_zpow_iff_right₀ one_lt_two).mp
        ((hhalf.trans_le hy).trans_lt hyabove)
      omega
    have hcoarse : lastExponent y ≤ leadingExponent q := by
      unfold lastExponent at hlast ⊢
      omega
    have hfine : leadingExponent q - lastExponent y ≤ 53 := by
      unfold lastExponent
      omega
    refine ⟨_, ?_, heq.trans (two_zpow_eq hcoarse)⟩
    have hexp : (leadingExponent q - lastExponent y).toNat ≤ 53 := by omega
    exact_mod_cast Nat.pow_le_pow_right two_pos hexp
  · have hlead : leadingExponent y = leadingExponent q := by
      have := (zpow_lt_zpow_iff_right₀ one_lt_two).mp (hge.trans_lt hyabove)
      omega
    have hlastEq : lastExponent y = lastExponent q := by
      unfold lastExponent
      rw [hlead]
    obtain ⟨m, -, hq⟩ := exists_mantissa hpos hround
    refine ⟨m, ?_, hlastEq ▸ hq⟩
    have hlt := lt_two_zpow hpos
    conv_lhs at hlt => rw [hq]
    have hm : (m : ℚ) < 2 ^ 53 := lt_of_mul_lt_mul_right hlt hpow.le
    exact_mod_cast hm.le

/-- **What is close to a number rounds to it.** -/
theorem roundMagnitude_of_close (hclose : |y - q| ≤ q / (2 * 10 ^ 16)) :
    roundMagnitude y = q := by
  obtain ⟨m, hm, hq⟩ := exists_multiple hpos hround hclose
  have hpow : (0 : ℚ) < 2 ^ lastExponent y := zpow_pos two_pos _
  have hnear : |y / 2 ^ lastExponent y - m| < 1 / 2 := by
    have hscaled : y / 2 ^ lastExponent y - m = (y - q) / 2 ^ lastExponent y := by
      rw [sub_div, eq_sub_iff_add_eq, sub_add_eq_add_sub, sub_eq_iff_eq_add, add_right_inj]
      conv_lhs => rw [hq]
      exact mul_div_cancel_right₀ _ hpow.ne'
    rw [hscaled, abs_div, abs_of_pos hpow, div_lt_iff₀ hpow]
    have hupper : q ≤ 2 ^ 53 * 2 ^ lastExponent y := by
      conv_lhs => rw [hq]
      exact mul_le_mul_of_nonneg_right (by exact_mod_cast hm) hpow.le
    calc |y - q| ≤ q / (2 * 10 ^ 16) := hclose
      _ ≤ 2 ^ 53 * 2 ^ lastExponent y / (2 * 10 ^ 16) :=
          div_le_div_of_nonneg_right hupper (by norm_num)
      _ < 1 / 2 * 2 ^ lastExponent y := by
          rw [div_lt_iff₀ (by norm_num)]
          nlinarith
  rw [roundMagnitude, nearestEven_eq hnear]
  exact hq.symm

end

/-! ### The shortest decimal of a fraction -/

theorem Number.round_of_close (hpos : 0 < q) (hdouble : IsDouble q)
    (hclose : |y - q| ≤ q / (2 * 10 ^ 16)) : Number.round y = .fin q := by
  obtain ⟨hround, hlt⟩ := (isDouble_iff_of_pos hpos).mp hdouble
  have hy : 0 < y := by
    have := (abs_le.mp hclose).1
    linarith
  unfold Number.round
  rw [if_neg hy.ne', abs_of_pos hy, roundMagnitude_of_close hpos hround hclose]
  simp only [not_le.mpr hlt, not_lt.mpr hy.le, if_false]

/-- The least positive number. -/
theorem two_zpow_le (hpos : 0 < q) (hround : roundMagnitude q = q) : 2 ^ (-1074 : ℤ) ≤ q := by
  obtain ⟨m, hm, hq⟩ := exists_mantissa hpos hround
  have hlow : (2 : ℚ) ^ lastExponent q ≤ q := by
    conv_rhs => rw [hq]
    exact le_mul_of_one_le_left (zpow_pos two_pos _).le (by exact_mod_cast hm)
  exact (zpow_le_zpow_right₀ one_le_two (le_max_right _ _)).trans hlow

theorem ten_zpow_le (hpos : 0 < q) (hround : roundMagnitude q = q) :
    (10 : ℚ) ^ (pointPosition q - 1) ≤ q := by
  unfold pointPosition
  split_ifs with hone
  · -- The whole part has that many digits.
    have hfloor : 1 ≤ q.floor := Rat.le_floor_iff.mpr (by exact_mod_cast hone)
    have hlength : 0 < (Nat.toDigits 10 q.floor.toNat).length := Nat.length_toDigits_pos
    have hdigits : 10 ^ ((Nat.toDigits 10 q.floor.toNat).length - 1) ≤ q.floor.toNat := by
      by_contra hlt
      rcases Nat.eq_zero_or_pos ((Nat.toDigits 10 q.floor.toNat).length - 1) with hzero | hk
      · rw [hzero] at hlt
        omega
      · have := (Nat.length_toDigits_le_iff (by decide) hk).mpr (not_le.mp hlt)
        omega
    have hcast : ((10 ^ ((Nat.toDigits 10 q.floor.toNat).length - 1) : ℕ) : ℚ) ≤ q.floor := by
      have hint : ((10 ^ ((Nat.toDigits 10 q.floor.toNat).length - 1) : ℕ) : ℤ) ≤ q.floor := by
        omega
      exact_mod_cast hint
    rw [← Nat.cast_pred hlength, zpow_natCast]
    push_cast at hcast
    exact hcast.trans (Rat.floor_le q)
  · -- No number has 400 zeros after the point.
    have hfound : ((List.range 400).find? fun zeros => 1 ≤ q * 10 ^ (zeros + 1)).isSome := by
      rw [List.find?_isSome]
      refine ⟨399, by simp, ?_⟩
      have hpow : (2 : ℚ) ^ 1074 ≤ 10 ^ (399 + 1) := by
        calc (2 : ℚ) ^ 1074 = (2 ^ 3) ^ 358 := by rw [← pow_mul]
          _ ≤ 10 ^ 358 := pow_le_pow_left₀ (by norm_num) (by norm_num) 358
          _ ≤ 10 ^ (399 + 1) := pow_le_pow_right₀ (by norm_num) (by decide)
      have hleast := two_zpow_le hpos hround
      rw [zpow_neg, inv_le_iff_one_le_mul₀ (zpow_pos two_pos _), zpow_ofNat] at hleast
      exact decide_eq_true (hleast.trans (mul_le_mul_of_nonneg_left hpow hpos.le))
    obtain ⟨zeros, hzeros⟩ := Option.isSome_iff_exists.mp hfound
    have hone' := List.find?_some hzeros
    rw [decide_eq_true_eq] at hone'
    rw [hzeros, Option.getD_some, ← neg_add', ← Nat.cast_succ, zpow_neg, zpow_natCast,
      inv_le_iff_one_le_mul₀ (by positivity)]
    exact hone'

/-- One of the integers around a number is at most one half away. -/
theorem exists_nearestIntegers {x : ℚ} (hx : 0 ≤ x) :
    ∃ n ∈ nearestIntegers x, |(n : ℚ) - x| ≤ 1 / 2 := by
  have hnonneg : 0 ≤ nearestEven x := nearestEven_nonneg hx
  have hfloor : 0 ≤ x.floor := Rat.le_floor_iff.mpr (by exact_mod_cast hx)
  refine ⟨(nearestEven x).toNat, ?_, ?_⟩
  · have hcases : nearestEven x = x.floor ∨ nearestEven x = x.floor + 1 := by
      unfold nearestEven
      split_ifs <;> simp
    unfold nearestIntegers
    dsimp only
    split_ifs with h
    · rw [h]
      exact List.mem_cons_self
    · rw [hcases.resolve_left h, Int.toNat_add hfloor (by decide)]
      exact List.mem_cons_self
  · have hcast : (((nearestEven x).toNat : ℕ) : ℚ) = nearestEven x := by
      exact_mod_cast Int.toNat_of_nonneg hnonneg
    rw [hcast, abs_le]
    have hlow := nearestEven_le_add x
    have hhigh := le_nearestEven_add x
    constructor <;> linarith

/-- **The shortest decimal of a number is read as the number.** -/
theorem round_shortestFraction (hpos : 0 < q) (hdouble : IsDouble q) :
    Number.round ((shortestFraction q).1 * 10 ^ (shortestFraction q).2) = .fin q := by
  have hround := ((isDouble_iff_of_pos hpos).mp hdouble).1
  unfold shortestFraction
  dsimp only
  cases hfound : (List.range 17).findSome? fun i : ℕ =>
      ((nearestIntegers (q / 10 ^ (pointPosition q - (i + 1)))).find? fun decimal : ℕ =>
        Number.round (decimal * 10 ^ (pointPosition q - (i + 1))) = .fin q).map
          fun decimal => (decimal, pointPosition q - (i + 1)) with
  | none =>
    -- Seventeen digits are enough.
    rw [List.findSome?_eq_none_iff] at hfound
    have hnone := hfound 16 (by simp)
    rw [Option.map_eq_none_iff, List.find?_eq_none] at hnone
    have hscale : (0 : ℚ) < 10 ^ (pointPosition q - ((16 : ℕ) + 1)) := zpow_pos (by norm_num) _
    obtain ⟨n, hn, hnear⟩ := exists_nearestIntegers (div_pos hpos hscale).le
    refine absurd (decide_eq_true (Number.round_of_close hpos hdouble ?_)) (hnone n hn)
    have hsplit : (n : ℚ) * 10 ^ (pointPosition q - ((16 : ℕ) + 1)) - q =
        (n - q / 10 ^ (pointPosition q - ((16 : ℕ) + 1))) *
          10 ^ (pointPosition q - ((16 : ℕ) + 1)) := by
      rw [sub_mul, div_mul_cancel₀ _ hscale.ne']
    have hsize : (10 : ℚ) ^ (pointPosition q - ((16 : ℕ) + 1)) ≤ q / 10 ^ 16 := by
      rw [le_div_iff₀ (by norm_num), ← zpow_natCast, ← zpow_add₀ (by norm_num)]
      refine le_trans (le_of_eq ?_) (ten_zpow_le hpos hround)
      congr 1
      push_cast
      omega
    rw [hsplit, abs_mul, abs_of_pos hscale]
    calc |(n : ℚ) - q / 10 ^ (pointPosition q - ((16 : ℕ) + 1))| *
          10 ^ (pointPosition q - ((16 : ℕ) + 1))
        ≤ 1 / 2 * (q / 10 ^ 16) :=
          mul_le_mul hnear hsize hscale.le (by norm_num)
      _ = q / (2 * 10 ^ 16) := by ring
  | some found =>
    obtain ⟨i, -, hi⟩ := List.exists_of_findSome?_eq_some hfound
    obtain ⟨decimal, hdecimal, rfl⟩ := Option.map_eq_some_iff.mp hi
    have hread := List.find?_some hdecimal
    rw [decide_eq_true_eq] at hread
    exact hread

/-! ### The shortest decimal of an integer -/

/-- An integer rounds to an integer. -/
theorem roundMagnitude_natCast_int (n : ℕ) : ∃ m : ℕ, roundMagnitude n = m := by
  rcases le_or_gt n maxSafeInteger with hle | hgt
  · exact ⟨n, roundMagnitude_natCast hle⟩
  · -- Its last bit is a power of two.
    have hpos : (0 : ℚ) < n := by exact_mod_cast (Nat.zero_lt_of_lt hgt)
    have hlead : 52 < leadingExponent n + 1 := by
      have hlow : (2 : ℚ) ^ (52 : ℤ) < 2 ^ (leadingExponent n + 1) := by
        refine lt_of_le_of_lt ?_ (leadingExponent_spec hpos).2
        exact_mod_cast (by decide : 2 ^ 52 ≤ maxSafeInteger).trans hgt.le
      exact (zpow_lt_zpow_iff_right₀ one_lt_two).mp hlow
    obtain ⟨k, hk⟩ : ∃ k : ℕ, lastExponent n = k :=
      ⟨(lastExponent n).toNat, by unfold lastExponent; omega⟩
    obtain ⟨m, hm⟩ := Int.eq_ofNat_of_zero_le
      (nearestEven_nonneg (div_nonneg n.cast_nonneg (zpow_nonneg zero_le_two (lastExponent n))))
    refine ⟨m * 2 ^ k, ?_⟩
    rw [roundMagnitude, hm, hk]
    push_cast
    rfl

/-- **The shortest decimal of an integer is read as the integer.** -/
theorem round_shortest {n : ℕ} (hdouble : IsDouble n) : Number.round (shortest n) = .fin n := by
  rcases Nat.eq_zero_or_pos n with rfl | hn
  · rw [shortest_of_le (Nat.zero_le _)]
    exact hdouble
  · have hpos : (0 : ℚ) < n := by exact_mod_cast hn
    obtain ⟨hround, hlt⟩ := (isDouble_iff_of_pos hpos).mp hdouble
    obtain ⟨m, hm⟩ := roundMagnitude_natCast_int (shortest n)
    have heq : roundMagnitude (shortest n) = n := by
      have hshortest := double_shortest (show double n = n by
        rw [double, hround, Rat.num_natCast, Int.toNat_natCast])
      rw [double, hm, Rat.num_natCast, Int.toNat_natCast] at hshortest
      rw [hm, hshortest]
    have hne : (shortest n : ℚ) ≠ 0 := fun hzero => by
      have hrounded := heq
      rw [hzero] at hrounded
      have hnone : roundMagnitude 0 = 0 := by decide +kernel
      rw [hnone] at hrounded
      exact hpos.ne hrounded
    unfold Number.round
    rw [if_neg hne, abs_of_nonneg (Nat.cast_nonneg _), heq]
    simp only [not_le.mpr hlt, not_lt.mpr (Nat.cast_nonneg _), if_false]

end Js

end FitzDestroyer
