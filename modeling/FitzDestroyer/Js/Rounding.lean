import FitzDestroyer.Js.Arithmetic
import Mathlib.Tactic.Positivity

/-!
# Rounding keeps the order

* `leadingExponent_spec` : a number lies between two powers of two;
* `roundMagnitude_mono`, `Number.round_mono` : a larger number does not round to a smaller one;
* `Number.round_dyadic` : a number with at most 53 significant bits is kept;
* `Number.lessEq`, `Number.greater` : `<=` and `>`.
-/

namespace FitzDestroyer

namespace Js

/-! ### Powers of two -/

/-- The leading bit of a number. -/
theorem leadingExponent_spec {x : ℚ} (hx : 0 < x) :
    (2 : ℚ) ^ leadingExponent x ≤ x ∧ x < 2 ^ (leadingExponent x + 1) := by
  have hnum : x.num.natAbs ≠ 0 := Int.natAbs_ne_zero.mpr (Rat.num_pos.mpr hx).ne'
  have hden : (0 : ℚ) < x.den := by exact_mod_cast x.den_pos
  have hx' : x * x.den = x.num.natAbs := by
    rw [Rat.mul_den_eq_num, ← Int.cast_natCast, Int.natAbs_of_nonneg (Rat.num_nonneg.mpr hx.le)]
  -- The numerator and the denominator are between powers of two.
  have hnumLow : (2 : ℚ) ^ x.num.natAbs.log2 ≤ x.num.natAbs := by
    exact_mod_cast Nat.log2_self_le hnum
  have hnumHigh : (x.num.natAbs : ℚ) < 2 ^ (x.num.natAbs.log2 + 1) := by
    exact_mod_cast Nat.lt_log2_self
  have hdenLow : (2 : ℚ) ^ x.den.log2 ≤ x.den := by exact_mod_cast Nat.log2_self_le x.den_pos.ne'
  have hdenHigh : (x.den : ℚ) < 2 ^ (x.den.log2 + 1) := by exact_mod_cast Nat.lt_log2_self
  have hlow : (2 : ℚ) ^ ((x.num.natAbs.log2 : ℤ) - x.den.log2 - 1) ≤ x := by
    rw [sub_sub, zpow_sub₀ two_ne_zero, div_le_iff₀ (zpow_pos two_pos _)]
    calc (2 : ℚ) ^ (x.num.natAbs.log2 : ℤ) ≤ x * x.den := by rw [hx', zpow_natCast]; exact hnumLow
      _ ≤ x * 2 ^ ((x.den.log2 : ℤ) + 1) := by
        refine mul_le_mul_of_nonneg_left ?_ hx.le
        exact_mod_cast hdenHigh.le
  have hhigh : x < (2 : ℚ) ^ ((x.num.natAbs.log2 : ℤ) - x.den.log2 + 1) := by
    rw [sub_add_eq_add_sub, zpow_sub₀ two_ne_zero, lt_div_iff₀ (zpow_pos two_pos _)]
    calc x * 2 ^ (x.den.log2 : ℤ) ≤ x * x.den := by
          rw [zpow_natCast]
          exact mul_le_mul_of_nonneg_left hdenLow hx.le
      _ < 2 ^ ((x.num.natAbs.log2 : ℤ) + 1) := by rw [hx']; exact_mod_cast hnumHigh
  unfold leadingExponent
  dsimp only
  split_ifs with hbelow
  · exact ⟨hlow, by rwa [sub_add_cancel]⟩
  · exact ⟨not_lt.mp hbelow, hhigh⟩

theorem leadingExponent_mono {x y : ℚ} (hx : 0 < x) (h : x ≤ y) :
    leadingExponent x ≤ leadingExponent y := by
  have hpow : (2 : ℚ) ^ leadingExponent x < 2 ^ (leadingExponent y + 1) :=
    ((leadingExponent_spec hx).1.trans h).trans_lt (leadingExponent_spec (hx.trans_le h)).2
  have := (zpow_lt_zpow_iff_right₀ one_lt_two).mp hpow
  omega

/-! ### The nearest number -/

theorem le_nearestEven {x : ℚ} {m : ℤ} (h : m ≤ x) : m ≤ nearestEven x := by
  have hfloor : m ≤ x.floor := Rat.le_floor_iff.mpr h
  unfold nearestEven
  split_ifs <;> omega

theorem nearestEven_mono {x y : ℚ} (h : x ≤ y) : nearestEven x ≤ nearestEven y := by
  have hfloor : x.floor ≤ y.floor := Rat.le_floor_iff.mpr ((Rat.floor_le x).trans h)
  rcases hfloor.lt_or_eq with hlt | heq
  · -- A whole number lies between them.
    have hx : nearestEven x ≤ y.floor :=
      nearestEven_le ((Rat.lt_floor_add_one x).le.trans (by exact_mod_cast hlt))
    exact hx.trans (le_nearestEven (Rat.floor_le y))
  · unfold nearestEven
    rw [heq]
    split_ifs <;> first | omega | linarith

theorem roundMagnitude_le_mul {x : ℚ} {m : ℤ} (h : x ≤ m * 2 ^ lastExponent x) :
    roundMagnitude x ≤ m * 2 ^ lastExponent x := by
  have hpow : (0 : ℚ) < 2 ^ lastExponent x := zpow_pos two_pos _
  refine mul_le_mul_of_nonneg_right ?_ hpow.le
  exact_mod_cast nearestEven_le ((div_le_iff₀ hpow).mpr h)

theorem mul_le_roundMagnitude {x : ℚ} {m : ℤ} (h : m * 2 ^ lastExponent x ≤ x) :
    m * 2 ^ lastExponent x ≤ roundMagnitude x := by
  have hpow : (0 : ℚ) < 2 ^ lastExponent x := zpow_pos two_pos _
  refine mul_le_mul_of_nonneg_right ?_ hpow.le
  exact_mod_cast le_nearestEven ((le_div_iff₀ hpow).mpr h)

/-- A power of two that is not finer than the last bit. -/
theorem two_zpow_eq {x : ℚ} {k : ℤ} (h : lastExponent x ≤ k) :
    (2 : ℚ) ^ k = ((2 ^ (k - lastExponent x).toNat : ℕ) : ℤ) * 2 ^ lastExponent x := by
  have hsplit : k = ((k - lastExponent x).toNat : ℤ) + lastExponent x := by omega
  conv_lhs => rw [hsplit]
  rw [zpow_add₀ two_ne_zero, zpow_natCast]
  push_cast
  rfl

/-- **Rounding keeps the order.** -/
theorem roundMagnitude_mono {x y : ℚ} (hx : 0 < x) (h : x ≤ y) :
    roundMagnitude x ≤ roundMagnitude y := by
  have hlead := leadingExponent_mono hx h
  by_cases hlast : lastExponent x = lastExponent y
  · unfold roundMagnitude
    rw [hlast]
    refine mul_le_mul_of_nonneg_right ?_ (zpow_nonneg zero_le_two _)
    exact_mod_cast nearestEven_mono (div_le_div_of_nonneg_right h (zpow_nonneg zero_le_two _))
  · -- A power of two lies between them, and rounding passes it neither way.
    have hfine : lastExponent x ≤ leadingExponent y ∧ lastExponent y ≤ leadingExponent y ∧
        leadingExponent x + 1 ≤ leadingExponent y := by
      unfold lastExponent at hlast ⊢
      omega
    have hbelow : x ≤ 2 ^ leadingExponent y :=
      (leadingExponent_spec hx).2.le.trans (zpow_le_zpow_right₀ one_le_two hfine.2.2)
    have habove := (leadingExponent_spec (hx.trans_le h)).1
    calc roundMagnitude x ≤ 2 ^ leadingExponent y := by
          rw [two_zpow_eq hfine.1] at hbelow ⊢
          exact roundMagnitude_le_mul hbelow
      _ ≤ roundMagnitude y := by
          rw [two_zpow_eq hfine.2.1] at habove ⊢
          exact mul_le_roundMagnitude habove

/-- A number with at most 53 significant bits is kept. -/
theorem roundMagnitude_dyadic {n k : ℕ} (hpos : 0 < n) (hn : n < 2 ^ 53) (hk : k ≤ 1074) :
    roundMagnitude (n / 2 ^ k) = n / 2 ^ k := by
  have hx : (0 : ℚ) < n / 2 ^ k := by positivity
  have hle : lastExponent (n / 2 ^ k) ≤ -k := by
    have hlt : (2 : ℚ) ^ leadingExponent (n / 2 ^ k) < 2 ^ (53 - k : ℤ) := by
      refine (leadingExponent_spec hx).1.trans_lt ?_
      rw [zpow_sub₀ two_ne_zero, zpow_natCast]
      exact div_lt_div_of_pos_right (by exact_mod_cast hn) (by positivity)
    have := (zpow_lt_zpow_iff_right₀ one_lt_two).mp hlt
    unfold lastExponent
    omega
  have hmul : (n / 2 ^ k : ℚ) =
      ((n * 2 ^ (-k - lastExponent (n / 2 ^ k)).toNat : ℕ) : ℤ) *
        2 ^ lastExponent (n / 2 ^ k) := by
    have hpow := two_zpow_eq hle
    rw [zpow_neg, zpow_natCast] at hpow
    calc (n / 2 ^ k : ℚ) = n * (2 ^ k)⁻¹ := div_eq_mul_inv _ _
      _ = n * (((2 ^ (-k - lastExponent (n / 2 ^ k)).toNat : ℕ) : ℤ) *
          2 ^ lastExponent (n / 2 ^ k)) := congrArg _ hpow
      _ = _ := by
        rw [← mul_assoc]
        push_cast
        rfl
  refine le_antisymm ?_ ?_
  · have h := roundMagnitude_le_mul hmul.le
    rwa [← hmul] at h
  · have h := mul_le_roundMagnitude hmul.ge
    rwa [← hmul] at h

namespace Number

/-! ### Comparisons -/

/-- `left <= right`. -/
def lessEq : Number → Number → Bool
  | .nan, _ | _, .nan => false
  | .negInf, _ | _, .posInf => true
  | .fin p, .fin q => p ≤ q
  | _, _ => false

/-- `left > right`. -/
def greater (left right : Number) : Bool :=
  left ≠ .nan ∧ right ≠ .nan ∧ left.lessEq right = false

theorem lessEq_trans {x y z : Number} (hxy : x.lessEq y = true) (hyz : y.lessEq z = true) :
    x.lessEq z = true := by
  cases x <;> cases y <;> cases z <;> simp_all [lessEq]
  exact hxy.trans hyz

/-- **A larger number** does not round to a smaller one. -/
theorem round_mono {x y : ℚ} (hx : 0 ≤ x) (h : x ≤ y) : (round x).lessEq (round y) = true := by
  have hy := hx.trans h
  rcases hx.eq_or_lt with rfl | hpos
  · have hnonneg := Nonneg.round h
    rw [round, if_pos rfl]
    cases hround : round y with
    | fin q =>
      rw [hround] at hnonneg
      exact decide_eq_true hnonneg
    | posInf => rfl
    | _ =>
      rw [hround] at hnonneg
      exact hnonneg.elim
  · have hypos := hpos.trans_le h
    have hmono := roundMagnitude_mono hpos h
    unfold round
    rw [abs_of_pos hpos, abs_of_pos hypos]
    simp only [hpos.ne', hypos.ne', not_lt.mpr hx, not_lt.mpr hy, if_false]
    split_ifs with hlarge hlarge'
    · rfl
    · exact absurd (hlarge.trans hmono) hlarge'
    · rfl
    · exact decide_eq_true hmono

theorem Nonneg.lessEq_posInf {x : Number} (h : x.Nonneg) : x.lessEq posInf = true := by
  cases x with
  | fin q => rfl
  | posInf => rfl
  | _ => exact h.elim

/-- A quotient keeps the order. -/
theorem div_mono {x y : Number} {n : ℕ} (hn : 0 < n) (hx : x.Nonneg) (h : x.lessEq y = true) :
    (x.div (n : Number)).lessEq (y.div (n : Number)) = true := by
  have hn₀ : ¬(n : ℚ) = 0 := by exact_mod_cast hn.ne'
  have hinfinite : posInf.div (n : Number) = posInf := by
    have hpos : ¬(n : ℚ) < 0 := not_lt.mpr n.cast_nonneg
    simp [div, hpos, sign, infinite]
  cases x with
  | fin p =>
    cases y with
    | fin q =>
      simp only [div, if_neg hn₀]
      exact round_mono (div_nonneg hx n.cast_nonneg)
        (div_le_div_of_nonneg_right (of_decide_eq_true h) n.cast_nonneg)
    | posInf =>
      rw [hinfinite]
      simp only [div, if_neg hn₀]
      exact (Nonneg.round (div_nonneg hx n.cast_nonneg)).lessEq_posInf
    | _ => cases h
  | posInf =>
    cases y with
    | posInf =>
      rw [hinfinite]
      rfl
    | _ => cases h
  | _ => exact hx.elim

theorem mathRound_mono {x y : Number} (h : x.lessEq y = true) :
    x.mathRound.lessEq y.mathRound = true := by
  cases x with
  | fin p =>
    cases y with
    | fin q =>
      have hle : p + 1 / 2 ≤ q + 1 / 2 := add_le_add_left (of_decide_eq_true h) _
      have hfloor : (p + 1 / 2).floor ≤ (q + 1 / 2).floor :=
        Rat.le_floor_iff.mpr ((Rat.floor_le _).trans hle)
      exact decide_eq_true (by exact_mod_cast hfloor)
    | _ => exact h
  | _ => cases y <;> exact h

theorem mathRound_natCast (n : ℕ) : (n : Number).mathRound = (n : Number) := by
  have hfloor : ((n : ℚ) + 1 / 2).floor = n := by
    have hlow : (n : ℤ) ≤ ((n : ℚ) + 1 / 2).floor := Rat.le_floor_iff.mpr (by push_cast; linarith)
    have hhigh : (((n : ℚ) + 1 / 2).floor : ℚ) < ((n + 1 : ℤ) : ℚ) :=
      (Rat.floor_le _).trans_lt (by push_cast; linarith)
    have := Int.cast_lt.mp hhigh
    omega
  show fin (((n : ℚ) + 1 / 2).floor : ℚ) = _
  rw [hfloor, Int.cast_natCast]

theorem Nonneg.mathRound {x : Number} (h : x.Nonneg) : x.mathRound.Nonneg := by
  cases x with
  | fin q =>
    have hq : (0 : ℚ) ≤ q := h
    have hfloor : (0 : ℤ) ≤ (q + 1 / 2).floor := by
      rw [Rat.le_floor_iff]
      push_cast
      linarith
    exact (by exact_mod_cast hfloor : (0 : ℚ) ≤ ((q + 1 / 2).floor : ℚ))
  | posInf => trivial
  | _ => exact h.elim

/-- **A number with at most 53 significant bits** is kept. -/
theorem round_dyadic {n k : ℕ} (hn : n < 2 ^ 53) (hk : k ≤ 1074) :
    round (n / 2 ^ k) = .fin (n / 2 ^ k) := by
  rcases Nat.eq_zero_or_pos n with rfl | hpos
  · simp [round]
  · have hx : (0 : ℚ) < n / 2 ^ k := by positivity
    have hsmall : (n / 2 ^ k : ℚ) < 2 ^ 1024 := by
      refine (div_le_self n.cast_nonneg (one_le_pow₀ one_le_two)).trans_lt ?_
      exact_mod_cast hn.trans (Nat.pow_lt_pow_right (by decide) (by decide))
    unfold round
    rw [abs_of_pos hx, roundMagnitude_dyadic hpos hn hk]
    simp only [hx.ne', not_lt.mpr hx.le, not_le.mpr hsmall, if_false]

end Number

theorem nearestEven_eq {x : ℚ} {m : ℤ} (h : |x - m| < 1 / 2) : nearestEven x = m := by
  obtain ⟨hlow, hhigh⟩ := abs_lt.mp h
  have hfloor := Rat.floor_le x
  have hceil := Rat.lt_floor_add_one x
  unfold nearestEven
  rcases lt_or_ge x m with hlt | hge
  · -- The number rounds up.
    have heq : x.floor = m - 1 := by
      have h₁ : x.floor < m := by exact_mod_cast hfloor.trans_lt hlt
      have h₂ : m - 2 < x.floor := by
        have : ((m - 2 : ℤ) : ℚ) < x.floor := by push_cast at hceil ⊢; linarith
        exact_mod_cast this
      omega
    have hcast : (x.floor : ℚ) = m - 1 := by exact_mod_cast heq
    rw [if_neg (by rw [hcast]; linarith), if_pos (by rw [hcast]; linarith), heq]
    omega
  · have heq : x.floor = m := by
      have h₁ : m ≤ x.floor := Rat.le_floor_iff.mpr hge
      have h₂ : x.floor < m + 1 := by
        have : (x.floor : ℚ) < ((m + 1 : ℤ) : ℚ) := by push_cast; linarith
        exact_mod_cast this
      omega
    have hcast : (x.floor : ℚ) = m := by exact_mod_cast heq
    rw [if_pos (by rw [hcast]; linarith), heq]

/-- **The number that a number rounds to**, if its leading bit is known. -/
theorem Number.round_eq {x : ℚ} {m k : ℕ} (hlow : 2 ^ 52 ≤ x * 2 ^ k) (hhigh : x * 2 ^ k < 2 ^ 53)
    (hk : k ≤ 1074) (h : |x * 2 ^ k - m| < 1 / 2) : Number.round x = .fin (m / 2 ^ k) := by
  have hpow : (0 : ℚ) < 2 ^ k := pow_pos two_pos _
  have hx : 0 < x := pos_of_mul_pos_left (lt_of_lt_of_le (by norm_num) hlow) hpow.le
  have hlast : lastExponent x = -k := by
    obtain ⟨hbelow, habove⟩ := leadingExponent_spec hx
    have h₁ : (2 : ℚ) ^ leadingExponent x < 2 ^ (53 - k : ℤ) := by
      refine hbelow.trans_lt ?_
      rw [zpow_sub₀ two_ne_zero, zpow_natCast, lt_div_iff₀ hpow]
      exact_mod_cast hhigh
    have h₂ : (2 : ℚ) ^ (52 - k : ℤ) < 2 ^ (leadingExponent x + 1) := by
      refine lt_of_le_of_lt ?_ habove
      rw [zpow_sub₀ two_ne_zero, zpow_natCast, div_le_iff₀ hpow]
      exact_mod_cast hlow
    have h₃ := (zpow_lt_zpow_iff_right₀ one_lt_two).mp h₁
    have h₄ := (zpow_lt_zpow_iff_right₀ one_lt_two).mp h₂
    unfold lastExponent
    omega
  have hround : roundMagnitude x = m / 2 ^ k := by
    have hnearest : nearestEven (x * 2 ^ k) = m := nearestEven_eq (by exact_mod_cast h)
    unfold roundMagnitude
    rw [hlast, zpow_neg, zpow_natCast, div_inv_eq_mul, hnearest, Int.cast_natCast, div_eq_mul_inv]
  have hsmall : (m / 2 ^ k : ℚ) < 2 ^ 1024 := by
    rw [div_lt_iff₀ hpow]
    have hm : (m : ℚ) < 2 ^ 54 := by
      have := (abs_lt.mp h).1
      linarith
    calc (m : ℚ) < 2 ^ 54 := hm
      _ ≤ 2 ^ 1024 := pow_le_pow_right₀ one_le_two (by decide)
      _ ≤ 2 ^ 1024 * 2 ^ k := le_mul_of_one_le_right (by positivity) (one_le_pow₀ one_le_two)
  unfold Number.round
  rw [abs_of_pos hx, hround]
  simp only [hx.ne', not_lt.mpr hx.le, not_le.mpr hsmall, if_false]

end Js

end FitzDestroyer
