import FitzDestroyer.Js.Number
import FitzDestroyer.Js.Text
import Mathlib.Data.List.TakeWhile
import Mathlib.Tactic.Linarith

/-!
# Numbers of a text

`Number(text)` reads a numeric literal, and rounds it to the nearest number with 53 significant
bits.

* `Number.round`, `double` : the nearest number, ties to even;
* `Number.add` : a sum, which rounds; `Number.AtMost` : a bound that rounding keeps;
* `Number.ofText` : `Number(text)`;
* `Number.ofText_digits` : decimal digits are read as the number they stand for.
-/

namespace FitzDestroyer

namespace Js

/-! ### Rounding -/

/-- The nearest integer, ties to even. -/
def nearestEven (x : ℚ) : ℤ :=
  if x - x.floor < 1 / 2 then x.floor
  else if 1 / 2 < x - x.floor then x.floor + 1
  else if x.floor % 2 = 0 then x.floor else x.floor + 1

/-- The exponent of the leading bit of a positive number. -/
def leadingExponent (x : ℚ) : ℤ :=
  let e : ℤ := (x.num.natAbs.log2 : ℤ) - x.den.log2
  if x < 2 ^ e then e - 1 else e

/-- The exponent of the last bit of a number of this size. -/
def lastExponent (x : ℚ) : ℤ := max (leadingExponent x - 52) (-1074)

/-- The nearest non-negative number. -/
def roundMagnitude (x : ℚ) : ℚ := nearestEven (x / 2 ^ lastExponent x) * 2 ^ lastExponent x

namespace Number

/-- The nearest number. -/
def round (x : ℚ) : Number :=
  if x = 0 then .fin 0
  else
    let magnitude := roundMagnitude |x|
    if 2 ^ 1024 ≤ magnitude then if x < 0 then .negInf else .posInf
    else .fin (if x < 0 then -magnitude else magnitude)

end Number

/-- The nearest number of a natural number below `2 ^ 1024`. -/
def double (n : ℕ) : ℕ := (roundMagnitude n).num.toNat

@[simp] theorem nearestEven_intCast (n : ℤ) : nearestEven n = n := by
  simp [nearestEven]

/-- A safe integer is a number. -/
theorem roundMagnitude_natCast {n : ℕ} (h : n ≤ maxSafeInteger) : roundMagnitude n = n := by
  have hlog : n.log2 ≤ 52 := by
    rcases Nat.eq_zero_or_pos n with rfl | hpos
    · simp
    · have hlt : n < 2 ^ 53 := by
        simp only [maxSafeInteger] at h
        omega
      have := (Nat.log2_lt hpos.ne').mpr hlt
      omega
  have hlead : leadingExponent n ≤ 52 := by
    unfold leadingExponent
    simp only [Rat.num_natCast, Int.natAbs_natCast, Rat.den_natCast]
    have hone : Nat.log2 1 = 0 := by decide
    split_ifs <;> omega
  obtain ⟨k, hk⟩ : ∃ k : ℕ, lastExponent n = -k := by
    refine ⟨(-lastExponent n).toNat, ?_⟩
    unfold lastExponent
    omega
  have hscaled : (n : ℚ) / 2 ^ lastExponent n = ((n * 2 ^ k : ℕ) : ℤ) := by
    rw [hk, zpow_neg, div_inv_eq_mul, zpow_natCast]
    push_cast
    rfl
  unfold roundMagnitude
  rw [hscaled, nearestEven_intCast, hk, zpow_neg, zpow_natCast]
  push_cast
  exact mul_inv_cancel_right₀ (pow_ne_zero _ two_ne_zero) _

theorem double_of_le {n : ℕ} (h : n ≤ maxSafeInteger) : double n = n := by
  rw [double, roundMagnitude_natCast h, Rat.num_natCast, Int.toNat_natCast]

theorem Number.round_natCast {n : ℕ} (h : n ≤ maxSafeInteger) : Number.round n = (n : Number) := by
  unfold Number.round
  by_cases hn : n = 0
  · simp [hn]
  · have hpos : ¬(n : ℚ) < 0 := not_lt.mpr n.cast_nonneg
    have hsmall : ¬(2 : ℚ) ^ 1024 ≤ n := by
      rw [not_le]
      have hlt : n < 2 ^ 53 := Nat.lt_of_le_pred (by decide) h
      exact_mod_cast hlt.trans (Nat.pow_lt_pow_right (by decide) (by decide))
    rw [if_neg (by exact_mod_cast hn), abs_of_nonneg n.cast_nonneg, roundMagnitude_natCast h]
    simp only [hsmall, hpos, if_false]

/-! ### Sums -/

namespace Number

/-- `left + right`. -/
def add : Number → Number → Number
  | .nan, _ | _, .nan | .posInf, .negInf | .negInf, .posInf => .nan
  | .posInf, _ | _, .posInf => .posInf
  | .negInf, _ | _, .negInf => .negInf
  | .fin p, .fin q => round (p + q)

/-- The number is at most `n`. -/
def AtMost (n : ℕ) : Number → Prop
  | .negInf => True
  | .fin q => q ≤ n
  | _ => False

end Number

theorem nearestEven_le {x : ℚ} {m : ℤ} (h : x ≤ m) : nearestEven x ≤ m := by
  have hfloor : x.floor ≤ m := Int.cast_le.mp ((Rat.floor_le x).trans h)
  have hup : 1 / 2 ≤ x - x.floor → x.floor + 1 ≤ m := by
    intro hhalf
    refine Int.add_one_le_of_lt (hfloor.lt_of_ne fun heq => ?_)
    rw [heq] at hhalf
    linarith
  unfold nearestEven
  split_ifs with hbelow habove heven
  · exact hfloor
  · exact hup habove.le
  · exact hfloor
  · exact hup (not_lt.mp hbelow)

theorem nearestEven_nonneg {x : ℚ} (h : 0 ≤ x) : 0 ≤ nearestEven x := by
  have hfloor : 0 ≤ x.floor := Rat.le_floor_iff.mpr (by simpa using h)
  unfold nearestEven
  split_ifs <;> omega

theorem roundMagnitude_nonneg {x : ℚ} (h : 0 ≤ x) : 0 ≤ roundMagnitude x := by
  have hnearest : 0 ≤ nearestEven (x / 2 ^ lastExponent x) :=
    nearestEven_nonneg (div_nonneg h (zpow_nonneg zero_le_two _))
  exact mul_nonneg (Int.cast_nonneg hnearest) (zpow_nonneg zero_le_two _)

/-- The leading bit of a number below `2 ^ 53`. -/
theorem leadingExponent_le {x : ℚ} (hpos : 0 < x) (h : x < 2 ^ 53) : leadingExponent x ≤ 52 := by
  have hnum : x.num.natAbs < 2 ^ 53 * x.den := by
    have hcast : ((x.num.natAbs : ℤ) : ℚ) < ((2 ^ 53 * x.den : ℕ) : ℤ) := by
      rw [Int.natAbs_of_nonneg (Rat.num_nonneg.mpr hpos.le), ← Rat.mul_den_eq_num]
      push_cast
      exact mul_lt_mul_of_pos_right h (by exact_mod_cast x.den_pos)
    exact_mod_cast hcast
  have hden : x.den < 2 ^ (x.den.log2 + 1) := Nat.lt_log2_self
  have hlog : x.num.natAbs.log2 < x.den.log2 + 54 := by
    have hne : x.num.natAbs ≠ 0 := Int.natAbs_ne_zero.mpr (Rat.num_pos.mpr hpos).ne'
    rw [Nat.log2_lt hne, show x.den.log2 + 54 = 53 + (x.den.log2 + 1) by omega, Nat.pow_add]
    exact hnum.trans (Nat.mul_lt_mul_of_pos_left hden (by decide))
  unfold leadingExponent
  dsimp only
  split_ifs with hbelow
  · omega
  · have hpow : (2 : ℚ) ^ ((x.num.natAbs.log2 : ℤ) - x.den.log2) < 2 ^ (53 : ℤ) :=
      (not_lt.mp hbelow).trans_lt (by exact_mod_cast h)
    have := (zpow_lt_zpow_iff_right₀ one_lt_two).mp hpow
    omega

/-- Rounding does not pass a safe integer. -/
theorem roundMagnitude_le {x : ℚ} {n : ℕ} (hpos : 0 < x) (h : x ≤ n) (hn : n ≤ maxSafeInteger) :
    roundMagnitude x ≤ n := by
  have hlt : n < 2 ^ 53 := Nat.lt_of_le_pred (by decide) hn
  obtain ⟨k, hk⟩ : ∃ k : ℕ, lastExponent x = -k := by
    have hlead := leadingExponent_le hpos (h.trans_lt (by exact_mod_cast hlt))
    refine ⟨(-lastExponent x).toNat, ?_⟩
    unfold lastExponent
    omega
  have hscaled : nearestEven (x / 2 ^ lastExponent x) ≤ ((n * 2 ^ k : ℕ) : ℤ) := by
    refine nearestEven_le ?_
    rw [hk, zpow_neg, div_inv_eq_mul, zpow_natCast]
    push_cast
    exact mul_le_mul_of_nonneg_right h (by positivity)
  calc roundMagnitude x ≤ ((n * 2 ^ k : ℕ) : ℤ) * 2 ^ lastExponent x :=
        mul_le_mul_of_nonneg_right (by exact_mod_cast hscaled) (zpow_nonneg zero_le_two _)
    _ = n := by
      rw [hk, zpow_neg, zpow_natCast]
      push_cast
      exact mul_inv_cancel_right₀ (pow_ne_zero _ two_ne_zero) _

namespace Number

theorem round_atMost {x : ℚ} {n : ℕ} (h : x ≤ n) (hn : n ≤ maxSafeInteger) :
    (round x).AtMost n := by
  have hsmall : (n : ℚ) < 2 ^ 1024 := by
    have hlt : n < 2 ^ 53 := Nat.lt_of_le_pred (by decide) hn
    exact_mod_cast hlt.trans (Nat.pow_lt_pow_right (by decide) (by decide))
  unfold round
  rcases lt_trichotomy x 0 with hneg | rfl | hpos
  · have hmagnitude := roundMagnitude_nonneg (abs_nonneg x)
    simp only [hneg.ne, hneg, if_true, if_false]
    split_ifs
    · trivial
    · exact (neg_nonpos.mpr hmagnitude).trans n.cast_nonneg
  · exact n.cast_nonneg
  · have hmagnitude := roundMagnitude_le hpos h hn
    rw [abs_of_pos hpos]
    simp only [hpos.ne', not_lt.mpr hpos.le, not_le.mpr (hmagnitude.trans_lt hsmall), if_false]
    exact hmagnitude

/-- Sums that stay below a safe integer do not pass it. -/
theorem AtMost.add {x y : Number} {m n : ℕ} (hx : x.AtMost m) (hy : y.AtMost n)
    (h : m + n ≤ maxSafeInteger) : (x.add y).AtMost (m + n) := by
  cases x with
  | fin p =>
    cases y with
    | fin q =>
      refine round_atMost ?_ h
      push_cast
      exact add_le_add hx hy
    | negInf => trivial
    | _ => exact hy.elim
  | negInf =>
    cases y with
    | fin q => trivial
    | negInf => trivial
    | _ => exact hy.elim
  | _ => exact hx.elim

/-- The sum of safe integers. -/
theorem add_natCast {m n : ℕ} (h : m + n ≤ maxSafeInteger) :
    Number.add (m : Number) (n : Number) = ((m + n : ℕ) : Number) := by
  rw [← round_natCast h]
  simp [add]

end Number

/-! ### Literals -/

/-- White space and line ends. -/
def isSpace (c : Char) : Bool :=
  let n := c.toNat
  (9 ≤ n && n ≤ 13) || n == 0x20 || n == 0xA0 || n == 0x1680 || (0x2000 ≤ n && n ≤ 0x200A) ||
    n == 0x2028 || n == 0x2029 || n == 0x202F || n == 0x205F || n == 0x3000 || n == 0xFEFF

/-- `text.trim()`. -/
def trim (cs : List Char) : List Char :=
  ((cs.dropWhile isSpace).reverse.dropWhile isSpace).reverse

/-- The exponent at the end of a literal. -/
def exponent? : List Char → Option ℤ
  | [] => some 0
  | c :: cs =>
    if c = 'e' ∨ c = 'E' then
      let negative := cs.head? = some '-'
      let digits := if negative ∨ cs.head? = some '+' then cs.tail else cs
      if digits ≠ [] ∧ digits.all Char.isDigit then
        let value : ℤ := Nat.ofDigitChars 10 digits 0
        some (if negative then -value else value)
      else none
    else none

/-- The value of a decimal literal without a sign. -/
def decimal? (cs : List Char) : Option ℚ :=
  let whole := cs.takeWhile Char.isDigit
  let rest := cs.dropWhile Char.isDigit
  let point := rest.head? = some '.'
  let fraction := if point then rest.tail.takeWhile Char.isDigit else []
  let rest := if point then rest.tail.dropWhile Char.isDigit else rest
  if whole = [] ∧ fraction = [] then none
  else (exponent? rest).map fun e : ℤ =>
    (Nat.ofDigitChars 10 (whole ++ fraction) 0 : ℚ) * 10 ^ (e - fraction.length)

/-- The value of a digit in a base of at most 16. -/
def digitValue? (base : ℕ) (c : Char) : Option ℕ :=
  let n := c.toNat
  let value :=
    if 48 ≤ n ∧ n ≤ 57 then n - 48
    else if 97 ≤ n ∧ n ≤ 102 then n - 87
    else if 65 ≤ n ∧ n ≤ 70 then n - 55
    else base
  if value < base then some value else none

/-- The value of digits in a base. -/
def digitsValue? (base : ℕ) (cs : List Char) : Option ℚ :=
  if cs = [] then none
  else cs.foldlM (fun value c => (digitValue? base c).map fun d => base * value + d) (0 : ℚ)

/-- The base that a literal names. -/
def literalBase? : List Char → Option ℕ
  | '0' :: c :: _ =>
    if c = 'x' ∨ c = 'X' then some 16
    else if c = 'o' ∨ c = 'O' then some 8
    else if c = 'b' ∨ c = 'B' then some 2
    else none
  | _ => none

/-- `Number(text)`. -/
def Number.ofText (text : List Char) : Number :=
  let cs := trim text
  if cs = [] then .fin 0
  else
    match literalBase? cs with
    | some base => ((digitsValue? base (cs.drop 2)).map Number.round).getD .nan
    | none =>
      let negative := cs.head? = some '-'
      let unsigned := if negative ∨ cs.head? = some '+' then cs.tail else cs
      if unsigned = "Infinity".toList then if negative then .negInf else .posInf
      else ((decimal? unsigned).map fun x => Number.round (if negative then -x else x)).getD .nan

theorem isSpace_of_isDigit {c : Char} (h : c.isDigit = true) : isSpace c = false := by
  have := isDigit_iff.mp h
  simp only [isSpace, Bool.or_eq_false_iff, Bool.and_eq_false_iff, decide_eq_false_iff_not,
    beq_eq_false_iff_ne]
  omega

theorem trim_of_digits {cs : List Char} (h : ∀ c ∈ cs, c.isDigit) : trim cs = cs := by
  have hdrop : ∀ ds : List Char, (∀ c ∈ ds, c.isDigit) → ds.dropWhile isSpace = ds := by
    intro ds hds
    cases ds with
    | nil => rfl
    | cons d ds =>
      exact List.dropWhile_cons_of_neg
        (by simp [isSpace_of_isDigit (hds d List.mem_cons_self)])
  rw [trim, hdrop cs h, hdrop _ fun c hc => h c (List.mem_reverse.mp hc), List.reverse_reverse]

/-- **Decimal digits** are read as the nearest number to the one they stand for. -/
theorem Number.ofText_digits_eq_round {cs : List Char} (hne : cs ≠ [])
    (h : ∀ c ∈ cs, c.isDigit) : Number.ofText cs = Number.round (Nat.ofDigitChars 10 cs 0 : ℕ) := by
  have hletter : ∀ c ∈ cs, c.isDigit = false → False := fun c hc hd => by
    rw [h c hc] at hd
    cases hd
  have hbase : literalBase? cs = none := by
    unfold literalBase?
    split
    · rename_i c rest
      have hc : ∀ l, l.isDigit = false → c ≠ l := fun l hl hcl =>
        hletter c (by simp) (hcl ▸ hl)
      simp [hc 'x' rfl, hc 'X' rfl, hc 'o' rfl, hc 'O' rfl, hc 'b' rfl, hc 'B' rfl]
    · rfl
  have hhead : ∀ l, l.isDigit = false → cs.head? ≠ some l := fun l hl hl' =>
    hletter l (List.mem_of_mem_head? hl') hl
  have hinfinity : cs ≠ "Infinity".toList := fun heq =>
    hletter 'I' (heq ▸ by decide) rfl
  have hdecimal : decimal? cs = some (Nat.ofDigitChars 10 cs 0 : ℚ) := by
    unfold decimal?
    rw [List.takeWhile_eq_self_iff.mpr h, List.dropWhile_eq_nil_iff.mpr h]
    simp [hne, exponent?]
  unfold Number.ofText
  simp only [trim_of_digits h, hne, if_false, hbase, hhead '-' rfl, hhead '+' rfl, or_self,
    hinfinity, hdecimal, Option.map_some, Option.getD_some]

/-- They are read as this number, if it is a safe integer. -/
theorem Number.ofText_digits {cs : List Char} (hne : cs ≠ []) (h : ∀ c ∈ cs, c.isDigit)
    (hsafe : Nat.ofDigitChars 10 cs 0 ≤ maxSafeInteger) :
    Number.ofText cs = (Nat.ofDigitChars 10 cs 0 : Number) :=
  (Number.ofText_digits_eq_round hne h).trans (Number.round_natCast hsafe)

end Js

end FitzDestroyer
