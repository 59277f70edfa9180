import FitzDestroyer.Js.NumberReading

/-!
# Numbers are read back

`String(x)` writes a literal of JSON, and `Number(String(x))` is `x`.

* `magnitudeLiteral` : the literal that is written;
* `Number.ofText_numberText` : **a number is read back from its text**;
* `takeNumber_numberText` : also from the start of a longer text.
-/

namespace FitzDestroyer

namespace Js

/-! ### Digits -/

section

variable (n : ℕ)

/-- The digits of a number before the zeros at the end. -/
def significant : List Char := (Nat.toDigits 10 n).rdropWhile (· = '0')

theorem significant_append :
    ∃ zeros, significant n ++ List.replicate zeros '0' = Nat.toDigits 10 n := by
  refine ⟨((Nat.toDigits 10 n).rtakeWhile (· = '0')).length, ?_⟩
  have hzeros : (Nat.toDigits 10 n).rtakeWhile (· = '0') =
      List.replicate ((Nat.toDigits 10 n).rtakeWhile (· = '0')).length '0' :=
    List.eq_replicate_iff.mpr ⟨rfl, fun c hc => by simpa using List.mem_rtakeWhile_imp hc⟩
  rw [← hzeros]
  exact List.rdropWhile_append_rtakeWhile

theorem isDigit_significant : ∀ c ∈ significant n, c.isDigit = true := fun _ hc =>
  isDigit_of_mem_toDigits ((List.rdropWhile_prefix _ _).mem hc)

/-- The zeros at the end are a power of ten. -/
theorem natCast_eq_significant :
    (n : ℚ) = Nat.ofDigitChars 10 (significant n) 0 *
      10 ^ ((Nat.toDigits 10 n).length - (significant n).length : ℤ) := by
  obtain ⟨zeros, hzeros⟩ := significant_append n
  have hvalue := congrArg (fun ds => Nat.ofDigitChars 10 ds 0) hzeros
  have hlength := congrArg List.length hzeros
  rw [List.length_append, List.length_replicate] at hlength
  simp only [Nat.ofDigitChars_append, Nat.ofDigitChars_replicate_zero,
    Nat.ofDigitChars_ten_toDigits] at hvalue
  rw [← hlength]
  conv_lhs => rw [← hvalue]
  push_cast
  rw [add_sub_cancel_left, zpow_natCast, mul_comm]

/-- There is no zero before the digits. -/
theorem toDigits_eq_of_head? (h : (Nat.toDigits 10 n).head? = some '0') :
    Nat.toDigits 10 n = ['0'] := by
  obtain ⟨ds, hds⟩ := List.head?_eq_some_iff.mp h
  have hlt : n < 10 ^ ds.length := by
    have hvalue := congrArg (fun ds => Nat.ofDigitChars 10 ds 0) hds
    simp only [Nat.ofDigitChars_ten_toDigits, Nat.ofDigitChars_cons] at hvalue
    rw [hvalue]
    exact ofDigitChars_lt fun c hc =>
      isDigit_of_mem_toDigits (n := n) (hds ▸ List.mem_cons_of_mem _ hc)
  rcases List.eq_nil_or_concat' ds with rfl | ⟨init, last, rfl⟩
  · exact hds
  · have hpos : 0 < (init ++ [last]).length := by simp
    have hle := (Nat.length_toDigits_le_iff (b := 10) (by decide) hpos).mpr hlt
    rw [hds, List.length_cons] at hle
    omega

variable {n}

theorem significant_ne_nil (h : n ≠ 0) : significant n ≠ [] := fun hnil => by
  have hvalue := natCast_eq_significant n
  rw [hnil, Nat.ofDigitChars_nil, Nat.cast_zero, zero_mul] at hvalue
  exact h (by exact_mod_cast hvalue)

theorem head?_significant (h : n ≠ 0) : (significant n).head? ≠ some '0' := fun hzero => by
  obtain ⟨zeros, hzeros⟩ := significant_append n
  have hdigits : Nat.toDigits 10 n = ['0'] := by
    refine toDigits_eq_of_head? n ?_
    rw [← hzeros, List.head?_append, hzero, Option.some_or]
  have hvalue := congrArg (fun ds => Nat.ofDigitChars 10 ds 0) hdigits
  simp only [Nat.ofDigitChars_ten_toDigits] at hvalue
  exact h (hvalue.trans (by decide))

end

theorem pointed_eq (digits : List Char) :
    pointed digits = digits.take 1 ++ Literal.fractionText (digits.drop 1) := by
  rcases digits with _ | ⟨digit, _ | ⟨digit', digits⟩⟩ <;>
    simp [pointed, Literal.fractionText]

/-! ### Literals of numbers -/

/-- Digits with a point after the first of them. -/
def pointedLiteral (digits : List Char) (exponent : ℤ) : Literal where
  whole := digits.take 1
  fraction := digits.drop 1
  exponent := some exponent

/-- The literal of an integer. -/
def integerLiteral (decimal : ℕ) : Literal :=
  if decimal < 10 ^ 21 then ⟨Nat.toDigits 10 decimal, [], none⟩
  else pointedLiteral (significant decimal) ((Nat.toDigits 10 decimal).length - 1)

/-- The literal of a decimal that is no integer. -/
def decimalLiteral (decimal : ℕ) (exponent : ℤ) : Literal :=
  let digits := significant decimal
  let position := (Nat.toDigits 10 decimal).length + exponent
  if 0 < position then ⟨digits.take position.toNat, digits.drop position.toNat, none⟩
  else if -6 < position then ⟨['0'], List.replicate (-position).toNat '0' ++ digits, none⟩
  else pointedLiteral digits (position - 1)

/-- The literal of a number. -/
def magnitudeLiteral (q : ℚ) : Literal :=
  if q.den = 1 then integerLiteral (shortest q.num.natAbs)
  else decimalLiteral (shortestFraction q).1 (shortestFraction q).2

section

variable {decimal : ℕ} {exponent : ℤ}

theorem valid_pointedLiteral (h : decimal ≠ 0) (e : ℤ) :
    (pointedLiteral (significant decimal) e).Valid where
  whole_ne hnil := significant_ne_nil h ((List.take_eq_nil_iff.mp hnil).resolve_left (by decide))
  whole c hc := isDigit_significant decimal c (List.mem_of_mem_take hc)
  fraction c hc := isDigit_significant decimal c (List.mem_of_mem_drop hc)
  no_zeros hzero := by
    refine absurd ?_ (head?_significant h)
    rwa [pointedLiteral, List.head?_take, if_neg (by decide)] at hzero

theorem value_pointedLiteral (h : decimal ≠ 0) :
    (pointedLiteral (significant decimal)
      ((Nat.toDigits 10 decimal).length + exponent - 1)).value = decimal * 10 ^ exponent := by
  have hpos := List.length_pos_of_ne_nil (significant_ne_nil h)
  have hten : (10 : ℚ) ≠ 0 := by norm_num
  rw [Literal.value, pointedLiteral, List.take_append_drop, Option.getD_some,
    natCast_eq_significant decimal, mul_assoc, ← zpow_add₀ hten, List.length_drop,
    Nat.cast_sub hpos]
  congr 2
  push_cast
  ring

theorem valid_integerLiteral : (integerLiteral decimal).Valid := by
  unfold integerLiteral
  split_ifs with hsmall
  · exact {
      whole_ne := Nat.toDigits_ne_nil
      whole := isDigit_toDigits decimal
      fraction := fun c hc => by simp at hc
      no_zeros := toDigits_eq_of_head? decimal }
  · exact valid_pointedLiteral (by omega) _

theorem value_integerLiteral : (integerLiteral decimal).value = decimal := by
  unfold integerLiteral
  split_ifs with hsmall
  · simp [Literal.value, Nat.ofDigitChars_ten_toDigits]
  · have hvalue := @value_pointedLiteral decimal 0 (by omega)
    simpa using hvalue

theorem text_integerLiteral : (integerLiteral decimal).text = decimalText decimal := by
  unfold integerLiteral decimalText
  dsimp only
  split_ifs with hsmall
  · simp [Literal.text, Literal.fractionText, Literal.exponentText]
  · have hpos : 0 < (Nat.toDigits 10 decimal).length := Nat.length_toDigits_pos
    have hnat : ((Nat.toDigits 10 decimal).length - 1 : ℤ).natAbs =
        (Nat.toDigits 10 decimal).length - 1 := by omega
    rw [pointed_eq, List.append_assoc, Literal.text, pointedLiteral, Literal.exponentText,
      if_neg (by omega), hnat]
    rfl

variable (hne : decimal ≠ 0)
include hne

theorem valid_decimalLiteral : (decimalLiteral decimal exponent).Valid := by
  unfold decimalLiteral
  dsimp only
  split_ifs with hpoint hzeros
  · exact {
      whole_ne := fun hnil =>
        significant_ne_nil hne ((List.take_eq_nil_iff.mp hnil).resolve_left (by omega))
      whole := fun c hc => isDigit_significant decimal c (List.mem_of_mem_take hc)
      fraction := fun c hc => isDigit_significant decimal c (List.mem_of_mem_drop hc)
      no_zeros := fun hzero => by
        refine absurd ?_ (head?_significant hne)
        rwa [List.head?_take, if_neg (by omega)] at hzero }
  · refine {
      whole_ne := List.cons_ne_nil _ _
      whole := fun c hc => ?_
      fraction := fun c hc => ?_
      no_zeros := fun _ => rfl }
    · rw [List.mem_singleton.mp hc]
      rfl
    · rcases List.mem_append.mp hc with hc | hc
      · rw [(List.mem_replicate.mp hc).2]
        rfl
      · exact isDigit_significant decimal c hc
  · exact valid_pointedLiteral hne _

theorem value_decimalLiteral
    (hpoint : ((Nat.toDigits 10 decimal).length + exponent).toNat ≤ (significant decimal).length) :
    (decimalLiteral decimal exponent).value = decimal * 10 ^ exponent := by
  have hten : (10 : ℚ) ≠ 0 := by norm_num
  unfold decimalLiteral
  dsimp only
  split_ifs with hpos hzeros
  · rw [Literal.value, List.take_append_drop, Option.getD_none, natCast_eq_significant decimal,
      mul_assoc, ← zpow_add₀ hten, List.length_drop, Nat.cast_sub hpoint,
      Int.toNat_of_nonneg hpos.le]
    congr 2
    ring
  · rw [Literal.value, Option.getD_none, natCast_eq_significant decimal, mul_assoc,
      ← zpow_add₀ hten, List.length_append, List.length_replicate, Nat.cast_add,
      Int.toNat_of_nonneg (by omega), List.singleton_append, Nat.ofDigitChars_cons,
      Nat.ofDigitChars_append, Nat.ofDigitChars_replicate_zero]
    congr 2
    ring
  · exact value_pointedLiteral hne

theorem text_decimalLiteral
    (hpoint : ((Nat.toDigits 10 decimal).length + exponent).toNat < (significant decimal).length) :
    (decimalLiteral decimal exponent).text =
      if 0 < (Nat.toDigits 10 decimal).length + exponent then
        (significant decimal).take ((Nat.toDigits 10 decimal).length + exponent).toNat ++
          '.' :: (significant decimal).drop ((Nat.toDigits 10 decimal).length + exponent).toNat
      else if -6 < (Nat.toDigits 10 decimal).length + exponent then
        '0' :: '.' :: (List.replicate (-((Nat.toDigits 10 decimal).length + exponent)).toNat '0' ++
          significant decimal)
      else pointed (significant decimal) ++
        'e' :: '-' ::
          Nat.toDigits 10 (1 - ((Nat.toDigits 10 decimal).length + exponent)).toNat := by
  unfold decimalLiteral
  dsimp only
  split_ifs with hpos hzeros
  · have hdrop : (significant decimal).drop
        ((Nat.toDigits 10 decimal).length + exponent).toNat ≠ [] := by
      rw [Ne, List.drop_eq_nil_iff]
      omega
    simp [Literal.text, Literal.fractionText, Literal.exponentText, hdrop]
  · simp [Literal.text, Literal.fractionText, Literal.exponentText, significant_ne_nil hne]
  · have hnat : ((Nat.toDigits 10 decimal).length + exponent - 1 : ℤ).natAbs =
        (1 - ((Nat.toDigits 10 decimal).length + exponent)).toNat := by omega
    rw [pointed_eq, List.append_assoc, Literal.text, pointedLiteral, Literal.exponentText,
      if_pos (by omega), hnat]

end

/-- The number of an integer is an integer. -/
theorem den_of_round_natCast {n : ℕ} {q : ℚ} (h : Number.round n = .fin q) : q.den = 1 := by
  obtain ⟨m, hm⟩ := roundMagnitude_natCast_int n
  unfold Number.round at h
  rw [abs_of_nonneg n.cast_nonneg, hm] at h
  simp only [not_lt.mpr n.cast_nonneg, if_false] at h
  split_ifs at h <;> obtain rfl := Number.fin.inj h <;> simp

section

variable {q : ℚ}

theorem shortestFraction_ne_zero (hpos : 0 < q) (hdouble : IsDouble q) :
    (shortestFraction q).1 ≠ 0 := fun hzero => by
  have hread := round_shortestFraction hpos hdouble
  rw [hzero, Nat.cast_zero, zero_mul, Number.round, if_pos rfl] at hread
  exact hpos.ne (Number.fin.inj hread)

/-- A fraction has digits after the point. -/
theorem position_lt (hpos : 0 < q) (hdouble : IsDouble q) (hden : q.den ≠ 1) :
    ((Nat.toDigits 10 (shortestFraction q).1).length + (shortestFraction q).2).toNat <
      (significant (shortestFraction q).1).length := by
  have hread := round_shortestFraction hpos hdouble
  have hdigits := List.length_pos_of_ne_nil
    (significant_ne_nil (shortestFraction_ne_zero hpos hdouble))
  generalize shortestFraction q = shortest at hread hdigits ⊢
  obtain ⟨decimal, exponent⟩ := shortest
  dsimp only at hread hdigits ⊢
  by_contra hge
  -- Otherwise it would be an integer.
  obtain ⟨k, hk⟩ : ∃ k : ℕ, (Nat.toDigits 10 decimal).length - (significant decimal).length +
      exponent = (k : ℤ) := ⟨((Nat.toDigits 10 decimal).length - (significant decimal).length +
        exponent : ℤ).toNat, by omega⟩
  refine hden (den_of_round_natCast
    (n := Nat.ofDigitChars 10 (significant decimal) 0 * 10 ^ k) ?_)
  rw [← hread, natCast_eq_significant decimal, mul_assoc,
    ← zpow_add₀ (by norm_num : (10 : ℚ) ≠ 0), hk]
  push_cast
  rfl

/-! ### Numbers -/

theorem valid_magnitudeLiteral (hnonneg : 0 ≤ q) (hdouble : IsDouble q) :
    (magnitudeLiteral q).Valid := by
  unfold magnitudeLiteral
  split_ifs with hden
  · exact valid_integerLiteral
  · have hpos : 0 < q := hnonneg.lt_of_ne fun hzero => hden (hzero ▸ rfl)
    exact valid_decimalLiteral (shortestFraction_ne_zero hpos hdouble)

/-- The literal of a number is the one that is written. -/
theorem text_magnitudeLiteral (hnonneg : 0 ≤ q) (hdouble : IsDouble q) :
    (magnitudeLiteral q).text = magnitudeText q := by
  unfold magnitudeLiteral magnitudeText
  split_ifs with hden
  · exact text_integerLiteral
  · have hpos : 0 < q := hnonneg.lt_of_ne fun hzero => hden (hzero ▸ rfl)
    exact text_decimalLiteral (shortestFraction_ne_zero hpos hdouble)
      (position_lt hpos hdouble hden)

/-- It is read as the number. -/
theorem round_magnitudeLiteral (hnonneg : 0 ≤ q) (hdouble : IsDouble q) :
    Number.round (magnitudeLiteral q).value = .fin q := by
  unfold magnitudeLiteral
  split_ifs with hden
  · have hq : q = (q.num.natAbs : ℕ) := by
      rw [Nat.cast_natAbs, abs_of_nonneg (Rat.num_nonneg.mpr hnonneg),
        Rat.coe_int_num_of_den_eq_one hden]
    rw [value_integerLiteral, round_shortest (hq ▸ hdouble), ← hq]
  · have hpos : 0 < q := hnonneg.lt_of_ne fun hzero => hden (hzero ▸ rfl)
    rw [value_decimalLiteral (shortestFraction_ne_zero hpos hdouble)
      (position_lt hpos hdouble hden).le, round_shortestFraction hpos hdouble]

theorem Number.round_neg {x : ℚ} (h : Number.round x = .fin q) : Number.round (-x) = .fin (-q) := by
  unfold Number.round at h ⊢
  simp only [abs_neg, neg_eq_zero] at h ⊢
  rcases lt_trichotomy x 0 with hneg | rfl | hpos
  · simp only [hneg.ne, hneg, if_true, if_false] at h
    split_ifs at h with hlarge
    obtain rfl := Number.fin.inj h
    simp only [hneg.ne, not_lt.mpr (neg_pos.mpr hneg).le, hlarge, if_false, neg_neg]
  · simp only [if_true] at h ⊢
    obtain rfl := Number.fin.inj h
    rw [neg_zero]
  · simp only [hpos.ne', not_lt.mpr hpos.le, if_false] at h
    split_ifs at h with hlarge
    obtain rfl := Number.fin.inj h
    simp only [hpos.ne', neg_lt_zero.mpr hpos, hlarge, if_true, if_false]

/-- The literal of a number, with its sign. -/
theorem toList_numberText (hdouble : IsDouble q) : (numberText (.fin q)).toList =
    (if q < 0 then ['-'] else []) ++ (magnitudeLiteral |q|).text := by
  rw [text_magnitudeLiteral (abs_nonneg q) (isDouble_abs hdouble), numberText, signed,
    String.toList_ofList]
  split_ifs <;> rfl

theorem round_signed (hdouble : IsDouble q) : Number.round
    (if q < 0 then -(magnitudeLiteral |q|).value else (magnitudeLiteral |q|).value) = .fin q := by
  have hmagnitude := round_magnitudeLiteral (abs_nonneg q) (isDouble_abs hdouble)
  split_ifs with hneg
  · rw [Number.round_neg hmagnitude, abs_of_neg hneg, neg_neg]
  · rw [hmagnitude, abs_of_nonneg (not_lt.mp hneg)]

theorem Number.ofText_fin (hdouble : IsDouble q) :
    Number.ofText (numberText (.fin q)).toList = .fin q := by
  have hread := Literal.ofText_signed
    (valid_magnitudeLiteral (abs_nonneg q) (isDouble_abs hdouble)) (q < 0)
  simp only [decide_eq_true_eq] at hread
  rw [toList_numberText hdouble, hread, round_signed hdouble]

/-- **A number of a JSON text is read back**, whatever follows it. -/
theorem takeNumber_numberText (hdouble : IsDouble q) {rest : List Char} (h : Stops rest) :
    takeNumber ((numberText (.fin q)).toList ++ rest) = some (.fin q, rest) := by
  have hvalid := valid_magnitudeLiteral (abs_nonneg q) (isDouble_abs hdouble)
  have htake := Literal.takeLiteral_text hvalid h
  have hread := Number.ofText_fin hdouble
  have htext := toList_numberText hdouble
  unfold takeNumber
  by_cases hneg : q < 0
  · rw [if_pos hneg, List.singleton_append] at htext
    rw [htext] at hread ⊢
    rw [List.cons_append, List.head?_cons, if_pos rfl, List.tail_cons, htake, Option.map_some,
      hread]
  · rw [if_neg hneg, List.nil_append] at htext
    rw [htext] at hread ⊢
    have hsign : ((magnitudeLiteral |q|).text ++ rest).head? ≠ some '-' := by
      obtain ⟨c, hc⟩ := Option.isSome_iff_exists.mp
        (List.isSome_head?.mpr (Literal.text_ne_nil hvalid))
      rw [List.head?_append, hc, Option.some_or]
      rintro ⟨⟩
      exact absurd (Literal.head?_text hvalid '-' hc) (by decide)
    rw [if_neg hsign, htake, Option.map_some, hread]

end

/-- A number: it is rounded, or it is not finite. -/
def Number.IsDouble : Number → Prop
  | .fin q => Js.IsDouble q
  | _ => True

/-- **A number is read back from its text.** -/
theorem Number.ofText_numberText {x : Number} (h : x.IsDouble) :
    Number.ofText (numberText x).toList = x := by
  cases x with
  | fin q => exact Number.ofText_fin h
  | nan => decide +kernel
  | posInf => decide +kernel
  | negInf => decide +kernel

end Js

end FitzDestroyer
