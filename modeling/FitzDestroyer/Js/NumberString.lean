import FitzDestroyer.Js.IntegerText

/-!
# The text of a number

`String(x)` writes as few significant digits as tell the number from every other number;
`Js/IntegerText.lean` finds them for an integer.

* `fractionText` : how a number that is no integer is written;
* `numberText` : `String(x)`;
* `toFixed` : `x.toFixed(digits)`;
* `mem_numberText`, `mem_toFixed` : the characters of these texts.
-/

namespace FitzDestroyer

namespace Js

/-! ### Fractions -/

/-- The digits before the point, or minus the zeros after it: the number is below the power of ten
with this exponent, and not below the power before it. -/
def pointPosition (q : ℚ) : ℤ :=
  if 1 ≤ q then (Nat.toDigits 10 q.floor.toNat).length
  else -((List.range 400).find? fun zeros => 1 ≤ q * 10 ^ (zeros + 1)).getD 0

/-- The integers around a number, the closest one first, of two that are as close the even one. -/
def nearestIntegers (x : ℚ) : List ℕ :=
  let below := x.floor.toNat
  if nearestEven x = x.floor then [below, below + 1] else [below + 1, below]

/-- The decimal with the fewest significant digits that is read as the number: an integer, and the
exponent of the power of ten that it is multiplied by. -/
def shortestFraction (q : ℚ) : ℕ × ℤ :=
  ((List.range 17).findSome? fun i : ℕ =>
    let exponent := pointPosition q - (i + 1)
    ((nearestIntegers (q / 10 ^ exponent)).find? fun decimal : ℕ =>
      Number.round (decimal * 10 ^ exponent) = .fin q).map fun decimal => (decimal, exponent)).getD
    (0, 0)

/-- The text of a positive number that is no integer. -/
def fractionText (q : ℚ) : List Char :=
  let decimal := Nat.toDigits 10 (shortestFraction q).1
  let digits := decimal.rdropWhile (· = '0')
  let position := decimal.length + (shortestFraction q).2
  if 0 < position then digits.take position.toNat ++ '.' :: digits.drop position.toNat
  else if -6 < position then '0' :: '.' :: (List.replicate (-position).toNat '0' ++ digits)
  else pointed digits ++ 'e' :: '-' :: Nat.toDigits 10 (1 - position).toNat

/-! ### Numbers -/

/-- The text of a number that is not negative. -/
def magnitudeText (q : ℚ) : List Char :=
  if q.den = 1 then decimalText (shortest q.num.natAbs) else fractionText q

/-- The text after the sign of a number. -/
def signed (q : ℚ) (magnitude : List Char) : String :=
  String.ofList (if q < 0 then '-' :: magnitude else magnitude)

/-- `String(x)`. -/
def numberText : Number → String
  | .nan => "NaN"
  | .posInf => "Infinity"
  | .negInf => "-Infinity"
  | .fin q => signed q (magnitudeText |q|)

/-- `x.toFixed(digits)`, for at least one digit. -/
def toFixed (digits : ℕ) : Number → String
  | .fin q =>
    if 10 ^ 21 ≤ |q| then numberText (.fin q)
    else
      let scaled := (|q| * 10 ^ digits + 1 / 2).floor.toNat
      signed q (Nat.toDigits 10 (scaled / 10 ^ digits) ++
        '.' :: pad (scaled % 10 ^ digits) digits)
  | x => numberText x

example : magnitudeText (1 / 8) = "0.125".toList := by decide +kernel
example : (toFixed 2 (.fin (-1 / 8))).toList = "-0.13".toList := by decide +kernel

theorem numberText_natCast {n : ℕ} (h : n ≤ maxSafeInteger) :
    numberText (n : Number) = toString n := by
  have hmax : maxSafeInteger < 10 ^ 21 := by decide
  rw [numberText, abs_of_nonneg n.cast_nonneg, magnitudeText, if_pos (Rat.den_natCast n),
    Rat.num_natCast, Int.natAbs_natCast, shortest_of_le h, decimalText, if_pos (by omega), signed,
    if_neg (not_lt.mpr n.cast_nonneg), Nat.toString_eq_ofList_toDigits]

/-! ### Characters -/

/-- A letter, a digit, a sign or a point. -/
def IsNumberChar (c : Char) : Prop := c.isAlphanum = true ∨ c = '.' ∨ c = '-' ∨ c = '+'

instance (c : Char) : Decidable (IsNumberChar c) := inferInstanceAs (Decidable (_ ∨ _))

theorem isNumberChar_of_mem_toDigits {c : Char} {n : ℕ} (h : c ∈ Nat.toDigits 10 n) :
    IsNumberChar c := by
  left
  rw [Char.isAlphanum, isDigit_of_mem_toDigits h, Bool.or_true]

section Chars

variable {c : Char}

theorem mem_pointed_digits {n : ℕ}
    (h : c ∈ pointed ((Nat.toDigits 10 n).rdropWhile (· = '0'))) : IsNumberChar c := by
  obtain h | rfl := mem_pointed h
  · exact isNumberChar_of_mem_toDigits ((List.rdropWhile_prefix _ _).mem h)
  · decide

theorem mem_decimalText_number {n : ℕ} (h : c ∈ decimalText n) : IsNumberChar c := by
  rw [decimalText] at h
  split_ifs at h
  · exact isNumberChar_of_mem_toDigits h
  · rw [List.mem_append, List.mem_cons, List.mem_cons] at h
    obtain h | rfl | rfl | h := h
    · exact mem_pointed_digits h
    · decide
    · decide
    · exact isNumberChar_of_mem_toDigits h

theorem mem_fractionText {q : ℚ} (h : c ∈ fractionText q) : IsNumberChar c := by
  rw [fractionText] at h
  have hdigits : ∀ {c}, c ∈ (Nat.toDigits 10 (shortestFraction q).1).rdropWhile (· = '0') →
      IsNumberChar c := fun h =>
    isNumberChar_of_mem_toDigits ((List.rdropWhile_prefix _ _).mem h)
  split_ifs at h
  · rw [List.mem_append, List.mem_cons] at h
    obtain h | rfl | h := h
    · exact hdigits (List.mem_of_mem_take h)
    · decide
    · exact hdigits (List.mem_of_mem_drop h)
  · rw [List.mem_cons, List.mem_cons, List.mem_append] at h
    obtain rfl | rfl | h | h := h
    · decide
    · decide
    · rw [(List.mem_replicate.mp h).2]
      decide
    · exact hdigits h
  · rw [List.mem_append, List.mem_cons, List.mem_cons] at h
    obtain h | rfl | rfl | h := h
    · exact mem_pointed_digits h
    · decide
    · decide
    · exact isNumberChar_of_mem_toDigits h

theorem mem_signed {q : ℚ} {magnitude : List Char} (hm : ∀ c ∈ magnitude, IsNumberChar c)
    (h : c ∈ (signed q magnitude).toList) : IsNumberChar c := by
  rw [signed, String.toList_ofList] at h
  split_ifs at h
  · obtain rfl | h := List.mem_cons.mp h
    · decide
    · exact hm c h
  · exact hm c h

theorem mem_numberText {x : Number} (h : c ∈ (numberText x).toList) : IsNumberChar c := by
  cases x with
  | fin q =>
    refine mem_signed (fun c hc => ?_) h
    rw [magnitudeText] at hc
    split_ifs at hc
    · exact mem_decimalText_number hc
    · exact mem_fractionText hc
  | nan | posInf | negInf =>
    rw [numberText] at h
    revert c
    decide

theorem mem_toFixed {digits : ℕ} {x : Number} (h : c ∈ (toFixed digits x).toList) :
    IsNumberChar c := by
  cases x with
  | fin q =>
    rw [toFixed] at h
    split_ifs at h
    · exact mem_numberText h
    · refine mem_signed (fun c hc => ?_) h
      rw [List.mem_append, List.mem_cons] at hc
      obtain hc | rfl | hc := hc
      · exact isNumberChar_of_mem_toDigits hc
      · decide
      · left
        rw [Char.isAlphanum, isDigit_of_mem_pad hc, Bool.or_true]
  | nan | posInf | negInf => exact mem_numberText h

end Chars

end Js

end FitzDestroyer
