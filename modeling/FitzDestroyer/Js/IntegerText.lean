import FitzDestroyer.Js.Rounding
import Mathlib.Data.List.DropRight

/-!
# The text of an integer

`String(x)` writes the number `x` with as few significant digits as tell it from every other
number, and from `10 ^ 21` on with an exponent.

* `Integer` : a number that is a non-negative integer;
* `shortest` : the decimal that is written, `decimalText` : how it is written;
* `Integer.text_injective` : different integers have different texts;
* `Integer.text_of_le` : a safe integer is written with all its digits.
-/

namespace FitzDestroyer

namespace Js

/-! ### The shortest decimal -/

/-- A number that is a non-negative integer. -/
structure Integer where
  value : ℕ
  double_value : double value = value

/-- The multiples of a step around a number, the closest one first, of two that are as close the
even one. -/
def neighbours (n step : ℕ) : List ℕ :=
  let below := n / step * step
  if 2 * (n % step) < step ∨ (2 * (n % step) = step ∧ n / step % 2 = 0) then [below, below + step]
  else [below + step, below]

/-- The decimal with the fewest significant digits that is read as the number. -/
def shortest (n : ℕ) : ℕ :=
  let length := (Nat.toDigits 10 n).length
  ((List.range length).findSome? fun i =>
    (neighbours n (10 ^ (length - 1 - i))).find? fun decimal => double decimal = n).getD n

/-- It is read as the number. -/
theorem double_shortest {n : ℕ} (h : double n = n) : double (shortest n) = n := by
  unfold shortest
  dsimp only
  cases hfound : (List.range (Nat.toDigits 10 n).length).findSome? fun i =>
      (neighbours n (10 ^ ((Nat.toDigits 10 n).length - 1 - i))).find? fun decimal =>
        double decimal = n with
  | none => exact h
  | some decimal =>
    obtain ⟨i, -, hi⟩ := List.exists_of_findSome?_eq_some hfound
    have hdecimal := List.find?_some hi
    exact of_decide_eq_true hdecimal

/-- Only a safe integer itself is read as it. -/
theorem eq_of_double_eq {m n : ℕ} (hn : n ≤ maxSafeInteger) (h : double m = n) : m = n := by
  by_cases hm : m ≤ maxSafeInteger
  · rwa [double_of_le hm] at h
  · -- Otherwise `2 ^ 53`, which is a number, lies between them.
    have hmax : maxSafeInteger = 2 ^ 53 - 1 := rfl
    have hpow : roundMagnitude ((2 ^ 53 : ℕ) : ℚ) = (2 ^ 53 : ℕ) := by decide +kernel
    have hle : ((2 ^ 53 : ℕ) : ℚ) ≤ m := by exact_mod_cast (by omega : 2 ^ 53 ≤ m)
    have hround : ((2 ^ 53 : ℕ) : ℚ) ≤ roundMagnitude m := by
      have hmono := roundMagnitude_mono (by positivity) hle
      rwa [hpow] at hmono
    have hnum : ((2 ^ 53 : ℕ) : ℚ) ≤ (roundMagnitude m).num := by
      rw [← Rat.mul_den_eq_num]
      have hden : (1 : ℚ) ≤ (roundMagnitude m).den := by
        exact_mod_cast (roundMagnitude m).den_pos
      exact hround.trans (le_mul_of_one_le_right (le_trans (Nat.cast_nonneg _) hround) hden)
    have hint : ((2 ^ 53 : ℕ) : ℤ) ≤ (roundMagnitude m).num := by exact_mod_cast hnum
    rw [double] at h
    omega

/-- A safe integer is its own shortest decimal. -/
theorem shortest_of_le {n : ℕ} (h : n ≤ maxSafeInteger) : shortest n = n :=
  eq_of_double_eq h (double_shortest (double_of_le h))

/-! ### Its text -/

/-- The significant digits, with a point after the first one. -/
def pointed : List Char → List Char
  | [] => []
  | [digit] => [digit]
  | digit :: digits => digit :: '.' :: digits

/-- A decimal that is a natural number. -/
def decimalText (decimal : ℕ) : List Char :=
  let digits := Nat.toDigits 10 decimal
  if decimal < 10 ^ 21 then digits
  else pointed (digits.rdropWhile (· = '0')) ++ 'e' :: '+' :: Nat.toDigits 10 (digits.length - 1)

/-- `String(x)`. -/
def Integer.text (x : Integer) : String := String.ofList (decimalText (shortest x.value))

example : decimalText (shortest 4390) = "4390".toList := by decide +kernel
example : decimalText (shortest (2 ^ 70)) = "1.1805916207174113e+21".toList := by decide +kernel

theorem pointed_injective : Function.Injective pointed := by
  intro xs ys h
  rcases xs with _ | ⟨x, _ | ⟨x', xs⟩⟩ <;> rcases ys with _ | ⟨y, _ | ⟨y', ys⟩⟩ <;>
    simp_all [pointed]

theorem mem_pointed {c : Char} {digits : List Char} (h : c ∈ pointed digits) :
    c ∈ digits ∨ c = '.' := by
  rcases digits with _ | ⟨x, _ | ⟨x', xs⟩⟩
  · exact .inl h
  · exact .inl h
  · simp only [pointed, List.mem_cons] at h ⊢
    tauto

theorem isDigit_of_mem_toDigits {c : Char} {n : ℕ} (h : c ∈ Nat.toDigits 10 n) :
    c.isDigit = true :=
  Nat.isDigit_of_mem_toDigits (by decide) (by decide) h

theorem toDigits_injective : Function.Injective (Nat.toDigits 10) :=
  Function.LeftInverse.injective fun _ => Nat.ofDigitChars_ten_toDigits

theorem toString_injective {m n : ℕ} (h : toString m = toString n) : m = n := by
  rw [Nat.toString_eq_ofList_toDigits, Nat.toString_eq_ofList_toDigits] at h
  exact toDigits_injective (String.ofList_injective h)

/-- Digits of a length are known from those before the zeros at their end. -/
theorem eq_of_rdropWhile_eq {xs ys : List Char} (hlength : xs.length = ys.length)
    (h : xs.rdropWhile (· = '0') = ys.rdropWhile (· = '0')) : xs = ys := by
  have hsplit : ∀ zs : List Char,
      zs.rdropWhile (· = '0') ++ zs.rtakeWhile (· = '0') = zs := fun _ =>
    List.rdropWhile_append_rtakeWhile
  have hzeros : ∀ zs : List Char, zs.rtakeWhile (· = '0') =
      List.replicate (zs.rtakeWhile (· = '0')).length '0' := fun zs =>
    List.eq_replicate_iff.mpr ⟨rfl, fun c hc => by simpa using List.mem_rtakeWhile_imp hc⟩
  -- There are as many zeros.
  have hcount : (xs.rtakeWhile (· = '0')).length = (ys.rtakeWhile (· = '0')).length := by
    have hx := congrArg List.length (hsplit xs)
    have hy := congrArg List.length (hsplit ys)
    rw [List.length_append] at hx hy
    rw [h] at hx
    omega
  rw [← hsplit xs, ← hsplit ys, h, hzeros xs, hzeros ys, hcount]

/-- The characters of a decimal. -/
theorem mem_decimalText {c : Char} {decimal : ℕ} (h : c ∈ decimalText decimal) :
    c.isDigit = true ∨ c ∈ ['.', 'e', '+'] := by
  unfold decimalText at h
  dsimp only at h
  split_ifs at h
  · exact .inl (isDigit_of_mem_toDigits h)
  · simp only [List.mem_append, List.mem_cons] at h
    rcases h with h | rfl | rfl | h
    · rcases mem_pointed h with h | rfl
      · exact .inl (isDigit_of_mem_toDigits ((List.rdropWhile_prefix _ _).subset h))
      · exact .inr (by simp)
    · exact .inr (by simp)
    · exact .inr (by simp)
    · exact .inl (isDigit_of_mem_toDigits h)

theorem decimalText_injective : Function.Injective decimalText := by
  have hletter : ∀ n, 'e' ∉ Nat.toDigits 10 n := fun n hmem =>
    absurd (isDigit_of_mem_toDigits hmem) (by decide)
  have hpointed : ∀ n, 'e' ∉ pointed ((Nat.toDigits 10 n).rdropWhile (· = '0')) := by
    intro n hmem
    rcases mem_pointed hmem with hmem | hdot
    · exact hletter n ((List.rdropWhile_prefix _ _).subset hmem)
    · exact absurd hdot (by decide)
  intro m n h
  unfold decimalText at h
  dsimp only at h
  split_ifs at h
  · exact toDigits_injective h
  -- Only one of them has an exponent.
  · exact absurd (h ▸ List.mem_append_right _ List.mem_cons_self) (hletter m)
  · exact absurd (h ▸ List.mem_append_right _ List.mem_cons_self) (hletter n)
  -- The texts before and after the letter are the same.
  · have hsplit := congrArg (List.splitOn 'e') h
    rw [List.splitOn_append_cons_self_of_not_mem (hpointed m),
      List.splitOn_append_cons_self_of_not_mem (hpointed n)] at hsplit
    obtain ⟨hdigits, hexponent⟩ := List.cons.inj hsplit
    have hplus : ∀ k, ('+' :: Nat.toDigits 10 k).splitOn 'e' = ['+' :: Nat.toDigits 10 k] :=
      fun k => List.splitOn_eq_singleton fun hmem =>
        (List.mem_cons.mp hmem).elim (fun heq => absurd heq (by decide)) (hletter k)
    rw [hplus, hplus] at hexponent
    have hlength := toDigits_injective (List.cons.inj (List.cons.inj hexponent).1).2
    have hm := Nat.length_toDigits_pos (b := 10) (n := m)
    have hn := Nat.length_toDigits_pos (b := 10) (n := n)
    exact toDigits_injective
      (eq_of_rdropWhile_eq (by omega) (pointed_injective hdigits))

/-- **Different integers have different texts.** -/
theorem Integer.text_injective : Function.Injective Integer.text := by
  intro x y h
  have hdecimal := decimalText_injective (String.ofList_injective h)
  have hvalue : x.value = y.value := by
    rw [← double_shortest x.double_value, ← double_shortest y.double_value, hdecimal]
  cases x
  cases y
  congr

/-- A safe integer is written with all its digits. -/
theorem Integer.text_of_le {x : Integer} (h : x.value ≤ maxSafeInteger) :
    x.text = toString x.value := by
  have hmax : maxSafeInteger < 10 ^ 21 := by decide
  rw [Integer.text, shortest_of_le h, decimalText, if_pos (by omega),
    Nat.toString_eq_ofList_toDigits]

end Js

end FitzDestroyer
