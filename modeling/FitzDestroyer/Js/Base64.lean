import Mathlib.Data.List.GetD
import Mathlib.Data.Nat.Notation

/-!
# Base64

Bytes as text: six bits make a character, and three bytes make four of them.

* `base64url` : the text of some bytes, in the alphabet for URLs and without padding;
* `fromBase64url?` : the bytes of a text;
* `fromBase64url?_base64url` : **bytes are read back**.
-/

namespace FitzDestroyer

namespace Js

def base64Alphabet : List Char :=
  "ABCDEFGHIJKLMNOPQRSTUVWXYZabcdefghijklmnopqrstuvwxyz0123456789-_".toList

/-- The character of six bits. -/
def base64Char (n : ℕ) : Char := base64Alphabet.getD n 'A'

/-- The six bits of a character. -/
def base64Value? (c : Char) : Option ℕ := base64Alphabet.idxOf? c

def base64url : List UInt8 → List Char
  | a :: b :: c :: bytes =>
    base64Char (a.toNat / 4) :: base64Char (a.toNat % 4 * 16 + b.toNat / 16) ::
      base64Char (b.toNat % 16 * 4 + c.toNat / 64) :: base64Char (c.toNat % 64) ::
      base64url bytes
  | [a, b] =>
    [base64Char (a.toNat / 4), base64Char (a.toNat % 4 * 16 + b.toNat / 16),
      base64Char (b.toNat % 16 * 4)]
  | [a] => [base64Char (a.toNat / 4), base64Char (a.toNat % 4 * 16)]
  | [] => []

/-- The bits that are left over are not looked at. -/
def fromBase64url? : List Char → Option (List UInt8)
  | w :: x :: y :: z :: cs => do
    let w ← base64Value? w
    let x ← base64Value? x
    let y ← base64Value? y
    let z ← base64Value? z
    let bytes ← fromBase64url? cs
    return (w * 4 + x / 16).toUInt8 :: (x % 16 * 16 + y / 4).toUInt8 ::
      (y % 4 * 64 + z).toUInt8 :: bytes
  | [w, x, y] => do
    let w ← base64Value? w
    let x ← base64Value? x
    let y ← base64Value? y
    return [(w * 4 + x / 16).toUInt8, (x % 16 * 16 + y / 4).toUInt8]
  | [w, x] => do
    let w ← base64Value? w
    let x ← base64Value? x
    return [(w * 4 + x / 16).toUInt8]
  | [_] => none
  | [] => some []

theorem base64Value?_base64Char {n : ℕ} (h : n < 64) : base64Value? (base64Char n) = some n := by
  have hall : ∀ n < 64, base64Value? (base64Char n) = some n := by decide +kernel
  exact hall n h

/-- A byte is put together from its parts. -/
theorem toUInt8_eq {n : ℕ} {byte : UInt8} (h : n = byte.toNat) : n.toUInt8 = byte := by
  rw [h]
  exact UInt8.ofNat_toNat

/-- **Bytes are read back.** -/
theorem fromBase64url?_base64url (bytes : List UInt8) :
    fromBase64url? (base64url bytes) = some bytes := by
  have hlt : ∀ byte : UInt8, byte.toNat < 256 := UInt8.toNat_lt
  induction bytes using base64url.induct with
  | case1 a b c bytes ih =>
    have ha := hlt a
    have hb := hlt b
    have hc := hlt c
    rw [base64url, fromBase64url?, base64Value?_base64Char (by omega),
      base64Value?_base64Char (by omega), base64Value?_base64Char (by omega),
      base64Value?_base64Char (by omega), ih]
    have ha' : (a.toNat / 4 * 4 + (a.toNat % 4 * 16 + b.toNat / 16) / 16).toUInt8 = a :=
      toUInt8_eq (by omega)
    have hb' : ((a.toNat % 4 * 16 + b.toNat / 16) % 16 * 16 +
        (b.toNat % 16 * 4 + c.toNat / 64) / 4).toUInt8 = b := toUInt8_eq (by omega)
    have hc' : ((b.toNat % 16 * 4 + c.toNat / 64) % 4 * 64 + c.toNat % 64).toUInt8 = c :=
      toUInt8_eq (by omega)
    simp only [Option.bind_eq_bind, Option.bind_some, Option.pure_def, ha', hb', hc']
  | case2 a b =>
    have ha := hlt a
    have hb := hlt b
    rw [base64url, fromBase64url?, base64Value?_base64Char (by omega),
      base64Value?_base64Char (by omega), base64Value?_base64Char (by omega)]
    have ha' : (a.toNat / 4 * 4 + (a.toNat % 4 * 16 + b.toNat / 16) / 16).toUInt8 = a :=
      toUInt8_eq (by omega)
    have hb' : ((a.toNat % 4 * 16 + b.toNat / 16) % 16 * 16 + b.toNat % 16 * 4 / 4).toUInt8 = b :=
      toUInt8_eq (by omega)
    simp only [Option.bind_eq_bind, Option.bind_some, Option.pure_def, ha', hb']
  | case3 a =>
    have ha := hlt a
    rw [base64url, fromBase64url?, base64Value?_base64Char (by omega),
      base64Value?_base64Char (by omega)]
    have ha' : (a.toNat / 4 * 4 + a.toNat % 4 * 16 / 16).toUInt8 = a := toUInt8_eq (by omega)
    simp only [Option.bind_eq_bind, Option.bind_some, Option.pure_def, ha']
  | case4 => rfl

/-- The characters are in the alphabet. -/
theorem mem_base64url {bytes : List UInt8} {c : Char} (h : c ∈ base64url bytes) :
    c ∈ base64Alphabet := by
  have hchar : ∀ n, base64Char n ∈ base64Alphabet := by
    intro n
    rcases Nat.lt_or_ge n base64Alphabet.length with hn | hn
    · rw [base64Char, List.getD_eq_getElem _ _ hn]
      exact List.getElem_mem hn
    · rw [base64Char, List.getD_eq_default _ _ hn]
      decide
  induction bytes using base64url.induct with
  | case1 a b d bytes ih =>
    simp only [base64url, List.mem_cons] at h
    rcases h with rfl | rfl | rfl | rfl | h
    · exact hchar _
    · exact hchar _
    · exact hchar _
    · exact hchar _
    · exact ih h
  | case2 a b =>
    simp only [base64url, List.mem_cons, List.not_mem_nil, or_false] at h
    rcases h with rfl | rfl | rfl <;> exact hchar _
  | case3 a =>
    simp only [base64url, List.mem_cons, List.not_mem_nil, or_false] at h
    rcases h with rfl | rfl <;> exact hchar _
  | case4 => exact absurd h List.not_mem_nil

end Js

end FitzDestroyer
