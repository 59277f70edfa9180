import Mathlib.Data.Nat.Notation
import Mathlib.Tactic.Common

/-!
# Bytes of a text

* `encode` : `TextEncoder.encode`;
* `decode` : `TextDecoder.decode`, which replaces what is not well formed and leaves out a byte
  order mark at the start;
* `decode_encode` : a text of ASCII characters is decoded from its bytes.
-/

namespace FitzDestroyer

namespace Js

/-- `new TextEncoder().encode(text)`. -/
def encode (text : String) : List UInt8 := text.toUTF8.data.toList

/-- U+FFFD, the character for bytes that are not well formed. -/
def replacement : Char := '\uFFFD'

/-- A character of several bytes, some of which have been read. -/
structure Pending where
  /-- The bytes that are missing, at least one. -/
  needed : ℕ
  codePoint : ℕ
  /-- The least value of the next byte. -/
  lower : ℕ
  /-- The greatest value of the next byte. -/
  upper : ℕ

/-- The first byte of a character: the character, if it is complete. -/
def lead (byte : UInt8) : Char ⊕ Pending :=
  let n := byte.toNat
  if n ≤ 0x7F then .inl (Char.ofNat n)
  else if 0xC2 ≤ n ∧ n ≤ 0xDF then .inr ⟨1, n - 0xC0, 0x80, 0xBF⟩
  else if 0xE0 ≤ n ∧ n ≤ 0xEF then
    .inr ⟨2, n - 0xE0, if n = 0xE0 then 0xA0 else 0x80, if n = 0xED then 0x9F else 0xBF⟩
  else if 0xF0 ≤ n ∧ n ≤ 0xF4 then
    .inr ⟨3, n - 0xF0, if n = 0xF0 then 0x90 else 0x80, if n = 0xF4 then 0x8F else 0xBF⟩
  else .inl replacement

/-- The characters of the bytes, after those of a pending character. -/
def decodeFrom : Option Pending → List UInt8 → List Char
  | none, [] => []
  | some _, [] => [replacement]
  | none, byte :: bytes =>
    match lead byte with
    | .inl c => c :: decodeFrom none bytes
    | .inr p => decodeFrom (some p) bytes
  | some p, byte :: bytes =>
    if p.lower ≤ byte.toNat ∧ byte.toNat ≤ p.upper then
      let codePoint := p.codePoint * 64 + (byte.toNat - 0x80)
      if p.needed = 1 then Char.ofNat codePoint :: decodeFrom none bytes
      else decodeFrom (some ⟨p.needed - 1, codePoint, 0x80, 0xBF⟩) bytes
    else
      -- The byte starts the next character.
      match lead byte with
      | .inl c => replacement :: c :: decodeFrom none bytes
      | .inr p => replacement :: decodeFrom (some p) bytes

/-- `new TextDecoder().decode(bytes)`. -/
def decode (bytes : List UInt8) : List Char :=
  decodeFrom none (if [0xEF, 0xBB, 0xBF].isPrefixOf bytes then bytes.drop 3 else bytes)

theorem encode_eq_flatMap (text : String) :
    encode text = text.toList.flatMap String.utf8EncodeChar := by
  unfold encode
  rw [String.toUTF8, ← String.utf8Encode_toList, List.utf8Encode]
  exact List.toList_data_toByteArray

theorem utf8EncodeChar_ascii {c : Char} (h : c.toNat < 128) :
    String.utf8EncodeChar c = [UInt8.ofNat c.toNat] := by
  unfold String.utf8EncodeChar
  simp only [Char.toNat] at h
  rw [if_pos (by omega)]
  rfl

theorem toNat_asciiByte {c : Char} (h : c.toNat < 128) :
    (UInt8.ofNat c.toNat).toNat = c.toNat :=
  UInt8.toNat_ofNat_of_lt' (Nat.lt_trans h (by decide))

theorem lead_ascii {c : Char} (h : c.toNat < 128) :
    lead (UInt8.ofNat c.toNat) = .inl c := by
  unfold lead
  rw [toNat_asciiByte h, if_pos (by omega), Char.ofNat_toNat]

theorem decodeFrom_ascii {cs : List Char} (h : ∀ c ∈ cs, c.toNat < 128) :
    decodeFrom none (cs.flatMap String.utf8EncodeChar) = cs := by
  induction cs with
  | nil => rfl
  | cons c cs ih =>
    obtain ⟨hc, hcs⟩ := List.forall_mem_cons.mp h
    rw [List.flatMap_cons, utf8EncodeChar_ascii hc, List.singleton_append, decodeFrom,
      lead_ascii hc, ih hcs]

/-- The bytes of a text of ASCII characters are its characters. -/
theorem map_toNat_encode {text : String} (h : ∀ c ∈ text.toList, c.toNat < 128) :
    (encode text).map UInt8.toNat = text.toList.map Char.toNat := by
  have hchars : ∀ cs : List Char, (∀ c ∈ cs, c.toNat < 128) →
      (cs.flatMap String.utf8EncodeChar).map UInt8.toNat = cs.map Char.toNat := by
    intro cs
    induction cs with
    | nil => exact fun _ => rfl
    | cons c cs ih =>
      intro h
      obtain ⟨hc, hcs⟩ := List.forall_mem_cons.mp h
      rw [List.flatMap_cons, utf8EncodeChar_ascii hc, List.map_append, ih hcs, List.map_singleton,
        toNat_asciiByte hc, List.map_cons, List.singleton_append]
  rw [encode_eq_flatMap]
  exact hchars _ h

/-- **A text of ASCII characters** is decoded from its bytes. -/
theorem decode_encode {text : String} (h : ∀ c ∈ text.toList, c.toNat < 128) :
    decode (encode text) = text.toList := by
  have hmark : [0xEF, 0xBB, 0xBF].isPrefixOf (encode text) = false := by
    rw [encode_eq_flatMap]
    rcases hcs : text.toList with _ | ⟨c, cs⟩
    · rfl
    · have hc : c.toNat < 128 := h c (by simp [hcs])
      rw [List.flatMap_cons, utf8EncodeChar_ascii hc, List.singleton_append, List.isPrefixOf]
      have hne : (0xEF : UInt8) ≠ UInt8.ofNat c.toNat := by
        intro heq
        have hn := congrArg UInt8.toNat heq
        rw [toNat_asciiByte hc] at hn
        have : (0xEF : UInt8).toNat = 239 := by decide
        omega
      simp [hne]
  unfold decode
  rw [hmark, encode_eq_flatMap]
  exact decodeFrom_ascii h

end Js

end FitzDestroyer
