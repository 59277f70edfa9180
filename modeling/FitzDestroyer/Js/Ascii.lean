import FitzDestroyer.Js.WellFormed
import Mathlib.Algebra.Group.Nat.Defs

/-!
# ASCII characters among bytes

`TextDecoder` replaces bytes that are not well formed, and so forgets what they were.  An ASCII
character is decoded from its own byte only.

* `decodeFrom_eq_append` : a text of ASCII characters is decoded from no bytes but its own;
* `decode_eq_append` : except for a byte order mark before them.
-/

namespace FitzDestroyer

namespace Js

/-! ### Characters of several bytes -/

/-- The least code point that the pending character can have. -/
def Pending.least (p : Pending) : ℕ :=
  (p.codePoint * 64 + (p.lower - 0x80)) * 64 ^ (p.needed - 1)

/-- The code points that it can have are below this. -/
def Pending.bound (p : Pending) : ℕ :=
  (p.codePoint * 64 + (p.upper - 0x80) + 1) * 64 ^ (p.needed - 1)

/-- The pending character will not be an ASCII character, nor a surrogate. -/
structure Pending.Wide (p : Pending) : Prop where
  needed : 0 < p.needed
  lower : 0x80 ≤ p.lower
  least : 128 ≤ p.least
  bound : p.bound ≤ 0xD800 ∨ 0xE000 ≤ p.least ∧ p.bound ≤ 0x110000

theorem wide_of_lead {byte : UInt8} {p : Pending} (h : lead byte = .inr p) : p.Wide := by
  unfold lead at h
  dsimp only at h
  split_ifs at h <;> obtain rfl := Sum.inr.inj h <;> constructor <;>
    simp only [Pending.least, Pending.bound] <;> omega

/-- The character of a code point that is no surrogate. -/
theorem toNat_ofNat {n : ℕ} (h : n < 0xD800 ∨ 0xE000 ≤ n ∧ n < 0x110000) :
    (Char.ofNat n).toNat = n := by
  have hvalid : n.isValidChar := h.imp_right fun h => ⟨h.1, h.2⟩
  rw [Char.ofNat, dif_pos hvalid]
  rfl

/-- An ASCII character is complete, and its byte is itself. -/
theorem eq_of_lead {byte : UInt8} {c : Char} (h : lead byte = .inl c) (hc : c.toNat < 128) :
    byte = UInt8.ofNat c.toNat := by
  unfold lead at h
  dsimp only at h
  split_ifs at h
  · obtain rfl := Sum.inl.inj h
    rw [toNat_ofNat (.inl (by omega)), UInt8.ofNat_toNat]
  · obtain rfl := Sum.inl.inj h
    exact absurd hc (by decide)

theorem pow_needed {p : Pending} (h : 1 < p.needed) :
    64 ^ (p.needed - 1) = 64 * 64 ^ (p.needed - 1 - 1) := by
  rw [Nat.mul_comm, ← Nat.pow_succ]
  congr 1
  omega

/-- The code points that are possible after one more byte were possible before. -/
theorem Pending.Wide.next {p : Pending} {byte : ℕ} (h : p.Wide)
    (hbyte : p.lower ≤ byte ∧ byte ≤ p.upper) (hneeded : p.needed ≠ 1) :
    Pending.Wide ⟨p.needed - 1, p.codePoint * 64 + (byte - 0x80), 0x80, 0xBF⟩ := by
  have hmore : 1 < p.needed := by
    have := h.needed
    omega
  have hleast : p.least ≤ (p.codePoint * 64 + (byte - 0x80)) * 64 ^ (p.needed - 1) :=
    Nat.mul_le_mul_right _ (by omega)
  have hbound : (p.codePoint * 64 + (byte - 0x80) + 1) * 64 ^ (p.needed - 1) ≤ p.bound :=
    Nat.mul_le_mul_right _ (by have := h.lower; omega)
  have hleast' : Pending.least ⟨p.needed - 1, p.codePoint * 64 + (byte - 0x80), 0x80, 0xBF⟩ =
      (p.codePoint * 64 + (byte - 0x80)) * 64 ^ (p.needed - 1) := by
    rw [Pending.least, pow_needed hmore, Nat.sub_self, Nat.add_zero, Nat.mul_assoc]
  have hbound' : Pending.bound ⟨p.needed - 1, p.codePoint * 64 + (byte - 0x80), 0x80, 0xBF⟩ =
      (p.codePoint * 64 + (byte - 0x80) + 1) * 64 ^ (p.needed - 1) := by
    have hstep : (p.codePoint * 64 + (byte - 0x80)) * 64 + (0xBF - 0x80) + 1 =
        (p.codePoint * 64 + (byte - 0x80) + 1) * 64 := by omega
    unfold Pending.bound
    dsimp only
    rw [hstep, pow_needed hmore, Nat.mul_assoc]
  have hwide := h.least
  have hvalid := h.bound
  exact ⟨by dsimp only; omega, Nat.le_refl _, by omega, by omega⟩

/-- **A pending character** is not decoded as an ASCII character. -/
theorem decodeFrom_pending {p : Pending} (h : p.Wide) (bytes : List UInt8) :
    ∃ c rest, decodeFrom (some p) bytes = c :: rest ∧ 128 ≤ c.toNat := by
  induction bytes generalizing p with
  | nil => exact ⟨replacement, [], rfl, by decide⟩
  | cons byte bytes ih =>
    rw [decodeFrom]
    split_ifs with hbyte hlast
    · -- The last byte of the character.
      have hcode : 128 ≤ p.codePoint * 64 + (byte.toNat - 0x80) ∧
          (p.codePoint * 64 + (byte.toNat - 0x80) < 0xD800 ∨
            0xE000 ≤ p.codePoint * 64 + (byte.toNat - 0x80) ∧
              p.codePoint * 64 + (byte.toNat - 0x80) < 0x110000) := by
        have hlower := h.lower
        have hwide := h.least
        have hvalid := h.bound
        rw [Pending.least, hlast, Nat.sub_self, Nat.pow_zero, Nat.mul_one] at hwide hvalid
        rw [Pending.bound, hlast, Nat.sub_self, Nat.pow_zero, Nat.mul_one] at hvalid
        omega
      exact ⟨_, _, rfl, by rw [toNat_ofNat hcode.2]; exact hcode.1⟩
    · exact ih (h.next hbyte hlast)
    · cases lead byte with
      | inl c => exact ⟨replacement, _, rfl, by decide⟩
      | inr p' => exact ⟨replacement, _, rfl, by decide⟩

/-! ### A text at the start -/

/-- **A text of ASCII characters** is decoded from no bytes but its own. -/
theorem decodeFrom_eq_append {cs rest : List Char} {bytes : List UInt8}
    (h : ∀ c ∈ cs, c.toNat < 128) (hdecode : decodeFrom none bytes = cs ++ rest) :
    ∃ bytes', bytes = cs.flatMap String.utf8EncodeChar ++ bytes' ∧
      decodeFrom none bytes' = rest := by
  induction cs generalizing bytes with
  | nil => exact ⟨bytes, rfl, hdecode⟩
  | cons c cs ih =>
    obtain ⟨hc, hcs⟩ := List.forall_mem_cons.mp h
    cases bytes with
    | nil => cases hdecode
    | cons byte bytes =>
      rw [decodeFrom] at hdecode
      cases hlead : lead byte with
      | inl c' =>
        rw [hlead] at hdecode
        obtain ⟨rfl, htail⟩ := List.cons.inj hdecode
        obtain ⟨bytes', rfl, hrest⟩ := ih hcs htail
        refine ⟨bytes', ?_, hrest⟩
        rw [List.flatMap_cons, utf8EncodeChar_ascii hc, eq_of_lead hlead hc]
        rfl
      | inr p =>
        rw [hlead] at hdecode
        obtain ⟨c', rest', hpending, hwide⟩ := decodeFrom_pending (wide_of_lead hlead) bytes
        obtain ⟨rfl, -⟩ := List.cons.inj (hpending.symm.trans hdecode)
        omega

/-- No bytes are decoded as no text. -/
theorem eq_nil_of_decodeFrom {bytes : List UInt8} (h : decodeFrom none bytes = []) :
    bytes = [] := by
  cases bytes with
  | nil => rfl
  | cons byte bytes =>
    rw [decodeFrom] at h
    cases hlead : lead byte with
    | inl c =>
      rw [hlead] at h
      cases h
    | inr p =>
      rw [hlead] at h
      obtain ⟨c, rest, hpending, -⟩ := decodeFrom_pending (wide_of_lead hlead) bytes
      cases hpending.symm.trans h

/-- The byte order mark. -/
def byteOrderMark : List UInt8 := [0xEF, 0xBB, 0xBF]

/-- The bytes of a text that starts with an ASCII character do not start with a byte order
mark. -/
theorem not_mark_prefix {c : Char} (hc : c.toNat < 128) (cs : List Char) (bytes : List UInt8) :
    ¬byteOrderMark <+: (c :: cs).flatMap String.utf8EncodeChar ++ bytes := by
  rintro ⟨rest, hrest⟩
  rw [List.flatMap_cons, utf8EncodeChar_ascii hc] at hrest
  have hbyte := congrArg UInt8.toNat (List.cons.inj hrest).1
  rw [toNat_asciiByte hc] at hbyte
  have : (0xEF : UInt8).toNat = 239 := by decide
  omega

/-- A text that starts with an ASCII character is decoded from its bytes, whatever follows. -/
theorem decode_cons_append {c : Char} (hc : c.toNat < 128) (cs : List Char)
    (bytes : List UInt8) : decode ((c :: cs).flatMap String.utf8EncodeChar ++ bytes) =
      c :: cs ++ decodeFrom none bytes := by
  have hmark : ¬[0xEF, 0xBB, 0xBF].isPrefixOf ((c :: cs).flatMap String.utf8EncodeChar ++ bytes) =
      true := fun hmark => not_mark_prefix hc cs bytes (List.isPrefixOf_iff_prefix.mp hmark)
  rw [decode, if_neg hmark, decodeFrom_append]

/-- **What bytes are decoded as a text** that starts with ASCII characters: those of these
characters, perhaps after a byte order mark. -/
theorem decode_eq_append {cs rest : List Char} {bytes : List UInt8}
    (h : ∀ c ∈ cs, c.toNat < 128) (hne : cs ≠ []) :
    decode bytes = cs ++ rest ↔ ∃ start bytes', (start = [] ∨ start = byteOrderMark) ∧
      bytes = start ++ (cs.flatMap String.utf8EncodeChar ++ bytes') ∧
        decodeFrom none bytes' = rest := by
  have hmarked : [0xEF, 0xBB, 0xBF].isPrefixOf bytes = true ↔ byteOrderMark <+: bytes :=
    List.isPrefixOf_iff_prefix
  constructor
  · intro hdecode
    rw [decode] at hdecode
    obtain ⟨bytes', hbytes, hrest⟩ := decodeFrom_eq_append h hdecode
    split_ifs at hbytes with hmark
    · obtain ⟨tail, rfl⟩ := hmarked.mp hmark
      exact ⟨byteOrderMark, bytes', .inr rfl, congrArg (byteOrderMark ++ ·) hbytes, hrest⟩
    · exact ⟨[], bytes', .inl rfl, hbytes, hrest⟩
  · obtain ⟨c, cs, rfl⟩ := List.exists_cons_of_ne_nil hne
    rintro ⟨start, bytes', rfl | rfl, rfl, rfl⟩
    · exact decode_cons_append (h c List.mem_cons_self) cs bytes'
    · rw [decode, if_pos (hmarked.mpr (List.prefix_append _ _))]
      exact decodeFrom_append (c :: cs) bytes'

theorem not_mark_encode {text : String} (h : ∀ c ∈ text.toList, c.toNat < 128)
    (hne : text.toList ≠ []) : ¬byteOrderMark <+: encode text := by
  obtain ⟨c, cs, htext⟩ := List.exists_cons_of_ne_nil hne
  rw [encode_eq_flatMap, ← List.append_nil (List.flatMap _ _), htext]
  exact not_mark_prefix (h c (htext ▸ List.mem_cons_self)) cs []

/-- A text of ASCII characters is decoded from its bytes, whatever follows. -/
theorem decode_encode_append {text : String} (h : ∀ c ∈ text.toList, c.toNat < 128)
    (hne : text.toList ≠ []) (bytes : List UInt8) :
    decode (encode text ++ bytes) = text.toList ++ decodeFrom none bytes := by
  rw [encode_eq_flatMap]
  exact (decode_eq_append h hne).mpr ⟨[], bytes, .inl rfl, rfl, rfl⟩

/-- Bytes without a mark that are decoded as a text of ASCII characters are its bytes. -/
theorem eq_encode_of_decode {text : String} {bytes : List UInt8}
    (h : ∀ c ∈ text.toList, c.toNat < 128) (hne : text.toList ≠ [])
    (hmark : ¬byteOrderMark <+: bytes) (hdecode : decode bytes = text.toList) :
    bytes = encode text := by
  rw [← List.append_nil text.toList, decode_eq_append h hne] at hdecode
  obtain ⟨start, bytes', hstart, rfl, hrest⟩ := hdecode
  rcases hstart with rfl | rfl
  · rw [eq_nil_of_decodeFrom hrest, List.nil_append, List.append_nil, encode_eq_flatMap]
  · exact absurd (List.prefix_append _ _) hmark

end Js

end FitzDestroyer
