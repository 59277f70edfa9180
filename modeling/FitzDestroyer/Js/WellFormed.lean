import FitzDestroyer.Js.Utf8

/-!
# Well formed text among bytes

`decodeFrom` reads the bytes of a character one after another.  The bytes that `encode` writes
for a character are read as this character, whatever follows them.

* `decodeFrom_char` : one character;
* `decodeFrom_append` : a text.
-/

namespace FitzDestroyer

namespace Js

/-- The character of its own code point. -/
theorem valid_toNat (c : Char) :
    c.toNat < 0xD800 ∨ 0xE000 ≤ c.toNat ∧ c.toNat < 0x110000 :=
  c.valid.imp_right fun h => ⟨h.1, h.2⟩

/-! ### The bytes of a character -/

section Bytes

variable {p : Pending} {n : ℕ} (bytes : List UInt8)

theorem toNat_ofNat_byte (h : n < 256) : (UInt8.ofNat n).toNat = n := UInt8.toNat_ofNat_of_lt' h

/-- One more byte of a pending character. -/
theorem decodeFrom_continue (hn : n < 64) (hlower : p.lower ≤ n + 0x80)
    (hupper : n + 0x80 ≤ p.upper) (hneeded : p.needed ≠ 1) :
    decodeFrom (some p) (UInt8.ofNat (n + 0x80) :: bytes) =
      decodeFrom (some ⟨p.needed - 1, p.codePoint * 64 + n, 0x80, 0xBF⟩) bytes := by
  rw [decodeFrom, toNat_ofNat_byte (by omega), if_pos ⟨hlower, hupper⟩, Nat.add_sub_cancel,
    if_neg hneeded]

/-- The last byte of a pending character. -/
theorem decodeFrom_last (hn : n < 64) (hlower : p.lower ≤ n + 0x80)
    (hupper : n + 0x80 ≤ p.upper) (hneeded : p.needed = 1) :
    decodeFrom (some p) (UInt8.ofNat (n + 0x80) :: bytes) =
      Char.ofNat (p.codePoint * 64 + n) :: decodeFrom none bytes := by
  rw [decodeFrom, toNat_ofNat_byte (by omega), if_pos ⟨hlower, hupper⟩, Nat.add_sub_cancel,
    if_pos hneeded]

/-- The first byte of a character of two bytes. -/
theorem decodeFrom_lead_two (hlow : 2 ≤ n) (hn : n < 32) :
    decodeFrom none (UInt8.ofNat (n + 0xC0) :: bytes) =
      decodeFrom (some ⟨1, n, 0x80, 0xBF⟩) bytes := by
  have hlead : lead (UInt8.ofNat (n + 0xC0)) = .inr ⟨1, n, 0x80, 0xBF⟩ := by
    unfold lead
    dsimp only
    rw [toNat_ofNat_byte (by omega), if_neg (by omega), if_pos (by omega), Nat.add_sub_cancel]
  rw [decodeFrom, hlead]

/-- The first byte of a character of three bytes. -/
theorem decodeFrom_lead_three (hn : n < 16) :
    decodeFrom none (UInt8.ofNat (n + 0xE0) :: bytes) = decodeFrom
      (some ⟨2, n, if n = 0 then 0xA0 else 0x80, if n = 0xD then 0x9F else 0xBF⟩) bytes := by
  have hlead : lead (UInt8.ofNat (n + 0xE0)) =
      .inr ⟨2, n, if n = 0 then 0xA0 else 0x80, if n = 0xD then 0x9F else 0xBF⟩ := by
    unfold lead
    dsimp only
    rw [toNat_ofNat_byte (by omega), if_neg (by omega), if_neg (by omega), if_pos (by omega),
      Nat.add_sub_cancel]
    simp only [Nat.add_eq_right, Nat.reduceEqDiff]
  rw [decodeFrom, hlead]

/-- The first byte of a character of four bytes. -/
theorem decodeFrom_lead_four (hn : n < 5) :
    decodeFrom none (UInt8.ofNat (n + 0xF0) :: bytes) = decodeFrom
      (some ⟨3, n, if n = 0 then 0x90 else 0x80, if n = 4 then 0x8F else 0xBF⟩) bytes := by
  have hlead : lead (UInt8.ofNat (n + 0xF0)) =
      .inr ⟨3, n, if n = 0 then 0x90 else 0x80, if n = 4 then 0x8F else 0xBF⟩ := by
    unfold lead
    dsimp only
    rw [toNat_ofNat_byte (by omega), if_neg (by omega), if_neg (by omega), if_neg (by omega),
      if_pos (by omega), Nat.add_sub_cancel]
    simp only [Nat.add_eq_right, Nat.reduceEqDiff]
  rw [decodeFrom, hlead]

end Bytes

/-- **A character** is decoded from its bytes, whatever follows. -/
theorem decodeFrom_char (c : Char) (bytes : List UInt8) :
    decodeFrom none (String.utf8EncodeChar c ++ bytes) = c :: decodeFrom none bytes := by
  have hvalid := valid_toNat c
  have hval : c.val.toNat = c.toNat := rfl
  rw [String.utf8EncodeChar, hval]
  -- By the number of its bytes.
  split_ifs with hone htwo hthree
  · rw [List.singleton_append, decodeFrom, lead_ascii (by omega)]
  · have hcode : c.toNat / 64 % 32 * 64 + c.toNat % 64 = c.toNat := by omega
    simp only [List.cons_append, List.nil_append]
    rw [decodeFrom_lead_two _ (by omega) (by omega),
      decodeFrom_last _ (by omega) (by dsimp only; omega) (by dsimp only; omega) rfl, hcode,
      Char.ofNat_toNat]
  · have hcode : (c.toNat / 4096 % 16 * 64 + c.toNat / 64 % 64) * 64 + c.toNat % 64 =
        c.toNat := by omega
    simp only [List.cons_append, List.nil_append]
    rw [decodeFrom_lead_three _ (by omega),
      decodeFrom_continue _ (by omega) (by dsimp only; split_ifs <;> omega)
        (by dsimp only; split_ifs <;> omega) (by simp),
      decodeFrom_last _ (by omega) (by dsimp only; omega) (by dsimp only; omega) rfl, hcode,
      Char.ofNat_toNat]
  · have hcode : ((c.toNat / 262144 % 8 * 64 + c.toNat / 4096 % 64) * 64 + c.toNat / 64 % 64) *
        64 + c.toNat % 64 = c.toNat := by omega
    simp only [List.cons_append, List.nil_append]
    rw [decodeFrom_lead_four _ (by omega),
      decodeFrom_continue _ (by omega) (by dsimp only; split_ifs <;> omega)
        (by dsimp only; split_ifs <;> omega) (by simp),
      decodeFrom_continue _ (by omega) (by dsimp only; omega) (by dsimp only; omega) (by simp),
      decodeFrom_last _ (by omega) (by dsimp only; omega) (by dsimp only; omega) rfl, hcode,
      Char.ofNat_toNat]

/-! ### The bytes of a text -/

/-- **A text** is decoded from its bytes, whatever follows. -/
theorem decodeFrom_append (cs : List Char) (bytes : List UInt8) :
    decodeFrom none (cs.flatMap String.utf8EncodeChar ++ bytes) = cs ++ decodeFrom none bytes := by
  induction cs with
  | nil => rfl
  | cons c cs ih =>
    rw [List.flatMap_cons, List.append_assoc, decodeFrom_char]
    exact congrArg (c :: ·) ih

end Js

end FitzDestroyer
