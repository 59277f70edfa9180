import Mathlib.Data.Nat.Notation
import Mathlib.Tactic.NormNum

/-!
# Text

Strings are taken apart as lists of characters.  A number printed in decimal with leading zeros
(`padStart`) and the text of that many digits determine each other.

* `pad` : a number, with leading zeros up to a width;
* `digits?` : the number a text of a fixed count of digits stands for;
* `digits?_eq_some` : `digits?` inverts `pad`.
-/

namespace FitzDestroyer

namespace Js

/-- `text.padStart(width, fill)`, for one character. -/
def padStart (width : ℕ) (fill : Char) (cs : List Char) : List Char :=
  List.replicate (width - cs.length) fill ++ cs

/-- `value.toString().padStart(width, "0")`. -/
def pad (value width : ℕ) : List Char := padStart width '0' (Nat.toDigits 10 value)

/-- The characters of a text are checked one by one. -/
instance (priority := high) decidableForallChars {P : Char → Prop} [DecidablePred P]
    (cs : List Char) : Decidable (∀ c ∈ cs, P c) :=
  List.decidableBAll P cs

/-- `/^\d{count}$/` and the number the digits stand for. -/
def digits? (count : ℕ) (cs : List Char) : Option ℕ :=
  if cs.length = count ∧ ∀ c ∈ cs, c.isDigit then some (Nat.ofDigitChars 10 cs 0) else none

theorem isDigit_iff {c : Char} : c.isDigit = true ↔ 48 ≤ c.toNat ∧ c.toNat ≤ 57 := by
  simp only [Char.isDigit, Bool.and_eq_true, decide_eq_true_eq]
  exact Iff.rfl

theorem length_pad {value width : ℕ} (hwidth : 0 < width) (h : value < 10 ^ width) :
    (pad value width).length = width := by
  have hlen := (Nat.length_toDigits_le_iff (n := value) (by decide) hwidth).mpr h
  simp only [pad, padStart, List.length_append, List.length_replicate]
  omega

theorem isDigit_of_mem_pad {value width : ℕ} {c : Char} (h : c ∈ pad value width) :
    c.isDigit = true := by
  rcases List.mem_append.mp h with h | h
  · rw [List.eq_of_mem_replicate h]
    decide
  · exact Nat.isDigit_of_mem_toDigits (by decide) (by decide) h

/-- Leading zeros do not change the number. -/
@[simp] theorem ofDigitChars_pad (value width : ℕ) :
    Nat.ofDigitChars 10 (pad value width) 0 = value := by
  rw [pad, padStart, Nat.ofDigitChars_append, Nat.ofDigitChars_replicate_zero, Nat.mul_zero,
    Nat.ofDigitChars_ten_toDigits]

theorem pad_inj {m n width : ℕ} (h : pad m width = pad n width) : m = n := by
  rw [← ofDigitChars_pad m width, h, ofDigitChars_pad]

theorem ofDigitChars_lt {cs : List Char} (h : ∀ c ∈ cs, c.isDigit) :
    Nat.ofDigitChars 10 cs 0 < 10 ^ cs.length := by
  induction cs with
  | nil => simp
  | cons c cs ih =>
    have hc := isDigit_iff.mp (h c List.mem_cons_self)
    have hcs := ih fun c hc => h c (List.mem_cons_of_mem _ hc)
    rw [Nat.ofDigitChars_cons, Nat.ofDigitChars_eq_ofDigitChars_zero, List.length_cons, pow_succ]
    have hdigit : c.toNat - '0'.toNat ≤ 9 := by
      have : '0'.toNat = 48 := by decide
      omega
    have := Nat.mul_le_mul_left (10 ^ cs.length) hdigit
    rw [Nat.mul_zero, Nat.zero_add]
    omega

/-- Two texts of as many digits that stand for the same number are the same. -/
theorem eq_of_ofDigitChars_eq {cs ds : List Char} (hlen : cs.length = ds.length)
    (hc : ∀ c ∈ cs, c.isDigit) (hd : ∀ c ∈ ds, c.isDigit)
    (h : Nat.ofDigitChars 10 cs 0 = Nat.ofDigitChars 10 ds 0) : cs = ds := by
  induction cs generalizing ds with
  | nil => exact (List.length_eq_zero_iff.mp hlen.symm).symm
  | cons c cs ih =>
    cases ds with
    | nil => simp at hlen
    | cons d ds =>
      have hlen' : cs.length = ds.length := Nat.succ.inj hlen
      have hcs : ∀ c ∈ cs, c.isDigit := fun c h => hc c (List.mem_cons_of_mem _ h)
      have hds : ∀ c ∈ ds, c.isDigit := fun c h => hd c (List.mem_cons_of_mem _ h)
      have hltc := ofDigitChars_lt hcs
      have hltd := ofDigitChars_lt hds
      rw [Nat.ofDigitChars_cons, Nat.ofDigitChars_cons, Nat.ofDigitChars_eq_ofDigitChars_zero,
        Nat.ofDigitChars_eq_ofDigitChars_zero (l := ds), hlen', Nat.mul_zero, Nat.zero_add,
        Nat.zero_add] at h
      rw [hlen'] at hltc
      have hpos : 0 < 10 ^ ds.length := Nat.pow_pos (by decide)
      -- The leading digits are the quotients, the other digits the remainders.
      have hq : c.toNat - '0'.toNat = d.toNat - '0'.toNat := by
        have := congrArg (· / 10 ^ ds.length) h
        simpa [Nat.mul_add_div hpos, Nat.div_eq_of_lt hltc, Nat.div_eq_of_lt hltd] using this
      have hr : Nat.ofDigitChars 10 cs 0 = Nat.ofDigitChars 10 ds 0 := by
        rw [hq] at h
        omega
      have hfirst := isDigit_iff.mp (hc c List.mem_cons_self)
      have hfirst' := isDigit_iff.mp (hd d List.mem_cons_self)
      have hcd : c = d := by
        apply Char.ext
        apply UInt32.toNat_inj.mp
        have : '0'.toNat = 48 := by decide
        change c.toNat = d.toNat
        omega
      rw [hcd, ih hlen' hcs hds hr]

/-- As many digits are ordered as the numbers they stand for. -/
theorem lex_of_ofDigitChars_lt {cs ds : List Char} (hlen : cs.length = ds.length)
    (hc : ∀ c ∈ cs, c.isDigit) (hd : ∀ c ∈ ds, c.isDigit)
    (h : Nat.ofDigitChars 10 cs 0 < Nat.ofDigitChars 10 ds 0) :
    List.Lex (· < ·) (cs.map Char.toNat) (ds.map Char.toNat) := by
  induction cs generalizing ds with
  | nil =>
    rw [List.length_eq_zero_iff.mp hlen.symm] at h
    exact absurd h (lt_irrefl _)
  | cons c cs ih =>
    cases ds with
    | nil => simp at hlen
    | cons d ds =>
      have hlen' : cs.length = ds.length := Nat.succ.inj hlen
      have hcs : ∀ c ∈ cs, c.isDigit := fun c h => hc c (List.mem_cons_of_mem _ h)
      have hds : ∀ c ∈ ds, c.isDigit := fun c h => hd c (List.mem_cons_of_mem _ h)
      have hltc := ofDigitChars_lt hcs
      have hltd := ofDigitChars_lt hds
      have hfirst := isDigit_iff.mp (hc c List.mem_cons_self)
      have hfirst' := isDigit_iff.mp (hd d List.mem_cons_self)
      have hzero : '0'.toNat = 48 := by decide
      rw [Nat.ofDigitChars_cons, Nat.ofDigitChars_cons, Nat.ofDigitChars_eq_ofDigitChars_zero,
        Nat.ofDigitChars_eq_ofDigitChars_zero (l := ds), hlen', Nat.mul_zero, Nat.zero_add,
        Nat.zero_add] at h
      rw [hlen'] at hltc
      -- The leading digits decide, unless they are the same.
      rcases Nat.lt_trichotomy c.toNat d.toNat with hcd | hcd | hcd
      · exact .rel hcd
      · rw [hcd] at h
        rw [List.map_cons, List.map_cons, hcd]
        exact .cons (ih hlen' hcs hds (by omega))
      · have hle : 10 ^ ds.length * (d.toNat - '0'.toNat + 1) ≤
            10 ^ ds.length * (c.toNat - '0'.toNat) := Nat.mul_le_mul_left _ (by omega)
        rw [Nat.mul_add, Nat.mul_one] at hle
        omega

/-- **A fixed count of digits** and the number they stand for determine each other. -/
theorem digits?_eq_some {count value : ℕ} {cs : List Char} (hcount : 0 < count) :
    digits? count cs = some value ↔ value < 10 ^ count ∧ cs = pad value count := by
  unfold digits?
  rw [Option.ite_none_right_eq_some, Option.some.injEq]
  constructor
  · rintro ⟨⟨rfl, hdigits⟩, rfl⟩
    have hlt := ofDigitChars_lt hdigits
    refine ⟨hlt, eq_of_ofDigitChars_eq (length_pad hcount hlt).symm hdigits
      (fun c hc => isDigit_of_mem_pad hc) ?_⟩
    rw [ofDigitChars_pad]
  · rintro ⟨hlt, rfl⟩
    exact ⟨⟨length_pad hcount hlt, fun c hc => isDigit_of_mem_pad hc⟩, ofDigitChars_pad _ _⟩

end Js

end FitzDestroyer
