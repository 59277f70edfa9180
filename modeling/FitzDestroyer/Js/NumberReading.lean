import FitzDestroyer.Js.ShortestDecimal

/-!
# Number literals

`JSON.parse` takes the literal that a text starts with, and `Number(text)` reads it.

* `Literal` : the parts of a decimal literal; `Literal.text`, `Literal.value`;
* `takeNumber` : the number that a JSON text starts with;
* `Literal.takeLiteral_text` : a literal is read up to its end;
* `Literal.ofText_signed` : the number of a literal.
-/

namespace FitzDestroyer

namespace Js

/-! ### Literals -/

/-- A decimal literal without a sign. -/
structure Literal where
  /-- The digits before the point. -/
  whole : List Char
  /-- The digits after it; there is no point if there are none. -/
  fraction : List Char
  /-- The exponent, which is written with its sign. -/
  exponent : Option ℤ

namespace Literal

/-- The text after the digits. -/
def exponentText : Option ℤ → List Char
  | none => []
  | some e => 'e' :: (if e < 0 then '-' else '+') :: Nat.toDigits 10 e.natAbs

def fractionText (digits : List Char) : List Char := if digits = [] then [] else '.' :: digits

def text (l : Literal) : List Char :=
  l.whole ++ (fractionText l.fraction ++ exponentText l.exponent)

def value (l : Literal) : ℚ :=
  (Nat.ofDigitChars 10 (l.whole ++ l.fraction) 0 : ℚ) *
    10 ^ (l.exponent.getD 0 - l.fraction.length)

/-- The digits are digits, and there are no zeros before them. -/
structure Valid (l : Literal) : Prop where
  whole_ne : l.whole ≠ []
  whole : ∀ c ∈ l.whole, c.isDigit = true
  fraction : ∀ c ∈ l.fraction, c.isDigit = true
  no_zeros : l.whole.head? = some '0' → l.whole = ['0']

end Literal

/-- The text does not start with a character that continues a number. -/
def Stops (rest : List Char) : Prop :=
  ∀ c ∈ rest.head?, c.isDigit = false ∧ c ≠ '.' ∧ c ≠ 'e' ∧ c ≠ 'E'

theorem stops_nil : Stops [] := fun c hc => by simp at hc

/-! ### Reading a literal -/

/-- The digits that a text starts with. -/
def takeDigits (cs : List Char) : Option (List Char × List Char) :=
  let digits := cs.takeWhile Char.isDigit
  if digits = [] then none else some (digits, cs.dropWhile Char.isDigit)

def takeFraction (cs : List Char) : Option (List Char × List Char) :=
  if cs.head? = some '.' then (takeDigits cs.tail).map fun p => ('.' :: p.1, p.2)
  else some ([], cs)

def takeExponent (cs : List Char) : Option (List Char × List Char) :=
  if cs.head? = some 'e' ∨ cs.head? = some 'E' then
    let sign := if cs.tail.head? = some '+' ∨ cs.tail.head? = some '-' then 1 else 0
    (takeDigits (cs.drop (1 + sign))).map fun p => (cs.take (1 + sign) ++ p.1, p.2)
  else some ([], cs)

/-- The literal without a sign that a JSON text starts with. -/
def takeLiteral (cs : List Char) : Option (List Char × List Char) := do
  let (whole, rest) ← takeDigits cs
  if whole.head? = some '0' ∧ whole ≠ ['0'] then none
  else
    let (fraction, rest) ← takeFraction rest
    let (exponent, rest) ← takeExponent rest
    return (whole ++ (fraction ++ exponent), rest)

/-- The number that a JSON text starts with. -/
def takeNumber (cs : List Char) : Option (Number × List Char) :=
  if cs.head? = some '-' then
    (takeLiteral cs.tail).map fun p => (Number.ofText ('-' :: p.1), p.2)
  else (takeLiteral cs).map fun p => (Number.ofText p.1, p.2)

/-- Digits end where something else follows. -/
theorem takeWhile_digits {ds : List Char} (hds : ∀ c ∈ ds, c.isDigit = true) (rest : List Char)
    (hrest : ∀ c ∈ rest.head?, c.isDigit = false) :
    (ds ++ rest).takeWhile Char.isDigit = ds ∧ (ds ++ rest).dropWhile Char.isDigit = rest := by
  rw [List.takeWhile_append_of_pos hds, List.dropWhile_append_of_pos hds]
  cases rest with
  | nil => simp
  | cons c rest =>
    have hc : c.isDigit = false := hrest c rfl
    simp [hc]

theorem takeDigits_append {ds rest : List Char} (hne : ds ≠ [])
    (hds : ∀ c ∈ ds, c.isDigit = true)
    (hrest : ∀ c ∈ rest.head?, c.isDigit = false) :
    takeDigits (ds ++ rest) = some (ds, rest) := by
  obtain ⟨htake, hdrop⟩ := takeWhile_digits hds rest hrest
  simp only [takeDigits, htake, hdrop, hne, if_false]

/-! ### What a reader looks at -/

section

variable {cs text rest s : List Char}

/-- Only the character after the digits matters. -/
theorem takeDigits_local (h : takeDigits cs = some (text, rest)) :
    text ≠ [] ∧ cs = text ++ rest ∧
      (s.head? = rest.head? → takeDigits (text ++ s) = some (text, s)) := by
  unfold takeDigits at h
  dsimp only at h
  split_ifs at h with hnil
  obtain ⟨rfl, rfl⟩ := Prod.mk.inj (Option.some.inj h)
  refine ⟨hnil, List.takeWhile_append_dropWhile.symm, fun hs => ?_⟩
  refine takeDigits_append hnil (fun c hc => List.mem_takeWhile_imp hc) ?_
  rw [hs]
  intro c hc
  have hhead := List.head?_dropWhile_not Char.isDigit cs
  rw [Option.mem_def.mp hc] at hhead
  simpa using hhead

theorem takeFraction_local (h : takeFraction cs = some (text, rest)) :
    cs = text ++ rest ∧
      (s.head? = rest.head? → takeFraction (text ++ s) = some (text, s)) := by
  unfold takeFraction at h
  split_ifs at h with hdot
  · obtain ⟨p, hp, heq⟩ := Option.map_eq_some_iff.mp h
    obtain ⟨rfl, rfl⟩ := Prod.mk.inj heq
    obtain ⟨tail, rfl⟩ := List.head?_eq_some_iff.mp hdot
    obtain ⟨-, htail, hlocal⟩ := takeDigits_local (s := s) hp
    rw [List.tail_cons] at htail
    refine ⟨by rw [htail, List.cons_append], fun hs => ?_⟩
    simp [takeFraction, hlocal hs]
  · obtain ⟨rfl, rfl⟩ := Prod.mk.inj (Option.some.inj h)
    exact ⟨rfl, fun hs => by simp [takeFraction, hs, hdot]⟩

theorem takeExponent_local (h : takeExponent cs = some (text, rest)) :
    cs = text ++ rest ∧
      (s.head? = rest.head? → takeExponent (text ++ s) = some (text, s)) := by
  unfold takeExponent at h
  split_ifs at h with hletter hsign
  · obtain ⟨letter, sign, tail, rfl⟩ : ∃ letter sign tail, cs = letter :: sign :: tail := by
      rcases cs with _ | ⟨letter, _ | ⟨sign, tail⟩⟩
      · simp at hletter
      · simp at hsign
      · exact ⟨letter, sign, tail, rfl⟩
    obtain ⟨p, hp, heq⟩ := Option.map_eq_some_iff.mp h
    obtain ⟨rfl, rfl⟩ := Prod.mk.inj heq
    obtain ⟨-, hdrop, hlocal⟩ := takeDigits_local (s := s) hp
    rw [List.drop_succ_cons, List.drop_succ_cons, List.drop_zero] at hdrop
    refine ⟨by simp [hdrop], fun hs => ?_⟩
    simp only [List.head?_cons, List.tail_cons, Option.some.injEq] at hletter hsign
    simp [takeExponent, hletter, hsign, hlocal hs]
  · obtain ⟨letter, tail, rfl⟩ : ∃ letter tail, cs = letter :: tail := by
      refine List.exists_cons_of_ne_nil fun hnil => ?_
      simp [hnil] at hletter
    obtain ⟨⟨digits, after⟩, hp, heq⟩ := Option.map_eq_some_iff.mp h
    obtain ⟨rfl, rfl⟩ := Prod.mk.inj heq
    obtain ⟨hne, hdrop, hlocal⟩ := takeDigits_local (s := s) hp
    obtain ⟨digit, digits, rfl⟩ := List.exists_cons_of_ne_nil hne
    rw [List.drop_succ_cons, List.drop_zero] at hdrop
    refine ⟨by simp [hdrop], fun hs => ?_⟩
    simp only [hdrop, List.head?_cons, List.tail_cons, List.cons_append, Option.some.injEq]
      at hletter hsign
    have hdigits := hlocal hs
    rw [List.cons_append] at hdigits
    simp [takeExponent, hletter, hsign, hdigits]
  · obtain ⟨rfl, rfl⟩ := Prod.mk.inj (Option.some.inj h)
    exact ⟨rfl, fun hs => by simp only [List.nil_append, takeExponent, hs, hletter, if_false]⟩

/-- What follows a text does not change its start. -/
theorem head?_append_congr (h : s.head? = rest.head?) (text : List Char) :
    (text ++ s).head? = (text ++ rest).head? := by
  rw [List.head?_append, List.head?_append, h]

theorem takeLiteral_local (h : takeLiteral cs = some (text, rest)) :
    (∃ c ∈ text.head?, c.isDigit = true) ∧ cs = text ++ rest ∧
      (s.head? = rest.head? → takeLiteral (text ++ s) = some (text, s)) := by
  unfold takeLiteral at h
  simp only [Option.bind_eq_bind, Option.bind_eq_some_iff, Option.pure_def] at h
  obtain ⟨⟨whole, rest₁⟩, hwhole, h⟩ := h
  split_ifs at h with hzeros
  obtain ⟨⟨fraction, rest₂⟩, hfraction, h⟩ := Option.bind_eq_some_iff.mp h
  obtain ⟨⟨exponent, rest₃⟩, hexponent, h⟩ := Option.bind_eq_some_iff.mp h
  obtain ⟨rfl, rfl⟩ := Prod.mk.inj (Option.some.inj h)
  obtain ⟨hne, rfl, hwholeLocal⟩ := takeDigits_local (s := fraction ++ (exponent ++ s)) hwhole
  obtain ⟨rfl, hfractionLocal⟩ := takeFraction_local (s := exponent ++ s) hfraction
  obtain ⟨rfl, hexponentLocal⟩ := takeExponent_local (s := s) hexponent
  refine ⟨?_, by simp, fun hs => ?_⟩
  · obtain ⟨digit, digits, rfl⟩ := List.exists_cons_of_ne_nil hne
    refine ⟨digit, rfl, ?_⟩
    unfold takeDigits at hwhole
    dsimp only at hwhole
    split_ifs at hwhole
    have hhead := (Prod.mk.inj (Option.some.inj hwhole)).1
    exact List.mem_takeWhile_imp (hhead ▸ List.mem_cons_self)
  · have hexponent' := head?_append_congr hs exponent
    have hfraction' := head?_append_congr hexponent' fraction
    rw [List.append_assoc, List.append_assoc]
    simp only [takeLiteral, Option.bind_eq_bind, hwholeLocal hfraction', Option.bind_some,
      if_neg hzeros, hfractionLocal hexponent', hexponentLocal hs, Option.pure_def]

/-- Only the character after a number matters. -/
theorem takeNumber_local {x : Number} (h : takeNumber cs = some (x, rest)) :
    ∃ text, (∃ c ∈ text.head?, c.isDigit = true ∨ c = '-') ∧ cs = text ++ rest ∧
      ∀ s : List Char, s.head? = rest.head? → takeNumber (text ++ s) = some (x, s) := by
  unfold takeNumber at h
  split_ifs at h with hsign
  · obtain ⟨⟨text, rest'⟩, htext, heq⟩ := Option.map_eq_some_iff.mp h
    obtain ⟨rfl, rfl⟩ := Prod.mk.inj heq
    obtain ⟨tail, rfl⟩ := List.head?_eq_some_iff.mp hsign
    refine ⟨'-' :: text, ⟨'-', rfl, .inr rfl⟩, ?_, fun s hs => ?_⟩
    · rw [List.tail_cons] at htext
      rw [(takeLiteral_local (s := []) htext).2.1, List.cons_append]
    · simp [takeNumber, (takeLiteral_local htext).2.2 hs]
  · obtain ⟨⟨text, rest'⟩, htext, heq⟩ := Option.map_eq_some_iff.mp h
    obtain ⟨rfl, rfl⟩ := Prod.mk.inj heq
    obtain ⟨⟨digit, hhead, hdigit⟩, rfl, -⟩ := takeLiteral_local (s := []) htext
    refine ⟨text, ⟨digit, hhead, .inl hdigit⟩, rfl, fun s hs => ?_⟩
    have hne : (text ++ s).head? ≠ some '-' := by
      rw [List.head?_append, Option.mem_def.mp hhead, Option.some_or]
      rintro ⟨⟩
      exact absurd hdigit (by decide)
    rw [takeNumber, if_neg hne, (takeLiteral_local htext).2.2 hs, Option.map_some]

end

theorem isDigit_toDigits (n : ℕ) : ∀ c ∈ Nat.toDigits 10 n, c.isDigit = true :=
  fun _ => isDigit_of_mem_toDigits

theorem toDigits_ne_nil (n : ℕ) : Nat.toDigits 10 n ≠ [] :=
  List.ne_nil_of_length_pos Nat.length_toDigits_pos

namespace Literal

variable {l : Literal} {rest : List Char}

/-- What follows the digits is no digit. -/
theorem head?_exponent (h : Stops rest) (e : Option ℤ) :
    ∀ c ∈ (exponentText e ++ rest).head?, c.isDigit = false ∧ c ≠ '.' := by
  cases e with
  | none => exact fun c hc => ⟨(h c hc).1, (h c hc).2.1⟩
  | some e =>
    intro c hc
    obtain rfl : 'e' = c := Option.some.inj hc
    exact ⟨rfl, by decide⟩

theorem head?_fraction (h : Stops rest) (digits : List Char) (e : Option ℤ) :
    ∀ c ∈ (fractionText digits ++ (exponentText e ++ rest)).head?, c.isDigit = false := by
  intro c hc
  unfold fractionText at hc
  split_ifs at hc
  · exact (head?_exponent h e c hc).1
  · obtain rfl : '.' = c := Option.some.inj hc
    rfl

theorem takeExponent_text (h : Stops rest) (e : Option ℤ) :
    takeExponent (exponentText e ++ rest) = some (exponentText e, rest) := by
  unfold takeExponent
  cases e with
  | none =>
    have hhead : ¬(rest.head? = some 'e' ∨ rest.head? = some 'E') := by
      rintro (hc | hc)
      · exact (h 'e' hc).2.2.1 rfl
      · exact (h 'E' hc).2.2.2 rfl
    rw [exponentText, List.nil_append, if_neg hhead]
  | some e =>
    have hdigits := takeDigits_append (toDigits_ne_nil e.natAbs) (isDigit_toDigits e.natAbs)
      fun c hc => (h c hc).1
    by_cases he : e < 0
    · simp [exponentText, he, hdigits]
    · simp [exponentText, he, hdigits]

theorem takeFraction_text (h : Stops rest) {digits : List Char}
    (hdigits : ∀ c ∈ digits, c.isDigit = true) (e : Option ℤ) :
    takeFraction (fractionText digits ++ (exponentText e ++ rest)) =
      some (fractionText digits, exponentText e ++ rest) := by
  unfold takeFraction fractionText
  split_ifs with hnil hdot hdot
  · exact absurd rfl (head?_exponent h e '.' hdot).2
  · rfl
  · rw [List.cons_append, List.tail_cons,
      takeDigits_append hnil hdigits fun c hc => (head?_exponent h e c hc).1]
    rfl
  · exact absurd rfl hdot

/-- **A literal** is read up to its end. -/
theorem takeLiteral_text (hl : l.Valid) (h : Stops rest) :
    takeLiteral (l.text ++ rest) = some (l.text, rest) := by
  have hzeros : ¬(l.whole.head? = some '0' ∧ l.whole ≠ ['0']) := fun hz => hz.2 (hl.no_zeros hz.1)
  unfold takeLiteral text
  rw [List.append_assoc, List.append_assoc,
    takeDigits_append hl.whole_ne hl.whole (head?_fraction h l.fraction l.exponent)]
  simp only [Option.bind_eq_bind, Option.bind_some, if_neg hzeros,
    takeFraction_text h hl.fraction l.exponent, takeExponent_text h l.exponent, Option.pure_def]

/-- The exponent of a literal is the one that is written. -/
theorem exponent?_text (e : Option ℤ) : exponent? (exponentText e) = some (e.getD 0) := by
  cases e with
  | none => rfl
  | some e =>
    have hall : (Nat.toDigits 10 e.natAbs).all Char.isDigit = true :=
      List.all_eq_true.mpr (isDigit_toDigits e.natAbs)
    by_cases he : e < 0
    · simp [exponentText, exponent?, he, hall, Nat.ofDigitChars_ten_toDigits, abs_of_neg]
    · simp [exponentText, exponent?, he, hall, Nat.ofDigitChars_ten_toDigits,
        abs_of_nonneg (not_lt.mp he)]

/-- The value of a literal is the one that is written. -/
theorem decimal?_text (hl : l.Valid) : decimal? l.text = some l.value := by
  obtain ⟨htake, hdrop⟩ := takeWhile_digits hl.whole
    (fractionText l.fraction ++ exponentText l.exponent) (by
      simpa using head?_fraction stops_nil l.fraction l.exponent)
  obtain ⟨hfraction, hrest⟩ := takeWhile_digits hl.fraction (exponentText l.exponent) (by
    simpa using fun c hc => (head?_exponent stops_nil l.exponent c (by simpa using hc)).1)
  have hdot : (exponentText l.exponent).head? ≠ some '.' := fun hc =>
    (head?_exponent stops_nil l.exponent '.' (by simpa using hc)).2 rfl
  unfold decimal? text
  rw [htake, hdrop]
  unfold fractionText
  by_cases hnil : l.fraction = []
  · simp [hnil, hl.whole_ne, hdot, exponent?_text, value]
  · simp [hnil, hl.whole_ne, hfraction, hrest, exponent?_text, value]

theorem mem_exponentText {e : Option ℤ} {c : Char} (h : c ∈ exponentText e) :
    c.isDigit = true ∨ c ∈ ['.', 'e', '+', '-'] := by
  cases e with
  | none => exact absurd h List.not_mem_nil
  | some e =>
    rw [exponentText, List.mem_cons, List.mem_cons] at h
    rcases h with rfl | rfl | h
    · exact .inr (by decide)
    · exact .inr (by split_ifs <;> decide)
    · exact .inl (isDigit_of_mem_toDigits h)

/-- The characters of a literal. -/
theorem mem_text (hl : l.Valid) {c : Char} (h : c ∈ l.text) :
    c.isDigit = true ∨ c ∈ ['.', 'e', '+', '-'] := by
  rw [text, List.mem_append, List.mem_append] at h
  rcases h with h | h | h
  · exact .inl (hl.whole c h)
  · unfold fractionText at h
    split_ifs at h
    · exact absurd h List.not_mem_nil
    · rcases List.mem_cons.mp h with rfl | h
      · exact .inr (by decide)
      · exact .inl (hl.fraction c h)
  · exact mem_exponentText h

theorem text_ne_nil (hl : l.Valid) : l.text ≠ [] := fun hnil =>
  hl.whole_ne (List.append_eq_nil_iff.mp hnil).1

/-- It starts with a digit. -/
theorem head?_text (hl : l.Valid) : ∀ c ∈ l.text.head?, c.isDigit = true := by
  intro c hc
  obtain ⟨d, ds, hwhole⟩ := List.exists_cons_of_ne_nil hl.whole_ne
  rw [text, hwhole, List.cons_append] at hc
  obtain rfl : d = c := Option.some.inj hc
  exact hl.whole d (hwhole ▸ List.mem_cons_self)

end Literal

/-! ### Its number -/

theorem trim_of_not_isSpace {cs : List Char} (h : ∀ c ∈ cs, isSpace c = false) : trim cs = cs := by
  have hdrop : ∀ ds : List Char, (∀ c ∈ ds, isSpace c = false) → ds.dropWhile isSpace = ds := by
    intro ds hds
    cases ds with
    | nil => rfl
    | cons d ds => exact List.dropWhile_cons_of_neg (by simp [hds d List.mem_cons_self])
  rw [trim, hdrop cs h, hdrop _ fun c hc => h c (List.mem_reverse.mp hc), List.reverse_reverse]

theorem literalBase?_eq_none {cs : List Char}
    (h : ∀ c ∈ cs, c.isDigit = true ∨ c ∈ ['.', 'e', '+', '-']) : literalBase? cs = none := by
  unfold literalBase?
  split
  · rename_i c rest
    have hletter : ∀ d, d.isDigit = false → d ∉ ['.', 'e', '+', '-'] → c ≠ d := by
      rintro d hd hmem rfl
      rcases h c (by simp) with hdigit | hsign
      · rw [hd] at hdigit
        exact Bool.noConfusion hdigit
      · exact hmem hsign
    simp [hletter 'x' rfl (by decide), hletter 'X' rfl (by decide), hletter 'o' rfl (by decide),
      hletter 'O' rfl (by decide), hletter 'b' rfl (by decide), hletter 'B' rfl (by decide)]
  · rfl

namespace Literal

variable {l : Literal}

/-- **The number of a literal**, which may have a sign. -/
theorem ofText_signed (hl : l.Valid) (negative : Bool) :
    Number.ofText ((if negative then ['-'] else []) ++ l.text) =
      Number.round (if negative then -l.value else l.value) := by
  have hmem : ∀ c ∈ (if negative then ['-'] else []) ++ l.text,
      c.isDigit = true ∨ c ∈ ['.', 'e', '+', '-'] := by
    intro c hc
    rcases List.mem_append.mp hc with hc | hc
    · cases negative with
      | false => exact absurd hc List.not_mem_nil
      | true => exact .inr (by simp_all)
    · exact mem_text hl hc
  have hspace : ∀ c ∈ (if negative then ['-'] else []) ++ l.text, isSpace c = false := by
    intro c hc
    rcases hmem c hc with hdigit | hsign
    · exact isSpace_of_isDigit hdigit
    · simp only [List.mem_cons, List.not_mem_nil, or_false] at hsign
      rcases hsign with rfl | rfl | rfl | rfl <;> decide
  have hletter : ∀ c, c.isDigit = false → l.text.head? ≠ some c := fun c hc hhead => by
    rw [head?_text hl c hhead] at hc
    exact Bool.noConfusion hc
  have hne := text_ne_nil hl
  have hinfinity : l.text ≠ "Infinity".toList := fun h => hletter 'I' rfl (h ▸ rfl)
  unfold Number.ofText
  rw [trim_of_not_isSpace hspace]
  dsimp only
  rw [literalBase?_eq_none hmem]
  cases negative with
  | false =>
    simp only [Bool.false_eq_true, if_false, List.nil_append, hne, hletter '-' rfl,
      hletter '+' rfl, or_self, hinfinity, decimal?_text hl, Option.map_some, Option.getD_some]
  | true =>
    simp only [if_true, List.singleton_append, List.cons_ne_nil, if_false, List.head?_cons,
      true_or, List.tail_cons, hinfinity, decimal?_text hl, Option.map_some, Option.getD_some]

end Literal

end Js

end FitzDestroyer
