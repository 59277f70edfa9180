import FitzDestroyer.Js.Arithmetic
import Mathlib.Data.List.Basic

/-!
# Metrics of the broker

`prometheusMetric` (`src/orchestration/compose-evidence.ts`) reads one metric from the text that
the broker exposes.  It matches each line with a regular expression, whose first group is lazy.

* `plainNumber`, `numberAfter`, `afterLabels`, `matchSample` : the parts of the expression;
* `prometheusMetric` : the model;
* `mem_plainNumber` : the characters of a number;
* `matchSample_name` : the match of a text that starts with a name.
-/

namespace FitzDestroyer

namespace Metrics

open Js

/-! ### The expression -/

/-- `(?:e[+-]?\d+)?$` -/
def exponentEnd : List Char → Bool
  | [] => true
  | c :: cs =>
    let digits := if cs.head? = some '+' ∨ cs.head? = some '-' then cs.tail else cs
    (c = 'e' ∨ c = 'E') ∧ digits ≠ [] ∧ digits.all Char.isDigit

/-- `-?(?:\d+(?:\.\d+)?|\.\d+)(?:e[+-]?\d+)?$` -/
def plainNumber (text : List Char) : Bool :=
  let text := if text.head? = some '-' then text.tail else text
  let rest := text.dropWhile Char.isDigit
  if rest.head? = some '.' then
    rest.tail.takeWhile Char.isDigit ≠ [] ∧ exponentEnd (rest.tail.dropWhile Char.isDigit)
  else text.takeWhile Char.isDigit ≠ [] ∧ exponentEnd rest

/-- `\s+(..)$`, where `..` is a number. -/
def numberAfter (text : List Char) : Option (List Char) :=
  let number := text.dropWhile isSpace
  if text.head?.any isSpace ∧ plainNumber number then some number else none

/-- `(?:\{[^}]*\})?\s+(..)$` -/
def afterLabels (text : List Char) : Option (List Char) :=
  if text.head? = some '{' then numberAfter (text.dropWhile (· ≠ '}')).tail else numberAfter text

/-- `^(\S+?)(?:\{[^}]*\})?\s+(..)$` after the given characters of the first group. -/
def matchSample (start : List Char) : List Char → Option (List Char × List Char)
  | [] => none
  | c :: text =>
    if isSpace c then none
    else
      match afterLabels text with
      | some number => some (start ++ [c], number)
      | none => matchSample (start ++ [c]) text

/-! ### The metric -/

structure Total where
  total : Number
  found : Bool

def Total.addLine (name : String) (t : Total) (line : List Char) : Total :=
  if line.head? = some '#' then t
  else
    match matchSample [] (trim line) with
    | none => t
    | some (start, number) =>
      let value := Number.ofText number
      if String.ofList start ≠ name then t
      else if value.isFinite = false then t
      else ⟨t.total.add value, true⟩

def prometheusMetric (text name : String) : Number :=
  let t := (text.toList.splitOn '\n').foldl (Total.addLine name) ⟨(0 : ℕ), false⟩
  if t.found then t.total else (0 : ℕ)

/-! ### Numbers -/

def IsNumberSymbol (c : Char) : Prop := c.isDigit = true ∨ c ∈ ['-', '+', '.', 'e', 'E']

theorem mem_exponentEnd {text : List Char} (h : exponentEnd text = true) :
    ∀ c ∈ text, IsNumberSymbol c := by
  intro c hc
  cases text with
  | nil => cases hc
  | cons e text =>
    simp only [exponentEnd, decide_eq_true_eq] at h
    obtain ⟨he, -, hdigits⟩ := h
    rcases List.mem_cons.mp hc with rfl | hc
    · exact .inr (by rcases he with rfl | rfl <;> decide)
    · cases text with
      | nil => cases hc
      | cons d text =>
        split_ifs at hdigits with hsign
        · rcases List.mem_cons.mp hc with rfl | hc
          · rcases hsign with hsign | hsign
            all_goals
              obtain rfl := Option.some.inj hsign
              exact .inr (by decide)
          · exact .inl (List.all_eq_true.mp hdigits c hc)
        · exact .inl (List.all_eq_true.mp hdigits c hc)

theorem mem_dropWhile_digits {c : Char} {text : List Char} (h : c ∈ text) :
    c.isDigit = true ∨ c ∈ text.dropWhile Char.isDigit := by
  rw [← List.takeWhile_append_dropWhile (p := Char.isDigit) (l := text), List.mem_append] at h
  exact h.imp_left List.mem_takeWhile_imp

theorem mem_tail_or {c d : Char} {text : List Char} (hd : text.head? = some d) (h : c ∈ text) :
    c = d ∨ c ∈ text.tail := by
  cases text with
  | nil => cases h
  | cons e text =>
    obtain rfl := Option.some.inj hd
    exact List.mem_cons.mp h

/-- **The characters of a number.** -/
theorem mem_plainNumber {text : List Char} (h : plainNumber text = true) :
    ∀ c ∈ text, IsNumberSymbol c := by
  have hunsigned : ∀ cs : List Char, (if (cs.dropWhile Char.isDigit).head? = some '.' then
      (cs.dropWhile Char.isDigit).tail.takeWhile Char.isDigit ≠ [] ∧
        exponentEnd ((cs.dropWhile Char.isDigit).tail.dropWhile Char.isDigit) = true
      else cs.takeWhile Char.isDigit ≠ [] ∧ exponentEnd (cs.dropWhile Char.isDigit) = true) →
      ∀ c ∈ cs, IsNumberSymbol c := by
    intro cs hcs c hc
    rcases mem_dropWhile_digits hc with hdigit | hc
    · exact .inl hdigit
    split_ifs at hcs with hpoint
    · rcases mem_tail_or hpoint hc with rfl | hc
      · exact .inr (by decide)
      · rcases mem_dropWhile_digits hc with hdigit | hc
        · exact .inl hdigit
        · exact mem_exponentEnd hcs.2 c hc
    · exact mem_exponentEnd hcs.2 c hc
  intro c hc
  unfold plainNumber at h
  dsimp only at h
  split_ifs at h with hsign hpoint hpoint
  · rcases mem_tail_or hsign hc with rfl | hc
    · exact .inr (by decide)
    · exact hunsigned _ (by rw [if_pos hpoint]; exact of_decide_eq_true h) c hc
  · rcases mem_tail_or hsign hc with rfl | hc
    · exact .inr (by decide)
    · exact hunsigned _ (by rw [if_neg hpoint]; exact of_decide_eq_true h) c hc
  · exact hunsigned _ (by rw [if_pos hpoint]; exact of_decide_eq_true h) c hc
  · exact hunsigned _ (by rw [if_neg hpoint]; exact of_decide_eq_true h) c hc

/-- No number has the symbol. -/
theorem plainNumber_eq_false {text : List Char} {c : Char} (hc : ¬IsNumberSymbol c)
    (h : c ∈ text) : plainNumber text = false :=
  Bool.eq_false_iff.mpr fun hplain => hc (mem_plainNumber hplain c h)

theorem not_isNumberSymbol_of_isSpace {c : Char} (h : isSpace c = true) : ¬IsNumberSymbol c := by
  rintro (hdigit | hc)
  · rw [isSpace_of_isDigit hdigit] at h
    cases h
  · simp only [List.mem_cons, List.not_mem_nil, or_false] at hc
    rcases hc with rfl | rfl | rfl | rfl | rfl <;> revert h <;> decide

/-! ### The match -/

theorem numberAfter_cons {c : Char} {text : List Char} (h : isSpace c = false) :
    numberAfter (c :: text) = none := by
  simp [numberAfter, h]

/-- After blanks, a number is read if nothing else follows. -/
theorem numberAfter_append {blanks text : List Char} (hblanks : ∀ c ∈ blanks, isSpace c = true)
    (hne : blanks ≠ []) (htext : ∀ c ∈ text.head?, isSpace c = false) :
    numberAfter (blanks ++ text) = if plainNumber text = true then some text else none := by
  have hdrop : (blanks ++ text).dropWhile isSpace = text := by
    rw [List.dropWhile_append_of_pos hblanks]
    cases text with
    | nil => rfl
    | cons c text => exact List.dropWhile_cons_of_neg (by simp [htext c rfl])
  obtain ⟨blank, blanks, rfl⟩ := List.exists_cons_of_ne_nil hne
  have hhead : isSpace blank = true := hblanks blank List.mem_cons_self
  simp only [numberAfter, hdrop]
  simp [hhead]

/-- Nothing is read of a text that has any other symbol. -/
theorem numberAfter_eq_none {c : Char} {text : List Char} (hspace : isSpace c = false)
    (hc : ¬IsNumberSymbol c) (h : c ∈ text) : numberAfter text = none := by
  have hmem : c ∈ text.dropWhile isSpace := by
    rw [← List.takeWhile_append_dropWhile (p := isSpace) (l := text), List.mem_append] at h
    refine h.resolve_left fun htake => ?_
    rw [List.mem_takeWhile_imp htake] at hspace
    cases hspace
  rw [numberAfter]
  exact if_neg (by simp [plainNumber_eq_false hc hmem])

theorem afterLabels_brace (text : List Char) :
    afterLabels ('{' :: text) = numberAfter (text.dropWhile (· ≠ '}')).tail := rfl

theorem afterLabels_of_ne {text : List Char} (h : text.head? ≠ some '{') :
    afterLabels text = numberAfter text := if_neg h

theorem matchSample_cons {start text : List Char} {c : Char} (h : isSpace c = false) :
    matchSample start (c :: text) = (afterLabels text).elim (matchSample (start ++ [c]) text)
      fun number => some (start ++ [c], number) := by
  rw [matchSample, if_neg (by simp [h])]
  cases afterLabels text <;> rfl

theorem afterLabels_cons {c : Char} {text : List Char} (hspace : isSpace c = false)
    (hbrace : c ≠ '{') : afterLabels (c :: text) = none := by
  rw [afterLabels, if_neg (by simpa using hbrace), numberAfter_cons hspace]

/-- The first group is no shorter than a name that the text starts with. -/
theorem matchSample_append {start name rest : List Char} (hne : name ≠ [])
    (hname : ∀ c ∈ name, isSpace c = false ∧ c ≠ '{') :
    matchSample start (name ++ rest) =
      (afterLabels rest).elim (matchSample (start ++ name) rest)
        fun number => some (start ++ name, number) := by
  induction name generalizing start with
  | nil => exact absurd rfl hne
  | cons c name ih =>
    rw [List.cons_append, matchSample_cons (hname c List.mem_cons_self).1]
    cases name with
    | nil => rfl
    | cons d name =>
      have hd := hname d (List.mem_cons_of_mem _ List.mem_cons_self)
      rw [List.cons_append, afterLabels_cons hd.1 hd.2, Option.elim_none, ← List.cons_append,
        ih (List.cons_ne_nil _ _) fun e he => hname e (List.mem_cons_of_mem _ he),
        List.append_assoc, List.singleton_append]

/-- The first group has what it starts with. -/
theorem mem_of_matchSample {start text group number : List Char}
    (h : matchSample start text = some (group, number)) :
    ∀ c, c ∈ start ∨ c ∈ text.head? → c ∈ group := by
  induction text generalizing start with
  | nil => cases h
  | cons d text ih =>
    by_cases hspace : isSpace d = true
    · rw [matchSample, if_pos hspace] at h
      cases h
    · rw [matchSample_cons (by simpa using hspace)] at h
      have hstart : ∀ c, c ∈ start ∨ c ∈ (d :: text).head? → c ∈ start ++ [d] := by
        intro c hc
        rw [List.head?_cons, Option.mem_some] at hc
        rw [List.mem_append, List.mem_singleton]
        exact hc.imp_right Eq.symm
      intro c hc
      cases hnumber : afterLabels text with
      | some number =>
        rw [hnumber] at h
        obtain ⟨rfl, -⟩ := Prod.mk.inj (Option.some.inj h)
        exact hstart c hc
      | none =>
        rw [hnumber] at h
        exact ih h c (.inl (hstart c hc))

/-- **The match of a text that starts with a name.** -/
theorem matchSample_name {group name rest number : List Char} (hne : name ≠ [])
    (hname : ∀ c ∈ name, isSpace c = false ∧ c ≠ '{') (hgroup : '{' ∉ group)
    (hrest : ∀ c ∈ rest.head?, isSpace c = true ∨ c = '{') :
    matchSample [] (name ++ rest) = some (group, number) ↔
      group = name ∧ afterLabels rest = some number := by
  rw [matchSample_append hne hname, List.nil_append]
  cases hafter : afterLabels rest with
  | some found =>
    rw [Option.elim_some, Option.some.injEq, Option.some.injEq, Prod.mk.injEq]
    exact and_congr_left' eq_comm
  | none =>
    rw [Option.elim_none]
    refine ⟨fun h => ?_, fun h => by cases h.2⟩
    -- A longer group would have the brace.
    cases rest with
    | nil => cases h
    | cons c rest =>
      rcases hrest c rfl with hspace | rfl
      · rw [matchSample, if_pos hspace] at h
        cases h
      · exact absurd (mem_of_matchSample h _ (.inr rfl)) hgroup

end Metrics

end FitzDestroyer
