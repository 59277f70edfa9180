import FitzDestroyer.Js.Utf8
import Mathlib.Data.List.Basic

/-!
# Code units

A text of JavaScript is a list of 16-bit code units: its length and its slices count them, and a
slice may end inside of a character.

* `units` : the code units of a text;
* `ofUnits`, `sliceStart` : the characters of code units, as they are written to a file;
* `replaceAll` : `text.replace(/../g, target)`, for symbols of any kind;
* `replaceAll_symbol` : the replacement of one symbol, symbol by symbol;
* `not_mem_of_mem_splitOn` : a piece of `text.split(symbol)`;
* `exists_intercalate`, `mem_of_mem_intercalate` : a text that is joined of pieces.
-/

namespace FitzDestroyer

namespace Js

/-! ### Characters -/

/-- The code unit of a character below U+10000. -/
def unit (c : Char) : UInt16 := c.toNat.toUInt16

def unitsOf (c : Char) : List UInt16 :=
  if c.toNat < 0x10000 then [unit c]
  else [(0xD800 + (c.toNat - 0x10000) / 0x400).toUInt16,
    (0xDC00 + (c.toNat - 0x10000) % 0x400).toUInt16]

def units (text : String) : List UInt16 := text.toList.flatMap unitsOf

/-- The character of the code units of a pair. -/
def pair? (first second : UInt16) : Option Char :=
  if 0xD800 ≤ first.toNat ∧ first.toNat < 0xDC00 ∧ 0xDC00 ≤ second.toNat ∧
      second.toNat < 0xE000 then
    some (Char.ofNat (0x10000 + (first.toNat - 0xD800) * 0x400 + (second.toNat - 0xDC00)))
  else none

/-- The character of a code unit outside of a pair. -/
def single (u : UInt16) : Char :=
  if 0xD800 ≤ u.toNat ∧ u.toNat < 0xE000 then replacement else Char.ofNat u.toNat

/-- The characters of code units.  Half of a pair is replaced. -/
def ofUnits : List UInt16 → List Char
  | [] => []
  | [u] => [single u]
  | u :: v :: us =>
    match pair? u v with
    | some c => c :: ofUnits us
    | none => single u :: ofUnits (v :: us)

/-- `text.slice(0, count)`. -/
def sliceStart (count : ℕ) (text : String) : String :=
  String.ofList (ofUnits ((units text).take count))

/-! ### Replacement -/

section

variable {α : Type*}

/-- `text.replace(/../g, target)` after the given count of symbols of a match.  `matched` is the
length of the match at the start of a text, which is positive. -/
def replaceFrom (matched : List α → Option ℕ) (target : List α) : ℕ → List α → List α
  | _, [] => []
  | skip + 1, _ :: text => replaceFrom matched target skip text
  | 0, symbol :: text =>
    match matched (symbol :: text) with
    | some n => target ++ replaceFrom matched target (n - 1) text
    | none => symbol :: replaceFrom matched target 0 text

def replaceAll (matched : List α → Option ℕ) (target text : List α) : List α :=
  replaceFrom matched target 0 text

/-- The match of a symbol. -/
def symbol? [DecidableEq α] (symbol : α) (text : List α) : Option ℕ :=
  if text.head? = some symbol then some 1 else none

@[simp] theorem replaceAll_nil (matched : List α → Option ℕ) (target : List α) :
    replaceAll matched target [] = [] := rfl

theorem replaceAll_of_none {matched : List α → Option ℕ} {target : List α} {symbol : α}
    {text : List α} (h : matched (symbol :: text) = none) :
    replaceAll matched target (symbol :: text) = symbol :: replaceAll matched target text := by
  simp only [replaceAll, replaceFrom, h]

theorem replaceAll_of_some_one {matched : List α → Option ℕ} {target : List α} {symbol : α}
    {text : List α} (h : matched (symbol :: text) = some 1) :
    replaceAll matched target (symbol :: text) = target ++ replaceAll matched target text := by
  simp only [replaceAll, replaceFrom, h, Nat.sub_self]

theorem replaceAll_of_some_two {matched : List α → Option ℕ} {target : List α} {first second : α}
    {text : List α} (h : matched (first :: second :: text) = some 2) :
    replaceAll matched target (first :: second :: text) =
      target ++ replaceAll matched target text := by
  simp only [replaceAll, replaceFrom, h]

/-- One symbol is replaced wherever it stands. -/
theorem replaceAll_symbol [DecidableEq α] (symbol : α) (target text : List α) :
    replaceAll (symbol? symbol) target text =
      text.flatMap fun s => if s = symbol then target else [s] := by
  induction text with
  | nil => rfl
  | cons s text ih =>
    rw [List.flatMap_cons, ← ih]
    by_cases h : s = symbol
    · rw [if_pos h, replaceAll_of_some_one]
      simp [symbol?, h]
    · rw [if_neg h, replaceAll_of_none, List.singleton_append]
      simp [symbol?, h]

end

/-! ### Pieces -/

/-- No piece of a split has the symbol that is split at. -/
theorem not_mem_of_mem_splitOn {α : Type*} [DecidableEq α] {symbol : α} {text piece : List α}
    (h : piece ∈ text.splitOn symbol) : symbol ∉ piece := by
  induction text generalizing piece with
  | nil =>
    rw [List.splitOn_nil, List.mem_singleton] at h
    simp [h]
  | cons s text ih =>
    rw [List.splitOn_cons_eq_if_modifyHead] at h
    split_ifs at h with hs
    · rcases List.mem_cons.mp h with rfl | h
      · simp
      · exact ih h
    · obtain ⟨first, pieces, hpieces⟩ :=
        List.exists_cons_of_ne_nil (List.splitOn_ne_nil symbol text)
      rw [hpieces, List.modifyHead_cons] at h
      rcases List.mem_cons.mp h with rfl | h
      · have hne : ¬symbol = s := fun heq => hs (by simp [heq])
        simp only [List.mem_cons, hne, false_or]
        exact ih (hpieces ▸ List.mem_cons_self)
      · exact ih (hpieces ▸ List.mem_cons_of_mem _ h)

/-- A joined text has each of its pieces. -/
theorem exists_intercalate {α : Type*} {between piece : List α} {pieces : List (List α)}
    (h : piece ∈ pieces) :
    ∃ before after, between.intercalate pieces = before ++ piece ++ after := by
  induction pieces with
  | nil => cases h
  | cons first pieces ih =>
    cases pieces with
    | nil =>
      obtain rfl := List.mem_singleton.mp h
      exact ⟨[], [], by simp⟩
    | cons second pieces =>
      rw [List.intercalate_cons_cons]
      rcases List.mem_cons.mp h with rfl | h
      · exact ⟨[], between ++ between.intercalate (second :: pieces), by simp⟩
      · obtain ⟨before, after, heq⟩ := ih h
        exact ⟨first ++ between ++ before, after, by simp [heq]⟩

theorem mem_intercalate {α : Type*} {between piece : List α} {pieces : List (List α)} {s : α}
    (h : piece ∈ pieces) (hs : s ∈ piece) : s ∈ between.intercalate pieces := by
  obtain ⟨before, after, heq⟩ : ∃ before after,
      between.intercalate pieces = before ++ piece ++ after := exists_intercalate h
  rw [heq]
  exact List.mem_append_left _ (List.mem_append_right _ hs)

/-- A joined text has nothing else. -/
theorem mem_of_mem_intercalate {α : Type*} {between : List α} {pieces : List (List α)} {s : α}
    (h : s ∈ between.intercalate pieces) : s ∈ between ∨ ∃ piece ∈ pieces, s ∈ piece := by
  induction pieces with
  | nil => cases h
  | cons first pieces ih =>
    cases pieces with
    | nil =>
      rw [List.intercalate_singleton] at h
      exact .inr ⟨first, List.mem_cons_self, h⟩
    | cons second pieces =>
      rw [List.intercalate_cons_cons, List.mem_append, List.mem_append] at h
      rcases h with (h | h) | h
      · exact .inr ⟨first, List.mem_cons_self, h⟩
      · exact .inl h
      · obtain hs | ⟨piece, hmem, hs⟩ := ih h
        · exact .inl hs
        · exact .inr ⟨piece, List.mem_cons_of_mem _ hmem, hs⟩

theorem intercalate_append {α : Type*} {between : List α} {pieces pieces' : List (List α)}
    (h : pieces ≠ []) (h' : pieces' ≠ []) : between.intercalate (pieces ++ pieces') =
      between.intercalate pieces ++ between ++ between.intercalate pieces' := by
  induction pieces with
  | nil => exact absurd rfl h
  | cons first pieces ih =>
    cases pieces with
    | nil =>
      obtain ⟨next, others, rfl⟩ := List.exists_cons_of_ne_nil h'
      simp
    | cons second pieces =>
      have hrest := ih (List.cons_ne_nil second pieces)
      simp only [List.cons_append, List.intercalate_cons_cons, List.append_assoc] at hrest ⊢
      rw [hrest]

/-- Every symbol of a piece is one of the text. -/
theorem mem_of_mem_splitOn {α : Type*} [DecidableEq α] {symbol s : α} {text piece : List α}
    (h : piece ∈ text.splitOn symbol) (hs : s ∈ piece) : s ∈ text := by
  have hflat : s ∈ [symbol].intercalate (text.splitOn symbol) := mem_intercalate h hs
  rwa [List.intercalate_splitOn] at hflat

end Js

end FitzDestroyer
