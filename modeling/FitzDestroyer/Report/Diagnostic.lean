import FitzDestroyer.Js.CodeUnits
import FitzDestroyer.Js.NumberText

/-!
# Quoted diagnostics

The report quotes the errors of a scenario line by line (`diagnosticQuote`, `src/report.ts`).  An
error is any text, so it is taken as code units.

* `escapeHtml`, `boundedDiagnostic`, `breakErrors`, `diagnosticQuote` : the model;
* `unescapeHtml`, `unquote` : what a reader of the report sees;
* `Bounded`, `Broken` : the text that is kept, and the breaks in it;
* `diagnosticQuote_exact` : a quote has no markup of its own, and is read as the error.
-/

namespace FitzDestroyer

namespace Report

open Js

/-! ### Escapes -/

section

variable {α : Type*} [DecidableEq α] (symbol : Char → α)

/-- `text.replace(/c/gu, target)`. -/
def replaceChar (c : Char) (target : String) (text : List α) : List α :=
  replaceAll (symbol? (symbol c)) (target.toList.map symbol) text

/-- `escapeHtml(text)`, for characters or code units. -/
def escapeHtml (text : List α) : List α :=
  replaceChar symbol '>' "&gt;"
    (replaceChar symbol '<' "&lt;" (replaceChar symbol '&' "&amp;" text))

end

/-! ### The model -/

def lf : UInt16 := unit '\n'

def cr : UInt16 := unit '\r'

/-- `/\r\n?/`. -/
def lineBreak? (text : List UInt16) : Option ℕ :=
  if text.head? = some cr then some (if text.tail.head? = some lf then 2 else 1) else none

/-- `text.replace(/\r\n?/gu, "\n")`. -/
def normalizeBreaks (text : List UInt16) : List UInt16 := replaceAll lineBreak? [lf] text

/-- White space is below U+10000. -/
def isSpaceUnit (u : UInt16) : Bool := isSpace (Char.ofNat u.toNat)

/-- `text.trim()`. -/
def trimUnits (text : List UInt16) : List UInt16 :=
  ((text.dropWhile isSpaceUnit).reverse.dropWhile isSpaceUnit).reverse

def omissionNotice (omitted : ℕ) : List UInt16 :=
  units s!"\n\n… {omitted} characters omitted …\n\n"

def boundedDiagnostic (value : List UInt16) : List UInt16 :=
  let maximumLength := 12000
  if value.length ≤ maximumLength then value
  else
    let headLength := 9000
    let tailLength := 2000
    let omitted := value.length - headLength - tailLength
    value.take headLength ++ omissionNotice omitted ++ value.drop (value.length - tailLength)

def errorNames : List String := ["Error", "AssertionError", "TimeoutError"]

/-- `/; (?=(?:Error|AssertionError|TimeoutError):)/`. -/
def errorBreak? (text : List UInt16) : Option ℕ :=
  if (units "; ").isPrefixOf text ∧
      errorNames.any fun name => (units s!"{name}:").isPrefixOf (text.drop 2) then some 2
  else none

/-- `text.replace(/; (?=(?:Error|AssertionError|TimeoutError):)/gu, ";\n")`. -/
def breakErrors (text : List UInt16) : List UInt16 := replaceAll errorBreak? (units ";\n") text

def diagnosticQuote (value : List UInt16) : List (List UInt16) :=
  let normalizedValue := trimUnits (normalizeBreaks value)
  let bounded := breakErrors (boundedDiagnostic normalizedValue)
  (bounded.splitOn lf).map fun line => units "> " ++ escapeHtml unit line

/-! ### Reading a quote -/

/-- The symbol that stands for an escape at the start of a text. -/
def escape? (text : List UInt16) : Option (UInt16 × ℕ) :=
  if (units "&amp;").isPrefixOf text then some (unit '&', 4)
  else if (units "&lt;").isPrefixOf text then some (unit '<', 3)
  else if (units "&gt;").isPrefixOf text then some (unit '>', 3)
  else none

/-- The escapes of a text are read from left to right, after the given count of symbols. -/
def unescapeFrom : ℕ → List UInt16 → List UInt16
  | _, [] => []
  | skip + 1, _ :: text => unescapeFrom skip text
  | 0, u :: text =>
    match escape? (u :: text) with
    | some (symbol, n) => symbol :: unescapeFrom n text
    | none => u :: unescapeFrom 0 text

def unescapeHtml (text : List UInt16) : List UInt16 := unescapeFrom 0 text

/-- The text of a quote: the prefixes are left out, the escapes are read, the lines are joined. -/
def unquote (lines : List (List UInt16)) : List UInt16 :=
  [lf].intercalate (lines.map fun line => unescapeHtml (line.drop (units "> ").length))

/-- What is kept of a value: all of it, or its start and its end around the count of the code
units between them. -/
def Bounded (value bounded : List UInt16) : Prop :=
  if value.length ≤ 12000 then bounded = value
  else ∃ start omitted stop, value = start ++ omitted ++ stop ∧ start.length = 9000 ∧
    stop.length = 2000 ∧ bounded = start ++ omissionNotice omitted.length ++ stop

/-- The space at this position stands between a semicolon and the name of an error. -/
def ErrorBreak (text : List UInt16) (i : ℕ) : Prop :=
  ∃ j, i = j + 1 ∧ ∃ name ∈ errorNames, units s!"; {name}:" <+: text.drop j

/-- The text with a line break in place of the spaces before the names of errors. -/
def Broken (text broken : List UInt16) : Prop :=
  broken.length = text.length ∧ ∀ i,
    (ErrorBreak text i → text[i]? = some (unit ' ') ∧ broken[i]? = some lf) ∧
      (¬ErrorBreak text i → broken[i]? = text[i]?)

/-! ### Escapes are read back -/

section

variable {α : Type*} [DecidableEq α] (symbol : Char → α)

/-- What stands for a symbol. -/
def escapeSymbol (s : α) : List α :=
  if s = symbol '&' then "&amp;".toList.map symbol
  else if s = symbol '<' then "&lt;".toList.map symbol
  else if s = symbol '>' then "&gt;".toList.map symbol
  else [s]

/-- The escapes of one kind of symbol have no symbol of the next kinds. -/
theorem escapeHtml_eq_flatMap (hand : symbol '<' ∉ "&amp;".toList.map symbol)
    (hand' : symbol '>' ∉ "&amp;".toList.map symbol) (hless : symbol '>' ∉ "&lt;".toList.map symbol)
    (text : List α) : escapeHtml symbol text = text.flatMap (escapeSymbol symbol) := by
  have hsame : ∀ {c : Char} {target text : List α}, symbol c ∉ text →
      (text.flatMap fun s => if s = symbol c then target else [s]) = text := by
    intro c target text h
    induction text with
    | nil => rfl
    | cons s text ih =>
      rw [List.mem_cons, not_or] at h
      rw [List.flatMap_cons, if_neg (Ne.symm h.1), ih h.2, List.singleton_append]
  unfold escapeHtml replaceChar
  rw [replaceAll_symbol, replaceAll_symbol, replaceAll_symbol, List.flatMap_assoc,
    List.flatMap_assoc]
  congr 1
  funext s
  unfold escapeSymbol
  split_ifs with hs hs hs
  · rw [← List.flatMap_assoc, hsame hand, hsame hand']
  · rw [List.flatMap_singleton, if_pos hs, hsame hless]
  · rw [List.flatMap_singleton, if_neg ‹¬s = symbol '<'›, List.flatMap_singleton, if_pos hs]
  · rw [List.flatMap_singleton, if_neg ‹¬s = symbol '<'›, List.flatMap_singleton, if_neg hs]

end

theorem escapeHtml_unit (text : List UInt16) :
    escapeHtml unit text = text.flatMap (escapeSymbol unit) :=
  escapeHtml_eq_flatMap unit (by decide) (by decide) (by decide) text

theorem mem_escapeSymbol {u v : UInt16} (h : v ∈ escapeSymbol unit u) :
    v ≠ unit '<' ∧ v ≠ unit '>' ∧ (v = u ∨ v ∈ units "&amp;lt;gt;") := by
  have hescape : ∀ text ∈ ["&amp;", "&lt;", "&gt;"], (text.toList.map unit).all fun v =>
      v ≠ unit '<' ∧ v ≠ unit '>' ∧ v ∈ units "&amp;lt;gt;" := by decide
  have hof : ∀ text ∈ ["&amp;", "&lt;", "&gt;"], v ∈ text.toList.map unit →
      v ≠ unit '<' ∧ v ≠ unit '>' ∧ (v = u ∨ v ∈ units "&amp;lt;gt;") := fun text htext hv =>
    have hv := of_decide_eq_true (List.all_eq_true.mp (hescape text htext) v hv)
    ⟨hv.1, hv.2.1, .inr hv.2.2⟩
  unfold escapeSymbol at h
  split_ifs at h with hand hless hmore
  · exact hof "&amp;" (by simp) h
  · exact hof "&lt;" (by simp) h
  · exact hof "&gt;" (by simp) h
  · rw [List.mem_singleton.mp h]
    exact ⟨hless, hmore, .inl rfl⟩

/-- An escaped text has no markup, and no other line end than the text. -/
theorem mem_escapeHtml {text : List UInt16} {v : UInt16} (h : v ∈ escapeHtml unit text) :
    v ≠ unit '<' ∧ v ≠ unit '>' ∧ (v ∈ text ∨ v ∈ units "&amp;lt;gt;") := by
  rw [escapeHtml_unit] at h
  obtain ⟨u, hu, hv⟩ := List.mem_flatMap.mp h
  obtain ⟨hless, hmore, rfl | hv⟩ := mem_escapeSymbol hv
  · exact ⟨hless, hmore, .inl hu⟩
  · exact ⟨hless, hmore, .inr hv⟩

/-- Every escape starts with `&`. -/
theorem escape?_of_ne {u : UInt16} (h : u ≠ unit '&') (text : List UInt16) :
    escape? (u :: text) = none := by
  have hprefix : ∀ tail : List UInt16, (unit '&' :: tail).isPrefixOf (u :: text) = false := by
    intro tail
    simp [List.isPrefixOf, Ne.symm h]
  have hand : units "&amp;" = unit '&' :: units "amp;" := by decide
  have hless : units "&lt;" = unit '&' :: units "lt;" := by decide
  have hmore : units "&gt;" = unit '&' :: units "gt;" := by decide
  simp only [escape?, hand, hless, hmore, hprefix, Bool.false_eq_true, if_false]

theorem unescapeFrom_escapeSymbol (u : UInt16) (text : List UInt16) :
    unescapeFrom 0 (escapeSymbol unit u ++ text) = u :: unescapeFrom 0 text := by
  unfold escapeSymbol
  split_ifs with hand hless hmore
  · rw [hand]
    rfl
  · rw [hless]
    rfl
  · rw [hmore]
    rfl
  · simp only [List.singleton_append, unescapeFrom, escape?_of_ne hand]

/-- Escapes are read back. -/
theorem unescapeHtml_escapeHtml (text : List UInt16) :
    unescapeHtml (escapeHtml unit text) = text := by
  rw [escapeHtml_unit]
  induction text with
  | nil => rfl
  | cons u text ih =>
    rw [List.flatMap_cons, unescapeHtml, unescapeFrom_escapeSymbol]
    exact congrArg _ ih

/-! ### Line ends -/

theorem cr_notMem_normalizeBreaks (text : List UInt16) : cr ∉ normalizeBreaks text := by
  suffices h : ∀ skip, cr ∉ replaceFrom lineBreak? [lf] skip text from h 0
  induction text with
  | nil => simp [replaceFrom]
  | cons u text ih =>
    intro skip
    cases skip with
    | succ skip => exact ih skip
    | zero =>
      by_cases hu : u = cr
      · simp only [replaceFrom, lineBreak?, List.head?_cons, hu, if_true, List.singleton_append,
          List.mem_cons, not_or]
        exact ⟨by decide, ih _⟩
      · simp only [replaceFrom, lineBreak?, List.head?_cons, Option.some.injEq, hu, if_false,
          List.mem_cons, not_or]
        exact ⟨Ne.symm hu, ih 0⟩

theorem mem_trimUnits {text : List UInt16} {u : UInt16} (h : u ∈ trimUnits text) : u ∈ text := by
  have hinner := (List.dropWhile_sublist _).subset (List.mem_reverse.mp h)
  exact (List.dropWhile_sublist _).subset (List.mem_reverse.mp hinner)

theorem cr_notMem_units {text : String} (h : ∀ c ∈ text.toList, c.toNat < 0x10000 ∧ c ≠ '\r') :
    cr ∉ units text := by
  intro hcr
  obtain ⟨c, hc, hu⟩ := List.mem_flatMap.mp hcr
  obtain ⟨hsmall, hne⟩ := h c hc
  rw [unitsOf, if_pos hsmall, List.mem_singleton] at hu
  have hcode : c.toNat = 13 := by
    have hmod := congrArg UInt16.toNat hu
    change 13 = c.toNat % 2 ^ 16 at hmod
    omega
  exact hne (Char.ext (UInt32.toNat_inj.mp hcode))

theorem cr_notMem_omissionNotice (omitted : ℕ) : cr ∉ omissionNotice omitted := by
  refine cr_notMem_units fun c hc => ?_
  have hstart : ∀ c ∈ "\n\n… ".toList, c.toNat < 0x10000 ∧ c ≠ '\r' := by decide
  have hstop : ∀ c ∈ " characters omitted …\n\n".toList, c.toNat < 0x10000 ∧ c ≠ '\r' := by
    decide
  rw [String.toList_append, String.toList_append, List.mem_append, List.mem_append] at hc
  rcases hc with (hc | hc) | hc
  · exact hstart c hc
  · rw [Nat.toString_eq_ofList_toDigits, String.toList_ofList] at hc
    have hdigit := isDigit_iff.mp (Nat.isDigit_of_mem_toDigits (by decide) (by decide) hc)
    refine ⟨by omega, ?_⟩
    rintro rfl
    revert hdigit
    decide
  · exact hstop c hc

/-! ### Breaks before errors -/

theorem units_errorBreak (name : String) :
    units s!"; {name}:" = unit ';' :: unit ' ' :: units s!"{name}:" := by
  simp only [units, String.toList_append, List.flatMap_append, List.append_assoc]
  rfl

theorem errorBreak?_eq_some {text : List UInt16} {n : ℕ} :
    errorBreak? text = some n ↔ n = 2 ∧ ∃ name ∈ errorNames, units s!"; {name}:" <+: text := by
  have hstart : units "; " = [unit ';', unit ' '] := by decide
  have hsplit : ∀ name : String, units s!"; {name}:" <+: text ↔
      units "; " <+: text ∧ units s!"{name}:" <+: text.drop 2 := by
    intro name
    rw [units_errorBreak, hstart]
    constructor
    · rintro ⟨rest, rfl⟩
      exact ⟨⟨_, rfl⟩, rest, rfl⟩
    · rintro ⟨⟨rest, rfl⟩, htail⟩
      exact (List.prefix_append_right_inj [unit ';', unit ' ']).mpr htail
  unfold errorBreak?
  simp only [List.isPrefixOf_iff_prefix, List.any_eq_true, hsplit]
  split_ifs with h
  · obtain ⟨hstart, name, hname, htail⟩ := h
    refine ⟨fun heq => ⟨(Option.some.inj heq).symm, name, hname, hstart, htail⟩, ?_⟩
    rintro ⟨rfl, -⟩
    rfl
  · refine ⟨fun heq => heq.elim, ?_⟩
    rintro ⟨-, name, hname, hstart, htail⟩
    exact absurd ⟨hstart, name, hname, htail⟩ h

/-- A break starts with a semicolon and a space. -/
theorem eq_cons_of_errorBreak? {text : List UInt16} {n : ℕ} (h : errorBreak? text = some n) :
    n = 2 ∧ ∃ rest, text = unit ';' :: unit ' ' :: rest := by
  obtain ⟨hn, name, -, rest, rfl⟩ := errorBreak?_eq_some.mp h
  rw [units_errorBreak]
  exact ⟨hn, _, rfl⟩

theorem not_errorBreak_zero (text : List UInt16) : ¬ErrorBreak text 0 := by
  rintro ⟨j, hj, -⟩
  omega

theorem errorBreak_succ {text : List UInt16} {i : ℕ} :
    ErrorBreak text (i + 1) ↔ errorBreak? (text.drop i) = some 2 := by
  rw [errorBreak?_eq_some]
  constructor
  · rintro ⟨j, hj, hname⟩
    rw [Nat.succ.inj hj]
    exact ⟨rfl, hname⟩
  · rintro ⟨-, hname⟩
    exact ⟨i, rfl, hname⟩

theorem errorBreak_cons {u : UInt16} {text : List UInt16} {i : ℕ}
    (h : errorBreak? (u :: text) = none) : ErrorBreak (u :: text) (i + 1) ↔ ErrorBreak text i := by
  cases i with
  | zero => simp [errorBreak_succ, h, not_errorBreak_zero]
  | succ i => rw [errorBreak_succ, errorBreak_succ, List.drop_succ_cons]

theorem Broken.cons {u : UInt16} {text broken : List UInt16} (hbroken : Broken text broken)
    (h : errorBreak? (u :: text) = none) : Broken (u :: text) (u :: broken) := by
  refine ⟨congrArg (· + 1) hbroken.1, fun i => ?_⟩
  cases i with
  | zero => simp [not_errorBreak_zero]
  | succ i =>
    rw [errorBreak_cons h]
    exact hbroken.2 i

/-- A space is replaced by a line break. -/
theorem Broken.cons_cons {text broken : List UInt16} (hbroken : Broken text broken)
    (h : errorBreak? (unit ';' :: unit ' ' :: text) = some 2) :
    Broken (unit ';' :: unit ' ' :: text) (unit ';' :: lf :: broken) := by
  have hspace : errorBreak? (unit ' ' :: text) = none := by
    rw [Option.eq_none_iff_forall_ne_some]
    intro n hn
    obtain ⟨-, rest, hrest⟩ := eq_cons_of_errorBreak? hn
    exact absurd (List.cons.inj hrest).1 (by decide)
  refine ⟨congrArg (· + 2) hbroken.1, fun i => ?_⟩
  cases i with
  | zero => simp [not_errorBreak_zero]
  | succ i =>
    cases i with
    | zero =>
      have hone : ErrorBreak (unit ';' :: unit ' ' :: text) (0 + 1) := errorBreak_succ.mpr h
      exact ⟨fun _ => ⟨rfl, rfl⟩, fun hnot => absurd hone hnot⟩
    | succ i =>
      have hsucc : ErrorBreak (unit ';' :: unit ' ' :: text) (i + 1 + 1) ↔ ErrorBreak text i := by
        rw [errorBreak_succ, List.drop_succ_cons, ← errorBreak_succ, errorBreak_cons hspace]
      rw [hsucc]
      exact hbroken.2 i

theorem broken_breakErrors (text : List UInt16) : Broken text (breakErrors text) := by
  induction h : text.length using Nat.strong_induction_on generalizing text with
  | _ n ih =>
    subst h
    cases text with
    | nil =>
      refine ⟨rfl, fun i => ⟨?_, fun _ => rfl⟩⟩
      rintro ⟨j, -, name, -, hname⟩
      rw [List.drop_nil, units_errorBreak] at hname
      exact absurd (List.prefix_nil.mp hname) (List.cons_ne_nil _ _)
    | cons u text =>
      cases hbreak : errorBreak? (u :: text) with
      | none =>
        rw [breakErrors, replaceAll_of_none hbreak]
        exact (ih text.length (Nat.lt_succ_self _) text rfl).cons hbreak
      | some n =>
        obtain ⟨rfl, rest, hrest⟩ := eq_cons_of_errorBreak? hbreak
        rw [hrest] at hbreak ih ⊢
        rw [breakErrors, replaceAll_of_some_two hbreak]
        exact (ih rest.length (Nat.lt_add_of_pos_right Nat.two_pos) rest rfl).cons_cons hbreak

theorem cr_notMem_breakErrors {text : List UInt16} (h : cr ∉ text) : cr ∉ breakErrors text := by
  intro hcr
  obtain ⟨i, hi⟩ := List.mem_iff_getElem?.mp hcr
  obtain ⟨hbreak, hsame⟩ := (broken_breakErrors text).2 i
  by_cases hi' : ErrorBreak text i
  · rw [(hbreak hi').2] at hi
    exact absurd hi (by decide)
  · rw [hsame hi'] at hi
    exact h (List.mem_iff_getElem?.mpr ⟨i, hi⟩)

theorem bounded_boundedDiagnostic (value : List UInt16) :
    Bounded value (boundedDiagnostic value) := by
  unfold Bounded boundedDiagnostic
  dsimp only
  split_ifs with hshort
  · rfl
  · have hdrop : value.length - 2000 = 9000 + (value.length - 9000 - 2000) := by omega
    have homitted : ((value.drop 9000).take (value.length - 9000 - 2000)).length =
        value.length - 9000 - 2000 := by
      rw [List.length_take, List.length_drop]
      omega
    refine ⟨value.take 9000, (value.drop 9000).take (value.length - 9000 - 2000),
      value.drop (value.length - 2000), ?_, ?_, ?_, ?_⟩
    · rw [hdrop, ← List.drop_drop, List.append_assoc, List.take_append_drop,
        List.take_append_drop]
    · rw [List.length_take]
      omega
    · rw [List.length_drop]
      omega
    · rw [homitted]

/-! ### Quotes -/

theorem cr_notMem_boundedDiagnostic {value : List UInt16} (h : cr ∉ value) :
    cr ∉ boundedDiagnostic value := by
  unfold boundedDiagnostic
  dsimp only
  split_ifs
  · exact h
  · simp only [List.mem_append, not_or]
    exact ⟨⟨fun hcr => h (List.take_subset _ _ hcr), cr_notMem_omissionNotice _⟩,
      fun hcr => h (List.drop_subset _ _ hcr)⟩

theorem unquote_diagnosticQuote (value : List UInt16) :
    unquote (diagnosticQuote value) =
      breakErrors (boundedDiagnostic (trimUnits (normalizeBreaks value))) := by
  simp only [unquote, diagnosticQuote, List.map_map, Function.comp_def, List.drop_left,
    unescapeHtml_escapeHtml, List.map_id']
  exact List.intercalate_splitOn lf

/-- **A quoted diagnostic** stays in its quote, line by line, and is read as the error: its line
ends are `\n`, it is trimmed, and what is left out of a long one is counted. -/
theorem diagnosticQuote_exact (value : List UInt16) :
    (∀ line ∈ diagnosticQuote value, cr ∉ line ∧ lf ∉ line ∧
      ∃ text, line = units "> " ++ text ∧ unit '<' ∉ text ∧ unit '>' ∉ text) ∧
    ∃ bounded, Bounded (trimUnits (normalizeBreaks value)) bounded ∧
      Broken bounded (unquote (diagnosticQuote value)) := by
  refine ⟨fun line hline => ?_, _, bounded_boundedDiagnostic _, ?_⟩
  · obtain ⟨piece, hpiece, rfl⟩ := List.mem_map.mp hline
    have hcr : cr ∉ piece := fun hcr => cr_notMem_breakErrors (cr_notMem_boundedDiagnostic
      fun h => cr_notMem_normalizeBreaks value (mem_trimUnits h)) (mem_of_mem_splitOn hpiece hcr)
    have hlf : lf ∉ piece := not_mem_of_mem_splitOn hpiece
    have hescape : ∀ {v}, v ∉ piece → v ∉ units "> " → v ∉ units "&amp;lt;gt;" →
        v ∉ units "> " ++ escapeHtml unit piece := fun hv hstart hescape h => by
      rcases List.mem_append.mp h with h | h
      · exact hstart h
      · exact (mem_escapeHtml h).2.2.elim hv hescape
    exact ⟨hescape hcr (by decide) (by decide), hescape hlf (by decide) (by decide), _, rfl,
      fun h => (mem_escapeHtml h).1 rfl, fun h => (mem_escapeHtml h).2.1 rfl⟩
  · rw [unquote_diagnosticQuote]
    exact broken_breakErrors _

end Report

end FitzDestroyer
