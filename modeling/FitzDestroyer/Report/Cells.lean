import FitzDestroyer.Report.Render

/-!
# The cells of a table

A row of a Markdown table is a line, and its cells end at the pipes that are not escaped.

* `unescapedPipes`, `escapedPipes` : the pipes after an even, or an odd, number of backslashes;
* `Inert` : a text that neither ends a cell nor a line;
* `CellSafe` : a text that `tableCell` makes inert;
* `inert_tableCell`, `inert_append`, `Neutral.inert` : which texts are inert;
* `cellSafe_stringify` : JSON is safe in a cell.
-/

namespace FitzDestroyer

namespace Report

open Js Workload

/-! ### Pipes and line ends -/

/-- The pipes that an odd number of backslashes precedes, or the other pipes.  `escaped` is whether
an odd number of backslashes precedes the text. -/
def pipesFrom (odd : Bool) : Bool → List Char → ℕ
  | _, [] => 0
  | escaped, c :: cs =>
    (if c = '|' ∧ escaped = odd then 1 else 0) + pipesFrom odd (c = '\\' && !escaped) cs

/-- The pipes that an even number of backslashes precedes. -/
def unescapedPipes (text : List Char) : ℕ := pipesFrom false false text

/-- The pipes that an odd number of backslashes precedes. -/
def escapedPipes (text : List Char) : ℕ := pipesFrom true false text

/-- The text has no unescaped pipe and no line end. -/
structure Inert (text : List Char) : Prop where
  pipes : unescapedPipes text = 0
  newline : '\n' ∉ text
  carriageReturn : '\r' ∉ text

/-- Every carriage return of the text comes before a line feed. -/
def NoLoneReturn (text : List Char) : Prop :=
  ∀ rest, '\r' :: rest <:+ text → rest.head? = some '\n'

/-- The text has no escaped pipe, and no carriage return without a line feed. -/
structure CellSafe (text : List Char) : Prop where
  pipes : escapedPipes text = 0
  carriageReturn : NoLoneReturn text

/-! ### Plain characters -/

/-- The character is no pipe, no backslash and no line end. -/
def Plain (c : Char) : Prop := c ≠ '|' ∧ c ≠ '\\' ∧ c ≠ '\n' ∧ c ≠ '\r'

instance (c : Char) : Decidable (Plain c) := inferInstanceAs (Decidable (_ ∧ _))

/-- A property that no other character has. -/
theorem plain_of {P : Char → Prop} {c : Char} (hc : P c)
    (h : ¬P '|' ∧ ¬P '\\' ∧ ¬P '\n' ∧ ¬P '\r') : Plain c := by
  refine ⟨?_, ?_, ?_, ?_⟩
  · exact fun heq => h.1 (heq ▸ hc)
  · exact fun heq => h.2.1 (heq ▸ hc)
  · exact fun heq => h.2.2.1 (heq ▸ hc)
  · exact fun heq => h.2.2.2 (heq ▸ hc)

section Plain

variable {odd escaped : Bool} {c : Char} {cs ds : List Char}

/-- No state is left after a plain character. -/
theorem pipesFrom_cons_plain (hc : Plain c) :
    pipesFrom odd escaped (c :: cs) = pipesFrom odd false cs := by
  simp [pipesFrom, hc.1, hc.2.1]

theorem pipesFrom_append_plain (hc : Plain c) :
    pipesFrom odd escaped (cs ++ c :: ds) =
      pipesFrom odd escaped cs + pipesFrom odd false ds := by
  induction cs generalizing escaped with
  | nil => rw [List.nil_append, pipesFrom_cons_plain hc, pipesFrom, Nat.zero_add]
  | cons d cs ih => rw [List.cons_append, pipesFrom, ih, pipesFrom, Nat.add_assoc]

theorem pipesFrom_plain_append (hcs : ∀ c ∈ cs, Plain c) (hne : cs ≠ []) :
    pipesFrom odd escaped (cs ++ ds) = pipesFrom odd false ds := by
  induction cs generalizing escaped with
  | nil => exact absurd rfl hne
  | cons c cs ih =>
    rw [List.cons_append, pipesFrom_cons_plain (hcs c List.mem_cons_self)]
    rcases cs.eq_nil_or_concat with rfl | hne
    · rfl
    · refine ih (fun c hc => hcs c (List.mem_cons_of_mem _ hc)) ?_
      rintro rfl
      simp at hne

theorem inert_append_cons (hc : Plain c) : Inert (cs ++ c :: ds) ↔ Inert cs ∧ Inert ds := by
  have hpipes : unescapedPipes (cs ++ c :: ds) = unescapedPipes cs + unescapedPipes ds :=
    pipesFrom_append_plain hc
  constructor
  · rintro ⟨hnone, hnewline, hreturn⟩
    simp only [List.mem_append, List.mem_cons, not_or] at hnewline hreturn
    rw [hpipes, Nat.add_eq_zero_iff] at hnone
    exact ⟨⟨hnone.1, hnewline.1, hreturn.1⟩, hnone.2, hnewline.2.2, hreturn.2.2⟩
  · rintro ⟨hcs, hds⟩
    refine ⟨by rw [hpipes, hcs.pipes, hds.pipes], ?_, ?_⟩
    · simp [hcs.newline, hds.newline, Ne.symm hc.2.2.1]
    · simp [hcs.carriageReturn, hds.carriageReturn, Ne.symm hc.2.2.2]

@[simp] theorem inert_nil : Inert [] := ⟨rfl, by simp, by simp⟩

theorem inert_cons (hc : Plain c) : Inert (c :: cs) ↔ Inert cs := by
  have happend : Inert ([] ++ c :: cs) ↔ Inert [] ∧ Inert cs := inert_append_cons hc
  exact happend.trans (and_iff_right inert_nil)

theorem inert_plain_append (hcs : ∀ c ∈ cs, Plain c) : Inert (cs ++ ds) ↔ Inert ds := by
  induction cs with
  | nil => rfl
  | cons c cs ih =>
    rw [List.cons_append, inert_cons (hcs c List.mem_cons_self)]
    exact ih fun c hc => hcs c (List.mem_cons_of_mem _ hc)

theorem inert_of_plain (hcs : ∀ c ∈ cs, Plain c) : Inert cs := by
  rw [← List.append_nil cs, inert_plain_append hcs]
  exact inert_nil

/-- Plain characters between two texts keep them apart. -/
theorem inert_append_plain_append {between : List Char} (h : ∀ c ∈ between, Plain c)
    (hne : between ≠ []) : Inert (cs ++ (between ++ ds)) ↔ Inert cs ∧ Inert ds := by
  obtain ⟨c, between, rfl⟩ := List.exists_cons_of_ne_nil hne
  rw [List.cons_append, inert_append_cons (h c List.mem_cons_self),
    inert_plain_append fun c hc => h c (List.mem_cons_of_mem _ hc)]

theorem inert_append_plain {between : List Char} (h : ∀ c ∈ between, Plain c) :
    Inert (cs ++ between) ↔ Inert cs := by
  cases between with
  | nil => rw [List.append_nil]
  | cons c between =>
    rw [inert_append_cons (h c List.mem_cons_self)]
    exact and_iff_left (inert_of_plain fun c hc => h c (List.mem_cons_of_mem _ hc))

end Plain

/-! ### Cells -/

/-- What the pipes are replaced by. -/
def escapePipe (c : Char) : List Char := if c = '|' then ['\\', '|'] else [c]

theorem tableCell_toList (value : String) :
    (tableCell value).toList = replaceAll newline? [' '] (value.toList.flatMap escapePipe) := by
  rw [tableCell, String.toList_ofList, replaceChar, replaceAll_symbol]
  rfl

theorem pipesFrom_escapePipe (escaped : Bool) (cs : List Char) :
    pipesFrom false escaped (cs.flatMap escapePipe) = pipesFrom true escaped cs := by
  induction cs generalizing escaped with
  | nil => rfl
  | cons c cs ih =>
    rw [List.flatMap_cons, escapePipe]
    split_ifs with hc
    · subst hc
      cases escaped <;> simp [pipesFrom, ih]
    · simp [pipesFrom, hc, ih]

theorem noLoneReturn_cons {c : Char} {cs : List Char} :
    NoLoneReturn (c :: cs) ↔ (c = '\r' → cs.head? = some '\n') ∧ NoLoneReturn cs := by
  simp only [NoLoneReturn, List.suffix_cons_iff, List.cons.injEq]
  constructor
  · exact fun h => ⟨fun hc => h cs (.inl ⟨hc.symm, rfl⟩), fun rest hrest => h rest (.inr hrest)⟩
  · rintro ⟨hc, hcs⟩ rest (⟨rfl, rfl⟩ | hrest)
    · exact hc rfl
    · exact hcs rest hrest

theorem noLoneReturn_escapePipe (cs : List Char) :
    NoLoneReturn (cs.flatMap escapePipe) ↔ NoLoneReturn cs := by
  have hhead : ∀ cs : List Char,
      (cs.flatMap escapePipe).head? = some '\n' ↔ cs.head? = some '\n' := by
    intro cs
    cases cs with
    | nil => rfl
    | cons c cs =>
      rw [List.flatMap_cons, escapePipe]
      split_ifs with hc
      · subst hc
        simp
      · simp
  induction cs with
  | nil => rfl
  | cons c cs ih =>
    rw [List.flatMap_cons, escapePipe]
    split_ifs with hc
    · subst hc
      simp [noLoneReturn_cons, ih]
    · rw [List.singleton_append, noLoneReturn_cons, noLoneReturn_cons, hhead]
      exact and_congr_right fun _ => ih

/-- The induction of `/\r?\n/g`. -/
theorem newline_induction {P : List Char → Prop} (nil : P [])
    (newline : ∀ cs, P cs → P ('\n' :: cs))
    (pair : ∀ cs, P cs → P ('\r' :: '\n' :: cs))
    (other : ∀ c cs, newline? (c :: cs) = none → P cs → P (c :: cs)) (cs : List Char) : P cs := by
  induction h : cs.length using Nat.strong_induction_on generalizing cs with
  | _ n ih =>
    subst h
    cases cs with
    | nil => exact nil
    | cons c cs =>
      have hcs := ih cs.length (Nat.lt_succ_self _) cs rfl
      cases hmatch : newline? (c :: cs) with
      | none => exact other c cs hmatch hcs
      | some n =>
        simp only [newline?, List.head?_cons, Option.some.injEq, List.tail_cons] at hmatch
        split_ifs at hmatch with hc hpair
        · rw [hc]
          exact newline cs hcs
        · obtain ⟨rfl, hhead⟩ := hpair
          obtain ⟨rest, rfl⟩ := List.head?_eq_some_iff.mp hhead
          exact pair rest (ih rest.length (Nat.lt_add_of_pos_right Nat.two_pos) rest rfl)

/-- Line ends become spaces; a carriage return stays if no line feed comes after it. -/
theorem replaceAll_newline (cs : List Char) :
    (∀ escaped, pipesFrom false escaped (replaceAll newline? [' '] cs) =
      pipesFrom false escaped cs) ∧ '\n' ∉ replaceAll newline? [' '] cs ∧
      ('\r' ∉ replaceAll newline? [' '] cs ↔ NoLoneReturn cs) := by
  induction cs using newline_induction with
  | nil => simp [NoLoneReturn]
  | newline cs ih =>
    rw [replaceAll_of_some_one (by rfl)]
    obtain ⟨hpipes, hnewline, hreturn⟩ := ih
    refine ⟨fun escaped => ?_, ?_, ?_⟩
    · simp [pipesFrom, hpipes]
    · simpa using hnewline
    · simp [noLoneReturn_cons, hreturn]
  | pair cs ih =>
    rw [replaceAll_of_some_two (by rfl)]
    obtain ⟨hpipes, hnewline, hreturn⟩ := ih
    refine ⟨fun escaped => ?_, ?_, ?_⟩
    · simp [pipesFrom, hpipes]
    · simpa using hnewline
    · simp [noLoneReturn_cons, hreturn]
  | other c cs hmatch ih =>
    rw [replaceAll_of_none hmatch]
    obtain ⟨hpipes, hnewline, hreturn⟩ := ih
    simp only [newline?, List.head?_cons, Option.some.injEq, List.tail_cons] at hmatch
    split_ifs at hmatch with hc hpair
    refine ⟨fun escaped => ?_, ?_, ?_⟩
    · rw [pipesFrom, hpipes, pipesFrom]
    · simp [hnewline, Ne.symm hc]
    · rw [noLoneReturn_cons, List.mem_cons, not_or, hreturn]
      refine and_congr_left fun _ => ⟨fun hne heq => absurd heq.symm hne, ?_⟩
      exact fun h heq => hpair ⟨heq.symm, h heq.symm⟩

/-- **A cell** is inert iff its text is safe. -/
theorem inert_tableCell {value : String} :
    Inert (tableCell value).toList ↔ CellSafe value.toList := by
  obtain ⟨hpipes, hnewline, hreturn⟩ := replaceAll_newline (value.toList.flatMap escapePipe)
  rw [tableCell_toList]
  constructor
  · rintro ⟨hnone, -, hcarriage⟩
    rw [unescapedPipes, hpipes, pipesFrom_escapePipe] at hnone
    exact ⟨hnone, (noLoneReturn_escapePipe _).mp (hreturn.mp hcarriage)⟩
  · rintro ⟨hnone, hlone⟩
    refine ⟨?_, hnewline, hreturn.mpr ((noLoneReturn_escapePipe _).mpr hlone)⟩
    rw [unescapedPipes, hpipes, pipesFrom_escapePipe]
    exact hnone

example : (tableCell "a\\|b").toList = "a\\\\|b".toList := by decide

/-! ### Maps of characters -/

/-- The function keeps what is not plain, and makes plain characters of plain characters. -/
structure Neutral (f : Char → List Char) : Prop where
  same : ∀ c, ¬Plain c → f c = [c]
  ne_nil : ∀ c, Plain c → f c ≠ []
  plain : ∀ c, Plain c → ∀ d ∈ f c, Plain d

namespace Neutral

variable {f : Char → List Char} (hf : Neutral f)

include hf

theorem pipesFrom_flatMap (odd escaped : Bool) (cs : List Char) :
    pipesFrom odd escaped (cs.flatMap f) = pipesFrom odd escaped cs := by
  induction cs generalizing escaped with
  | nil => rfl
  | cons c cs ih =>
    rw [List.flatMap_cons]
    by_cases hc : Plain c
    · rw [pipesFrom_plain_append (hf.plain c hc) (hf.ne_nil c hc), pipesFrom_cons_plain hc, ih]
    · rw [hf.same c hc, List.singleton_append, pipesFrom, ih, pipesFrom]

theorem mem_flatMap {c : Char} (hc : ¬Plain c) (cs : List Char) :
    c ∈ cs.flatMap f ↔ c ∈ cs := by
  rw [List.mem_flatMap]
  constructor
  · rintro ⟨d, hd, hcd⟩
    by_cases hplain : Plain d
    · exact absurd (hf.plain d hplain c hcd) hc
    · rw [hf.same d hplain, List.mem_singleton] at hcd
      rwa [hcd]
  · exact fun h => ⟨c, h, by rw [hf.same c hc]; exact List.mem_singleton_self c⟩

theorem inert (cs : List Char) : Inert (cs.flatMap f) ↔ Inert cs := by
  have hpipes : unescapedPipes (cs.flatMap f) = unescapedPipes cs :=
    hf.pipesFrom_flatMap false false cs
  constructor
  · rintro ⟨hnone, hnewline, hreturn⟩
    rw [hf.mem_flatMap (by decide)] at hnewline hreturn
    exact ⟨hpipes ▸ hnone, hnewline, hreturn⟩
  · rintro ⟨hnone, hnewline, hreturn⟩
    refine ⟨hpipes.trans hnone, ?_, ?_⟩
    · rwa [hf.mem_flatMap (by decide)]
    · rwa [hf.mem_flatMap (by decide)]

end Neutral

theorem escapeHtml_id (text : List Char) :
    escapeHtml id text = text.flatMap (escapeSymbol id) :=
  escapeHtml_eq_flatMap id (by decide) (by decide) (by decide) text

theorem neutral_escapeSymbol : Neutral (escapeSymbol id) where
  same c hc := by
    simp only [Plain, ne_eq, not_and_or, not_not] at hc
    obtain rfl | rfl | rfl | rfl := hc <;> rfl
  ne_nil c _ := by
    unfold escapeSymbol
    split_ifs <;> simp
  plain c hc d hd := by
    unfold escapeSymbol at hd
    have hescape : ∀ text ∈ ["&amp;", "&lt;", "&gt;"], ∀ d ∈ text.toList.map id, Plain d := by
      decide
    split_ifs at hd
    · exact hescape "&amp;" (by simp) d hd
    · exact hescape "&lt;" (by simp) d hd
    · exact hescape "&gt;" (by simp) d hd
    · rwa [List.mem_singleton.mp hd]

theorem Letters.neutral_upper (letters : Letters) : Neutral letters.upper where
  same c hc := by
    simp only [Plain, ne_eq, not_and_or, not_not] at hc
    obtain rfl | rfl | rfl | rfl := hc <;> exact letters.upper_ascii _ (by decide)
  ne_nil c _ := by
    by_cases hc : c.toNat < 128
    · simp [letters.upper_ascii c hc]
    · exact (letters.upper_other c (not_lt.mp hc)).1
  plain c hplain d hd := by
    by_cases hc : c.toNat < 128
    · have hupper : ∀ n : Fin 128, Plain (Char.ofNat n) → Plain (Char.ofNat n).toUpper := by
        decide +kernel
      rw [letters.upper_ascii c hc, List.mem_singleton] at hd
      have hof := hupper ⟨c.toNat, hc⟩
      rw [Char.ofNat_toNat] at hof
      rw [hd]
      exact hof hplain
    · have hother : d.isAlpha = true ∨ 128 ≤ d.toNat :=
        (letters.upper_other c (not_lt.mp hc)).2 d hd
      exact plain_of (P := fun d => d.isAlpha = true ∨ 128 ≤ d.toNat) hother (by decide)

/-! ### JSON -/

/-- The pipes after the text are the ones that it was with. -/
structure Balanced (text : List Char) : Prop where
  pipes : ∀ rest, pipesFrom true false (text ++ rest) = pipesFrom true false rest
  carriageReturn : '\r' ∉ text

theorem Balanced.append {cs ds : List Char} (hcs : Balanced cs) (hds : Balanced ds) :
    Balanced (cs ++ ds) where
  pipes rest := by rw [List.append_assoc, hcs.pipes, hds.pipes]
  carriageReturn := by simp [hcs.carriageReturn, hds.carriageReturn]

theorem balanced_of_plain {cs : List Char} (h : ∀ c ∈ cs, Plain c) : Balanced cs where
  pipes rest := by
    by_cases hne : cs = []
    · rw [hne, List.nil_append]
    · exact pipesFrom_plain_append h hne
  carriageReturn hmem := (h _ hmem).2.2.2 rfl

theorem Balanced.cellSafe {cs : List Char} (h : Balanced cs) : CellSafe cs where
  pipes := by
    have hpipes := h.pipes []
    rwa [List.append_nil, pipesFrom] at hpipes
  carriageReturn _ hrest :=
    absurd (hrest.subset List.mem_cons_self) h.carriageReturn

theorem balanced_flatMap {α : Type*} {f : α → List Char} {xs : List α}
    (h : ∀ x ∈ xs, Balanced (f x)) : Balanced (xs.flatMap f) := by
  induction xs with
  | nil => exact balanced_of_plain (by simp)
  | cons x xs ih =>
    rw [List.flatMap_cons]
    exact (h x List.mem_cons_self).append (ih fun x hx => h x (List.mem_cons_of_mem _ hx))

/-- A plain character comes after a backslash. -/
theorem balanced_backslash {cs : List Char} (h : ∀ c ∈ cs, Plain c) (hne : cs ≠ []) :
    Balanced ('\\' :: cs) where
  pipes rest := by
    rw [List.cons_append, pipesFrom, pipesFrom_plain_append h hne]
    simp
  carriageReturn := by
    rw [List.mem_cons, not_or]
    exact ⟨by decide, fun hmem => (h _ hmem).2.2.2 rfl⟩

theorem balanced_escape (c : Char) : Balanced (escape c) := by
  unfold escape
  split_ifs with hquote hslash hb ht hn hf hr hcontrol
  · exact balanced_backslash (by decide) (by simp)
  · refine ⟨fun rest => ?_, by decide⟩
    simp [pipesFrom]
  · exact balanced_backslash (by decide) (by simp)
  · exact balanced_backslash (by decide) (by simp)
  · exact balanced_backslash (by decide) (by simp)
  · exact balanced_backslash (by decide) (by simp)
  · exact balanced_backslash (by decide) (by simp)
  · refine balanced_backslash (fun d hd => ?_) (by simp)
    have hhex : ∀ n : Fin 32, ∀ d ∈ padStart 4 '0' (Nat.toDigits 16 n), Plain d := by
      decide +kernel
    rcases List.mem_cons.mp hd with rfl | hd
    · decide
    · exact hhex ⟨c.toNat, hcontrol⟩ d hd
  · refine ⟨fun rest => ?_, by simpa using Ne.symm hr⟩
    by_cases hpipe : c = '|'
    · subst hpipe
      simp [pipesFrom]
    · exact pipesFrom_cons_plain ⟨hpipe, hslash, hn, hr⟩

theorem balanced_quote (text : String) : Balanced (quote text).toList := by
  have hmark : Balanced ['"'] := balanced_of_plain (by decide)
  have hescape : Balanced (text.toList.flatMap escape) :=
    balanced_flatMap fun c _ => balanced_escape c
  simp only [quote, String.toList_append, String.toList_ofList]
  exact (hmark.append hescape).append hmark

theorem balanced_intercalate {texts : List String} (h : ∀ text ∈ texts, Balanced text.toList) :
    Balanced (",".intercalate texts).toList := by
  have hcomma : Balanced ",".toList := balanced_of_plain (by decide)
  induction texts with
  | nil => exact balanced_of_plain (by decide)
  | cons text texts ih =>
    rw [List.forall_mem_cons] at h
    cases texts with
    | nil =>
      rw [String.intercalate_singleton]
      exact h.1
    | cons second texts =>
      rw [String.intercalate_cons_cons, String.toList_append, String.toList_append]
      exact (h.1.append hcomma).append (ih h.2)

theorem plain_of_isNumberChar {c : Char} (h : IsNumberChar c) : Plain c := plain_of h (by decide)

theorem balanced_numberText (x : Number) : Balanced (numberText x).toList :=
  balanced_of_plain fun _ hc => plain_of_isNumberChar (mem_numberText hc)

/-- JSON has an even number of backslashes before every pipe. -/
theorem balanced_stringify (value : Json) : Balanced value.stringify.toList := by
  have happend : ∀ {first last : String} {text : String}, (∀ c ∈ first.toList, Plain c) →
      (∀ c ∈ last.toList, Plain c) → Balanced text.toList →
        Balanced (first ++ text ++ last).toList := fun hfirst hlast htext => by
    rw [String.toList_append, String.toList_append]
    exact ((balanced_of_plain hfirst).append htext).append (balanced_of_plain hlast)
  -- The induction is on the value, its items and its fields at once.
  refine @Json.rec (fun value => Balanced value.stringify.toList)
    (fun items => ∀ text ∈ Json.stringifyItems items, Balanced text.toList)
    (fun fields => ∀ text ∈ Json.stringifyFields fields, Balanced text.toList)
    (fun p => Balanced p.2.stringify.toList) ?null ?bool ?num ?str ?arr ?obj ?nil ?cons ?nilField
    ?consField ?field value
  case null => exact balanced_of_plain (by decide)
  case bool =>
    intro b
    cases b <;> exact balanced_of_plain (by decide)
  case num =>
    intro x
    cases x with
    | fin q => exact balanced_numberText (.fin q)
    | _ => exact balanced_of_plain (by decide)
  case str => exact balanced_quote
  case arr =>
    intro items ih
    rw [Json.stringify]
    exact happend (by decide) (by decide) (balanced_intercalate ih)
  case obj =>
    intro fields ih
    rw [Json.stringify]
    exact happend (by decide) (by decide) (balanced_intercalate ih)
  case nil => simp [Json.stringifyItems]
  case cons =>
    intro item items hitem ih
    rw [Json.stringifyItems, List.forall_mem_cons]
    exact ⟨hitem, ih⟩
  case nilField => simp [Json.stringifyFields]
  case consField =>
    rintro ⟨name, value⟩ fields hfield ih
    rw [Json.stringifyFields, List.forall_mem_cons]
    refine ⟨?_, ih⟩
    rw [String.toList_append, String.toList_append]
    exact ((balanced_quote name).append (balanced_of_plain (by decide))).append hfield
  case field =>
    intro name value h
    exact h

/-- **JSON** is safe in a cell. -/
theorem cellSafe_stringify (value : Json) :
    CellSafe (escapeHtml id value.stringify.toList) := by
  have h := balanced_stringify value
  rw [escapeHtml_id]
  constructor
  · rw [escapedPipes, neutral_escapeSymbol.pipesFrom_flatMap]
    exact h.cellSafe.pipes
  · intro rest hrest
    have hmem := hrest.subset (List.mem_cons_self (a := '\r') (l := rest))
    rw [neutral_escapeSymbol.mem_flatMap (by decide)] at hmem
    exact absurd hmem h.carriageReturn

end Report

end FitzDestroyer
