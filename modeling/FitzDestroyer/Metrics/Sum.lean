import FitzDestroyer.Js.CodeUnits
import FitzDestroyer.Metrics.Exposition

/-!
# The sum of a metric

A sample that is not plain does not match the expression, and is left out.

* `trim_append` : the blanks around a line;
* `afterLabels_rest` : what is read of a sample after its name;
* `addLine_text` : one line;
* `prometheusMetric_exposition` : the sum of the plain samples;
* `prometheusMetric_eq_sum_iff` : when it is the sum of all samples.
-/

namespace FitzDestroyer

namespace Metrics

open Js

variable {floats : ParseFloat}

/-! ### Tokens -/

theorem isSpace_blanks (blanks : Blanks) : ∀ c ∈ blanks.1, isSpace c = true := by
  intro c hc
  rcases blanks.2 c hc with rfl | rfl <;> decide

theorem trim_append {before after text : List Char} (hbefore : ∀ c ∈ before, isSpace c = true)
    (hafter : ∀ c ∈ after, isSpace c = true) (hne : text ≠ [])
    (hhead : ∀ c ∈ text.head?, isSpace c = false)
    (hlast : ∀ c ∈ text.getLast?, isSpace c = false) : trim (before ++ text ++ after) = text := by
  have hkeep : ∀ {cs : List Char} (rest : List Char), cs ≠ [] →
      (∀ c ∈ cs.head?, isSpace c = false) → (cs ++ rest).dropWhile isSpace = cs ++ rest := by
    intro cs rest hcs hcs'
    obtain ⟨c, cs, rfl⟩ := List.exists_cons_of_ne_nil hcs
    exact List.dropWhile_cons_of_neg (by simp [hcs' c rfl])
  have hlast' : ∀ c ∈ text.reverse.head?, isSpace c = false := by
    rw [List.head?_reverse]
    exact hlast
  have hkeep' := hkeep [] (List.reverse_ne_nil_iff.mpr hne) hlast'
  rw [List.append_nil] at hkeep'
  rw [trim, List.append_assoc, List.dropWhile_append_of_pos hbefore, hkeep after hne hhead,
    List.reverse_append,
    List.dropWhile_append_of_pos (fun c hc => hafter c (List.mem_reverse.mp hc)), hkeep',
    List.reverse_reverse]

theorem toNat_of_isAlphanum {c : Char} (h : c.isAlphanum = true) :
    48 ≤ c.toNat ∧ c.toNat ≤ 57 ∨ 65 ≤ c.toNat ∧ c.toNat ≤ 90 ∨ 97 ≤ c.toNat ∧ c.toNat ≤ 122 := by
  change (decide ('A'.val ≤ c.val ∧ c.val ≤ 'Z'.val) ||
    (decide ('a'.val ≤ c.val) && decide (c.val ≤ 'z'.val)) || c.isDigit) = true at h
  simp only [Bool.or_eq_true, Bool.and_eq_true, decide_eq_true_eq, isDigit_iff] at h
  change ((65 ≤ c.toNat ∧ c.toNat ≤ 90) ∨ (97 ≤ c.toNat ∧ c.toNat ≤ 122)) ∨
    (48 ≤ c.toNat ∧ c.toNat ≤ 57) at h
  omega

/-- A letter, a digit, an underscore or a colon. -/
theorem isSpace_of_nameChar {c : Char} (h : c.isAlphanum = true ∨ c = '_' ∨ c = ':') :
    isSpace c = false ∧ c ≠ '{' ∧ c ≠ '}' ∧ c ≠ '#' ∧ c ≠ '\n' := by
  rcases h with h | rfl | rfl
  · have hn := toNat_of_isAlphanum h
    refine ⟨?_, ?_, ?_, ?_, ?_⟩
    · simp only [isSpace, Bool.or_eq_false_iff, Bool.and_eq_false_iff, decide_eq_false_iff_not,
        beq_eq_false_iff_ne]
      omega
    all_goals
      rintro rfl
      revert h
      decide
  · decide
  · decide

/-- The characters of a name. -/
theorem of_mem_metricName {name : List Char} {c : Char} (h : isMetricName name = true)
    (hc : c ∈ name) : isSpace c = false ∧ c ≠ '{' ∧ c ≠ '}' ∧ c ≠ '#' ∧ c ≠ '\n' := by
  rw [isMetricName, Bool.and_eq_true, List.all_eq_true] at h
  refine isSpace_of_nameChar ?_
  simpa [or_assoc] using h.2 c hc

theorem of_mem_labelName {name : List Char} {c : Char} (h : isLabelName name = true)
    (hc : c ∈ name) : isSpace c = false ∧ c ≠ '{' ∧ c ≠ '}' ∧ c ≠ '#' ∧ c ≠ '\n' := by
  rw [isLabelName, Bool.and_eq_true, List.all_eq_true] at h
  refine isSpace_of_nameChar ?_
  have := h.2 c hc
  rw [Bool.or_eq_true, beq_iff_eq] at this
  exact this.imp_right .inl

theorem metricName_ne_nil {name : List Char} (h : isMetricName name = true) : name ≠ [] := by
  rintro rfl
  cases h

/-! ### Labels -/

theorem mem_escape {c d : Char} : d ∈ escape c → d = c ∨ d = '\\' ∨ d = '"' ∨ d = 'n' := by
  unfold escape
  split_ifs <;> simp <;> tauto

/-- After the first brace in the labels, a quote follows if a value has the brace. -/
theorem quote_mem {l : Labels} {label : Label} {rest : List Char} (hlabel : label ∈ l.labels)
    (h : '}' ∈ label.value) :
    '"' ∈ ((l.body ++ rest).dropWhile (· ≠ '}')).tail := by
  obtain ⟨before, after, heq⟩ : ∃ before after,
      [','].intercalate (l.labels.map Label.text) = before ++ label.text ++ after :=
    exists_intercalate (List.mem_map_of_mem hlabel)
  obtain ⟨tail, htail⟩ : ∃ tail, l.body ++ rest =
      (before ++ label.start ++ label.value.flatMap escape) ++ '"' :: tail := by
    refine ⟨label.afterValue.1 ++ after ++ (if l.comma then [','] else []) ++ l.blanks.1 ++ rest,
      ?_⟩
    simp [Labels.body, heq, Label.text]
  have hmem : '}' ∈ before ++ label.start ++ label.value.flatMap escape :=
    List.mem_append_right _ (List.mem_flatMap.mpr ⟨_, h, by decide⟩)
  have hfound : (before ++ label.start ++ label.value.flatMap escape).dropWhile (· ≠ '}') ≠ [] := by
    intro hnil
    have := List.dropWhile_eq_nil_iff.mp hnil _ hmem
    simp at this
  rw [htail, List.dropWhile_append, if_neg (by simpa using hfound)]
  obtain ⟨brace, found, hcons⟩ := List.exists_cons_of_ne_nil hfound
  rw [hcons, List.cons_append, List.tail_cons]
  exact List.mem_append_right _ List.mem_cons_self

/-- The only braces in the labels are in their values. -/
theorem brace_not_mem {l : Labels} (h : ∀ label ∈ l.labels, '}' ∉ label.value) : '}' ∉ l.body := by
  have hblanks : ∀ blanks : Blanks, '}' ∉ blanks.1 := fun blanks hc => by
    rcases blanks.2 _ hc with h | h <;> revert h <;> decide
  have hlabel : ∀ label ∈ l.labels, '}' ∉ label.text := by
    intro label hlabel hc
    simp only [Label.text, Label.start, List.mem_append, List.mem_cons, List.mem_flatMap,
      List.not_mem_nil, or_false, hblanks, false_or] at hc
    rcases hc with (((hc | hc) | hc) | ⟨c, hc, hescape⟩) | hc
    · exact (of_mem_labelName label.name_eq hc).2.2.1 rfl
    · exact absurd hc (by decide)
    · exact absurd hc (by decide)
    · rcases mem_escape hescape with heq | heq | heq | heq
      · exact h label hlabel (heq ▸ hc)
      all_goals exact absurd heq (by decide)
    · exact absurd hc (by decide)
  intro hmem
  simp only [Labels.body, List.mem_append, hblanks, or_false] at hmem
  rcases hmem with hmem | hmem
  · rcases mem_of_mem_intercalate hmem with hcomma | ⟨piece, hpiece, hmem⟩
    · revert hcomma
      decide
    · obtain ⟨label, hmem', rfl⟩ := List.mem_map.mp hpiece
      exact hlabel label hmem' hmem
  · split_ifs at hmem
    · revert hmem
      decide
    · cases hmem

/-! ### A sample -/

theorem token_number (s : Sample floats) : Token s.number := floats.token s.read_number

theorem head_number {s : Sample floats} {rest : List Char} :
    ∀ c ∈ (s.number ++ rest).head?, isSpace c = false := by
  obtain ⟨hne, hspace⟩ := token_number s
  obtain ⟨d, ds, heq⟩ := List.exists_cons_of_ne_nil hne
  intro c hc
  rw [heq, List.cons_append, List.head?_cons, Option.mem_some] at hc
  exact hc ▸ hspace d (heq ▸ List.mem_cons_self)

/-- Only a number that no timestamp follows is read. -/
theorem plainNumber_timestamp (s : Sample floats) :
    plainNumber (s.number ++ s.timestampText) = true ↔
      plainNumber s.number = true ∧ s.timestamp = none := by
  cases htimestamp : s.timestamp with
  | none => simp [Sample.timestampText, htimestamp]
  | some p =>
    have hne := (s.timestamp_eq p htimestamp).1
    obtain ⟨blank, blanks, hblanks⟩ := List.exists_cons_of_ne_nil hne
    have hspace := isSpace_blanks p.1 blank (hblanks ▸ List.mem_cons_self)
    have hmem : blank ∈ s.number ++ s.timestampText := by
      simp [Sample.timestampText, htimestamp, hblanks]
    simp [plainNumber_eq_false (not_isNumberSymbol_of_isSpace hspace) hmem]

/-- What is read after blanks. -/
theorem numberAfter_value (s : Sample floats) (blanks : Blanks) :
    numberAfter (blanks.1 ++ (s.number ++ s.timestampText)) =
      if blanks.1 ≠ [] ∧ plainNumber s.number = true ∧ s.timestamp = none then
        some s.number else none := by
  by_cases hne : blanks.1 = []
  · obtain ⟨hnumber, hspace⟩ := token_number s
    obtain ⟨d, ds, heq⟩ := List.exists_cons_of_ne_nil hnumber
    rw [if_neg (by simp [hne]), hne, List.nil_append, heq, List.cons_append]
    exact numberAfter_cons (hspace d (heq ▸ List.mem_cons_self))
  · rw [numberAfter_append (isSpace_blanks blanks) hne head_number]
    by_cases hplain : plainNumber s.number = true ∧ s.timestamp = none
    · rw [if_pos ((plainNumber_timestamp s).mpr hplain), if_pos ⟨hne, hplain⟩,
        Sample.timestampText, hplain.2, Option.elim_none, List.append_nil]
    · rw [if_neg fun h => hplain ((plainNumber_timestamp s).mp h), if_neg fun h => hplain h.2]

theorem head_blanks {blanks : Blanks} (h : blanks.1 ≠ []) (rest : List Char) :
    (blanks.1 ++ rest).head? ≠ some '{' := by
  obtain ⟨blank, tail, heq⟩ := List.exists_cons_of_ne_nil h
  have hblank := blanks.2 blank (heq ▸ List.mem_cons_self)
  rw [heq, List.cons_append, List.head?_cons]
  rcases hblank with rfl | rfl <;> decide

/-- **What is read of a sample** after its name. -/
theorem afterLabels_rest (s : Sample floats) :
    afterLabels s.rest = if s.Plain then some s.number else none := by
  cases hlabels : s.labels with
  | none =>
    have hne := s.beforeValue_ne hlabels
    have hplain : s.Plain ↔ s.beforeValue.1 ≠ [] ∧ plainNumber s.number = true ∧
        s.timestamp = none := by
      simp [Sample.Plain, hlabels, hne]
    rw [Sample.rest, Sample.labelsText, hlabels, Option.elim_none, List.nil_append,
      afterLabels_of_ne (head_blanks hne _), numberAfter_value]
    simp only [hplain]
  | some p =>
    obtain ⟨before, l⟩ := p
    have hrest : s.rest = before.1 ++ '{' :: (l.body ++ '}' ::
        (s.beforeValue.1 ++ (s.number ++ s.timestampText))) := by
      simp [Sample.rest, Sample.labelsText, hlabels]
    have hplain : s.Plain ↔ (before.1 = [] ∧ ∀ label ∈ l.labels, '}' ∉ label.value) ∧
        s.beforeValue.1 ≠ [] ∧ plainNumber s.number = true ∧ s.timestamp = none := by
      simp only [Sample.Plain, hlabels, Option.mem_some, forall_eq']
      tauto
    rw [hrest]
    by_cases hbefore : before.1 = []
    · rw [hbefore, List.nil_append, afterLabels_brace]
      by_cases hvalues : ∀ label ∈ l.labels, '}' ∉ label.value
      · -- The brace is the one at the end of the labels.
        have hbody : ∀ c ∈ l.body, (c ≠ '}' : Bool) = true := fun c hc =>
          decide_eq_true fun heq => brace_not_mem hvalues (heq ▸ hc)
        have hdrop : ((l.body ++ '}' ::
            (s.beforeValue.1 ++ (s.number ++ s.timestampText))).dropWhile (· ≠ '}')).tail =
              s.beforeValue.1 ++ (s.number ++ s.timestampText) := by
          rw [List.dropWhile_append_of_pos hbody]
          rfl
        rw [hdrop, numberAfter_value]
        simp only [hplain.trans (and_iff_right ⟨hbefore, hvalues⟩)]
      · -- A quote follows the brace.
        obtain ⟨label, hlabel, hvalue⟩ : ∃ label ∈ l.labels, '}' ∈ label.value := by
          simpa using hvalues
        rw [if_neg fun h => hvalues (hplain.mp h).1.2]
        exact numberAfter_eq_none (by decide) (by unfold IsNumberSymbol; decide)
          (quote_mem hlabel hvalue)
    · -- The labels do not follow the name.
      rw [if_neg fun h => hbefore (hplain.mp h).1.1, afterLabels_of_ne (head_blanks hbefore _)]
      exact numberAfter_eq_none (by decide) (by unfold IsNumberSymbol; decide)
        (List.mem_append_right _ List.mem_cons_self)

/-- The symbol after the name. -/
theorem head_rest (s : Sample floats) : ∀ c ∈ s.rest.head?, isSpace c = true ∨ c = '{' := by
  have hblanks : ∀ (blanks : Blanks) (rest : List Char), blanks.1 ≠ [] →
      ∀ c ∈ (blanks.1 ++ rest).head?, isSpace c = true := by
    intro blanks rest hne c hc
    obtain ⟨blank, tail, heq⟩ := List.exists_cons_of_ne_nil hne
    rw [heq, List.cons_append, List.head?_cons, Option.mem_some] at hc
    exact hc ▸ isSpace_blanks blanks blank (heq ▸ List.mem_cons_self)
  intro c hc
  rw [Sample.rest, Sample.labelsText] at hc
  cases hlabels : s.labels with
  | none =>
    rw [hlabels, Option.elim_none, List.nil_append] at hc
    exact .inl (hblanks _ _ (s.beforeValue_ne hlabels) c hc)
  | some p =>
    rw [hlabels, Option.elim_some, List.append_assoc, List.append_assoc] at hc
    by_cases hne : p.1.1 = []
    · rw [hne, List.nil_append, List.cons_append, List.head?_cons, Option.mem_some] at hc
      exact .inr hc.symm
    · exact .inl (hblanks _ _ hne c hc)

theorem isSpace_of_isInteger {text : List Char} (h : isInteger text = true) :
    ∀ c ∈ text, isSpace c = false := by
  intro c hc
  cases text with
  | nil => cases hc
  | cons d text =>
    simp only [isInteger, Bool.and_eq_true, List.all_eq_true] at h
    obtain ⟨-, hdigits⟩ := h
    split_ifs at hdigits with hsign
    · rcases List.mem_cons.mp hc with rfl | hc
      · rcases hsign with hsign | hsign
        all_goals
          obtain rfl := Option.some.inj hsign
          decide
      · exact isSpace_of_isDigit (hdigits c hc)
    · exact isSpace_of_isDigit (hdigits c hc)

/-- The symbol before the blanks at the end. -/
theorem getLast_value (s : Sample floats) :
    ∀ c ∈ (s.number ++ s.timestampText).getLast?, isSpace c = false := by
  intro c hc
  cases htimestamp : s.timestamp with
  | none =>
    rw [Sample.timestampText, htimestamp, Option.elim_none, List.append_nil] at hc
    exact (token_number s).2 c (List.mem_of_getLast? hc)
  | some p =>
    have hinteger := (s.timestamp_eq p htimestamp).2
    have hne : p.2 ≠ [] := by
      intro hnil
      rw [hnil] at hinteger
      revert hinteger
      decide
    rw [Sample.timestampText, htimestamp, Option.elim_some, ← List.append_assoc,
      List.getLast?_append_of_ne_nil _ hne] at hc
    exact isSpace_of_isInteger hinteger c (List.mem_of_getLast? hc)

theorem trim_text (s : Sample floats) : trim s.text = s.name ++ s.rest := by
  have hname := metricName_ne_nil s.name_eq
  have hvalue : s.number ++ s.timestampText ≠ [] :=
    List.append_ne_nil_of_left_ne_nil (token_number s).1 _
  refine trim_append (isSpace_blanks _) (isSpace_blanks _)
    (List.append_ne_nil_of_left_ne_nil hname _) ?_ ?_
  · obtain ⟨d, ds, heq⟩ := List.exists_cons_of_ne_nil hname
    intro c hc
    rw [heq, List.cons_append, List.head?_cons, Option.mem_some] at hc
    exact hc ▸ (of_mem_metricName s.name_eq (heq ▸ List.mem_cons_self)).1
  · rw [Sample.rest, ← List.append_assoc, ← List.append_assoc,
      List.getLast?_append_of_ne_nil _ hvalue]
    exact getLast_value s

/-- **A sample matches** iff it is plain. -/
theorem matchSample_sample {s : Sample floats} {group number : List Char}
    (hgroup : isMetricName group = true) :
    matchSample [] (trim s.text) = some (group, number) ↔
      s.Plain ∧ group = s.name ∧ number = s.number := by
  have hname : ∀ c ∈ s.name, isSpace c = false ∧ c ≠ '{' := fun c hc =>
    ⟨(of_mem_metricName s.name_eq hc).1, (of_mem_metricName s.name_eq hc).2.1⟩
  have hbrace : '{' ∉ group := fun hmem => (of_mem_metricName hgroup hmem).2.1 rfl
  rw [trim_text, matchSample_name (metricName_ne_nil s.name_eq) hname hbrace (head_rest s),
    afterLabels_rest]
  by_cases hplain : s.Plain
  · rw [if_pos hplain, Option.some.injEq, eq_comm (a := number)]
    exact (and_iff_right hplain).symm
  · rw [if_neg hplain]
    exact ⟨fun h => absurd h.2 (Option.some_ne_none _).symm, fun h => absurd h.1 hplain⟩

/-! ### A line -/

theorem trim_blanks (blanks : Blanks) : trim blanks.1 = [] := by
  rw [trim, ← List.append_nil blanks.1, List.dropWhile_append_of_pos (isSpace_blanks blanks)]
  rfl

/-- A comment does not match any name. -/
theorem not_isMetricName_comment {blanks : Blanks} {words group number : List Char}
    (h : matchSample [] (trim (blanks.1 ++ '#' :: words)) = some (group, number)) :
    isMetricName group = false := by
  obtain ⟨rest, hrest⟩ : ∃ rest, trim (blanks.1 ++ '#' :: words) = '#' :: rest := by
    rw [trim, List.dropWhile_append_of_pos (isSpace_blanks blanks),
      List.dropWhile_cons_of_neg (by decide), List.reverse_cons, List.dropWhile_append]
    split_ifs
    · exact ⟨[], rfl⟩
    · exact ⟨_, List.reverse_concat⟩
  rw [hrest] at h
  refine Bool.eq_false_iff.mpr fun hgroup => ?_
  exact (of_mem_metricName hgroup (mem_of_matchSample h '#' (.inr rfl))).2.2.2.1 rfl

/-- Nothing is added for a line that does not match the name. -/
theorem addLine_eq_self {name : String} {t : Total} {line : List Char}
    (h : ∀ group number, matchSample [] (trim line) = some (group, number) →
      String.ofList group ≠ name) : t.addLine name line = t := by
  unfold Total.addLine
  split_ifs
  · rfl
  · cases hmatch : matchSample [] (trim line) with
    | none => rfl
    | some p => exact if_pos (h p.1 p.2 hmatch)

theorem head_text (s : Sample floats) : s.text.head? ≠ some '#' := by
  intro hhead
  by_cases hbefore : s.before.1 = []
  · obtain ⟨d, ds, heq⟩ := List.exists_cons_of_ne_nil (metricName_ne_nil s.name_eq)
    rw [Sample.text, hbefore, heq] at hhead
    exact (of_mem_metricName s.name_eq (heq ▸ List.mem_cons_self)).2.2.2.1 (Option.some.inj hhead)
  · obtain ⟨blank, blanks, heq⟩ := List.exists_cons_of_ne_nil hbefore
    have hblank := s.before.2 blank (heq ▸ List.mem_cons_self)
    rw [Sample.text, heq] at hhead
    obtain rfl := Option.some.inj hhead
    revert hblank
    decide

/-- **What is added for a line.** -/
theorem addLine_text {name : String} (hname : isMetricName name.toList = true) (t : Total)
    (line : Line floats) :
    t.addLine name line.text =
      (line.sample?.filter fun s =>
        String.ofList s.name = name ∧ s.value.isFinite = true ∧ s.Plain).elim t fun s =>
          ⟨t.total.add s.value, true⟩ := by
  have hmetric : ∀ {group : List Char}, String.ofList group = name → isMetricName group = true := by
    rintro group rfl
    rwa [String.toList_ofList] at hname
  cases line with
  | empty blanks =>
    refine addLine_eq_self fun group number h => ?_
    rw [Line.text, trim_blanks] at h
    cases h
  | comment before words _ =>
    refine addLine_eq_self fun group number h heq => ?_
    have hgroup := hmetric heq
    rw [not_isMetricName_comment h] at hgroup
    cases hgroup
  | sample s =>
    rw [show (Line.sample s).sample? = some s from rfl, Option.filter_some]
    by_cases hread : s.Plain ∧ String.ofList s.name = name
    · have hmatch := (matchSample_sample s.name_eq).mpr ⟨hread.1, rfl, rfl⟩
      have hvalue := floats.plain hread.1.1 s.read_number
      unfold Total.addLine
      rw [Line.text, if_neg (head_text s), hmatch]
      by_cases hfinite : s.value.isFinite = true
      · simp [hread, ← hvalue, hfinite]
      · simp [hread, ← hvalue, hfinite]
    · have hfilter : ¬(String.ofList s.name = name ∧ s.value.isFinite = true ∧ s.Plain) :=
        fun h => hread ⟨h.2.2, h.1⟩
      rw [if_neg (by simpa using hfilter), Option.elim_none]
      refine addLine_eq_self fun group number h heq => ?_
      obtain ⟨hplain, rfl, -⟩ := (matchSample_sample (hmetric heq)).mp h
      exact hread ⟨hplain, heq⟩

/-! ### All lines -/

theorem newline_blanks (blanks : Blanks) : '\n' ∉ blanks.1 := fun h => by
  rcases blanks.2 _ h with h | h <;> revert h <;> decide

theorem newline_label (label : Label) : '\n' ∉ label.text := by
  intro hc
  simp only [Label.text, Label.start, List.mem_append, List.mem_cons, List.mem_flatMap,
    List.not_mem_nil, or_false, newline_blanks, false_or] at hc
  rcases hc with (((hc | hc) | hc) | ⟨c, -, hc⟩) | hc
  · exact (of_mem_labelName label.name_eq hc).2.2.2.2 rfl
  · exact absurd hc (by decide)
  · exact absurd hc (by decide)
  · unfold escape at hc
    split_ifs at hc with h₁ h₂ h₃
    · exact absurd hc (by decide)
    · exact absurd hc (by decide)
    · exact absurd hc (by decide)
    · exact h₃ (List.mem_singleton.mp hc).symm
  · exact absurd hc (by decide)

theorem newline_body (l : Labels) : '\n' ∉ l.body := by
  intro hc
  simp only [Labels.body, List.mem_append, newline_blanks, or_false] at hc
  rcases hc with hc | hc
  · obtain hc | ⟨piece, hpiece, hc⟩ := mem_of_mem_intercalate hc
    · exact absurd hc (by decide)
    · obtain ⟨label, -, rfl⟩ := List.mem_map.mp hpiece
      exact newline_label label hc
  · split_ifs at hc
    · exact absurd hc (by decide)
    · cases hc

theorem newline_sample (s : Sample floats) : '\n' ∉ s.text := by
  have hlabels : '\n' ∉ s.labelsText := by
    rw [Sample.labelsText]
    cases s.labels with
    | none => exact List.not_mem_nil
    | some p => simp [newline_blanks, newline_body]
  have hnumber : '\n' ∉ s.number := fun hc => by
    have := (token_number s).2 _ hc
    revert this
    decide
  have htimestamp : '\n' ∉ s.timestampText := by
    rw [Sample.timestampText]
    cases htimestamp : s.timestamp with
    | none => exact List.not_mem_nil
    | some p =>
      intro hc
      rcases List.mem_append.mp hc with hc | hc
      · exact newline_blanks _ hc
      · have := isSpace_of_isInteger (s.timestamp_eq p htimestamp).2 _ hc
        revert this
        decide
  have hname : '\n' ∉ s.name := fun hc => (of_mem_metricName s.name_eq hc).2.2.2.2 rfl
  simp [Sample.text, Sample.rest, newline_blanks, hname, hlabels, hnumber, htimestamp]

/-- No line has a line end. -/
theorem newline_line (line : Line floats) : '\n' ∉ line.text := by
  cases line with
  | empty blanks => exact newline_blanks blanks
  | comment before words h =>
    intro hc
    rcases List.mem_append.mp hc with hc | hc
    · exact newline_blanks _ hc
    · rcases List.mem_cons.mp hc with heq | hc
      · exact absurd heq (by decide)
      · exact h hc
  | sample s => exact newline_sample s

theorem foldl_exposition {α : Type*} {f : α → List Char → α} {a : α} (lines : List (Line floats))
    (h : f a [] = a) :
    ((exposition lines).toList.splitOn '\n').foldl f a = (lines.map Line.text).foldl f a := by
  rw [exposition, String.toList_ofList]
  cases lines with
  | nil => exact h
  | cons line lines =>
    have hsplit : (['\n'].intercalate ((line :: lines).map Line.text)).splitOn '\n' =
        (line :: lines).map Line.text := by
      refine List.splitOn_intercalate '\n' ?_ (by simp)
      intro text htext
      obtain ⟨line, -, rfl⟩ := List.mem_map.mp htext
      exact newline_line line
    rw [hsplit]

/-- The plain samples of one more line. -/
theorem samplesOf_cons (line : Line floats) (lines : List (Line floats)) (name : String) :
    (samplesOf (line :: lines) name).filter (·.Plain) =
      (line.sample?.filter fun s =>
        String.ofList s.name = name ∧ s.value.isFinite = true ∧ s.Plain).toList ++
          (samplesOf lines name).filter (·.Plain) := by
  unfold samplesOf
  cases line with
  | sample s =>
    have hsample : (Line.sample s).sample? = some s := rfl
    rw [List.filterMap_cons_some hsample, hsample, Option.filter_some, List.filter_filter,
      List.filter_filter, List.filter_cons]
    by_cases hs : s.Plain ∧ String.ofList s.name = name ∧ s.value.isFinite = true
    · simp [hs]
    · have hs' : ¬(String.ofList s.name = name ∧ s.value.isFinite = true ∧ s.Plain) :=
        fun h => hs ⟨h.2.2, h.1, h.2.1⟩
      rw [if_neg (by simpa using hs), if_neg (by simpa using hs')]
      rfl
  | _ => rfl

theorem foldl_addLine {name : String} (hname : isMetricName name.toList = true) (t : Total)
    (lines : List (Line floats)) :
    (lines.map Line.text).foldl (Total.addLine name) t =
      ⟨(((samplesOf lines name).filter (·.Plain)).map Sample.value).foldl Number.add t.total,
        t.found || !((samplesOf lines name).filter (·.Plain)).isEmpty⟩ := by
  induction lines generalizing t with
  | nil => simp [samplesOf]
  | cons line lines ih =>
    rw [List.map_cons, List.foldl_cons, addLine_text hname, ih, samplesOf_cons]
    cases line.sample?.filter fun s =>
        String.ofList s.name = name ∧ s.value.isFinite = true ∧ s.Plain with
    | none => rfl
    | some s => simp

/-- **The metric is the sum of the plain samples.** -/
theorem prometheusMetric_exposition {name : String} (hname : isMetricName name.toList = true)
    (lines : List (Line floats)) :
    prometheusMetric (exposition lines) name = sum ((samplesOf lines name).filter (·.Plain)) := by
  have hempty : Total.addLine name ⟨(0 : ℕ), false⟩ [] = ⟨(0 : ℕ), false⟩ :=
    addLine_eq_self fun group number h => by cases h
  rw [prometheusMetric, foldl_exposition lines hempty, foldl_addLine hname, sum]
  cases (samplesOf lines name).filter (·.Plain) with
  | nil => rfl
  | cons s samples => simp

/-- It is exact if all samples are plain. -/
theorem prometheusMetric_of_plain {name : String} (hname : isMetricName name.toList = true)
    {lines : List (Line floats)} (h : ∀ s ∈ samplesOf lines name, s.Plain) :
    prometheusMetric (exposition lines) name = sum (samplesOf lines name) := by
  rw [prometheusMetric_exposition hname,
    List.filter_eq_self.mpr fun s hs => decide_eq_true (h s hs)]

/-- **The metric is exact** iff the samples that are not plain do not change the sum. -/
theorem prometheusMetric_eq_sum_iff {name : String} (hname : isMetricName name.toList = true)
    (lines : List (Line floats)) :
    prometheusMetric (exposition lines) name = sum (samplesOf lines name) ↔
      sum ((samplesOf lines name).filter (·.Plain)) = sum (samplesOf lines name) := by
  rw [prometheusMetric_exposition hname]

/-! ### Samples with and without a timestamp -/

/-- Decimal numbers and the words of the format. -/
def decimalFloats : ParseFloat where
  read text :=
    if plainNumber text then some (Number.ofText text)
    else if text = ['N', 'a', 'N'] then some .nan
    else if text = ['+', 'I', 'n', 'f'] then some .posInf
    else if text = ['-', 'I', 'n', 'f'] then some .negInf
    else none
  token := by
    intro text value h
    split_ifs at h with hplain hnan hpos hneg
    · refine ⟨?_, fun c hc => ?_⟩
      · rintro rfl
        cases hplain
      · refine Bool.eq_false_iff.mpr fun hspace => ?_
        exact not_isNumberSymbol_of_isSpace hspace (mem_plainNumber hplain c hc)
    · subst hnan
      unfold Token
      decide
    · subst hpos
      unfold Token
      decide
    · subst hneg
      unfold Token
      decide
  plain := by
    intro text value hplain h
    rw [if_pos hplain] at h
    exact (Option.some.inj h).symm

/-- `fitz_mailbox_depth 7`, perhaps with a timestamp. -/
def depthSample (timestamp : Option (Blanks × List Char))
    (h : ∀ p ∈ timestamp, p.1.1 ≠ [] ∧ isInteger p.2 = true) : Sample decimalFloats where
  before := ⟨[], by simp⟩
  name := "fitz_mailbox_depth".toList
  name_eq := by decide
  labels := none
  beforeValue := ⟨[' '], by simp⟩
  beforeValue_ne := by simp
  number := ['7']
  value := (7 : ℕ)
  read_number := by decide +kernel
  timestamp := timestamp
  timestamp_eq := h
  after := ⟨[], by simp⟩

def untimedDepth : Line decimalFloats := .sample (depthSample none (by simp))

def timedDepth : Line decimalFloats :=
  .sample (depthSample (some (⟨[' '], by simp⟩, ['1', '7', '0', '0'])) (by simp [isInteger]))

/-- A sample without a timestamp. -/
theorem prometheusMetric_untimed :
    prometheusMetric (exposition [untimedDepth]) "fitz_mailbox_depth" =
      sum (samplesOf [untimedDepth] "fitz_mailbox_depth") ↔
      sum ((samplesOf [untimedDepth] "fitz_mailbox_depth").filter (·.Plain)) =
        sum (samplesOf [untimedDepth] "fitz_mailbox_depth") :=
  prometheusMetric_eq_sum_iff (by decide) [untimedDepth]

/-- A sample with a timestamp is left out. -/
theorem not_prometheusMetric_exact : ¬∀ (floats : ParseFloat) (lines : List (Line floats))
    (name : String), isMetricName name.toList = true →
      prometheusMetric (exposition lines) name = sum (samplesOf lines name) := by
  intro h
  have hsum := h decimalFloats [timedDepth] "fitz_mailbox_depth" (by decide)
  rw [prometheusMetric_exposition (by decide)] at hsum
  revert hsum
  decide +kernel

end Metrics

end FitzDestroyer
