import FitzDestroyer.Js.CodeUnits
import FitzDestroyer.Js.Error
import FitzDestroyer.Js.Text
import FitzDestroyer.Js.WellFormed
import FitzDestroyer.Scenario.Names

/-!
# Route segments

The host turns the id of a run into a segment of its routes (`scenario.ts`), and the workers do the
same with what the host gives them (`worker.ts`).  Texts are lists of code units here, so half of a
pair is one too.

* `hostSegment`, `workerSegment` : the two copies of `routeSegment`;
* `IsSegment` : the texts that match `[a-z0-9]+(-[a-z0-9]+)*`;
* `trimmed_eq` : dashes are collapsed and trimmed iff the empty pieces between them are dropped;
* `routeSegment_canonical` : host and workers agree on the routes.
-/

namespace FitzDestroyer

namespace Scenario

open Js

/-- A code unit in lower case, with a dash for all but letters and digits. -/
def segmentUnit (u : UInt16) : List Char := segmentChar (single u)

/-- The last two replacements: a run of dashes becomes one dash, and none is at an end. -/
def trimmed (cs : List Char) : List Char :=
  (dropDash (dropDash (collapseDashes cs)).reverse).reverse

/-- `routeSegment` in `scenario.ts`. -/
def hostSegment (value : List UInt16) : String :=
  String.ofList (trimmed (value.flatMap segmentUnit))

/-- `routeSegment` in `worker.ts`. -/
def workerSegment (value : List UInt16) : Except Thrown String :=
  let result := String.ofList (trimmed (value.flatMap segmentUnit))
  let text := String.ofList (ofUnits value)
  if result = "" then .error (newError s!"Cannot turn '{text}' into a route segment")
  else .ok result

/-- A character of a piece of a segment. -/
def isPieceChar (c : Char) : Bool := c.isLower || c.isDigit

/-- The text matches `[a-z0-9]+(-[a-z0-9]+)*`. -/
def IsSegment (text : String) : Prop :=
  ∃ pieces : List (List Char), pieces ≠ [] ∧
    (∀ piece ∈ pieces, piece ≠ [] ∧ ∀ c ∈ piece, isPieceChar c = true) ∧
    text.toList = ['-'].intercalate pieces

/-! ### Dashes -/

theorem collapseDashes_cons (c : Char) (cs : List Char) : collapseDashes (c :: cs) =
    if c = '-' ∧ cs.head? = some '-' then collapseDashes cs else c :: collapseDashes cs := by
  split_ifs with h
  · obtain ⟨rfl, hhead⟩ := h
    obtain ⟨cs', rfl⟩ := List.head?_eq_some_iff.mp hhead
    rw [collapseDashes]
  · rw [collapseDashes]
    rintro cs' rfl rfl
    exact h ⟨rfl, rfl⟩

/-- The text without a dash at its end. -/
def trimEnd (cs : List Char) : List Char := (dropDash cs.reverse).reverse

theorem dropDash_append {cs ds : List Char} (h : cs ≠ []) :
    dropDash (cs ++ ds) = dropDash cs ++ ds := by
  obtain ⟨c, cs', rfl⟩ := List.exists_cons_of_ne_nil h
  by_cases hc : c = '-'
  · rw [hc, List.cons_append, dropDash, dropDash]
  · rw [dropDash, dropDash, List.cons_append]
    all_goals
      rintro _ ⟨⟩
      exact hc rfl

theorem dropDash_of_head?_ne {cs : List Char} (h : cs.head? ≠ some '-') : dropDash cs = cs := by
  rw [dropDash]
  rintro cs' rfl
  exact h rfl

theorem trimEnd_cons {c : Char} (hc : c ≠ '-') (cs : List Char) :
    trimEnd (c :: cs) = c :: trimEnd cs := by
  rw [trimEnd, trimEnd, List.reverse_cons]
  by_cases hcs : cs.reverse = []
  · rw [hcs, List.nil_append, dropDash_of_head?_ne (by simpa using hc)]
    rfl
  · rw [dropDash_append hcs, List.reverse_append]
    rfl

theorem trimEnd_dash_cons {cs : List Char} (h : cs ≠ []) :
    trimEnd ('-' :: cs) = '-' :: trimEnd cs := by
  rw [trimEnd, trimEnd, List.reverse_cons, dropDash_append (by simpa using h), List.reverse_append]
  rfl

theorem trimEnd_append {cs ds : List Char} (h : ds ≠ []) :
    trimEnd (cs ++ ds) = cs ++ trimEnd ds := by
  rw [trimEnd, List.reverse_append, dropDash_append (by simpa using h), List.reverse_append,
    List.reverse_reverse, trimEnd]

/-- One dash is dropped, if there is one at the end. -/
theorem trimEnd_cases (cs : List Char) :
    (cs.getLast? ≠ some '-' ∧ trimEnd cs = cs) ∨ cs = trimEnd cs ++ ['-'] := by
  by_cases h : cs.getLast? = some '-'
  · right
    obtain ⟨ds, rfl⟩ := List.getLast?_eq_some_iff.mp h
    have hdash : trimEnd ['-'] = [] := rfl
    rw [trimEnd_append (List.cons_ne_nil _ _), hdash, List.append_nil]
  · left
    refine ⟨h, ?_⟩
    rw [trimEnd, dropDash_of_head?_ne (by rwa [List.head?_reverse]), List.reverse_reverse]

theorem trimEnd_isPrefix_self (cs : List Char) : trimEnd cs <+: cs := by
  rcases trimEnd_cases cs with ⟨-, h⟩ | h
  · exact ⟨[], by rw [h, List.append_nil]⟩
  · exact ⟨['-'], h.symm⟩

theorem length_trimEnd (cs : List Char) : cs.length ≤ (trimEnd cs).length + 1 := by
  rcases trimEnd_cases cs with ⟨-, h⟩ | h
  · rw [h]
    omega
  · rw [h, List.length_append, List.length_singleton, ← h]

theorem head?_collapseDashes (cs : List Char) : (collapseDashes cs).head? = cs.head? := by
  induction cs with
  | nil => rw [collapseDashes]
  | cons c cs ih =>
    rw [collapseDashes_cons]
    split_ifs with h
    · rw [ih, h.2, h.1, List.head?_cons]
    · rfl

/-- The dashes before the first other character. -/
theorem collapseDashes_dash (cs : List Char) :
    collapseDashes ('-' :: cs) = '-' :: dropDash (collapseDashes cs) := by
  rw [collapseDashes_cons]
  have hhead := head?_collapseDashes cs
  split_ifs with h
  · rw [h.2] at hhead
    obtain ⟨rest, hrest⟩ := List.head?_eq_some_iff.mp hhead
    rw [hrest, dropDash]
  · rw [dropDash_of_head?_ne]
    rw [hhead]
    exact fun hdash => h ⟨rfl, hdash⟩

theorem head?_dropDash_collapseDashes (cs : List Char) :
    (dropDash (collapseDashes cs)).head? ≠ some '-' := by
  induction cs with
  | nil => simp [collapseDashes, dropDash]
  | cons c cs ih =>
    by_cases hc : c = '-'
    · rw [hc, collapseDashes_dash, dropDash]
      exact ih
    · have hhead : (collapseDashes (c :: cs)).head? ≠ some '-' := by
        rw [head?_collapseDashes]
        simpa using hc
      rw [dropDash_of_head?_ne hhead]
      exact hhead

/-! ### Pieces -/

/-- The texts between dashes that are not empty. -/
def pieces (cs : List Char) : List (List Char) := (cs.splitOn '-').filter (· ≠ [])

theorem pieces_dash (cs : List Char) : pieces ('-' :: cs) = pieces cs := by
  simp [pieces, List.splitOn_cons_eq_if_modifyHead]

/-- A character belongs to the piece after it, if there is one. -/
theorem pieces_cons {c d : Char} (hc : c ≠ '-') (hd : d ≠ '-') (cs : List Char) :
    ∃ piece rest, pieces (d :: cs) = piece :: rest ∧
      pieces (c :: d :: cs) = (c :: piece) :: rest := by
  obtain ⟨first, others, h⟩ := List.exists_cons_of_ne_nil (List.splitOn_ne_nil '-' cs)
  refine ⟨d :: first, others.filter (· ≠ []), ?_, ?_⟩
  · simp [pieces, List.splitOn_cons_eq_if_modifyHead, hd, h]
  · simp [pieces, List.splitOn_cons_eq_if_modifyHead, hc, hd, h]

theorem pieces_cons_dash {c : Char} (hc : c ≠ '-') (cs : List Char) :
    pieces (c :: '-' :: cs) = [c] :: pieces cs := by
  simp [pieces, List.splitOn_cons_eq_if_modifyHead, hc]

theorem mem_pieces {cs piece : List Char} (h : piece ∈ pieces cs) :
    piece ≠ [] ∧ ∀ c ∈ piece, c ∈ cs ∧ c ≠ '-' := by
  obtain ⟨hmem, hne⟩ := List.mem_filter.mp h
  refine ⟨of_decide_eq_true hne, fun c hc => ⟨mem_of_mem_splitOn hmem hc, ?_⟩⟩
  rintro rfl
  exact not_mem_of_mem_splitOn hmem hc

theorem intercalate_eq_nil {ps : List (List Char)} (h : ∀ piece ∈ ps, piece ≠ []) :
    ['-'].intercalate ps = [] ↔ ps = [] := by
  cases ps with
  | nil => simp
  | cons piece ps =>
    have hpiece := h piece List.mem_cons_self
    cases ps <;> simp [hpiece]

theorem intercalate_cons_cons (c : Char) (piece : List Char) (ps : List (List Char)) :
    ['-'].intercalate ((c :: piece) :: ps) = c :: ['-'].intercalate (piece :: ps) := by
  cases ps <;> simp

theorem trimmed_dash (cs : List Char) : trimmed ('-' :: cs) = trimmed cs := by
  rw [trimmed, trimmed, collapseDashes_dash, dropDash]

theorem trimmed_cons {c : Char} (hc : c ≠ '-') (cs : List Char) :
    trimmed (c :: cs) = c :: trimEnd (collapseDashes cs) := by
  have hcollapse : collapseDashes (c :: cs) = c :: collapseDashes cs := by
    rw [collapseDashes_cons, if_neg fun h => hc h.1]
  have hhead : (c :: collapseDashes cs).head? ≠ some '-' := by simpa using hc
  have htrim : trimmed (c :: cs) = trimEnd (dropDash (collapseDashes (c :: cs))) := rfl
  rw [htrim, hcollapse, dropDash_of_head?_ne hhead, trimEnd_cons hc]

/-- Nothing is left iff there are dashes only. -/
theorem trimmed_eq_nil {cs : List Char} (h : trimmed cs = []) :
    dropDash (collapseDashes cs) = [] := by
  cases hrest : dropDash (collapseDashes cs) with
  | nil => rfl
  | cons c rest =>
    have hc := head?_dropDash_collapseDashes cs
    have htrim : trimmed cs = trimEnd (dropDash (collapseDashes cs)) := rfl
    rw [hrest, List.head?_cons] at hc
    rw [hrest, trimEnd_cons (by simpa using hc), h] at htrim
    cases htrim

/-- **The last replacements keep the pieces**, with one dash between two of them. -/
theorem trimmed_eq (cs : List Char) : trimmed cs = ['-'].intercalate (pieces cs) := by
  induction cs with
  | nil => simp [trimmed, collapseDashes, dropDash, pieces]
  | cons c cs ih =>
    by_cases hc : c = '-'
    · rw [hc, trimmed_dash, pieces_dash, ih]
    · rw [trimmed_cons hc]
      cases cs with
      | nil =>
        simp [collapseDashes, trimEnd, dropDash, pieces, List.splitOn_cons_eq_if_modifyHead, hc]
      | cons d cs =>
        by_cases hd : d = '-'
        · rw [hd, trimmed_dash, pieces_dash] at ih
          rw [hd, collapseDashes_dash, pieces_cons_dash hc]
          by_cases hnil : trimmed cs = []
          · have hpieces : pieces cs = [] :=
              (intercalate_eq_nil fun _ h => (mem_pieces h).1).mp (ih.symm.trans hnil)
            rw [trimmed_eq_nil hnil, hpieces]
            rfl
          · have hrest : dropDash (collapseDashes cs) ≠ [] :=
              fun h => hnil (by rw [trimmed, h]; rfl)
            have htrim : trimEnd (dropDash (collapseDashes cs)) = trimmed cs := rfl
            rw [trimEnd_dash_cons hrest, htrim, ih]
            rw [ih] at hnil
            obtain ⟨piece, rest, hpieces⟩ := List.exists_cons_of_ne_nil
              (fun h => hnil ((intercalate_eq_nil fun _ h => (mem_pieces h).1).mpr h))
            rw [hpieces]
            simp
        · obtain ⟨piece, rest, hd', hc'⟩ := pieces_cons hc hd cs
          have hhead : (collapseDashes (d :: cs)).head? ≠ some '-' := by
            rw [head?_collapseDashes]
            simpa using hd
          have htrim : trimmed (d :: cs) = trimEnd (dropDash (collapseDashes (d :: cs))) := rfl
          rw [hc', intercalate_cons_cons, ← hd', ← ih, htrim, dropDash_of_head?_ne hhead]

/-- A text of pieces is kept. -/
theorem trimmed_intercalate {ps : List (List Char)}
    (h : ∀ piece ∈ ps, piece ≠ [] ∧ '-' ∉ piece) :
    trimmed (['-'].intercalate ps) = ['-'].intercalate ps := by
  by_cases hps : ps = []
  · rw [hps]
    rfl
  · rw [trimmed_eq, pieces, List.splitOn_intercalate '-' (fun piece hp => (h piece hp).2) hps,
      List.filter_eq_self.mpr fun piece hp => decide_eq_true (h piece hp).1]

/-! ### Characters -/

theorem isUpper_iff {c : Char} : c.isUpper = true ↔ 65 ≤ c.toNat ∧ c.toNat ≤ 90 := by
  change decide ('A'.val ≤ c.val ∧ c.val ≤ 'Z'.val) = true ↔ _
  rw [decide_eq_true_eq]
  exact Iff.rfl

theorem isLower_iff {c : Char} : c.isLower = true ↔ 97 ≤ c.toNat ∧ c.toNat ≤ 122 := by
  change (decide ('a'.val ≤ c.val) && decide (c.val ≤ 'z'.val)) = true ↔ _
  rw [Bool.and_eq_true, decide_eq_true_eq, decide_eq_true_eq]
  exact Iff.rfl

theorem isLower_toLower {c : Char} (h : c.isUpper = true) : c.toLower.isLower = true := by
  have hall : ∀ n < 26, (Char.ofNat (65 + n)).toLower.isLower = true := by decide
  obtain ⟨hfirst, hlast⟩ := isUpper_iff.mp h
  have hc := hall (c.toNat - 65) (by omega)
  rwa [show 65 + (c.toNat - 65) = c.toNat by omega, Char.ofNat_toNat] at hc

/-- The characters of a segment are kept. -/
theorem segmentChar_of_kept {c : Char} (h : isPieceChar c = true ∨ c = '-') :
    segmentChar c = [c] := by
  rcases h with h | rfl
  · have hc := Bool.or_eq_true _ _ ▸ h
    have hupper : ¬c.isUpper = true := by
      rw [isUpper_iff]
      rw [isLower_iff, isDigit_iff] at hc
      omega
    rw [segmentChar, if_neg hupper, if_pos]
    rw [Bool.or_eq_true, Bool.or_eq_true]
    exact .inl hc
  · rfl

theorem flatMap_segmentChar_of_kept {cs : List Char}
    (h : ∀ c ∈ cs, isPieceChar c = true ∨ c = '-') : cs.flatMap segmentChar = cs := by
  rw [List.flatMap_congr fun c hc => segmentChar_of_kept (h c hc), List.flatMap_singleton']

theorem mem_segmentChar {c d : Char} (h : d ∈ segmentChar c) :
    isPieceChar d = true ∨ d = '-' := by
  unfold segmentChar at h
  split_ifs at h with hupper hkept hk hi hbelow
  · obtain rfl := List.mem_singleton.mp h
    exact .inl (by rw [isPieceChar, isLower_toLower hupper, Bool.true_or])
  · obtain rfl := List.mem_singleton.mp h
    rw [Bool.or_eq_true, beq_iff_eq] at hkept
    exact hkept
  · obtain rfl := List.mem_singleton.mp h
    exact .inl rfl
  · rcases List.mem_cons.mp h with rfl | h
    · exact .inl rfl
    · exact .inr (List.mem_singleton.mp h)
  · exact .inr (List.mem_singleton.mp h)
  · simp only [List.mem_cons, List.not_mem_nil, or_false, or_self] at h
    exact .inr h

/-- A code unit that is no half of a pair is its character. -/
theorem single_unit {c : Char} (h : c.toNat < 0x10000) : single (unit c) = c := by
  have hunit : (unit c).toNat = c.toNat := UInt16.toNat_ofNat_of_lt' h
  have hvalid := valid_toNat c
  rw [single, hunit, if_neg (by omega), Char.ofNat_toNat]

theorem single_surrogate {n : ℕ} (h : 0xD800 ≤ n ∧ n < 0xE000) :
    single n.toUInt16 = replacement := by
  have hunit : n.toUInt16.toNat = n := UInt16.toNat_ofNat_of_lt' (by change n < 65536; omega)
  rw [single, hunit, if_pos h]

/-- A character of two code units is not kept. -/
theorem segmentChar_of_large {c : Char} (h : 0x10000 ≤ c.toNat) : segmentChar c = ['-', '-'] := by
  have hupper : ¬c.isUpper = true := by
    rw [isUpper_iff]
    omega
  have hkept : ¬(c.isLower || c.isDigit || c == '-') = true := by
    rw [Bool.or_eq_true, Bool.or_eq_true, isLower_iff, isDigit_iff, beq_iff_eq]
    rintro (h' | rfl)
    · omega
    · revert h
      decide
  have hne : ∀ d : Char, d.toNat < 0x10000 → ¬(c == d) = true := by
    rintro d hd heq
    rw [beq_iff_eq] at heq
    subst heq
    omega
  rw [segmentChar, if_neg hupper, if_neg hkept, if_neg (hne _ (by decide)),
    if_neg (hne _ (by decide)), if_neg (by omega)]

/-- A character is treated as its code units are. -/
theorem segmentChar_eq_units (c : Char) : segmentChar c = (unitsOf c).flatMap segmentUnit := by
  rw [unitsOf]
  split_ifs with h
  · rw [List.flatMap_singleton, segmentUnit, single_unit h]
  · have hvalid := valid_toNat c
    have hmark : segmentChar replacement = ['-'] := by decide
    rw [segmentChar_of_large (not_lt.mp h), List.flatMap_cons, List.flatMap_singleton, segmentUnit,
      segmentUnit, single_surrogate (by omega), single_surrogate (by omega), hmark]
    rfl

theorem flatMap_segmentUnit (value : String) :
    (units value).flatMap segmentUnit = value.toList.flatMap segmentChar := by
  rw [units, List.flatMap_assoc]
  exact List.flatMap_congr fun c _ => (segmentChar_eq_units c).symm

/-- The names of a run are made with the copy of the host. -/
theorem routeSegment_eq (value : String) : routeSegment value = hostSegment (units value) := by
  rw [hostSegment, flatMap_segmentUnit, trimmed, routeSegment]

/-! ### Segments -/

theorem workerSegment_eq_ok {value : List UInt16} {text : String} :
    workerSegment value = .ok text ↔ hostSegment value = text ∧ text ≠ "" := by
  rw [workerSegment, hostSegment]
  split_ifs with h
  · simp only [false_iff, not_and, not_not]
    rintro rfl
    exact h
  · rw [Except.ok.injEq]
    constructor
    · rintro rfl
      exact ⟨rfl, h⟩
    · exact fun h => h.1

theorem toList_hostSegment (value : List UInt16) :
    (hostSegment value).toList = ['-'].intercalate (pieces (value.flatMap segmentUnit)) := by
  rw [hostSegment, String.toList_ofList, trimmed_eq]

theorem isSegment_hostSegment {value : List UInt16} (h : hostSegment value ≠ "") :
    IsSegment (hostSegment value) := by
  refine ⟨pieces (value.flatMap segmentUnit), ?_, ?_, toList_hostSegment value⟩
  · intro hnil
    have htext := toList_hostSegment value
    rw [hnil, List.intercalate_nil] at htext
    exact h (String.toList_eq_nil_iff.mp htext)
  · intro piece hpiece
    obtain ⟨hne, hchars⟩ := mem_pieces hpiece
    refine ⟨hne, fun c hc => ?_⟩
    obtain ⟨hmem, hdash⟩ := hchars c hc
    obtain ⟨u, -, hu⟩ := List.mem_flatMap.mp hmem
    exact (mem_segmentChar hu).resolve_right hdash

section IsSegment

variable {text : String}

theorem IsSegment.kept (h : IsSegment text) :
    ∀ c ∈ text.toList, isPieceChar c = true ∨ c = '-' := by
  obtain ⟨ps, -, hps, htext⟩ := h
  intro c hc
  rw [htext] at hc
  rcases mem_of_mem_intercalate hc with hdash | ⟨piece, hpiece, hmem⟩
  · exact .inr (List.mem_singleton.mp hdash)
  · exact .inl ((hps piece hpiece).2 c hmem)

theorem IsSegment.trimmed (h : IsSegment text) : trimmed text.toList = text.toList := by
  obtain ⟨ps, -, hps, htext⟩ := h
  rw [htext]
  apply trimmed_intercalate
  intro piece hpiece
  obtain ⟨hne, hchars⟩ := hps piece hpiece
  refine ⟨hne, fun hdash => ?_⟩
  exact absurd (hchars '-' hdash) (by decide)

/-- A segment is kept. -/
theorem hostSegment_of_isSegment (h : IsSegment text) : hostSegment (units text) = text := by
  apply String.toList_inj.mp
  rw [hostSegment, String.toList_ofList, flatMap_segmentUnit, flatMap_segmentChar_of_kept h.kept,
    h.trimmed]

theorem IsSegment.ne_empty (h : IsSegment text) : text ≠ "" := by
  obtain ⟨ps, hne, hps, htext⟩ := h
  rintro rfl
  exact hne ((intercalate_eq_nil fun _ hp => (hps _ hp).1).mp htext.symm)

/-- Two dashes stand nowhere in a row. -/
theorem IsSegment.ne_append (h : IsSegment text) (cs ds : List Char) :
    text.toList ≠ cs ++ '-' :: '-' :: ds := by
  obtain ⟨ps, hne, hps, htext⟩ := h
  intro heq
  have hdash : ∀ piece ∈ ps, '-' ∉ piece := fun piece hpiece hmem =>
    absurd ((hps piece hpiece).2 '-' hmem) (by decide)
  have hsplit := List.splitOn_intercalate '-' hdash hne
  have hempty : ([] : List Char) ∈ (cs ++ '-' :: '-' :: ds).splitOn '-' := by
    rw [List.splitOn_append_cons_self]
    refine List.mem_append_right _ ?_
    simp [List.splitOn_cons_eq_if_modifyHead]
  rw [← heq, htext, hsplit] at hempty
  exact (hps [] hempty).1 rfl

/-- A segment that is cut off has no dash at its end, once one is trimmed. -/
theorem IsSegment.getLast?_trimEnd (h : IsSegment text) {cs : List Char}
    (hcs : cs <+: text.toList) :
    (trimEnd cs).getLast? ≠ some '-' := by
  rcases trimEnd_cases cs with ⟨hlast, heq⟩ | heq
  · rwa [heq]
  · intro hlast
    obtain ⟨ds, hds⟩ := List.getLast?_eq_some_iff.mp hlast
    obtain ⟨after, hafter⟩ := hcs
    rw [hds] at heq
    refine h.ne_append ds after ?_
    rw [← hafter, heq]
    simp

theorem IsSegment.exists_pieceChar (h : IsSegment text) :
    ∃ c ∈ text.toList, isPieceChar c = true := by
  obtain ⟨ps, hne, hps, htext⟩ := h
  obtain ⟨piece, rest, rfl⟩ := List.exists_cons_of_ne_nil hne
  obtain ⟨hpiece, hchars⟩ := hps piece List.mem_cons_self
  obtain ⟨c, cs, rfl⟩ := List.exists_cons_of_ne_nil hpiece
  refine ⟨c, ?_, hchars c List.mem_cons_self⟩
  rw [htext]
  exact mem_intercalate List.mem_cons_self List.mem_cons_self

/-- A segment can be added to a segment, after a dash. -/
theorem IsSegment.append {text' : String} (h : IsSegment text) (h' : IsSegment text') :
    IsSegment (text ++ "-" ++ text') := by
  obtain ⟨ps, hne, hps, htext⟩ := h
  obtain ⟨ps', hne', hps', htext'⟩ := h'
  refine ⟨ps ++ ps', List.append_ne_nil_of_left_ne_nil hne _, ?_, ?_⟩
  · exact List.forall_mem_append.mpr ⟨hps, hps'⟩
  · rw [String.toList_append, String.toList_append, htext, htext', intercalate_append hne hne']
    rfl

end IsSegment

/-- A letter or a digit is not lost. -/
theorem hostSegment_ne_empty {value : String} {c : Char} (h : c ∈ value.toList)
    (hc : isPieceChar c = true) : hostSegment (units value) ≠ "" := by
  intro hempty
  have htext := toList_hostSegment (units value)
  rw [hempty, flatMap_segmentUnit] at htext
  have hnil := (intercalate_eq_nil fun _ h => (mem_pieces h).1).mp htext.symm
  have hmem : c ∈ value.toList.flatMap segmentChar := by
    refine List.mem_flatMap.mpr ⟨c, h, ?_⟩
    rw [segmentChar_of_kept (.inl hc)]
    exact List.mem_singleton_self c
  have hsplit : ['-'].intercalate ((value.toList.flatMap segmentChar).splitOn '-') =
      value.toList.flatMap segmentChar := List.intercalate_splitOn _
  rw [← hsplit] at hmem
  rcases mem_of_mem_intercalate hmem with hdash | ⟨piece, hpiece, hcp⟩
  · rw [List.mem_singleton.mp hdash] at hc
    exact absurd hc (by decide)
  · have hin : piece ∈ pieces (value.toList.flatMap segmentChar) :=
      List.mem_filter.mpr ⟨hpiece, decide_eq_true (List.ne_nil_of_mem hcp)⟩
    rw [hnil] at hin
    cases hin

/-- The names of the scenarios are segments. -/
theorem isSegment_name (scenario : ConcreteScenario) : IsSegment scenario.name := by
  have hname : ((scenario.name.toList.splitOn '-').all fun piece =>
      !piece.isEmpty && piece.all isPieceChar) = true := by
    cases scenario <;> decide +kernel
  refine ⟨scenario.name.toList.splitOn '-', List.splitOn_ne_nil _ _, ?_, ?_⟩
  · intro piece hpiece
    have hall := List.all_eq_true.mp hname piece hpiece
    rw [Bool.and_eq_true, Bool.not_eq_true', List.isEmpty_eq_false_iff, List.all_eq_true] at hall
    exact hall
  · exact (List.intercalate_splitOn _).symm

/-- The namespace of a run is not empty: it has the name of the scenario. -/
theorem hostSegment_createRunId_ne_empty (scenario : ConcreteScenario) (iso random : String) :
    hostSegment (units (createRunId scenario iso random)) ≠ "" := by
  obtain ⟨c, hmem, hc⟩ := (isSegment_name scenario).exists_pieceChar
  apply hostSegment_ne_empty (c := c) _ hc
  simp [createRunId, toString, hmem]

/-- **Route segments are canonical on both sides.**  A segment that is not empty has the form that
routes expect and is kept; host and workers make the same segments, and a worker keeps what the
host has made, also with a segment after it. -/
theorem routeSegment_canonical :
    (∀ value, hostSegment value ≠ "" → IsSegment (hostSegment value)) ∧
    (∀ value, hostSegment (units (hostSegment value)) = hostSegment value) ∧
    (∀ value text, workerSegment value = .ok text ↔ hostSegment value = text ∧ text ≠ "") ∧
    (∀ value : String, routeSegment value = hostSegment (units value)) ∧
    (∀ scenario iso random,
      let namespaceName := routeSegment (createRunId scenario iso random)
      IsSegment namespaceName ∧ workerSegment (units namespaceName) = .ok namespaceName ∧
      ∀ text, IsSegment text →
        workerSegment (units (namespaceName ++ "-" ++ text)) = .ok (namespaceName ++ "-" ++ text)) ∧
    ∀ text, IsSegment text → workerSegment (units text) = .ok text := by
  have hworker : ∀ text, IsSegment text → workerSegment (units text) = .ok text := by
    intro text h
    exact workerSegment_eq_ok.mpr ⟨hostSegment_of_isSegment h, h.ne_empty⟩
  refine ⟨fun _ => isSegment_hostSegment, ?_, fun _ _ => workerSegment_eq_ok, routeSegment_eq,
    ?_, hworker⟩
  · intro value
    by_cases h : hostSegment value = ""
    · rw [h]
      rfl
    · exact hostSegment_of_isSegment (isSegment_hostSegment h)
  · intro scenario iso random
    have hnamespace : IsSegment (routeSegment (createRunId scenario iso random)) := by
      rw [routeSegment_eq]
      exact isSegment_hostSegment (hostSegment_createRunId_ne_empty scenario iso random)
    exact ⟨hnamespace, hworker _ hnamespace, fun _ h => hworker _ (hnamespace.append h)⟩

end Scenario

end FitzDestroyer
