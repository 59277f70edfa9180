import FitzDestroyer.Report.Cells

/-!
# The tables of a report

A row of a table has as many cells as its header, on one line, iff its texts are inert.

* `KeepsShape` : the rows of every table have the shape of their header;
* `cellTexts`, `rawTexts` : the texts that the tables show, through `tableCell` or as they are;
* `table_keepsShape` : a table keeps its shape iff its cells are inert;
* `report_keepsShape_iff` : when the tables of a report keep their shape.
-/

namespace FitzDestroyer

namespace Report

open Js Workload Scenario Pressure.Guidance
open Check (exists_of_mapM bind_eq bind_eq_ok pure_eq)

/-! ### Shape -/

/-- Every row is a line with as many unescaped pipes as the header. -/
def Block.KeepsShape : Block → Prop
  | .line _ => True
  | .table header _ rows => ∀ row ∈ rows, '\n' ∉ row.toList ∧ '\r' ∉ row.toList ∧
      unescapedPipes row.toList = unescapedPipes header.toList

/-- **The tables keep their shape.** -/
def KeepsShape (blocks : List Block) : Prop := ∀ block ∈ blocks, block.KeepsShape

/-- The texts of the headline of a scenario. -/
def headlineTexts (guidance : OperationalGuidance) : List String :=
  if guidance.rates = [] then
    match guidance.counts.head?, guidance.recoveries.head? with
    | some count, _ => [count.label, count.unit]
    | none, some recovery => [recovery.label]
    | none, none => []
  else (guidance.rates.take 2).flatMap fun metric => [metric.label, metric.unit]

def guidanceTexts (guidance : OperationalGuidance) : List String :=
  headlineTexts guidance ++ completionLabels guidance ++ guidance.rating.reasons

def pressureTexts (guidance : OperationalGuidance) : List String :=
  guidance.pressureDomains.flatMap fun domain =>
    domain.completionSemantics :: domain.slowestStage ::
      domain.stages.map PressureStageSummary.stage

/-- The first observation of every code. -/
def firstOfCode (observations : List ReportObservation) : List ReportObservation :=
  observations.foldl (fun seen observation =>
    if observation.code ∈ seen.map ReportObservation.code then seen else seen ++ [observation]) []

/-- The texts that are shown through `tableCell`. -/
def cellTexts (report : DestroyerReport) : List String :=
  [report.analysisResult, report.matrixResult] ++
  (report.results.flatMap fun result =>
    guidanceTexts result.analysis.operationalGuidance ++
    pressureTexts result.analysis.operationalGuidance ++
    result.analysis.warnings.flatMap fun warning => [warning.code, warning.message]) ++
  (firstOfCode ((capturedFailures report).flatMap fun failure =>
    failure.analysis.observations)).map ReportObservation.message

/-- The texts of the evidence of a scenario, which are shown as they are. -/
def evidenceTexts (run : DestroyerReportRun) (result : DestroyerReportEntry) : List String :=
  (match run.attempt with
    | none => []
    | some attempt => attempt :: run.url.toList) ++ result.runId.toList

/-- The texts that are shown as they are. -/
def rawTexts (report : DestroyerReport) : List String :=
  report.results.flatMap fun result =>
    classificationLabel "-" result.failureClassification :: evidenceTexts report.run result

/-! ### Texts -/

/-- The text has plain characters only. -/
def PlainText (text : String) : Prop := ∀ c ∈ text.toList, Plain c

def isPlain (c : Char) : Bool :=
  c.toNat != 124 && c.toNat != 92 && c.toNat != 10 && c.toNat != 13

/-- A text that is given is checked character by character. -/
theorem plainText {cs : List Char} (h : cs.all isPlain = true) : PlainText (String.ofList cs) := by
  intro c hc
  rw [String.toList_ofList] at hc
  exact plain_of (P := fun c => isPlain c = true) (List.all_eq_true.mp h c hc) (by decide)

theorem PlainText.append {first second : String} (hfirst : PlainText first)
    (hsecond : PlainText second) : PlainText (first ++ second) := by
  intro c hc
  rw [String.toList_append, List.mem_append] at hc
  exact hc.elim (hfirst c) (hsecond c)

theorem PlainText.inert {text : String} (h : PlainText text) : Inert text.toList := inert_of_plain h

/-- Plain text before another text. -/
theorem PlainText.inert_append {text : String} (h : PlainText text) (rest : String) :
    Inert (text ++ rest).toList ↔ Inert rest.toList := by
  rw [String.toList_append, inert_plain_append h]

/-- Plain text after another text. -/
theorem PlainText.append_inert {text : String} (h : PlainText text) (start : String) :
    Inert (start ++ text).toList ↔ Inert start.toList := by
  rw [String.toList_append, inert_append_plain h]

/-- Plain text between two texts. -/
theorem PlainText.inert_between {text : String} (h : PlainText text) (hne : text ≠ "")
    (start rest : String) :
    Inert (start ++ text ++ rest).toList ↔ Inert start.toList ∧ Inert rest.toList := by
  have hne' : text.toList ≠ [] := fun heq => hne (String.toList_eq_nil_iff.mp heq)
  rw [String.toList_append, String.toList_append, List.append_assoc,
    inert_append_plain_append h hne']

theorem PlainText.inert_intercalate {between : String} (h : PlainText between) (hne : between ≠ "")
    (texts : List String) :
    Inert (between.intercalate texts).toList ↔ ∀ text ∈ texts, Inert text.toList := by
  induction texts with
  | nil => simp
  | cons text texts ih =>
    cases texts with
    | nil => simp
    | cons second texts =>
      rw [String.intercalate_cons_cons, h.inert_between hne, ih, List.forall_mem_cons (a := text)]

theorem plainText_numberText (x : Number) : PlainText (numberText x) := fun _ hc =>
  plain_of_isNumberChar (mem_numberText hc)

theorem plainText_toFixed (digits : ℕ) (x : Number) : PlainText (toFixed digits x) := fun _ hc =>
  plain_of_isNumberChar (mem_toFixed hc)

theorem plainText_nat (n : ℕ) : PlainText (toString n) := fun c hc => by
  rw [Nat.toString_eq_ofList_toDigits, String.toList_ofList] at hc
  exact plain_of_isNumberChar (isNumberChar_of_mem_toDigits hc)

theorem plainText_int (n : ℤ) : PlainText (toString n) := by
  cases n with
  | ofNat n => exact plainText_nat n
  | negSucc n =>
    have hsign : PlainText "-" := plainText rfl
    exact hsign.append (plainText_nat (n + 1))

theorem plainText_name (scenario : ConcreteScenario) : PlainText scenario.name := by
  cases scenario <;> exact plainText rfl

/-! ### Rows -/

/-- The cells after the first pipe of a row. -/
def rowCells (cells : List String) : List Char := (" | ".intercalate cells ++ " |").toList

theorem rowCells_singleton (cell : String) : rowCells [cell] = cell.toList ++ ' ' :: ['|'] := by
  simp [rowCells]

theorem rowCells_cons_cons (cell second : String) (cells : List String) :
    rowCells (cell :: second :: cells) =
      cell.toList ++ ' ' :: '|' :: ' ' :: rowCells (second :: cells) := by
  simp [rowCells, String.intercalate_cons_cons]

theorem unescapedPipes_rowCells {cells : List String} (hne : cells ≠ []) :
    unescapedPipes (rowCells cells) =
      (cells.map fun cell => unescapedPipes cell.toList).sum + cells.length := by
  induction cells with
  | nil => exact absurd rfl hne
  | cons cell cells ih =>
    cases cells with
    | nil =>
      rw [rowCells_singleton, unescapedPipes, pipesFrom_append_plain (by decide)]
      rfl
    | cons second cells =>
      have hrest := ih (List.cons_ne_nil _ _)
      rw [rowCells_cons_cons, unescapedPipes, pipesFrom_append_plain (by decide), pipesFrom,
        pipesFrom_cons_plain (by decide), ← unescapedPipes, ← unescapedPipes, hrest]
      simp
      omega

theorem mem_rowCells {c : Char} (hc : c ≠ ' ' ∧ c ≠ '|') {cells : List String} (hne : cells ≠ []) :
    c ∈ rowCells cells ↔ ∃ cell ∈ cells, c ∈ cell.toList := by
  induction cells with
  | nil => exact absurd rfl hne
  | cons cell cells ih =>
    cases cells with
    | nil => simp [rowCells_singleton, hc.1, hc.2]
    | cons second cells =>
      have hrest := ih (List.cons_ne_nil _ _)
      rw [rowCells_cons_cons, List.mem_append, List.mem_cons, List.mem_cons, List.mem_cons, hrest]
      simp [hc.1, hc.2]

theorem toList_tableRow (cells : List String) :
    (tableRow cells).toList = '|' :: ' ' :: rowCells cells := by
  simp [tableRow, rowCells]

/-- **A row** is a line with one cell for each of its texts iff the texts are inert. -/
theorem tableRow_iff {cells : List String} (hne : cells ≠ []) :
    ('\n' ∉ (tableRow cells).toList ∧ '\r' ∉ (tableRow cells).toList ∧
      unescapedPipes (tableRow cells).toList = cells.length + 1) ↔
        ∀ cell ∈ cells, Inert cell.toList := by
  have hpipes : unescapedPipes (tableRow cells).toList =
      (cells.map fun cell => unescapedPipes cell.toList).sum + (cells.length + 1) := by
    rw [toList_tableRow, unescapedPipes, pipesFrom, pipesFrom_cons_plain (by decide),
      ← unescapedPipes, unescapedPipes_rowCells hne]
    simp
    omega
  have hmem : ∀ c, c ≠ ' ' ∧ c ≠ '|' →
      (c ∉ (tableRow cells).toList ↔ ∀ cell ∈ cells, c ∉ cell.toList) := by
    intro c hc
    rw [toList_tableRow, List.mem_cons, List.mem_cons, mem_rowCells hc hne]
    simp [hc.1, hc.2]
  rw [hmem '\n' (by decide), hmem '\r' (by decide), hpipes, Nat.add_eq_right,
    List.sum_eq_zero_iff, List.forall_mem_map]
  constructor
  · rintro ⟨hnewline, hreturn, hnone⟩ cell hcell
    exact ⟨hnone cell hcell, hnewline cell hcell, hreturn cell hcell⟩
  · exact fun h => ⟨fun cell hcell => (h cell hcell).newline,
      fun cell hcell => (h cell hcell).carriageReturn, fun cell hcell => (h cell hcell).pipes⟩

/-- **A table** keeps its shape iff its cells are inert. -/
theorem table_keepsShape {α : Type*} {header : String} (delimiter : String)
    (cells : α → List String) (rows : List α) {n : ℕ} (hpos : 0 < n)
    (hheader : ∃ cs, header = String.ofList cs ∧ unescapedPipes cs = n + 1)
    (hrows : ∀ row ∈ rows, (cells row).length = n) :
    (Block.table header delimiter (rows.map fun row => tableRow (cells row))).KeepsShape ↔
      ∀ row ∈ rows, ∀ cell ∈ cells row, Inert cell.toList := by
  obtain ⟨cs, rfl, hpipes⟩ := hheader
  rw [Block.KeepsShape, List.forall_mem_map]
  refine forall₂_congr fun row hrow => ?_
  rw [String.toList_ofList, hpipes, ← hrows row hrow]
  exact tableRow_iff (List.length_pos_iff.mp ((hrows row hrow).symm ▸ hpos))

/-! ### Cells -/

theorem plainText_durationLabel (durationMs : Option Number) :
    PlainText (durationLabel durationMs) := by
  have hfixed := fun x => plainText_toFixed 1 x
  have hhours : PlainText "h " := plainText rfl
  have hminutes : PlainText "m " := plainText rfl
  have hseconds : PlainText "s" := plainText rfl
  unfold durationLabel
  cases durationMs with
  | none => exact plainText rfl
  | some x =>
    dsimp only
    split_ifs
    · exact (hfixed _).append (plainText (by rfl))
    · exact (((((plainText_numberText _).append hhours).append (plainText_numberText _)).append
        hminutes).append (hfixed _)).append hseconds
    · exact (((plainText_numberText _).append hminutes).append (hfixed _)).append hseconds

theorem plainText_milliseconds (x : Number) : PlainText (milliseconds x) :=
  (plainText_toFixed 2 x).append (plainText (by rfl))

theorem plainText_code {text : String} (h : PlainText text) : PlainText (code text) :=
  ((plainText rfl : PlainText "`").append h).append (plainText (by rfl))

theorem inert_scenarios (scenarios : List ConcreteScenario) :
    Inert (", ".intercalate (scenarios.map fun scenario => code scenario.name)).toList := by
  rw [PlainText.inert_intercalate (plainText (by rfl)) (by decide), List.forall_mem_map]
  exact fun scenario _ => (plainText_code (plainText_name scenario)).inert

theorem inert_outcomeLabel (letters : Letters) (outcome : String) :
    Inert (outcomeLabel letters outcome).toList ↔ CellSafe outcome.toList := by
  have hplain : ∀ text : String, PlainText text → CellSafe text.toList := fun _ h =>
    (balanced_of_plain h).cellSafe
  unfold outcomeLabel
  split_ifs with hsuccess hfailure
  · rw [hsuccess]
    exact iff_of_true (PlainText.inert (plainText (by rfl))) (hplain _ (plainText (by rfl)))
  · rw [hfailure]
    exact iff_of_true (PlainText.inert (plainText (by rfl))) (hplain _ (plainText (by rfl)))
  · rw [PlainText.inert_append (plainText (by rfl)), Letters.toUpperCase, String.toList_ofList,
      letters.neutral_upper.inert, inert_tableCell]

/-- A text, a number and a unit. -/
theorem inert_labelled (label unit : String) {value : String} (h : PlainText value) :
    Inert (tableCell label ++ " " ++ value ++ " " ++ tableCell unit).toList ↔
      CellSafe label.toList ∧ CellSafe unit.toList := by
  rw [PlainText.inert_between (plainText (by rfl)) (by decide), h.append_inert,
    PlainText.append_inert (plainText (by rfl)), inert_tableCell, inert_tableCell]

theorem inert_headlineMetric (guidance : OperationalGuidance) :
    Inert (headlineMetric guidance).toList ↔
      ∀ text ∈ headlineTexts guidance, CellSafe text.toList := by
  unfold headlineMetric headlineTexts
  dsimp only
  by_cases hrates : guidance.rates = []
  · rw [if_pos hrates, if_neg (by simp [hrates])]
    rcases guidance.counts.head? with _ | count
    · rcases guidance.recoveries.head? with _ | recovery
      · exact iff_of_true (PlainText.inert (plainText (by rfl))) (by simp)
      · simp only [List.mem_singleton, forall_eq]
        rw [(plainText_durationLabel _).append_inert, PlainText.append_inert (plainText (by rfl)),
          inert_tableCell]
    · simp only [List.forall_mem_cons, List.not_mem_nil, false_imp_iff, implies_true, and_true]
      exact inert_labelled _ _ (plainText_numberText _)
  · rw [if_neg hrates, if_pos (by simpa using hrates),
      PlainText.inert_intercalate (plainText (by rfl)) (by decide), List.forall_mem_map,
      List.forall_mem_flatMap]
    refine forall₂_congr fun metric _ => ?_
    rw [inert_labelled _ _ (plainText_toFixed 2 _)]
    simp

theorem inert_cells (texts : List String) :
    Inert ("<br>".intercalate (texts.map tableCell)).toList ↔
      ∀ text ∈ texts, CellSafe text.toList := by
  rw [PlainText.inert_intercalate (plainText (by rfl)) (by decide), List.forall_mem_map]
  exact forall₂_congr fun _ _ => inert_tableCell

theorem inert_completionLabel (guidance : OperationalGuidance) :
    Inert (completionLabel guidance).toList ↔
      ∀ text ∈ completionLabels guidance, CellSafe text.toList := by
  unfold completionLabel
  dsimp only
  split_ifs with h
  · rw [h]
    exact iff_of_true (PlainText.inert (plainText (by rfl))) (by simp)
  · exact inert_cells _

theorem inert_guidanceLabel (guidance : OperationalGuidance) :
    Inert (guidanceLabel guidance).toList ↔
      ∀ text ∈ guidance.rating.reasons, CellSafe text.toList := by
  have hrating : PlainText (ratingLabel guidance.rating.value) := by
    cases guidance.rating.value <;> exact plainText rfl
  rw [guidanceLabel, String.append_assoc, hrating.inert_append,
    PlainText.inert_append (plainText (by rfl))]
  exact inert_cells _

theorem inert_guidanceRow (result : DestroyerReportEntry) :
    (∀ cell ∈ guidanceRow result, Inert cell.toList) ↔
      ∀ text ∈ guidanceTexts result.analysis.operationalGuidance, CellSafe text.toList := by
  simp only [guidanceRow, guidanceTexts, List.forall_mem_cons, List.forall_mem_append,
    inert_headlineMetric, inert_completionLabel, inert_guidanceLabel,
    (plainText_name _).inert, (plainText_durationLabel _).inert, List.not_mem_nil, false_imp_iff,
    implies_true, and_true, true_and, and_assoc]

theorem plainText_domain (domain : Pressure.Domain) : PlainText domain.name := by
  cases domain <;> exact plainText rfl

theorem inert_domainRow (domain : PressureDomainSummary) :
    (∀ cell ∈ domainRow domain, Inert cell.toList) ↔
      CellSafe domain.completionSemantics.toList ∧ CellSafe domain.slowestStage.toList := by
  simp only [domainRow, List.forall_mem_cons, inert_tableCell, (plainText_domain _).inert,
    (plainText_nat _).inert, (plainText_int _).inert, (plainText_toFixed _ _).inert,
    List.not_mem_nil, false_imp_iff, implies_true, and_true, true_and]

theorem inert_stageRow (domain : PressureDomainSummary) (stage : PressureStageSummary) :
    (∀ cell ∈ stageRow domain stage, Inert cell.toList) ↔ CellSafe stage.stage.toList := by
  simp only [stageRow, List.forall_mem_cons, inert_tableCell, (plainText_domain _).inert,
    (plainText_milliseconds _).inert, List.not_mem_nil, false_imp_iff, implies_true, and_true,
    true_and]

theorem inert_warningDetails (warning : ReportWarning) :
    Inert (warningDetails warning).toList := by
  unfold warningDetails
  cases warning.details with
  | none => exact PlainText.inert (plainText (by rfl))
  | some details =>
    rw [PlainText.append_inert (plainText (by rfl)), PlainText.inert_append (plainText (by rfl)),
      inert_tableCell, String.toList_ofList]
    exact cellSafe_stringify _

theorem inert_warningRow (p : ConcreteScenario × ReportWarning) :
    (∀ cell ∈ warningRow p, Inert cell.toList) ↔
      CellSafe p.2.code.toList ∧ CellSafe p.2.message.toList := by
  have hwarning : Inert ("**" ++ tableCell p.2.code ++ ":** " ++ tableCell p.2.message).toList ↔
      CellSafe p.2.code.toList ∧ CellSafe p.2.message.toList := by
    rw [PlainText.inert_between (plainText (by rfl)) (by decide),
      PlainText.inert_append (plainText (by rfl)), inert_tableCell, inert_tableCell]
  simp only [warningRow, List.forall_mem_cons, hwarning, (plainText_name _).inert,
    inert_warningDetails, List.not_mem_nil, false_imp_iff, implies_true, and_true, true_and]

theorem inert_classRow {failureClass : String} (h : failureClass ∈ failureClassOrder)
    (scenarios : List ConcreteScenario) : ∀ cell ∈ classRow failureClass scenarios,
      Inert cell.toList := by
  have hclass : ∀ failureClass ∈ failureClassOrder, PlainText failureClass := by
    simp only [failureClassOrder, List.forall_mem_cons]
    exact ⟨plainText rfl, plainText rfl, plainText rfl, plainText rfl, plainText rfl,
      plainText rfl, fun _ h => absurd h List.not_mem_nil⟩
  simp only [classRow, List.forall_mem_cons, (hclass _ h).inert, (plainText_nat _).inert,
    inert_scenarios, List.not_mem_nil, false_imp_iff, implies_true, and_self]

theorem inert_observationRow (observation : AggregatedObservation) :
    (∀ cell ∈ observationRow observation, Inert cell.toList) ↔
      CellSafe observation.message.toList := by
  simp only [observationRow, List.forall_mem_cons, inert_tableCell, (plainText_nat _).inert,
    inert_scenarios, List.not_mem_nil, false_imp_iff, implies_true, and_true]

theorem inert_evidenceLabel (result : DestroyerReportEntry) (run : DestroyerReportRun) :
    Inert (evidenceLabel result run).toList ↔
      ∀ text ∈ evidenceTexts run result, Inert text.toList := by
  have hname : ∀ attempt : String,
      Inert ("scenario-" ++ result.scenario.name ++ "-" ++ attempt).toList ↔
        Inert attempt.toList := fun attempt =>
    (((plainText rfl : PlainText "scenario-").append (plainText_name _)).append
      (plainText rfl)).inert_append attempt
  have hartifact : ∀ attempt : String,
      Inert ("`" ++ ("scenario-" ++ result.scenario.name ++ "-" ++ attempt) ++ "`").toList ↔
        Inert attempt.toList := fun attempt => by
    rw [PlainText.append_inert (plainText (by rfl)), PlainText.inert_append (plainText (by rfl)),
      hname]
  have hlink : ∀ attempt url : String,
      Inert ("[`" ++ ("scenario-" ++ result.scenario.name ++ "-" ++ attempt) ++ "`](" ++ url ++
        ")").toList ↔ Inert attempt.toList ∧ Inert url.toList := fun attempt url => by
    rw [PlainText.append_inert (plainText (by rfl)),
      PlainText.inert_between (plainText (by rfl)) (by decide),
      PlainText.inert_append (plainText (by rfl)), hname]
  have hcode : ∀ runId : String,
      Inert ("<code>" ++ String.ofList (escapeHtml id runId.toList) ++ "</code>").toList ↔
        Inert runId.toList := fun runId => by
    rw [PlainText.append_inert (plainText (by rfl)), PlainText.inert_append (plainText (by rfl)),
      String.toList_ofList, escapeHtml_id, neutral_escapeSymbol.inert]
  unfold evidenceLabel evidenceTexts
  rcases run.attempt with _ | attempt <;> rcases result.runId with _ | runId
  · have hnone : PlainText "not available" := plainText rfl
    exact iff_of_true hnone.inert (by simp)
  · simpa using hcode runId
  · rcases run.url with _ | url
    · simpa using hartifact attempt
    · simpa using hlink attempt url
  · rcases run.url with _ | url
    · simp only [Option.map_some]
      rw [PlainText.inert_between (plainText (by rfl)) (by decide), hartifact, hcode]
      simp
    · simp only [Option.map_some]
      rw [PlainText.inert_between (plainText (by rfl)) (by decide), hlink, hcode]
      simp [and_assoc]

theorem inert_resultRow (run : DestroyerReportRun) (result : DestroyerReportEntry) :
    (∀ cell ∈ resultRow run result, Inert cell.toList) ↔
      Inert (classificationLabel "-" result.failureClassification).toList ∧
        ∀ text ∈ evidenceTexts run result, Inert text.toList := by
  have hverdict : PlainText (verdictLabel result.verdict) := by
    cases result.verdict <;> exact plainText rfl
  have hcleanup : PlainText (cleanupLabel "-" result.cleanupState) := by
    rcases result.cleanupState with _ | (_ | _ | _) <;> exact plainText rfl
  simp only [resultRow, List.forall_mem_cons, inert_evidenceLabel, (plainText_name _).inert,
    hverdict.inert, hcleanup.inert, (plainText_durationLabel _).inert, List.not_mem_nil,
    false_imp_iff, implies_true, and_true, true_and]

/-! ### Observations -/

theorem setEntry_same {K V W : Type*} [DecidableEq K] (f : V → W) {key : K} {value current : V}
    (hf : f value = f current) {ps : List (K × V)}
    (h : (ps.find? fun p => p.1 = key).map Prod.snd = some current) :
    (JsMap.setEntry key value ps).map (fun p => (p.1, f p.2)) =
      ps.map fun p => (p.1, f p.2) := by
  induction ps with
  | nil => cases h
  | cons p ps ih =>
    rw [JsMap.setEntry]
    by_cases hp : p.1 = key
    · rw [List.find?_cons_of_pos (by simpa using hp)] at h
      rw [if_pos hp, List.map_cons, List.map_cons, hf, ← Option.some.inj h, ← hp]
    · rw [List.find?_cons_of_neg (by simpa using hp)] at h
      rw [if_neg hp, List.map_cons, List.map_cons, ih h]

theorem entries_set_of_none {K V : Type*} [DecidableEq K] {m : JsMap K V} {key : K} {value : V}
    (h : m.get? key = none) : (m.set key value).entries = m.entries ++ [(key, value)] := by
  have hentries : ∀ ps : List (K × V), (ps.find? fun p => p.1 = key) = none →
      JsMap.setEntry key value ps = ps ++ [(key, value)] := by
    intro ps hps
    induction ps with
    | nil => rfl
    | cons p ps ih =>
      by_cases hp : p.1 = key
      · rw [List.find?_cons_of_pos (by simpa using hp)] at hps
        cases hps
      · rw [List.find?_cons_of_neg (by simpa using hp)] at hps
        rw [JsMap.setEntry, if_neg hp, ih hps, List.cons_append]
  exact hentries m.entries (Option.map_eq_none_iff.mp h)

/-- The messages of a table of observations, with their codes. -/
def messages (observations : JsMap String AggregatedObservation) : List (String × String) :=
  observations.entries.map fun p => (p.1, p.2.message)

/-- The codes and messages of observations. -/
def labels (observations : List ReportObservation) : List (String × String) :=
  observations.map fun observation => (observation.code, observation.message)

/-- A code keeps its first message. -/
theorem messages_countObservation (scenario : ConcreteScenario)
    (observations : JsMap String AggregatedObservation) (observation : ReportObservation) :
    messages (countObservation scenario observations observation) =
      if observation.code ∈ (messages observations).map Prod.fst then messages observations
      else messages observations ++ [(observation.code, observation.message)] := by
  have hkeys : (messages observations).map Prod.fst = observations.entries.map Prod.fst := by
    simp [messages, Function.comp_def]
  rw [hkeys, countObservation]
  rcases hfind : observations.get? observation.code with _ | current
  · have hnone := Option.map_eq_none_iff.mp hfind
    have hnew : observation.code ∉ observations.entries.map Prod.fst := fun hmem => by
      obtain ⟨p, hp, hcode⟩ := List.mem_map.mp hmem
      exact absurd (List.find?_eq_none.mp hnone p hp) (by simp [hcode])
    rw [if_neg hnew, messages, entries_set_of_none hfind, List.map_append]
    rfl
  · have hold : observation.code ∈ observations.entries.map Prod.fst := by
      obtain ⟨p, hp, -⟩ := Option.map_eq_some_iff.mp hfind
      exact List.mem_map.mpr ⟨p, List.mem_of_find?_eq_some hp, by
        simpa using List.find?_some hp⟩
    rw [if_pos hold]
    refine setEntry_same AggregatedObservation.message ?_ hfind
    rfl

theorem labels_firstOfCode_append (observations : List ReportObservation)
    (observation : ReportObservation) :
    labels (firstOfCode (observations ++ [observation])) =
      if observation.code ∈ (labels (firstOfCode observations)).map Prod.fst then
        labels (firstOfCode observations)
      else labels (firstOfCode observations) ++ [(observation.code, observation.message)] := by
  have hcodes : (labels (firstOfCode observations)).map Prod.fst =
      (firstOfCode observations).map ReportObservation.code := by
    simp [labels, Function.comp_def]
  rw [hcodes, firstOfCode, List.foldl_append, List.foldl_cons, List.foldl_nil, ← firstOfCode]
  split_ifs
  · rfl
  · rw [labels, List.map_append]
    rfl

/-- The table of the observations so far has the first message of every code. -/
theorem messages_foldl (scenario : ConcreteScenario) (done more : List ReportObservation)
    {observations : JsMap String AggregatedObservation}
    (h : messages observations = labels (firstOfCode done)) :
    messages (more.foldl (countObservation scenario) observations) =
      labels (firstOfCode (done ++ more)) := by
  induction more generalizing done observations with
  | nil => rwa [List.append_nil]
  | cons observation more ih =>
    rw [List.foldl_cons, List.append_cons]
    refine ih _ ?_
    rw [messages_countObservation, labels_firstOfCode_append, h]

theorem messages_foldl_failures (failures : List DestroyerReportEntry)
    (done : List ReportObservation) {observations : JsMap String AggregatedObservation}
    (h : messages observations = labels (firstOfCode done)) :
    messages (failures.foldl (fun observations failure =>
      failure.analysis.observations.foldl (countObservation failure.scenario) observations)
      observations) =
      labels (firstOfCode (done ++ failures.flatMap fun failure =>
        failure.analysis.observations)) := by
  induction failures generalizing done observations with
  | nil => simpa using h
  | cons failure failures ih =>
    rw [List.foldl_cons, List.flatMap_cons, ← List.append_assoc]
    exact ih _ (messages_foldl failure.scenario done _ h)

theorem forall_aggregateObservations (letters : Letters) (failures : List DestroyerReportEntry) :
    (∀ observation ∈ aggregateObservations letters failures,
      CellSafe observation.message.toList) ↔
      ∀ observation ∈ firstOfCode (failures.flatMap fun failure => failure.analysis.observations),
        CellSafe observation.message.toList := by
  have hmessages := messages_foldl_failures failures [] (rfl : messages .empty = _)
  have hsafe := congrArg (fun ps => ∀ p ∈ ps, CellSafe (Prod.snd p).toList) hmessages
  simp only [messages, labels, List.forall_mem_map, List.nil_append, eq_iff_iff] at hsafe
  simp only [aggregateObservations, List.mem_mergeSort, List.forall_mem_map]
  exact hsafe

/-! ### The report -/

theorem keepsShape_append (blocks more : List Block) :
    KeepsShape (blocks ++ more) ↔ KeepsShape blocks ∧ KeepsShape more := List.forall_mem_append

theorem keepsShape_cons (block : Block) (more : List Block) :
    KeepsShape (block :: more) ↔ block.KeepsShape ∧ KeepsShape more := List.forall_mem_cons

theorem keepsShape_nil : KeepsShape [] := fun _ h => absurd h List.not_mem_nil

theorem keepsShape_paragraphs (texts : List String) : KeepsShape (paragraphs texts) := by
  intro block hblock
  obtain ⟨text, -, rfl⟩ := List.mem_map.mp hblock
  trivial

theorem keepsShape_outcomeBlocks (letters : Letters) (report : DestroyerReport) :
    KeepsShape (outcomeBlocks letters report) ↔
      CellSafe report.analysisResult.toList ∧ CellSafe report.matrixResult.toList := by
  have hsummary : PlainText (if failures report = [] then "✅ PASS" else "❌ FAIL") := by
    split_ifs <;> exact plainText rfl
  have htotals : PlainText (totalsLabel report.totals) :=
    (((((plainText_nat _).append (plainText rfl)).append (plainText_nat _)).append
      (plainText rfl)).append (plainText_nat _)).append (plainText rfl)
  have hlabels : PlainText "Repository checks" ∧ PlainText "Scenario matrix" ∧
      PlainText "Scenario summaries" := ⟨plainText rfl, plainText rfl, plainText rfl⟩
  rw [outcomeBlocks, keepsShape_append, keepsShape_append, keepsShape_cons]
  simp only [keepsShape_paragraphs, keepsShape_nil, true_and, and_true]
  refine (table_keepsShape _ id [_, _, _] (n := 3) (by decide) ⟨_, rfl, by rfl⟩ ?_).trans ?_
  · simp
  · simp only [id, List.forall_mem_cons, inert_outcomeLabel, inert_tableCell, hlabels.1.inert,
      hlabels.2.1.inert, hlabels.2.2.inert, hsummary.inert, htotals.inert, List.not_mem_nil,
      false_imp_iff, implies_true, true_and, and_true, and_self]

theorem keepsShape_pressureDetailBlocks (result : DestroyerReportEntry) :
    KeepsShape (pressureDetailBlocks result) ↔
      ∀ text ∈ pressureTexts result.analysis.operationalGuidance, CellSafe text.toList := by
  unfold pressureDetailBlocks pressureTexts
  dsimp only
  generalize result.analysis.operationalGuidance = guidance
  split_ifs with hdomains
  · exact iff_of_true keepsShape_nil (by simp [hdomains])
  · have hstages : (guidance.pressureDomains.flatMap fun domain =>
        domain.stages.map fun stage => tableRow (stageRow domain stage)) =
        (guidance.pressureDomains.flatMap fun domain => domain.stages.map fun stage =>
          (domain, stage)).map fun p => tableRow (stageRow p.1 p.2) := by
      simp [List.map_flatMap, Function.comp_def]
    rw [hstages, keepsShape_append, keepsShape_cons, keepsShape_cons, keepsShape_cons,
      table_keepsShape _ _ _ (n := 8) (by decide)
        ⟨_, String.ofList_append.symm, by decide +kernel⟩ fun _ _ => rfl,
      table_keepsShape _ _ _ (n := 7) (by decide) ⟨_, rfl, by rfl⟩ fun _ _ => rfl]
    simp only [keepsShape_paragraphs, keepsShape_nil, inert_domainRow, inert_stageRow, true_and,
      and_true, Block.KeepsShape, List.forall_mem_flatMap, List.forall_mem_cons,
      List.forall_mem_map, ← forall_and, and_assoc]

theorem keepsShape_operationalGuidanceBlocks (report : DestroyerReport) :
    KeepsShape (operationalGuidanceBlocks report) ↔ ∀ result ∈ report.results,
      (∀ text ∈ guidanceTexts result.analysis.operationalGuidance, CellSafe text.toList) ∧
        ∀ text ∈ pressureTexts result.analysis.operationalGuidance, CellSafe text.toList := by
  have hdetails : KeepsShape (report.results.flatMap pressureDetailBlocks) ↔
      ∀ result ∈ report.results, KeepsShape (pressureDetailBlocks result) :=
    List.forall_mem_flatMap
  rw [operationalGuidanceBlocks, keepsShape_append, keepsShape_cons, hdetails,
    table_keepsShape _ _ _ (n := 5) (by decide) ⟨_, rfl, by rfl⟩ fun _ _ => rfl]
  simp only [keepsShape_paragraphs, inert_guidanceRow, keepsShape_pressureDetailBlocks, true_and,
    ← forall_and]

theorem keepsShape_warningBlocks (report : DestroyerReport) :
    KeepsShape (warningBlocks report) ↔ ∀ result ∈ report.results,
      ∀ warning ∈ result.analysis.warnings,
        CellSafe warning.code.toList ∧ CellSafe warning.message.toList := by
  have hwarnings : (∀ p ∈ warnings report, CellSafe p.2.code.toList ∧ CellSafe p.2.message.toList) ↔
      ∀ result ∈ report.results, ∀ warning ∈ result.analysis.warnings,
        CellSafe warning.code.toList ∧ CellSafe warning.message.toList := by
    simp only [warnings, List.forall_mem_flatMap, List.forall_mem_map]
  rw [warningBlocks, ← hwarnings]
  split_ifs with hnone
  · exact iff_of_true keepsShape_nil (by simp [hnone])
  · rw [keepsShape_append, keepsShape_cons,
      table_keepsShape _ _ _ (n := 3) (by decide) ⟨_, rfl, by rfl⟩ fun _ _ => rfl]
    simp only [keepsShape_paragraphs, keepsShape_nil, inert_warningRow, true_and, and_true]

theorem keepsShape_attentionBlocks (report : DestroyerReport) :
    KeepsShape (attentionBlocks report) := by
  unfold attentionBlocks
  by_cases hnone : failures report = []
  · rw [if_pos hnone]
    exact keepsShape_nil
  · rw [if_neg hnone]
    dsimp only
    rw [keepsShape_append, keepsShape_append, keepsShape_cons,
      table_keepsShape _ _ _ (n := 3) (by decide) ⟨_, rfl, by rfl⟩ fun _ _ => rfl]
    exact ⟨⟨keepsShape_paragraphs _, fun failureClass hclass =>
      inert_classRow (List.mem_of_mem_filter hclass) _, keepsShape_nil⟩, keepsShape_paragraphs _⟩

/-- An error is shown in lines. -/
theorem keepsShape_errorDetails {summary : String} {error : Json} {blocks : List Block}
    (h : errorDetails summary error = .ok blocks) : KeepsShape blocks := by
  cases error with
  | str text => exact Except.ok.inj h ▸ keepsShape_paragraphs _
  | _ => cases h

theorem keepsShape_failureEvidence {letters : Letters} {run : DestroyerReportRun}
    {failure : DestroyerReportEntry} {blocks : List Block}
    (h : failureEvidence letters run failure = .ok blocks) : KeepsShape blocks := by
  cases herror : failure.error <;> cases hcleanup : failure.cleanupError <;>
    simp only [failureEvidence, herror, hcleanup, bind_eq, bind_eq_ok, pure_eq, Except.ok.injEq,
      exists_eq_left'] at h
  · rw [← h, keepsShape_append, keepsShape_append]
    exact ⟨⟨keepsShape_paragraphs _, keepsShape_paragraphs _⟩, keepsShape_nil⟩
  · obtain ⟨cleanup, hdetails, rfl⟩ := h
    rw [keepsShape_append, keepsShape_append]
    exact ⟨⟨keepsShape_paragraphs _, keepsShape_paragraphs _⟩, keepsShape_errorDetails hdetails⟩
  · obtain ⟨error, hdetails, rfl⟩ := h
    rw [keepsShape_append, keepsShape_append]
    exact ⟨⟨keepsShape_paragraphs _, keepsShape_errorDetails hdetails⟩, keepsShape_nil⟩
  · obtain ⟨error, hdetails, cleanup, hcleanup, rfl⟩ := h
    rw [keepsShape_append, keepsShape_append]
    exact ⟨⟨keepsShape_paragraphs _, keepsShape_errorDetails hdetails⟩,
      keepsShape_errorDetails hcleanup⟩

theorem keepsShape_signalBlocks (letters : Letters) (report : DestroyerReport) :
    KeepsShape (signalBlocks letters report) ↔
      ∀ observation ∈ firstOfCode ((capturedFailures report).flatMap fun failure =>
        failure.analysis.observations), CellSafe observation.message.toList := by
  rw [← forall_aggregateObservations letters, signalBlocks]
  split_ifs with hnone
  · exact iff_of_true keepsShape_nil (by simp [hnone])
  · rw [keepsShape_append, keepsShape_cons,
      table_keepsShape _ _ _ (n := 3) (by decide) ⟨_, rfl, by rfl⟩ fun _ _ => rfl]
    simp only [keepsShape_paragraphs, keepsShape_nil, inert_observationRow, true_and, and_true]

theorem keepsShape_evidenceBlocks {letters : Letters} {report : DestroyerReport}
    {blocks : List Block} (h : evidenceBlocks letters report = .ok blocks) :
    KeepsShape blocks ↔
      ∀ observation ∈ firstOfCode ((capturedFailures report).flatMap fun failure =>
        failure.analysis.observations), CellSafe observation.message.toList := by
  unfold evidenceBlocks at h
  split_ifs at h with hnone
  · rw [← Except.ok.inj h]
    exact iff_of_true keepsShape_nil (by simp [hnone, firstOfCode])
  · simp only [bind_eq, bind_eq_ok, pure_eq, Except.ok.injEq] at h
    obtain ⟨evidence, hevidence, rfl⟩ := h
    have hlines : KeepsShape evidence.flatten := by
      intro block hblock
      obtain ⟨lines, hmem, hblock⟩ := List.mem_flatten.mp hblock
      obtain ⟨failure, -, hfailure⟩ := exists_of_mapM hevidence hmem
      exact keepsShape_failureEvidence hfailure block hblock
    rw [keepsShape_append, keepsShape_append, keepsShape_signalBlocks]
    simp only [keepsShape_paragraphs, hlines, and_true]

theorem keepsShape_resultBlocks (report : DestroyerReport) :
    KeepsShape (resultBlocks report) ↔ ∀ result ∈ report.results,
      Inert (classificationLabel "-" result.failureClassification).toList ∧
        ∀ text ∈ evidenceTexts report.run result, Inert text.toList := by
  rw [resultBlocks, keepsShape_append, keepsShape_cons,
    table_keepsShape _ _ _ (n := 6) (by decide) ⟨_, rfl, by rfl⟩ fun _ _ => rfl]
  simp only [keepsShape_paragraphs, keepsShape_nil, inert_resultRow, true_and, and_true]

/-- **The tables of a report keep their shape** iff the texts in its cells have no escaped pipe and
no lone carriage return, and the texts that are shown as they are have no unescaped pipe and no
line end. -/
theorem report_keepsShape_iff (letters : Letters) (report : DestroyerReport) {blocks : List Block}
    (h : reportBlocks letters report = .ok blocks) :
    KeepsShape blocks ↔ (∀ text ∈ cellTexts report, CellSafe text.toList) ∧
      ∀ text ∈ rawTexts report, Inert text.toList := by
  simp only [reportBlocks, bind_eq, bind_eq_ok, pure_eq, Except.ok.injEq] at h
  obtain ⟨evidence, hevidence, rfl⟩ := h
  simp only [keepsShape_append, keepsShape_outcomeBlocks, keepsShape_operationalGuidanceBlocks,
    keepsShape_warningBlocks, keepsShape_attentionBlocks, keepsShape_evidenceBlocks hevidence,
    keepsShape_resultBlocks, cellTexts, rawTexts, List.forall_mem_append, List.forall_mem_flatMap,
    List.forall_mem_cons, List.forall_mem_map, List.not_mem_nil, false_imp_iff, implies_true,
    and_true, forall_and, and_assoc]

/-! A scenario that passed, with a pipe in a warning. -/

/-- A host that knows the letters of ASCII. -/
def asciiLetters : Letters where
  localeCompare := compare
  lower := String.toLower
  upper c := [c.toUpper]
  upper_ascii _ _ := rfl
  upper_other c hc := by
    refine ⟨List.cons_ne_nil _ _, fun d hd => .inr ?_⟩
    have hupper : c.toUpper = c := by
      unfold Char.toUpper
      split_ifs with h
      · have hle : c.toNat ≤ 122 := UInt32.le_iff_toNat_le.mp h.2
        omega
      · rfl
    rw [List.mem_singleton.mp hd, hupper]
    exact hc

def passedEntry (runId : String) : DestroyerReportEntry where
  scenario := .soak
  verdict := .passed
  durationMs := some (.fin 1)
  workloadDurationMs := none
  failureClassification := none
  cleanupState := some .removed
  runId := some runId
  project := some "project"
  analysis := { emptyAnalysis none "no evidence" with warnings := [⟨"a|b", "message", none⟩] }
  error := none
  cleanupError := none

def passedReport (runId : String) : DestroyerReport where
  generatedAt := "now"
  verdict := .passed
  analysisResult := "success"
  matrixResult := "success"
  run := ⟨none, none, none, none, none⟩
  totals := ⟨1, 1, 1, 0, 0⟩
  failureClasses := failureClassOrder.map fun key => (key, some 0)
  cleanup := ⟨1, 0, 0, 0⟩
  timing := ⟨.fin 1, some (.soak, .fin 1)⟩
  results := [passedEntry runId]

/-- A pipe is escaped in a warning. -/
theorem passedReport_keepsShape : ∃ blocks,
    reportBlocks asciiLetters (passedReport "run") = .ok blocks ∧ KeepsShape blocks := by
  refine ⟨_, rfl, (report_keepsShape_iff asciiLetters (passedReport "run") rfl).mpr ⟨?_, ?_⟩⟩
  · have hsafe : ∀ text ∈ cellTexts (passedReport "run"),
        escapedPipes text.toList = 0 ∧ '\r' ∉ text.toList := by decide
    exact fun text htext => ⟨(hsafe text htext).1, fun rest hrest =>
      absurd (hrest.subset List.mem_cons_self) (hsafe text htext).2⟩
  · have hraw : rawTexts (passedReport "run") = ["-", "run"] := rfl
    simp only [hraw, List.forall_mem_cons]
    exact ⟨(plainText rfl).inert, (plainText rfl).inert, fun _ h => absurd h List.not_mem_nil⟩

/-- **The identifier of a run** is not escaped: a pipe in it ends a cell. -/
theorem not_keepsShape_runId : ¬∀ letters report blocks,
    reportBlocks letters report = .ok blocks → KeepsShape blocks := by
  intro h
  have hshape := h asciiLetters (passedReport "a|b") _ rfl
  have hresults := (keepsShape_resultBlocks _).mp ((keepsShape_append _ _).mp hshape).2
  have hpipes := ((hresults _ List.mem_cons_self).2 "a|b" (by decide)).pipes
  revert hpipes
  decide

end Report

end FitzDestroyer
