import FitzDestroyer.Js.Division
import FitzDestroyer.Report.Build
import FitzDestroyer.Report.Diagnostic

/-!
# The text of a report

`renderDestroyerReport` (`src/report.ts`) writes a report as Markdown.  A table is kept apart from
the lines around it.

* `Letters` : what the host knows about characters;
* `tableCell`, `tableRow` : the cells of a table;
* `operationalGuidanceBlocks`, `evidenceLabel`, `failureBlocks` : the parts of the text;
* `reportBlocks`, `renderDestroyerReport` : the text.
-/

namespace FitzDestroyer

namespace Report

open Js Workload Scenario Pressure.Guidance

/-! ### Characters -/

/-- The collation of a host, and its letters in the other case. -/
structure Letters where
  localeCompare : String → String → Ordering
  lower : String → String
  upper : Char → List Char
  upper_ascii : ∀ c : Char, c.toNat < 128 → upper c = [c.toUpper]
  /-- Another character becomes letters of ASCII or other characters, at least one. -/
  upper_other : ∀ c : Char, 128 ≤ c.toNat →
    upper c ≠ [] ∧ ∀ d ∈ upper c, d.isAlpha = true ∨ 128 ≤ d.toNat

/-- `text.toUpperCase()`. -/
def Letters.toUpperCase (letters : Letters) (text : String) : String :=
  String.ofList (text.toList.flatMap letters.upper)

/-! ### Blocks -/

/-- A line, or a table. -/
inductive Block where
  | line (text : String)
  | table (header delimiter : String) (rows : List String)

def Block.lines : Block → List String
  | line text => [text]
  | table header delimiter rows => header :: delimiter :: rows

/-- Lines outside of a table. -/
def paragraphs (texts : List String) : List Block := texts.map .line

/-- `| ${cell} | .. |`. -/
def tableRow (cells : List String) : String := "| " ++ " | ".intercalate cells ++ " |"

/-! ### Texts -/

/-- `/\r?\n/`. -/
def newline? (text : List Char) : Option ℕ :=
  if text.head? = some '\n' then some 1
  else if text.head? = some '\r' ∧ text.tail.head? = some '\n' then some 2
  else none

def tableCell (value : String) : String :=
  String.ofList (replaceAll newline? [' '] (replaceChar id '|' "\\|" value.toList))

def counted (count : ℕ) (noun : String) : String :=
  let plural := if count = 1 then "" else "s"
  s!"{count} {noun}{plural}"

def sentenceList (values : List String) : String :=
  match values with
  | [] => "an unspecified report signal failed"
  | [value] => value
  | [first, second] => s!"{first} and {second}"
  | values =>
    let start := ", ".intercalate values.dropLast
    let last := values.getLastD ""
    s!"{start}, and {last}"

def durationLabel (durationMs : Option Number) : String :=
  match durationMs with
  | none => "-"
  | some durationMs =>
    let totalSeconds := durationMs.div (1000 : ℕ)
    if Number.greater (60000 : ℕ) durationMs then
      let seconds := toFixed 1 totalSeconds
      s!"{seconds} s"
    else
      let hours := (totalSeconds.div (3600 : ℕ)).floor
      let minutes := numberText ((remainder totalSeconds 3600).div (60 : ℕ)).floor
      let seconds := toFixed 1 (remainder totalSeconds 60)
      if hours.greater (0 : ℕ) then
        let hours := numberText hours
        s!"{hours}h {minutes}m {seconds}s"
      else s!"{minutes}m {seconds}s"

def milliseconds (value : Number) : String :=
  let fixed := toFixed 2 value
  s!"{fixed} ms"

def verdictLabel : ReportVerdict → String
  | .passed => "✅ PASS"
  | .failed => "❌ FAIL"
  | .missing => "⚠️ MISSING"

def outcomeLabel (letters : Letters) (outcome : String) : String :=
  if outcome = "success" then "✅ PASS"
  else if outcome = "failure" then "❌ FAIL"
  else "⚠️ " ++ letters.toUpperCase (tableCell outcome)

/-- `result.cleanupState ?? missing`. -/
def cleanupLabel (missing : String) : Option CleanupState → String
  | some .removed => "removed"
  | some .preserved => "preserved"
  | some .failed => "failed"
  | none => missing

/-- `${result.failureClassification ?? missing}`. -/
def classificationLabel (missing : String) : Option Json → String
  | none | some .null => missing
  | some value => value.asText

/-! ### Summaries -/

def failures (report : DestroyerReport) : List DestroyerReportEntry :=
  report.results.filter fun result => result.verdict ≠ .passed

def verdictSummary (report : DestroyerReport) : String :=
  match report.verdict with
  | .passed =>
    s!"All {report.totals.expected} scenarios passed and the repository checks completed " ++
      "successfully."
  | .failed =>
    let failed := counted report.totals.failed "scenario"
    let missing := counted report.totals.missing "scenario summary artifact"
    let verb := if report.totals.missing = 1 then "was" else "were"
    let reasons := sentenceList (
      (if 0 < report.totals.failed then [s!"{failed} failed"] else []) ++
      (if 0 < report.totals.missing then [s!"{missing} {verb} missing"] else []) ++
      (if report.analysisResult = "success" then []
        else [s!"repository checks reported {report.analysisResult}"]) ++
      if report.matrixResult = "success" then []
        else [s!"the scenario matrix reported {report.matrixResult}"])
    s!"The Destroyer verdict failed because {reasons}."

/-- `/\/actions\/runs\/.*$/`, where `.` is no line end. -/
def runsPath? (text : List Char) : Option ℕ :=
  if "/actions/runs/".toList.isPrefixOf text ∧
      text.all fun c => c ≠ '\n' ∧ c ≠ '\r' ∧ c.toNat ≠ 0x2028 ∧ c.toNat ≠ 0x2029 then
    some text.length
  else none

def runSummary (report : DestroyerReport) : String :=
  let run := report.run
  let commit := run.commitSha.map fun commitSha =>
    let shortSha := sliceStart 7 commitSha
    match run.url with
    | none => s!"commit `{shortSha}`"
    | some url =>
      let repositoryUrl := String.ofList (replaceAll runsPath? [] url.toList)
      s!"commit [`{shortSha}`]({repositoryUrl}/commit/{commitSha})"
  let context := " · ".intercalate ([s!"Generated {report.generatedAt}"] ++
    (run.url.map fun url => s!"[workflow run]({url})").toList ++
    (run.repository.map fun repository => s!"repository `{repository}`").toList ++
    (run.refName.map fun refName => s!"ref `{refName}`").toList ++
    commit.toList ++
    (run.attempt.map fun attempt => s!"attempt {attempt}").toList)
  s!"{context}."

def timingSummary (report : DestroyerReport) : String :=
  match report.timing.slowest with
  | none => "No scenario duration data was available."
  | some (slowestScenario, slowestDurationMs) =>
    let total := durationLabel (some report.timing.recordedTotalMs)
    let slowest := durationLabel (some slowestDurationMs)
    s!"Recorded scenario runtime was {total} across parallel jobs; the slowest scenario was " ++
      s!"`{slowestScenario.name}` at {slowest}. Timings are diagnostic, not correctness gates."

/-! ### Operational guidance -/

def headlineMetric (guidance : OperationalGuidance) : String :=
  let rates := (guidance.rates.take 2).map fun metric =>
    tableCell metric.label ++ " " ++ toFixed 2 metric.valuePerSecond ++ " " ++
      tableCell metric.unit
  if rates ≠ [] then "<br>".intercalate rates
  else match guidance.counts.head?, guidance.recoveries.head? with
    | some count, _ => tableCell count.label ++ " " ++ numberText (.fin count.value) ++ " " ++
        tableCell count.unit
    | none, some recovery =>
      tableCell recovery.label ++ " " ++ durationLabel (some recovery.durationMs)
    | none, none => "not available"

/-- The semantics that are shown. -/
def completionLabels (guidance : OperationalGuidance) : List String :=
  ((guidance.completionSemantics.map CompletionSemantics.label).eraseDups).take 2

def completionLabel (guidance : OperationalGuidance) : String :=
  let values := completionLabels guidance
  if values = [] then "not available" else "<br>".intercalate (values.map tableCell)

def ratingLabel : GuidanceRating → String
  | .clear => "clear"
  | .watch => "watch"
  | .constrained => "constrained"
  | .notRated => "not rated"

def guidanceLabel (guidance : OperationalGuidance) : String :=
  ratingLabel guidance.rating.value ++ " — " ++
    "<br>".intercalate (guidance.rating.reasons.map tableCell)

def guidanceRow (result : DestroyerReportEntry) : List String :=
  let guidance := result.analysis.operationalGuidance
  [result.scenario.name, durationLabel guidance.workloadDurationMs, headlineMetric guidance,
    completionLabel guidance, guidanceLabel guidance]

def domainRow (domain : PressureDomainSummary) : List String :=
  [domain.domain.name, tableCell domain.completionSemantics, toString domain.completedOperations,
    toFixed 2 domain.observedOperationsPerSecond, toString domain.errors,
    toString domain.ambiguousOutcomes, toString domain.expectedCancellations,
    tableCell domain.slowestStage]

def stageRow (domain : PressureDomainSummary) (stage : PressureStageSummary) : List String :=
  [domain.domain.name, tableCell stage.stage, milliseconds stage.latency.meanMs,
    milliseconds stage.latency.p50Ms, milliseconds stage.latency.p95Ms,
    milliseconds stage.latency.p99Ms, milliseconds stage.latency.maxMs]

def pressureDetailBlocks (result : DestroyerReportEntry) : List Block :=
  let guidance := result.analysis.operationalGuidance
  if guidance.pressureDomains = [] then []
  else
    paragraphs ["", s!"### {result.scenario.name} pressure detail", "",
      "Guidance: " ++ guidanceLabel guidance ++ ".", ""] ++
    [.table
      ("| Domain | Completion semantics | Completed operations | Observed ops/s | Errors | " ++
        "Ambiguous | Shutdown cancellations | Slowest stage |")
      "| --- | --- | ---: | ---: | ---: | ---: | ---: | --- |"
      (guidance.pressureDomains.map fun domain => tableRow (domainRow domain)),
    .line "",
    .table "| Domain | Stage | Mean | p50 | p95 | p99 | Max |"
      "| --- | --- | ---: | ---: | ---: | ---: | ---: |"
      (guidance.pressureDomains.flatMap fun domain =>
        domain.stages.map fun stage => tableRow (stageRow domain stage))]

def operationalGuidanceBlocks (report : DestroyerReport) : List Block :=
  paragraphs ["## Operational guidance", "",
    "Observed rates describe this run only; they are not capacity claims or correctness gates. " ++
      "`cntryl-stress` remains Fitz's authoritative benchmark suite.", ""] ++
  .table "| Scenario | Workload duration | Headline metric | Completion semantics | Guidance |"
    "| --- | ---: | --- | --- | --- |"
    (report.results.map fun result => tableRow (guidanceRow result)) ::
  report.results.flatMap pressureDetailBlocks

/-! ### Evidence -/

structure AggregatedObservation where
  code : String
  message : String
  occurrences : ℕ
  scenarios : List ConcreteScenario

/-- An observation of a scenario, counted for its code. -/
def countObservation (scenario : ConcreteScenario)
    (observations : JsMap String AggregatedObservation) (observation : ReportObservation) :
    JsMap String AggregatedObservation :=
  observations.set observation.code <|
    match observations.get? observation.code with
    | none => ⟨observation.code, observation.message, observation.occurrences, [scenario]⟩
    | some current => { current with
        occurrences := current.occurrences + observation.occurrences
        scenarios := current.scenarios ++ [scenario] }

/-- The order of observations: more scenarios first, then more occurrences. -/
def Letters.before (letters : Letters) (left right : AggregatedObservation) : Bool :=
  if left.scenarios.length ≠ right.scenarios.length then
    right.scenarios.length < left.scenarios.length
  else if left.occurrences ≠ right.occurrences then right.occurrences < left.occurrences
  else (letters.localeCompare left.code right.code).isLE

def aggregateObservations (letters : Letters) (failures : List DestroyerReportEntry) :
    List AggregatedObservation :=
  let observations := failures.foldl (fun observations failure =>
    failure.analysis.observations.foldl (countObservation failure.scenario) observations)
    JsMap.empty
  (observations.entries.map Prod.snd).mergeSort letters.before

def evidenceLabel (result : DestroyerReportEntry) (run : DestroyerReportRun) : String :=
  let artifact := run.attempt.map fun attempt =>
    let artifactName := "scenario-" ++ result.scenario.name ++ "-" ++ attempt
    match run.url with
    | none => "`" ++ artifactName ++ "`"
    | some url => "[`" ++ artifactName ++ "`](" ++ url ++ ")"
  let runId := result.runId.map fun runId =>
    "<code>" ++ String.ofList (escapeHtml id runId.toList) ++ "</code>"
  match artifact, runId with
  | some artifact, some runId => artifact ++ "<br>" ++ runId
  | some artifact, none => artifact
  | none, some runId => runId
  | none, none => "not available"

def warningDetails (warning : ReportWarning) : String :=
  match warning.details with
  | none => "-"
  | some details =>
    "<code>" ++ tableCell (String.ofList (escapeHtml id (Json.obj details).stringify.toList)) ++
      "</code>"

/-- `/([a-z0-9])([A-Z])/g` with a space between the two. -/
def spaceWords : List Char → List Char
  | first :: second :: cs =>
    if (first.isLower || first.isDigit) && second.isUpper then
      first :: ' ' :: second :: spaceWords cs
    else first :: spaceWords (second :: cs)
  | cs => cs

def humanize (letters : Letters) (value : String) : String :=
  letters.lower (String.ofList (spaceWords value.toList))

def brokerSummaryLabel (letters : Letters) (summary : List (String × Option Number)) : String :=
  let fields := (Dict.entries summary).map fun p =>
    humanize letters p.1 ++ "=" ++ (p.2.map numberText).getD "unknown"
  if fields = [] then "not available" else ", ".intercalate fields

/-! ### Failures -/

/-- `` `text` `` -/
def code (text : String) : String := "`" ++ text ++ "`"

/-- `value.replace` of a value that is no text. -/
def notReplaceable (value : Json) : Thrown :=
  match value with
  | .null => .error "TypeError" "Cannot read properties of null (reading 'replace')" none
  | _ => .error "TypeError" "value.replace is not a function" none

/-- An error, folded away. -/
def errorDetails (summary : String) (error : Json) : Except Thrown (List Block) :=
  match error with
  | .str text => .ok <| paragraphs <| ["", "<details>", s!"<summary>{summary}</summary>", ""] ++
      (diagnosticQuote (units text)).map (fun line => String.ofList (ofUnits line)) ++
      ["", "</details>"]
  | value => .error (notReplaceable value)

/-- `Observed signals` of a failure. -/
def observationLine (observation : ReportObservation) : String :=
  let occurrences := counted observation.occurrences "occurrence"
  let files := ", ".intercalate (observation.files.map code)
  s!"  - {observation.message} — {occurrences} in {files}"

def failureEvidence (letters : Letters) (run : DestroyerReportRun)
    (failure : DestroyerReportEntry) : Except Thrown (List Block) := do
  let classification := classificationLabel "unclassified" failure.failureClassification
  let details := paragraphs <|
    ["", s!"### {failure.scenario.name} — {classification}", "",
      "- Verdict: " ++ verdictLabel failure.verdict,
      "- Duration: " ++ durationLabel failure.durationMs,
      "- Cleanup: " ++ cleanupLabel "unknown" failure.cleanupState,
      "- Evidence: " ++ evidenceLabel failure run] ++
    (failure.project.map fun project => "- Compose project: " ++ code project).toList ++
    (if failure.analysis.observations = [] then []
      else "- Observed signals:" :: failure.analysis.observations.map observationLine) ++
    (failure.analysis.brokerSummary.map fun summary =>
      "- Final broker summary: " ++ brokerSummaryLabel letters summary).toList
  let error ← match failure.error with
    | some error => errorDetails "Captured error" error
    | none => .ok (paragraphs ["", "> No error details were captured."])
  let cleanupError ← match failure.cleanupError with
    | some error => errorDetails "Cleanup error" error
    | none => .ok []
  return details ++ error ++ cleanupError

/-! ### The text -/

def totalsLabel (totals : Totals) : String :=
  s!"{totals.passed} passed, {totals.failed} failed, {totals.missing} missing"

def outcomeBlocks (letters : Letters) (report : DestroyerReport) : List Block :=
  paragraphs ["# Fitz Destroyer report", "",
    if report.verdict = .passed then "## ✅ Passed" else "## ❌ Failed", "",
    verdictSummary report, "", runSummary report, "", "## Outcome", ""] ++
  [.table "| Signal | Result | Detail |" "| --- | --- | --- |"
    [tableRow ["Repository checks", outcomeLabel letters report.analysisResult,
      tableCell report.analysisResult],
    tableRow ["Scenario matrix", outcomeLabel letters report.matrixResult,
      tableCell report.matrixResult],
    tableRow ["Scenario summaries", if failures report = [] then "✅ PASS" else "❌ FAIL",
      totalsLabel report.totals]]] ++
  paragraphs ["", timingSummary report, ""]

/-- The warnings, with their scenarios. -/
def warnings (report : DestroyerReport) : List (ConcreteScenario × ReportWarning) :=
  report.results.flatMap fun result =>
    result.analysis.warnings.map fun warning => (result.scenario, warning)

def warningRow (p : ConcreteScenario × ReportWarning) : List String :=
  [p.1.name, "**" ++ tableCell p.2.code ++ ":** " ++ tableCell p.2.message, warningDetails p.2]

def warningBlocks (report : DestroyerReport) : List Block :=
  if warnings report = [] then []
  else paragraphs ["", "## Diagnostic warnings", "",
      "These observations do not change the correctness verdict.", ""] ++
    [.table "| Scenario | Warning | Details |" "| --- | --- | --- |"
      ((warnings report).map fun p => tableRow (warningRow p))]

/-- The scenarios that failed with a class. -/
def classScenarios (report : DestroyerReport) (failureClass : String) : List ConcreteScenario :=
  ((failures report).filter fun result =>
    result.failureClassification.bind Json.text? = some failureClass).map
    DestroyerReportEntry.scenario

def classRow (failureClass : String) (scenarios : List ConcreteScenario) : List String :=
  [failureClass, toString scenarios.length,
    ", ".intercalate (scenarios.map fun scenario => code scenario.name)]

def attentionBlocks (report : DestroyerReport) : List Block :=
  if failures report = [] then []
  else
    let failed := counted report.cleanup.failed "scenario"
    let preserved := counted report.cleanup.preserved "failed scenario"
    paragraphs ["", "## What needs attention", ""] ++
    [.table "| Failure class | Count | Scenarios |" "| --- | ---: | --- |"
      ((failureClassOrder.filter fun failureClass => classScenarios report failureClass ≠ []).map
        fun failureClass => tableRow (classRow failureClass (classScenarios report failureClass)))]
    ++ paragraphs ((if 0 < report.cleanup.failed then
        ["", s!"> ⚠️ {failed} also reported cleanup failure."] else []) ++
      if 0 < report.cleanup.preserved then
        ["", s!"{preserved} preserved their exact Compose project state when the summary was " ++
          "captured."]
      else [])

def observationRow (observation : AggregatedObservation) : List String :=
  [tableCell observation.message, toString observation.occurrences,
    ", ".intercalate (observation.scenarios.map fun scenario => code scenario.name)]

/-- `failures` with a summary. -/
def capturedFailures (report : DestroyerReport) : List DestroyerReportEntry :=
  (failures report).filter fun result => result.verdict = .failed

def signalBlocks (letters : Letters) (report : DestroyerReport) : List Block :=
  let observations := aggregateObservations letters (capturedFailures report)
  if observations = [] then []
  else paragraphs ["", "## Evidence signals", "",
      "These are normalized observations from captured logs, not root-cause claims.", ""] ++
    [.table "| Observation | Occurrences | Scenarios |" "| --- | ---: | --- |"
      (observations.map fun observation => tableRow (observationRow observation))]

def evidenceBlocks (letters : Letters) (report : DestroyerReport) : Except Thrown (List Block) :=
  if capturedFailures report = [] then .ok []
  else do
    let evidence ← (capturedFailures report).mapM (failureEvidence letters report.run)
    return signalBlocks letters report ++ paragraphs ["", "## Failure evidence"] ++
      evidence.flatten

def resultRow (run : DestroyerReportRun) (result : DestroyerReportEntry) : List String :=
  [result.scenario.name, verdictLabel result.verdict, durationLabel result.durationMs,
    classificationLabel "-" result.failureClassification, cleanupLabel "-" result.cleanupState,
    evidenceLabel result run]

def resultBlocks (report : DestroyerReport) : List Block :=
  paragraphs ["", "## Scenario results", ""] ++
  [.table "| Scenario | Verdict | Duration | Failure class | Cleanup | Evidence |"
    "| --- | --- | ---: | --- | --- | --- |"
    (report.results.map fun result => tableRow (resultRow report.run result))]

/-- The lines and the tables of a report. -/
def reportBlocks (letters : Letters) (report : DestroyerReport) : Except Thrown (List Block) := do
  let evidence ← evidenceBlocks letters report
  return outcomeBlocks letters report ++ operationalGuidanceBlocks report ++
    warningBlocks report ++ attentionBlocks report ++ evidence ++ resultBlocks report

def renderDestroyerReport (letters : Letters) (report : DestroyerReport) :
    Except Thrown String := do
  let blocks ← reportBlocks letters report
  return "\n".intercalate (blocks.flatMap Block.lines) ++ "\n"

end Report

end FitzDestroyer
