import FitzDestroyer.Js.NumberText
import FitzDestroyer.Js.Rounding
import FitzDestroyer.Pressure.Rating
import FitzDestroyer.Scenario.Run

/-!
# The report of a suite

`buildDestroyerReport` (`src/report.ts`) puts the summaries of the scenarios into one report.  The
summaries are JSON objects that `isScenarioResult` (`src/report-cli.ts`) has accepted.

* `ScenarioSummary` : an accepted object, with the analysis of its artifacts;
* `DestroyerReportEntry`, `DestroyerReport` : the report;
* `countClass`, `countCleanup`, `addDuration` : the three tallies;
* `buildDestroyerReport` : the report of some summaries.
-/

namespace FitzDestroyer

namespace Report

open Js Workload Scenario Pressure.Guidance

/-! ### Analysis of artifacts -/

structure ReportObservation where
  code : String
  message : String
  occurrences : ℕ
  files : List String

structure ReportWarning where
  code : String
  message : String
  details : Option Record

structure ScenarioReportAnalysis where
  observations : List ReportObservation
  warnings : List ReportWarning
  brokerSummary : Option (List (String × Option Number))
  operationalGuidance : OperationalGuidance

def emptyAnalysis (workloadDurationMs : Option Number) (reason : String) :
    ScenarioReportAnalysis where
  observations := []
  warnings := []
  brokerSummary := none
  operationalGuidance := emptyGuidance workloadDurationMs reason

/-! ### Summaries -/

/-- `typeof record[name] === "string"`. -/
def isText (record : Record) (name : String) : Bool :=
  ((field record name).bind Json.text?).isSome

/-- The record has one of the texts. -/
def isOneOf (record : Record) (name : String) (texts : List String) : Bool :=
  texts.any fun text => (field record name).bind Json.text? = some text

/-- The number of a value. -/
def number? : Json → Option Number
  | .num x => some x
  | _ => none

def isScenarioResult : Json → Bool
  | .obj record =>
    isText record "scenario" && isOneOf record "verdict" ["passed", "failed"] &&
      ((field record "durationMs").bind number?).isSome && isText record "runId" &&
      isText record "project" && isText record "artifactPath" &&
      isOneOf record "cleanupState" ["removed", "preserved", "failed"]
  | _ => false

/-- A summary that has been parsed and accepted.  `report-cli.ts` adds the analysis. -/
structure ScenarioSummary where
  fields : Record
  accepted : isScenarioResult (.obj fields) = true
  /-- No literal of JSON is `NaN`. -/
  parsed : (field fields "durationMs").bind number? ≠ some .nan
  reportAnalysis : ScenarioReportAnalysis

namespace ScenarioSummary

variable (s : ScenarioSummary)

/-- `summary[name]`, a text. -/
def text (name : String) : String := ((field s.fields name).bind Json.text?).getD ""

def verdict : Scenario.Verdict := if s.text "verdict" = "passed" then .passed else .failed

def durationMs : Number := ((field s.fields "durationMs").bind number?).getD .nan

def cleanupState : CleanupState :=
  if s.text "cleanupState" = "removed" then .removed
  else if s.text "cleanupState" = "preserved" then .preserved
  else .failed

/-- `summary.failureClassification`, which is not checked. -/
def failureClassification : Option Json := field s.fields "failureClassification"

end ScenarioSummary

/-! ### Reports -/

inductive ReportVerdict where
  | passed
  | failed
  | missing
  deriving DecidableEq, Repr

/-- What a report says about a scenario.  A value of the summary that is not checked is kept as it
is: `undefined` is `none`. -/
structure DestroyerReportEntry where
  scenario : ConcreteScenario
  verdict : ReportVerdict
  durationMs : Option Number
  workloadDurationMs : Option Json
  failureClassification : Option Json
  cleanupState : Option CleanupState
  runId : Option String
  project : Option String
  analysis : ScenarioReportAnalysis
  error : Option Json
  cleanupError : Option Json

structure DestroyerReportRun where
  repository : Option String
  commitSha : Option String
  refName : Option String
  url : Option String
  attempt : Option String

structure Totals where
  expected : ℕ
  reported : ℕ
  passed : ℕ
  failed : ℕ
  missing : ℕ

structure CleanupCounts where
  removed : ℕ
  preserved : ℕ
  failed : ℕ
  unknown : ℕ

/-- The sum of the counts. -/
def CleanupCounts.total (cleanup : CleanupCounts) : ℕ :=
  cleanup.removed + cleanup.preserved + cleanup.failed + cleanup.unknown

structure Timing where
  recordedTotalMs : Number
  slowest : Option (ConcreteScenario × Number)

structure DestroyerReport where
  generatedAt : String
  verdict : Scenario.Verdict
  analysisResult : String
  matrixResult : String
  run : DestroyerReportRun
  totals : Totals
  failureClasses : Dict (Option ℕ)
  cleanup : CleanupCounts
  timing : Timing
  results : List DestroyerReportEntry

/-! ### Entries -/

/-- `result.scenario === scenario`. -/
def matching (results : List ScenarioSummary) (scenario : ConcreteScenario) :
    List ScenarioSummary := results.filter fun result => result.text "scenario" = scenario.name

/-- The entry of a scenario with one summary. -/
def summaryEntry (scenario : ConcreteScenario) (result : ScenarioSummary) :
    DestroyerReportEntry where
  scenario
  verdict := match result.verdict with
    | .passed => .passed
    | .failed => .failed
  durationMs := some result.durationMs
  workloadDurationMs :=
    match result.reportAnalysis.operationalGuidance.workloadDurationMs with
    | some x => some (.num x)
    | none => match field result.fields "workloadDurationMs" with
      | some .null => none
      | value => value
  failureClassification := result.failureClassification
  cleanupState := some result.cleanupState
  runId := some (result.text "runId")
  project := some (result.text "project")
  analysis := result.reportAnalysis
  error := field result.fields "error"
  cleanupError := field result.fields "cleanupError"

/-- The entry of a scenario without a summary, or with several. -/
def emptyEntry (scenario : ConcreteScenario) (verdict : ReportVerdict)
    (failureClassification reason error : String) : DestroyerReportEntry where
  scenario
  verdict
  durationMs := none
  workloadDurationMs := none
  failureClassification := some (.str failureClassification)
  cleanupState := none
  runId := none
  project := none
  analysis := emptyAnalysis none reason
  error := some (.str error)
  cleanupError := none

def reportEntry (results : List ScenarioSummary) (scenario : ConcreteScenario) :
    DestroyerReportEntry :=
  match matching results scenario with
  | [] => emptyEntry scenario .missing "missing"
      "Scenario artifact did not contain a structured summary."
      "Scenario artifact did not contain a structured summary"
  | [result] => summaryEntry scenario result
  | results => emptyEntry scenario .failed "setup"
      "Duplicate scenario summaries prevented operational extraction."
      s!"Expected one scenario summary, found {results.length}"

/-! ### Tallies -/

/-- `failureClassOrder`, the classes that a report declares. -/
def failureClassOrder : List String :=
  ["setup", "workload", "assertion", "timeout", "cleanup", "missing"]

/-- The key of `failureClasses` that a classification counts for; `null` is left out. -/
def classKey : Option Json → Option String
  | none => some "undefined"
  | some .null => none
  | some value => some value.asText

/-- `failureClasses[key] += 1`.  What is read for a key that is not declared is no number, so that
the sum is none either.  `__proto__` is no key of its own, and is not set to a value that is no
object. -/
def countClass (classes : Dict (Option ℕ)) (key : String) : Dict (Option ℕ) :=
  if key = "__proto__" then classes
  else Dict.set classes key ((Dict.get? classes key).getD none |>.map (· + 1))

/-- `cleanup[state ?? "unknown"] += 1`. -/
def countCleanup (cleanup : CleanupCounts) : Option CleanupState → CleanupCounts
  | some .removed => { cleanup with removed := cleanup.removed + 1 }
  | some .preserved => { cleanup with preserved := cleanup.preserved + 1 }
  | some .failed => { cleanup with failed := cleanup.failed + 1 }
  | none => { cleanup with unknown := cleanup.unknown + 1 }

def addDuration (timing : Timing) (scenario : ConcreteScenario) (durationMs : Number) :
    Timing where
  recordedTotalMs := timing.recordedTotalMs.add durationMs
  slowest := match timing.slowest with
    | none => some (scenario, durationMs)
    | some slowest =>
      if durationMs.greater slowest.2 then some (scenario, durationMs) else some slowest

structure Tallies where
  failureClasses : Dict (Option ℕ)
  cleanup : CleanupCounts
  timing : Timing

/-- The loop over the entries. -/
def tally (t : Tallies) (entry : DestroyerReportEntry) : Tallies where
  failureClasses :=
    if entry.verdict = .passed then t.failureClasses
    else match classKey entry.failureClassification with
      | none => t.failureClasses
      | some key => countClass t.failureClasses key
  cleanup := countCleanup t.cleanup entry.cleanupState
  timing := match entry.durationMs with
    | none => t.timing
    | some durationMs => addDuration t.timing entry.scenario durationMs

def emptyTallies : Tallies where
  failureClasses := failureClassOrder.map fun key => (key, some 0)
  cleanup := ⟨0, 0, 0, 0⟩
  timing := ⟨.fin 0, none⟩

/-! ### The report -/

def normalized (value : Option String) : Option String :=
  (value.map fun text => String.ofList (trim text.toList)).filter fun text => text ≠ ""

/-- The entries of a verdict. -/
def countVerdict (results : List DestroyerReportEntry) (verdict : ReportVerdict) : ℕ :=
  results.countP fun entry => entry.verdict = verdict

def buildDestroyerReport (expectedScenarios : List ConcreteScenario)
    (scenarioResults : List ScenarioSummary) (analysisResult matrixResult generatedAt : String)
    (run : DestroyerReportRun) : DestroyerReport :=
  let results := expectedScenarios.map (reportEntry scenarioResults)
  let passed := countVerdict results .passed
  let failed := countVerdict results .failed
  let missing := countVerdict results .missing
  let tallies := results.foldl tally emptyTallies
  { generatedAt
    verdict :=
      if analysisResult = "success" ∧ matrixResult = "success" ∧ failed = 0 ∧ missing = 0 then
        .passed
      else .failed
    analysisResult
    matrixResult
    run := ⟨normalized run.repository, normalized run.commitSha, normalized run.refName,
      normalized run.url, normalized run.attempt⟩
    totals := ⟨expectedScenarios.length, scenarioResults.length, passed, failed, missing⟩
    failureClasses := tallies.failureClasses
    cleanup := tallies.cleanup
    timing := tallies.timing
    results }

end Report

end FitzDestroyer
