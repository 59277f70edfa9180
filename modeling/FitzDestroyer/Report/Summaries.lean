import FitzDestroyer.Report.Consistency
import FitzDestroyer.Scenario.Project
import FitzDestroyer.Workload.JsonPretty

/-!
# The summaries of a report

`runScenario` writes the summary of a run to a file of its own; later `report-cli.ts` looks for
such files, and builds the report of those that it can read.

* `ScenarioResult.toRecord`, `SummaryFile` : what a run writes, of which a part may be lost;
* `findSummaries`, `loadScenarioResults` : what is found in a directory, and what is read;
* `report_passed_iff` : **a report passes iff every scenario has one whole summary, which has
  passed**.
-/

namespace FitzDestroyer

namespace Report

open Js Workload Scenario

/-! ### Files -/

/-- An entry of a directory.  A file that cannot be read has no contents. -/
inductive Entry where
  | file (name : String) (contents : Option (List Char))
  | directory (name : String) (entries : List Entry)

/-- A file `summary.json`. -/
structure Found where
  directory : String
  contents : Option (List Char)

def Found.path (f : Found) : String := f.directory ++ "/summary.json"

/-- `left <= right`, of the code units. -/
def codeUnitsLe (left right : String) : Bool :=
  decide ((units left).map UInt16.toNat ≤ (units right).map UInt16.toNat)

/-- `paths.sort()`. -/
def sortPaths (found : List Found) : List Found :=
  found.mergeSort fun f g => codeUnitsLe f.path g.path

mutual

/-- What `findSummaries` pushes for an entry. -/
def Entry.found (directory : String) : Entry → List Found
  | .file name contents => if name = "summary.json" then [⟨directory, contents⟩] else []
  | .directory name entries => sortPaths (foundIn (directory ++ "/" ++ name) entries)

def foundIn (directory : String) : List Entry → List Found
  | [] => []
  | entry :: entries => entry.found directory ++ foundIn directory entries

end

/-- `findSummaries(directory)`.  A directory that is missing has no summaries. -/
def findSummaries (directory : String) (entries : Option (List Entry)) : List Found :=
  sortPaths ((entries.map (foundIn directory)).getD [])

section

variable (analyze : String → Record → ScenarioReportAnalysis)

/-- The loop of `loadScenarioResults`.  `analyze` reads the other files of the directory. -/
def loadSummary (f : Found) : Option (Record × ScenarioReportAnalysis) :=
  match f.contents.bind parse with
  | some (.obj fields) =>
    if isScenarioResult (.obj fields) then some (fields, analyze f.directory fields) else none
  | _ => none

def loadScenarioResults (directory : String) (entries : Option (List Entry)) :
    List (Record × ScenarioReportAnalysis) :=
  (findSummaries directory entries).filterMap (loadSummary analyze)

end

/-! ### Summaries -/

def failureText : FailureClassification → String
  | .setup => "setup"
  | .workload => "workload"
  | .assertion => "assertion"
  | .timeout => "timeout"
  | .cleanup => "cleanup"

def cleanupText : CleanupState → String
  | .removed => "removed"
  | .preserved => "preserved"
  | .failed => "failed"

def verdictText : Scenario.Verdict → String
  | .passed => "passed"
  | .failed => "failed"

/-- `value ?? null`. -/
def orNull (value : Option Json) : Json := value.getD .null

/-- `{ name: value }`, or `{}`. -/
def optionalField (name : String) (value : Option String) : Record :=
  (value.map fun text => (name, .str text)).toList

/-- The object of a summary, in the order of `runScenario`. -/
def toRecord (result : ScenarioResult) : Record :=
  [("scenario", .str result.scenario.name), ("runId", .str result.runId),
    ("project", .str result.project), ("verdict", .str (verdictText result.verdict)),
    ("durationMs", .num (.fin result.durationMs)),
    ("workloadStartedAt", orNull (result.workloadStartedAt.map .str)),
    ("workloadCompletedAt", orNull (result.workloadCompletedAt.map .str)),
    ("workloadDurationMs", orNull (result.workloadDurationMs.map fun ms : ℤ => .num (.fin ms))),
    ("artifactPath", .str result.artifactPath),
    ("failureClassification",
      orNull (result.failureClassification.map fun failure => .str (failureText failure))),
    ("cleanupState", .str (cleanupText result.cleanupState))] ++
  (optionalField "error" result.error ++ optionalField "cleanupError" result.cleanupError ++
    optionalField "cleanupCommand" result.cleanupCommand)

/-- A duration in milliseconds, as a clock measures it. -/
def IsDuration (ms : ℤ) : Prop := 0 ≤ ms ∧ ms ≤ maxSafeInteger

/-- The file of a run, of which so many characters have been written. -/
structure SummaryFile where
  directory : String
  result : ScenarioResult
  written : ℕ
  duration : IsDuration result.durationMs
  workloadDuration : ∀ ms ∈ result.workloadDurationMs, IsDuration ms

namespace SummaryFile

variable (file : SummaryFile)

def found : Found :=
  ⟨file.directory, some ((writeJson (.obj (toRecord file.result))).take file.written)⟩

/-- At most the end of the last line is lost. -/
def Whole : Prop := ((Json.obj (toRecord file.result)).pretty 0).length ≤ file.written

instance : Decidable file.Whole := Nat.decLe _ _

/-- What is read of the file, if it is whole. -/
def loaded (analyze : String → Record → ScenarioReportAnalysis) :
    Record × ScenarioReportAnalysis :=
  (toRecord file.result, analyze file.directory (toRecord file.result))

end SummaryFile

/-! ### What is found -/

theorem sortPaths_perm (found : List Found) : (sortPaths found).Perm found :=
  List.mergeSort_perm _ _

mutual

/-- All summaries of a directory, in the order of its entries. -/
def Entry.summaries (directory : String) : Entry → List Found
  | .file name contents => if name = "summary.json" then [⟨directory, contents⟩] else []
  | .directory name entries => summariesIn (directory ++ "/" ++ name) entries

def summariesIn (directory : String) : List Entry → List Found
  | [] => []
  | entry :: entries => entry.summaries directory ++ summariesIn directory entries

end

/-- Induction over the entries below an entry. -/
theorem Entry.induct {motive : Entry → Prop} (file : ∀ name contents, motive (.file name contents))
    (directory : ∀ name entries, (∀ entry ∈ entries, motive entry) →
      motive (.directory name entries)) (entry : Entry) : motive entry := by
  induction h : sizeOf entry using Nat.strong_induction_on generalizing entry with
  | _ n ih =>
    subst h
    cases entry with
    | file name contents => exact file name contents
    | directory name entries =>
      refine directory name entries fun entry hentry => ih _ ?_ entry rfl
      have := List.sizeOf_lt_of_mem hentry
      rw [Entry.directory.sizeOf_spec]
      omega

theorem foundIn_perm {entries : List Entry}
    (h : ∀ entry ∈ entries, ∀ directory, (entry.found directory).Perm (entry.summaries directory))
    (directory : String) : (foundIn directory entries).Perm (summariesIn directory entries) := by
  induction entries with
  | nil => exact List.Perm.refl _
  | cons entry entries ih =>
    rw [List.forall_mem_cons] at h
    exact (h.1 directory).append (ih h.2)

theorem found_perm (entry : Entry) :
    ∀ directory, (entry.found directory).Perm (entry.summaries directory) := by
  induction entry using Entry.induct with
  | file name contents => exact fun _ => List.Perm.refl _
  | directory name entries ih =>
    exact fun directory => (sortPaths_perm _).trans (foundIn_perm ih _)

/-- **Every summary below a directory is found once.** -/
theorem findSummaries_perm (directory : String) (entries : List Entry) :
    (findSummaries directory (some entries)).Perm (summariesIn directory entries) :=
  (sortPaths_perm _).trans (foundIn_perm (fun entry _ => found_perm entry) directory)

/-! ### What is read -/

/-- The keys of a summary. -/
def summaryKeys : List String :=
  ["scenario", "runId", "project", "verdict", "durationMs", "workloadStartedAt",
    "workloadCompletedAt", "workloadDurationMs", "artifactPath", "failureClassification",
    "cleanupState", "error", "cleanupError", "cleanupCommand"]

theorem keys_optionalField (name : String) (value : Option String) :
    ((optionalField name value).map Prod.fst).Sublist [name] := by
  cases value with
  | none => exact List.nil_sublist _
  | some text => exact List.Sublist.refl _

theorem keys_toRecord (result : ScenarioResult) :
    ((toRecord result).map Prod.fst).Sublist summaryKeys := by
  rw [toRecord, List.map_append, List.map_append, List.map_append]
  exact (List.Sublist.refl (summaryKeys.take 11)).append
    (((keys_optionalField "error" _).append (keys_optionalField "cleanupError" _)).append
      (keys_optionalField "cleanupCommand" _))

theorem proper_optionalField (name : String) (value : Option String) :
    ∀ field ∈ optionalField name value, field.2.Proper := by
  cases value with
  | none => exact List.forall_mem_nil _
  | some text =>
    intro field hfield
    obtain rfl := List.mem_singleton.mp hfield
    trivial

theorem proper_orNull {α : Type*} {value : Option α} {toJson : α → Json}
    (h : ∀ a ∈ value, (toJson a).Proper) : (orNull (value.map toJson)).Proper := by
  cases value with
  | none => trivial
  | some a => exact h a rfl

theorem proper_duration {ms : ℤ} (h : IsDuration ms) : (Json.num (.fin ms)).Proper := by
  obtain ⟨n, rfl⟩ := Int.eq_ofNat_of_zero_le h.1
  have hle : n ≤ maxSafeInteger := by exact_mod_cast h.2
  have hdouble := isDouble_natCast hle
  rw [Json.Proper]
  exact_mod_cast hdouble

theorem SummaryFile.proper (file : SummaryFile) : (Json.obj (toRecord file.result)).Proper := by
  have hkeys := keys_toRecord file.result
  refine ⟨hkeys.nodup (by decide), Dict.entries_of_indexKey fun p hp => ?_, ?_⟩
  · have hnone : ∀ key ∈ summaryKeys, indexKey key = none := by decide
    exact hnone p.1 (hkeys.mem (List.mem_map_of_mem hp))
  · have hscenario : ∀ text, (Json.str text).Proper := fun _ => trivial
    rw [properFields_iff, toRecord]
    simp only [List.forall_mem_append, List.forall_mem_cons, hscenario, true_and]
    exact ⟨⟨proper_duration file.duration, proper_orNull fun _ _ => trivial,
      proper_orNull fun _ _ => trivial,
      proper_orNull fun ms hms => proper_duration (file.workloadDuration ms hms),
      proper_orNull fun _ _ => trivial, List.forall_mem_nil _⟩,
      ⟨proper_optionalField _ _, proper_optionalField _ _⟩, proper_optionalField _ _⟩

/-- A summary is accepted. -/
theorem isScenarioResult_toRecord (result : ScenarioResult) :
    isScenarioResult (.obj (toRecord result)) = true := by
  cases hverdict : result.verdict <;> cases hcleanup : result.cleanupState <;>
    simp [isScenarioResult, isText, isOneOf, toRecord, field, number?, verdictText, cleanupText,
      Json.text?, hverdict, hcleanup]

section

variable (analyze : String → Record → ScenarioReportAnalysis)

/-- **The file of a run** is read if it is whole. -/
theorem loadSummary_found (file : SummaryFile) : loadSummary analyze file.found =
    if file.Whole then some (file.loaded analyze) else none := by
  have hread : file.found.contents.bind parse =
      if file.Whole then some (.obj (toRecord file.result)) else none :=
    parse_writeJson_take file.proper file.written
  rw [loadSummary, hread]
  by_cases hwhole : file.Whole
  · simp only [if_pos hwhole, isScenarioResult_toRecord, if_true]
    rfl
  · simp only [if_neg hwhole]

/-- A file with something else in it. -/
def Foreign (f : Found) : Prop :=
  ∀ text ∈ f.contents, ∀ v ∈ parse text, isScenarioResult v = false

theorem loadSummary_foreign {f : Found} (h : Foreign f) : loadSummary analyze f = none := by
  rw [loadSummary]
  cases hv : f.contents.bind parse with
  | none => rfl
  | some v =>
    obtain ⟨text, htext, hparse⟩ := Option.bind_eq_some_iff.mp hv
    have hfalse := h text htext v hparse
    cases v with
    | obj fields => simp [hfalse]
    | _ => rfl

variable {analyze}

/-- **The summaries that are read** are those of the runs whose file is whole. -/
theorem loadScenarioResults_perm {directory : String} {entries : List Entry}
    {files : List SummaryFile} {others : List Found} (hothers : ∀ f ∈ others, Foreign f)
    (hfiles : (summariesIn directory entries).Perm (files.map SummaryFile.found ++ others)) :
    (loadScenarioResults analyze directory (some entries)).Perm
      ((files.filter fun file => file.Whole).map fun file => file.loaded analyze) := by
  have hfound := ((findSummaries_perm directory entries).trans hfiles).filterMap
    (loadSummary analyze)
  have hforeign : others.filterMap (loadSummary analyze) = [] :=
    List.filterMap_eq_nil_iff.mpr fun f hf => loadSummary_foreign analyze (hothers f hf)
  rw [List.filterMap_append, hforeign, List.append_nil, List.filterMap_map] at hfound
  refine hfound.trans (List.Perm.of_eq ?_)
  rw [← List.filterMap_eq_map, List.filterMap_filter]
  refine List.filterMap_congr fun file _ => ?_
  rw [Function.comp_apply, loadSummary_found]
  by_cases hwhole : file.Whole <;> simp [hwhole]

end

/-! ### The report -/

theorem scenario_name_injective : Function.Injective ConcreteScenario.name := fun _ _ h =>
  RunIdentity.scenario_eq_of_isPrefix_name (h ▸ List.prefix_refl _)

/-- Two lists with the same images have one element, or they have not. -/
theorem exists_singleton_iff {α β γ : Type*} {f : α → γ} {g : β → γ} {as : List α} {bs : List β}
    (h : (as.map f).Perm (bs.map g)) {p : α → Prop} {q : β → Prop}
    (hpq : ∀ a b, f a = g b → (p a ↔ q b)) :
    (∃ a, as = [a] ∧ p a) ↔ ∃ b, bs = [b] ∧ q b := by
  have hlength : as.length = bs.length := by simpa using h.length_eq
  constructor
  · rintro ⟨a, rfl, ha⟩
    obtain ⟨b, rfl⟩ := List.length_eq_one_iff.mp hlength.symm
    have heq := List.perm_singleton.mp h
    exact ⟨b, rfl, (hpq a b (List.cons.inj heq).1).mp ha⟩
  · rintro ⟨b, rfl, hb⟩
    obtain ⟨a, rfl⟩ := List.length_eq_one_iff.mp hlength
    have heq := List.perm_singleton.mp h
    exact ⟨a, rfl, (hpq a b (List.cons.inj heq).1).mpr hb⟩

theorem text_toRecord (s : ScenarioSummary) {result : ScenarioResult}
    (h : s.fields = toRecord result) :
    s.text "scenario" = result.scenario.name ∧ s.text "verdict" = verdictText result.verdict := by
  rw [ScenarioSummary.text, ScenarioSummary.text, h]
  exact ⟨rfl, rfl⟩

/-- **When a report passes**: both jobs have succeeded, and every scenario has one whole summary
below the directory, which has passed. -/
theorem report_passed_iff {analyze : String → Record → ScenarioReportAnalysis}
    {directory : String} {entries : List Entry} {files : List SummaryFile} {others : List Found}
    (hothers : ∀ f ∈ others, Foreign f)
    (hfiles : (summariesIn directory entries).Perm (files.map SummaryFile.found ++ others))
    {results : List ScenarioSummary}
    (hresults : results.map (fun s => (s.fields, s.reportAnalysis)) =
      loadScenarioResults analyze directory (some entries))
    (expected : List ConcreteScenario) (analysisResult matrixResult generatedAt : String)
    (run : DestroyerReportRun) :
    (buildDestroyerReport expected results analysisResult matrixResult generatedAt run).verdict =
        .passed ↔
      analysisResult = "success" ∧ matrixResult = "success" ∧ ∀ scenario ∈ expected,
        ∃ file, (files.filter fun file => file.Whole ∧ file.result.scenario = scenario) = [file] ∧
          file.result.verdict = .passed := by
  have hloaded := @loadScenarioResults_perm analyze _ _ _ _ hothers hfiles
  rw [← hresults] at hloaded
  have hentry : ∀ scenario, (reportEntry results scenario).verdict = .passed ↔
      ∃ file, (files.filter fun file => file.Whole ∧ file.result.scenario = scenario) = [file] ∧
        file.result.verdict = .passed := by
    intro scenario
    rw [reportEntry_passed]
    have hmatching := hloaded.filter fun p : Record × ScenarioReportAnalysis =>
      ((field p.1 "scenario").bind Json.text?).getD "" = scenario.name
    have hnames : ∀ file : SummaryFile,
        (((field (toRecord file.result) "scenario").bind Json.text?).getD "" = scenario.name) ↔
          file.result.scenario = scenario := fun file => scenario_name_injective.eq_iff
    rw [List.filter_map, List.filter_map, List.filter_filter] at hmatching
    have hboth : ∀ file : SummaryFile,
        (decide (file.result.scenario = scenario) && decide file.Whole) =
          decide (file.Whole ∧ file.result.scenario = scenario) := fun file => by
      rw [Bool.and_comm, Bool.decide_and]
    simp only [Function.comp_def, SummaryFile.loaded, hnames, hboth] at hmatching
    refine exists_singleton_iff hmatching fun s file heq => ?_
    have htext := (text_toRecord s (Prod.mk.inj heq).1).2
    rw [ScenarioSummary.verdict, htext]
    cases file.result.verdict <;> simp [verdictText]
  have hall := @countVerdict_eq_zero (expected.map (reportEntry results))
  rw [List.forall_mem_map] at hall
  simp only [hentry] at hall
  rw [← hall]
  dsimp only [buildDestroyerReport]
  split_ifs with h
  · exact iff_of_true rfl h
  · exact iff_of_false (by decide) h

/-- A soak that has passed. -/
def soakResult : ScenarioResult where
  scenario := .soak
  runId := "run"
  project := "project"
  verdict := .passed
  durationMs := 60000
  workloadStartedAt := none
  workloadCompletedAt := none
  workloadDurationMs := none
  artifactPath := "artifacts/run"
  failureClassification := none
  cleanupState := .removed
  error := none
  cleanupError := none
  cleanupCommand := none

theorem soak_duration : IsDuration soakResult.durationMs := ⟨by decide, by decide⟩

theorem soak_workloadDuration : ∀ ms ∈ soakResult.workloadDurationMs, IsDuration ms :=
  fun _ h => by cases h

/-- Its summary, without the new line at the end. -/
def soakFile : SummaryFile where
  directory := "artifacts/run"
  result := soakResult
  written := ((Json.obj (toRecord soakResult)).pretty 0).length
  duration := soak_duration
  workloadDuration := soak_workloadDuration

theorem soak_parsed : (field (toRecord soakResult) "durationMs").bind number? ≠ some .nan := by
  decide

def soakSummary : ScenarioSummary where
  fields := toRecord soakResult
  accepted := isScenarioResult_toRecord soakResult
  parsed := soak_parsed
  reportAnalysis := emptyAnalysis none ""

/-- The summary of a chaos run, of which the end is lost. -/
def tornFile : SummaryFile where
  directory := "artifacts/torn"
  result := { soakResult with scenario := .chaos }
  written := 100
  duration := soak_duration
  workloadDuration := soak_workloadDuration

theorem not_whole_tornFile : ¬tornFile.Whole := by decide +kernel

/-- A file with the totals of a suite. -/
def suiteFile : Found where
  directory := "artifacts/suites/run"
  contents := some (writeJson (.obj [("suiteId", .str "run"), ("results", .arr [])]))

theorem foreign_suiteFile : ∀ f ∈ [suiteFile], Foreign f := by
  intro f hf text htext v hv
  obtain rfl := List.mem_singleton.mp hf
  obtain rfl := Option.some.inj htext
  obtain ⟨hproper, hnone⟩ : (Json.obj [("suiteId", .str "run"), ("results", .arr [])]).Proper ∧
      isScenarioResult (.obj [("suiteId", .str "run"), ("results", .arr [])]) = false :=
    ⟨⟨by decide, Dict.entries_of_indexKey (by simp; decide), trivial, trivial, trivial⟩, rfl⟩
  have hread := parse_writeJson_take hproper
    (writeJson (.obj [("suiteId", .str "run"), ("results", .arr [])])).length
  rw [List.take_length, if_pos (by simp [writeJson])] at hread
  obtain rfl := Option.some.inj (hread.symm.trans hv)
  exact hnone

def soakEntries : List Entry :=
  [.directory "run" [.file "summary.json" soakFile.found.contents, .file "fitz.log" none],
    .directory "torn" [.file "summary.json" tornFile.found.contents],
    .directory "suites" [.directory "run" [.file "summary.json" suiteFile.contents]]]

theorem soak_files : (summariesIn "artifacts" soakEntries).Perm
    ([soakFile, tornFile].map SummaryFile.found ++ [suiteFile]) := List.Perm.refl _

theorem soak_loaded : [soakSummary].map (fun s => (s.fields, s.reportAnalysis)) =
    loadScenarioResults (fun _ _ => emptyAnalysis none "") "artifacts" (some soakEntries) := by
  have hwhole : soakFile.Whole := Nat.le_refl _
  have hloaded := @loadScenarioResults_perm (fun _ _ => emptyAnalysis none "") _ _ _ _
    foreign_suiteFile soak_files
  rw [List.filter_cons_of_pos (by simpa using hwhole),
    List.filter_cons_of_neg (by simpa using not_whole_tornFile)] at hloaded
  exact (List.perm_singleton.mp hloaded).symm

/-- A report of the soak passes; one of the chaos run, whose summary is torn, does not. -/
theorem report_passed_soak :
    (buildDestroyerReport [.soak] [soakSummary] "success" "success" ""
        ⟨none, none, none, none, none⟩).verdict = .passed ∧
      (buildDestroyerReport [.soak, .chaos] [soakSummary] "success" "success" ""
        ⟨none, none, none, none, none⟩).verdict ≠ .passed := by
  have hwhole : soakFile.Whole := Nat.le_refl _
  have hsoak : soakFile.result.scenario = .soak := rfl
  constructor
  · refine (report_passed_iff foreign_suiteFile soak_files soak_loaded _ _ _ _ _).mpr
      ⟨rfl, rfl, fun scenario hscenario => ⟨soakFile, ?_, rfl⟩⟩
    obtain rfl := List.mem_singleton.mp hscenario
    simp [hwhole, not_whole_tornFile, hsoak]
  · intro hpassed
    obtain ⟨-, -, hall⟩ :=
      (report_passed_iff foreign_suiteFile soak_files soak_loaded _ _ _ _ _).mp hpassed
    obtain ⟨file, hfile, -⟩ := hall .chaos (by decide)
    simp [not_whole_tornFile, hsoak] at hfile

end Report

end FitzDestroyer
