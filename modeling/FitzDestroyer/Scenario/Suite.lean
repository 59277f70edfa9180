import FitzDestroyer.Check.Basic
import FitzDestroyer.Scenario.Outcome

/-!
# The suite, and what summaries say

`runSuite` (`src/suite.ts`) runs a list of scenarios, one after the other, and counts their
verdicts.

* `runSuite` : the function, over any executor of scenarios;
* `Suite` : a suite whose executor is `runScenario`;
* `Executed` : what an executor returns for the entries of a suite;
* `Faithful` : what a summary says about the effects its run attempted.

## Main results

* `summaries_faithful` : while the writes succeed, summaries and totals are faithful;
* `survives_iff` : exactly when cleanup, failure reports and the suite survive failing writes.
-/

namespace FitzDestroyer

namespace Scenario

open Js

/-! ### The suite -/

/-- The totals of a suite. -/
structure Totals where
  passed : ℕ
  failed : ℕ
  scenarios : ℕ
  deriving DecidableEq, Repr

/-- The summary of a suite. -/
structure SuiteSummary where
  suiteId : String
  startedAt : String
  completedAt : String
  durationMs : ℤ
  totals : Totals
  results : List ScenarioResult

/-- The settings of each scenario: its own port, and a stack that is not kept. -/
def allocateScenarioConfigs (config : RunConfig) (scenarios : List ConcreteScenario) :
    Except Thrown (List (ConcreteScenario × RunConfig)) :=
  scenarios.zipIdx.mapM fun (scenario, index) =>
    let port := config.port + index
    if port > 65535 then
      .error (newError (s!"Suite port allocation exceeds 65535 at scenario {scenario.name}; " ++
        s!"choose --port {(65536 : ℤ) - scenarios.length} or lower"))
    else .ok (scenario, { config with scenario := .concrete scenario, port := port, keep := false })

def aggregateSuiteResults (suiteId startedAt completedAt : String) (durationMs : ℤ)
    (results : List ScenarioResult) : SuiteSummary :=
  let passed := (results.filter fun result => result.verdict = .passed).length
  { suiteId, startedAt, completedAt, durationMs
    totals := { passed, failed := results.length - passed, scenarios := results.length }
    results }

/-- What a suite meets outside of its scenarios: the errors of its directory and its summary
file, if they cannot be written, and the clocks. -/
structure SuiteWorld where
  mkdir : Option Thrown
  writeFile : Option Thrown
  createdAt : String
  random : String
  startedAt : String
  completedAt : String
  durationMs : ℤ

/-- An executor, called for the `n`-th time with settings, a scenario and `preserveFailure`. -/
abbrev ScenarioExecutor := ℕ → RunConfig → ConcreteScenario → Bool → Except Thrown ScenarioResult

/-- The loop over the entries, from the `n`-th call on. -/
def runEntries (execute : ScenarioExecutor) :
    ℕ → List (ConcreteScenario × RunConfig) → Except Thrown (List ScenarioResult)
  | _, [] => .ok []
  | n, (scenario, config) :: entries => do
    let result ← execute n config scenario false
    let results ← runEntries execute (n + 1) entries
    return result :: results

/-- An effect of the suite itself. -/
def awaitWrite : Option Thrown → Except Thrown Unit
  | none => .ok ()
  | some error => .error error

/-- `createSuiteId`. -/
def createSuiteId (w : SuiteWorld) : String := s!"{compactTimestamp w.createdAt}-all-{w.random}"

def runSuite (config : RunConfig) (w : SuiteWorld) (execute : ScenarioExecutor)
    (scenarios : List ConcreteScenario) : Except Thrown SuiteSummary := do
  awaitWrite w.mkdir
  let entries ← allocateScenarioConfigs config scenarios
  let results ← runEntries execute 0 entries
  let summary := aggregateSuiteResults (createSuiteId w) w.startedAt w.completedAt w.durationMs
    results
  awaitWrite w.writeFile
  return summary

/-- The loop maps the executor over the entries. -/
theorem runEntries_eq_mapM (execute : ScenarioExecutor) (n : ℕ)
    (entries : List (ConcreteScenario × RunConfig)) :
    runEntries execute n entries =
      (entries.zipIdx n).mapM fun p => execute p.2 p.1.2 p.1.1 false := by
  induction entries generalizing n with
  | nil => rfl
  | cons entry entries ih =>
    obtain ⟨scenario, config⟩ := entry
    rw [runEntries, List.zipIdx_cons, List.mapM_cons, ih]

/-- What an executor returns for the entries of a suite, in order. -/
def Executed (execute : ScenarioExecutor) (entries : List (ConcreteScenario × RunConfig))
    (results : List ScenarioResult) : Prop :=
  List.Forall₂ (fun p result => execute p.2 p.1.2 p.1.1 false = .ok result) entries.zipIdx results

/-- The results of a suite are what the executor returned for its entries. -/
theorem runSuite_results {config : RunConfig} {w : SuiteWorld} {execute : ScenarioExecutor}
    {scenarios : List ConcreteScenario} {suiteSummary : SuiteSummary}
    (h : runSuite config w execute scenarios = .ok suiteSummary) :
    ∃ entries, allocateScenarioConfigs config scenarios = .ok entries ∧
      entries.map Prod.fst = scenarios ∧ Executed execute entries suiteSummary.results := by
  obtain ⟨-, -, h⟩ := Check.bind_eq_ok.mp h
  obtain ⟨entries, hentries, h⟩ := Check.bind_eq_ok.mp h
  obtain ⟨results, hresults, h⟩ := Check.bind_eq_ok.mp h
  obtain ⟨-, -, h⟩ := Check.bind_eq_ok.mp h
  obtain rfl := Except.ok.inj h
  rw [runEntries_eq_mapM, Check.mapM_eq_ok] at hresults
  obtain ⟨-, hallocated⟩ := Check.mapM_ite_eq_ok.mp hentries
  refine ⟨entries, hentries, ?_, hresults⟩
  rw [hallocated, List.map_map]
  exact List.zipIdx_map_fst 0 scenarios

/-- **The totals are the counts of the verdicts**, for any executor. -/
theorem runSuite_totals {config : RunConfig} {w : SuiteWorld} {execute : ScenarioExecutor}
    {scenarios : List ConcreteScenario} {suiteSummary : SuiteSummary}
    (h : runSuite config w execute scenarios = .ok suiteSummary) :
    suiteSummary.totals.passed = suiteSummary.results.countP (·.verdict = .passed) ∧
      suiteSummary.totals.failed = suiteSummary.results.countP (·.verdict = .failed) ∧
      suiteSummary.totals.scenarios = suiteSummary.results.length := by
  obtain ⟨-, -, h⟩ := Check.bind_eq_ok.mp h
  obtain ⟨entries, -, h⟩ := Check.bind_eq_ok.mp h
  obtain ⟨results, -, h⟩ := Check.bind_eq_ok.mp h
  obtain ⟨-, -, h⟩ := Check.bind_eq_ok.mp h
  obtain rfl := Except.ok.inj h
  have hsplit := List.length_eq_countP_add_countP (fun result : ScenarioResult =>
    decide (result.verdict = .passed)) (l := results)
  have hneg : results.countP (fun result => decide ¬(decide (result.verdict = .passed) = true)) =
      results.countP (·.verdict = .failed) := by
    refine List.countP_congr fun result _ => ?_
    cases result.verdict <;> simp
  simp only [aggregateSuiteResults, ← List.countP_eq_length_filter]
  rw [hneg] at hsplit
  exact ⟨trivial, by omega, trivial⟩

/-! ### Faithful summaries -/

variable {r : Run}

/-- Every artifact and every event of the run can be written. -/
def Run.WritesSucceed (r : Run) : Prop :=
  r.Started ∧ ∀ step, step.IsWrite → r.outcome step = none

/-- What the summary of a run says about the effects the run attempted. -/
structure Faithful (r : Run) (result : ScenarioResult) (trace : List Effect) : Prop where
  verdict : result.verdict = .passed ↔ r.failures trace = []
  classification : result.failureClassification = none ↔ result.verdict = .passed
  error : result.error = none ↔ result.verdict = .passed
  setup : result.failureClassification = some .setup ↔
    ∃ step ∈ Run.setupSteps ++ [.collect], (r.failures trace).head? = some step
  cleanup : result.failureClassification = some .cleanup ↔ r.failures trace = [.cleanup]
  workload : result.verdict = .failed → result.failureClassification ≠ some .setup →
    result.failureClassification ≠ some .cleanup →
    ∃ step ∈ Run.workloadSteps, ∃ error, (r.failures trace).head? = some step ∧
      r.outcome step = some error ∧
      result.failureClassification = some (classifyFailure error .workload)
  attempted : Effect.cleanup ∈ trace ↔
    ((∀ step ∈ r.failures trace, step = .cleanup) ∧ r.config.keep = false) ∨
    ((∃ step ∈ r.failures trace, step ≠ .cleanup) ∧ r.preserveFailure = some false)
  cleanupState : result.cleanupState =
    if Effect.cleanup ∈ trace then if r.outcome .cleanup = none then .removed else .failed
    else .preserved
  times : result.workloadStartedAt = none ↔ result.workloadCompletedAt = none

theorem verdict_failed_iff {v : Verdict} : v = .failed ↔ v ≠ .passed := by
  cases v <;> simp

theorem classifyFailure_workload (error : Thrown) :
    classifyFailure error .workload ≠ .setup ∧ classifyFailure error .workload ≠ .cleanup := by
  unfold classifyFailure
  rw [if_neg (by decide)]
  split_ifs <;> simp

theorem classifyFailure_setup (error : Thrown) : classifyFailure error .setup = .setup := rfl

/-- The variables after the summary has been written and reported. -/
def Locals.reported (r : Run) (s : Locals) : Locals :=
  (s.push (.writeSummary (summary r s))).push (.scenarioComplete (summary r s))

/-- A run whose writes succeed ends with the variables before the summary, and reports them. -/
theorem runScenario_of_writes (h : r.WritesSucceed) :
    ∃ s, AfterCleanup r r.entry s ∧
      runScenario r Locals.init = (.ok (summary r s), s.reported r) := by
  have hcollect : r.outcome .collectionFailed = none := h.2 _ trivial
  have hcleanup : r.outcome .cleanupFailed = none := h.2 _ trivial
  have hw : r.outcome .writeSummary = none := h.2 _ trivial
  have hc : r.outcome .scenarioComplete = none := h.2 _ trivial
  rcases runScenario_cases h.1 with ⟨hthrow, -⟩ | ⟨-, hthrow, -⟩ | ⟨-, -, s, hs, hrun⟩
  · simp [Run.CollectThrows, hcollect] at hthrow
  · simp [Run.CleanupThrows, hcleanup] at hthrow
  · refine ⟨s, hs, ?_⟩
    rw [hrun, writeOut_eq, hw]
    dsimp only
    rw [hc]
    rfl

theorem cleanup_mem_iff {s : Locals} (h : AfterCleanup r r.entry s) :
    Effect.cleanup ∈ (s.reported r).trace ↔ r.AsksCleanup := by
  obtain ⟨t, u, v, htrace, ht, -, hu, -, -, hv, -⟩ := h.trace
  have ht' : Effect.cleanup ∉ t := fun hmem => by
    simpa [Run.trySteps, Run.setupSteps, Run.workloadSteps, Effect.step] using ht _ hmem
  have hu' : Effect.cleanup ∉ u := fun hmem => by simpa [Effect.step] using hu _ hmem
  simp [Locals.reported, htrace, Run.prelude, ht', hu', hv]

/-- The failures of a run whose writes succeed: those of the `try` block, then the collection,
then the removal. -/
theorem failures_reported (h : r.WritesSucceed) {s : Locals} (hs : AfterCleanup r r.entry s) :
    ∃ t, r.HeadedBy t r.firstError ∧ (∀ e ∈ t, e.step ∈ Run.trySteps) ∧
      r.failures (s.reported r).trace =
        r.failures t ++ ((if r.outcome .collect = none then [] else [.collect]) ++
          if r.AsksCleanup ∧ r.outcome .cleanup ≠ none then [.cleanup] else []) := by
  obtain ⟨t, u, v, htrace, ht, hhead, -, hu, -, -, hv⟩ := hs.trace
  have hprelude : r.failures r.prelude = [] := by
    simp [Run.failures, Run.prelude, Effect.step, h.1.1, h.1.2]
  have hend : r.failures [.writeSummary (summary r s), .scenarioComplete (summary r s)] = [] := by
    simp [Run.failures, Effect.step, h.2 .writeSummary trivial, h.2 .scenarioComplete trivial]
  refine ⟨t, hhead, ht, ?_⟩
  have : (s.reported r).trace = r.prelude ++ t ++ u ++ v ++
      [.writeSummary (summary r s), .scenarioComplete (summary r s)] := by
    simp [Locals.reported, htrace]
  rw [this]
  simp [hprelude, hend, hu, hv (h.2 _ trivial)]

/-- The summary of a run whose writes succeed is faithful. -/
theorem faithful_of_writes (h : r.WritesSucceed) {s : Locals} (hs : AfterCleanup r r.entry s) :
    Faithful r (summary r s) (s.reported r).trace := by
  have hun : ¬r.Unreported := by simp [Run.Unreported, h.2 .workloadFailed trivial]
  obtain ⟨t, hhead, hsteps, hfail⟩ := failures_reported h hs
  have hmem := cleanup_mem_iff hs
  have hverdict : (summary r s).verdict = s.verdict := rfl
  have hclass : (summary r s).failureClassification = r.finalFailure.map (·.1) := hs.classification
  have herror : (summary r s).error = r.finalFailure.map (·.2) := hs.message
  have hstate : (summary r s).cleanupState = s.cleanupState := rfl
  have hcleanupState : (summary r s).cleanupState =
      if Effect.cleanup ∈ (s.reported r).trace then
        if r.outcome .cleanup = none then .removed else .failed
      else .preserved := by
    simp only [hmem]
    exact hs.cleanupState
  rcases hf : r.firstError with _ | ⟨phase, error⟩
  · -- The `try` block succeeds.
    rw [hf] at hhead
    have ht : r.failures t = [] := hhead
    rw [ht, List.nil_append] at hfail
    by_cases hc : r.outcome .collect = none
    · -- So does the collection: only the removal can fail.
      have hp : r.Passed := ⟨hf, hc⟩
      have ha : r.AsksCleanup ↔ r.config.keep = false := by simp [Run.AsksCleanup, hp]
      rw [if_pos hc, List.nil_append] at hfail
      by_cases hr : r.AsksCleanup ∧ r.outcome .cleanup ≠ none
      · obtain ⟨error, ho⟩ := Option.ne_none_iff_exists'.mp hr.2
        have hfinal : r.finalFailure = some (.cleanup, error.errorMessage) := by
          simp [Run.finalFailure, hp, hr.1, ho]
        have hv : (summary r s).verdict ≠ .passed := fun hv => hr.2 ((hs.verdict.mp hv).2 hr.1)
        rw [if_pos hr] at hfail
        rw [hfinal] at hclass herror
        refine ⟨by simp [hv, hfail], by simp [hclass, hv], by simp [herror, hv], ?_,
          by simp [hclass, hfail], by simp [hclass], by simp [hfail, hmem, ha], hcleanupState,
          hs.times⟩
        simp [hclass, hfail, Run.setupSteps]
      · have hfinal : r.finalFailure = none := by
          by_cases ha' : r.AsksCleanup
          · simp [Run.finalFailure, hp, ha', not_not.mp fun ho => hr ⟨ha', ho⟩]
          · simp [Run.finalFailure, hp, ha']
        have hv : (summary r s).verdict = .passed :=
          hs.verdict.mpr ⟨hp, fun ha' => not_not.mp fun ho => hr ⟨ha', ho⟩⟩
        rw [if_neg hr] at hfail
        rw [hfinal] at hclass herror
        exact ⟨by simp [hv, hfail], by simp [hclass, hv], by simp [herror, hv],
          by simp [hclass, hfail], by simp [hclass, hfail], by simp [hv],
          by simp [hfail, hmem, ha], hcleanupState, hs.times⟩
    · -- The collection is the first failure.
      have hp : ¬r.Passed := fun hp => hc hp.2
      have ha : r.AsksCleanup ↔ r.preserveFailure = some false := by simp [Run.AsksCleanup, hp]
      obtain ⟨error, ho⟩ := Option.ne_none_iff_exists'.mp hc
      have hfinal : r.finalFailure = some (.setup, error.errorMessage) := by
        simp [Run.finalFailure, hp, Run.failure, hf, ho]
      have hv : (summary r s).verdict ≠ .passed := fun hv => hp (hs.verdict.mp hv).1
      rw [if_neg hc] at hfail
      rw [hfinal] at hclass herror
      refine ⟨by simp [hv, hfail], by simp [hclass, hv], by simp [herror, hv],
        by simp [hclass, hfail], by simp [hclass, hfail], by simp [hclass],
        by simp [hfail, hmem, ha], hcleanupState, hs.times⟩
  · -- The `try` block throws, and its error heads the failures.
    rw [hf] at hhead
    obtain ⟨step, hstep, hstart, ho⟩ := hhead
    obtain ⟨rest, ht⟩ := List.head?_eq_some_iff.mp hstart
    rw [ht, List.cons_append] at hfail
    have hp : ¬r.Passed := by simp [Run.Passed, hf]
    have ha : r.AsksCleanup ↔ r.preserveFailure = some false := by simp [Run.AsksCleanup, hp]
    have hfinal : r.finalFailure = some (classifyFailure error phase, error.errorMessage) := by
      simp [Run.finalFailure, hp, Run.failure, hf, hun]
    have hv : (summary r s).verdict ≠ .passed := fun hv => hp (hs.verdict.mp hv).1
    rw [hfinal] at hclass herror
    have hne : step ≠ .cleanup := by
      rintro rfl
      cases phase <;> simp [Run.phaseSteps, Run.setupSteps, Run.workloadSteps] at hstep
    have hattempted : Effect.cleanup ∈ (s.reported r).trace ↔
        ((∀ step ∈ r.failures (s.reported r).trace, step = .cleanup) ∧ r.config.keep = false) ∨
        ((∃ step ∈ r.failures (s.reported r).trace, step ≠ .cleanup) ∧
          r.preserveFailure = some false) := by
      rw [hmem, ha, hfail]
      simp [hne]
    cases phase with
    | setup =>
      rw [classifyFailure_setup] at hclass
      exact ⟨by simp [hv, hfail], by simp [hclass, hv], by simp [herror, hv],
        iff_of_true (by simp [hclass]) ⟨step, List.mem_append_left _ hstep, by simp [hfail]⟩,
        by simp [hclass, hfail, hne], by simp [hclass], hattempted, hcleanupState, hs.times⟩
    | workload =>
      obtain ⟨hsetup, hcleanup⟩ := classifyFailure_workload error
      refine ⟨by simp [hv, hfail], by simp [hclass, hv], by simp [herror, hv],
        iff_of_false (by simp [hclass, hsetup]) ?_, by simp [hclass, hcleanup, hfail, hne],
        fun _ _ _ => ⟨step, hstep, error, by simp [hfail], ho, by simp [hclass]⟩,
        hattempted, hcleanupState, hs.times⟩
      rintro ⟨step', hstep', hhead⟩
      obtain rfl : step = step' := by simpa [hfail] using hhead
      simp only [Run.phaseSteps, Run.workloadSteps, List.mem_cons, List.not_mem_nil,
        or_false] at hstep
      rcases hstep with rfl | rfl | rfl | rfl <;> simp [Run.setupSteps] at hstep'

/-- `runScenario` as the executor of a suite. -/
def executor (worlds : ℕ → World) : ScenarioExecutor := fun n config scenario preserveFailure =>
  (runScenario ⟨config, scenario, some preserveFailure, worlds n⟩ Locals.init).1

/-- The run of an entry of a suite. -/
def entryRun (worlds : ℕ → World) (p : (ConcreteScenario × RunConfig) × ℕ) : Run :=
  ⟨p.1.2, p.1.1, some false, worlds p.2⟩

/-- The results of a suite whose scenarios are run by `runScenario` are faithful summaries. -/
theorem faithful_of_executed {worlds : ℕ → World} {entries : List (ConcreteScenario × RunConfig)}
    {results : List ScenarioResult} (h : Executed (executor worlds) entries results) :
    List.Forall₂ (fun p result => (entryRun worlds p).WritesSucceed →
      ∃ s, runScenario (entryRun worlds p) Locals.init = (.ok result, s) ∧
        Faithful (entryRun worlds p) result s.trace) entries.zipIdx results := by
  refine h.imp fun p result hresult hwrites => ?_
  obtain ⟨s, hs, hrun⟩ := runScenario_of_writes hwrites
  have hok : (runScenario (entryRun worlds p) Locals.init).1 = .ok result := hresult
  rw [hrun] at hok
  obtain rfl := Except.ok.inj hok
  exact ⟨_, hrun, faithful_of_writes hwrites hs⟩

/-- **Summaries and totals are faithful**, whatever fails besides the writes and whatever the
policy: the summary of a run says which effects failed first and what became of the stack.  The
results of a suite are what the executor returned for its scenarios, one by one, faithful ones if
it ran them, and its totals count their verdicts. -/
theorem summaries_faithful (h : r.WritesSucceed) {config : RunConfig} {w : SuiteWorld}
    {execute : ScenarioExecutor} {scenarios : List ConcreteScenario} {suiteSummary : SuiteSummary}
    (hsuite : runSuite config w execute scenarios = .ok suiteSummary) :
    (∃ result s, runScenario r Locals.init = (.ok result, s) ∧ Faithful r result s.trace) ∧
      (∃ entries, allocateScenarioConfigs config scenarios = .ok entries ∧
        entries.map Prod.fst = scenarios ∧ Executed execute entries suiteSummary.results ∧
        ∀ worlds, execute = executor worlds →
          List.Forall₂ (fun p result => (entryRun worlds p).WritesSucceed →
            ∃ s, runScenario (entryRun worlds p) Locals.init = (.ok result, s) ∧
              Faithful (entryRun worlds p) result s.trace) entries.zipIdx suiteSummary.results) ∧
      suiteSummary.totals.passed = suiteSummary.results.countP (·.verdict = .passed) ∧
      suiteSummary.totals.failed = suiteSummary.results.countP (·.verdict = .failed) ∧
      suiteSummary.totals.scenarios = suiteSummary.results.length := by
  obtain ⟨s, hs, hrun⟩ := runScenario_of_writes h
  obtain ⟨entries, hentries, hscenarios, hexecuted⟩ := runSuite_results hsuite
  refine ⟨⟨_, _, hrun, faithful_of_writes h hs⟩, ⟨entries, hentries, hscenarios, hexecuted, ?_⟩,
    runSuite_totals hsuite⟩
  rintro worlds rfl
  exact faithful_of_executed hexecuted

/-- A run of `cache-loss` that meets the given failures. -/
def cacheLossRun (outcome : Step → Option Thrown) (preserveFailure : Option Bool) : Run where
  config := ⟨.concrete .cacheLoss, "/fitz", none, 4390, false⟩
  scenario := .cacheLoss
  preserveFailure := preserveFailure
  world := ⟨outcome, "2026-08-25T12:00:00.000Z", "00ff10", "2026-08-25T12:00:05.000Z",
    "2026-08-25T12:01:05.000Z", 60000, 65000⟩

/-- A workload that times out, and a stack that cannot be removed. -/
def timedOut : Step → Option Thrown
  | .executeWorkload => some (.error "TimeoutError" "no response" none)
  | .cleanup => some (newError "compose down failed")
  | _ => none

/-- A suite without a directory problem. -/
def quietSuite : SuiteWorld :=
  ⟨none, none, "2026-08-25T12:00:00.000Z", "00ff10", "2026-08-25T12:00:00.000Z",
    "2026-08-25T12:02:00.000Z", 120000⟩

theorem timedOut_writesSucceed (preserveFailure : Option Bool) :
    (cacheLossRun timedOut preserveFailure).WritesSucceed :=
  ⟨⟨rfl, rfl⟩, fun step h => by cases step <;> first | rfl | cases h⟩

/-- A suite of two scenarios, the first of which times out. -/
theorem summaries_faithful_timedOut :
    (∃ result s, runScenario (cacheLossRun timedOut (some false)) Locals.init = (.ok result, s) ∧
      Faithful (cacheLossRun timedOut (some false)) result s.trace) ∧
    ∃ suiteSummary : SuiteSummary, suiteSummary.totals = ⟨1, 1, 2⟩ ∧
      suiteSummary.results.map (fun result => (result.scenario, result.verdict)) =
        [(.cacheLoss, .failed), (.cleanRestart, .passed)] ∧
      suiteSummary.totals.failed = suiteSummary.results.countP (·.verdict = .failed) := by
  let worlds : ℕ → World := fun n =>
    (cacheLossRun (if n = 0 then timedOut else fun _ => none) none).world
  obtain ⟨suiteSummary, hsuite, htotals, hresults⟩ : ∃ suiteSummary, runSuite
      (cacheLossRun timedOut none).config quietSuite (executor worlds) [.cacheLoss, .cleanRestart] =
        .ok suiteSummary ∧ suiteSummary.totals = ⟨1, 1, 2⟩ ∧
      suiteSummary.results.map (fun result => (result.scenario, result.verdict)) =
        [(.cacheLoss, .failed), (.cleanRestart, .passed)] := ⟨_, rfl, rfl, rfl⟩
  obtain ⟨hrun, -, -, hfailed, -⟩ := summaries_faithful (timedOut_writesSucceed (some false)) hsuite
  exact ⟨hrun, suiteSummary, htotals, hresults, hfailed⟩

/-! ### Failing writes -/

/-- A summary the run writes, reports or returns. -/
def Run.Reports (r : Run) (result : ScenarioResult) : Prop :=
  Effect.writeSummary result ∈ (runScenario r Locals.init).2.trace ∨
    Effect.scenarioComplete result ∈ (runScenario r Locals.init).2.trace ∨
    (runScenario r Locals.init).1 = .ok result

/-- The stack is removed when the policy asks for it, and every summary of a failure says which
failure it was. -/
structure Run.Survives (r : Run) : Prop where
  cleanup : r.AsksCleanup → Effect.cleanup ∈ (runScenario r Locals.init).2.trace
  failures : ∀ result, r.Reports result → result.verdict = .failed →
    result.failureClassification ≠ none ∧ result.error ≠ none

/-- No handler of the `finally` block throws, and the summary can be written and reported. -/
def Run.Completes (r : Run) : Prop :=
  ¬r.CollectThrows ∧ ¬r.CleanupThrows ∧ r.outcome .writeSummary = none ∧
    r.outcome .scenarioComplete = none

theorem not_passed_of_collectThrows (h : r.CollectThrows) : ¬r.Passed := by
  rintro ⟨-, hc⟩
  simp [Run.CollectThrows, hc] at h

/-- The summary of a failed run lacks a class and a message iff the failure went unreported. -/
theorem finalFailure_of_failed {s : Locals} (hs : AfterCleanup r r.entry s)
    (hv : s.verdict = .failed) : r.finalFailure = none ↔ r.Unreported := by
  rw [verdict_failed_iff, Ne, hs.verdict] at hv
  by_cases hp : r.Passed
  · -- Only the removal failed.
    obtain ⟨ha, ho⟩ : r.AsksCleanup ∧ r.outcome .cleanup ≠ none := by simpa [hp] using hv
    exact iff_of_false (by simpa [Run.finalFailure, hp, ha] using ho)
      fun hu => firstError_of_unreported hu hp.1
  · have hfinal : r.finalFailure = r.failure := by simp [Run.finalFailure, hp]
    rw [hfinal]
    unfold Run.failure
    rcases hf : r.firstError with _ | ⟨phase, error⟩
    · have hc : r.outcome .collect ≠ none := fun hc => hp ⟨hf, hc⟩
      exact iff_of_false (by simpa using hc) fun hu => firstError_of_unreported hu hf
    · by_cases hu : r.Unreported <;> simp [hu]

/-- The steps before the summary. -/
def Step.IsEarly (step : Step) : Prop := step ≠ .writeSummary ∧ step ≠ .scenarioComplete

theorem early_of_trySteps {step : Step} (h : step ∈ Run.trySteps) : step.IsEarly := by
  constructor <;> rintro rfl <;> simp [Run.trySteps, Run.setupSteps, Run.workloadSteps] at h

theorem early_prelude (r : Run) : ∀ e ∈ r.prelude, e.step.IsEarly := by
  simp [Run.prelude, Effect.step, Step.IsEarly]

theorem AfterCleanup.early {s : Locals} (hs : AfterCleanup r r.entry s) :
    ∀ e ∈ s.trace, e.step.IsEarly := by
  obtain ⟨t, u, v, htrace, ht, -, hu, -, hv, -⟩ := hs.trace
  intro e he
  simp only [htrace, entry_trace, List.mem_append] at he
  rcases he with ((he | he) | he) | he
  · exact early_prelude r e he
  · exact early_of_trySteps (ht e he)
  · rcases hu e he with h | h <;> simp [Step.IsEarly, h]
  · rcases hv e he with h | h <;> simp [Step.IsEarly, h]

/-- A run that reaches its summary reports it and no other. -/
theorem reports_iff {s : Locals} (hs : AfterCleanup r r.entry s)
    (hrun : runScenario r Locals.init = writeOut r s) {result : ScenarioResult} :
    r.Reports result ↔ result = summary r s := by
  have hw : Effect.writeSummary result ∉ s.trace := fun h => (hs.early _ h).1 rfl
  have hc : Effect.scenarioComplete result ∉ s.trace := fun h => (hs.early _ h).2 rfl
  unfold Run.Reports
  rw [hrun, writeOut_eq]
  rcases r.outcome .writeSummary with _ | error
  · dsimp only
    rcases r.outcome .scenarioComplete with _ | error <;> simp [hw, hc, eq_comm]
  · simp [hw, hc]

/-- A run that throws before its summary reports none. -/
theorem not_reports_of_throw {error : Thrown} {s : Locals} {t : List Effect}
    (hrun : runScenario r Locals.init = (.error error, s)) (htrace : s.trace = r.prelude ++ t)
    (ht : ∀ e ∈ t, e.step.IsEarly) (result : ScenarioResult) : ¬r.Reports result := by
  have hearly : ∀ e ∈ s.trace, e.step.IsEarly := by
    intro e he
    rw [htrace] at he
    rcases List.mem_append.mp he with h | h
    · exact early_prelude r e h
    · exact ht e h
  unfold Run.Reports
  rw [hrun]
  rintro (h | h | h)
  · exact (hearly _ h).1 rfl
  · exact (hearly _ h).2 rfl
  · cases h

theorem mem_trace_of_writeOut {s : Locals} (hrun : runScenario r Locals.init = writeOut r s)
    {e : Effect} (he : e ∈ s.trace) : e ∈ (runScenario r Locals.init).2.trace := by
  rw [hrun, writeOut_eq]
  rcases r.outcome .writeSummary with _ | error
  · dsimp only
    rcases r.outcome .scenarioComplete with _ | error <;> simp [he]
  · simp [he]

/-- **Cleanup and failure reports survive failing writes** unless the artifacts of a failed run
whose policy asks for a removal can neither be collected nor be reported missing, or a failure
of the running workload goes unreported and the run still reaches its summary. -/
theorem run_survives_iff (h : r.Started) :
    r.Survives ↔ (r.CollectThrows → r.preserveFailure ≠ some false) ∧
      (r.Unreported → r.CollectThrows ∨ r.CleanupThrows) := by
  rcases runScenario_cases h with ⟨hc, error, s, t, hrun, htrace, ht⟩ |
    ⟨hc, hr, error, s, t, hrun, htrace, hmem, ht⟩ | ⟨hc, hr, s, hs, hrun⟩
  · -- The collection throws: there is no removal, and no summary.
    have hnot := not_reports_of_throw hrun htrace (fun e he => by
      rcases ht e he with h | h | h
      · exact early_of_trySteps h
      · simp [Step.IsEarly, h]
      · simp [Step.IsEarly, h])
    have hcleanup : Effect.cleanup ∉ (runScenario r Locals.init).2.trace := by
      rw [hrun, htrace]
      intro he
      rcases List.mem_append.mp he with he | he
      · simp [Run.prelude] at he
      · rcases ht _ he with h | h | h
        · simp [Effect.step, Run.trySteps, Run.setupSteps, Run.workloadSteps] at h
        · cases h
        · cases h
    have ha : r.AsksCleanup ↔ r.preserveFailure = some false := by
      simp [Run.AsksCleanup, not_passed_of_collectThrows hc]
    refine ⟨fun hsurvives => ⟨fun _ hp => hcleanup (hsurvives.cleanup (ha.mpr hp)),
      fun _ => .inl hc⟩, fun hcond => ⟨fun hask => absurd (ha.mp hask) (hcond.1 hc), ?_⟩⟩
    exact fun result hresult => absurd hresult (hnot result)
  · -- The removal throws: there is no summary.
    have hnot := not_reports_of_throw hrun htrace (fun e he => by
      rcases ht e he with h | h | h | h | h
      · exact early_of_trySteps h
      all_goals simp [Step.IsEarly, h])
    refine iff_of_true ⟨fun _ => ?_, fun result hresult => absurd hresult (hnot result)⟩
      ⟨fun h => absurd h hc, fun _ => .inr hr⟩
    rw [hrun, htrace]
    exact List.mem_append_right _ hmem
  · -- The summary is made.
    have hcleanup : r.AsksCleanup → Effect.cleanup ∈ (runScenario r Locals.init).2.trace := by
      intro ha
      refine mem_trace_of_writeOut hrun ?_
      obtain ⟨t, u, v, htrace, -, -, -, -, -, hv, -⟩ := hs.trace
      rw [htrace]
      exact List.mem_append_right _ (hv.mpr ha)
    have hreports : ∀ result, r.Reports result ↔ result = summary r s :=
      fun _ => reports_iff hs hrun
    simp only [hc, hr, false_imp_iff, or_self, true_and]
    constructor
    · rintro ⟨-, hfail⟩ hu
      by_cases hv : s.verdict = .failed
      · refine (hfail _ ((hreports _).mpr rfl) hv).1 ?_
        change s.failureClassification = none
        rw [hs.classification, (finalFailure_of_failed hs hv).mpr hu]
        rfl
      · rw [verdict_failed_iff, not_not, hs.verdict] at hv
        exact firstError_of_unreported hu hv.1.1
    · intro hu
      refine ⟨hcleanup, fun result hresult hv => ?_⟩
      obtain rfl := (hreports result).mp hresult
      have hfinal : r.finalFailure ≠ none := fun hf => hu ((finalFailure_of_failed hs hv).mp hf)
      obtain ⟨p, hp⟩ := Option.ne_none_iff_exists'.mp hfinal
      have hclass : (summary r s).failureClassification = _ := hs.classification
      have herror : (summary r s).error = _ := hs.message
      simp [hclass, herror, hp]

/-- A run returns its summary iff it completes. -/
theorem runScenario_passes_iff (h : r.Started) :
    Check.Passes (runScenario r Locals.init).1 ↔ r.Completes := by
  unfold Run.Completes
  rcases runScenario_cases h with ⟨hc, error, s, t, hrun, -⟩ |
    ⟨hc, hr, error, s, t, hrun, -⟩ | ⟨hc, hr, s, -, hrun⟩
  · simp [hrun, hc]
  · simp [hrun, hr]
  · rw [hrun, writeOut_eq]
    rcases hw : r.outcome .writeSummary with _ | error
    · dsimp only
      rcases hd : r.outcome .scenarioComplete with _ | error <;> simp [hc, hr]
    · simp

/-- The result of a run is a result of its scenario. -/
theorem scenario_of_result (h : r.Started) {result : ScenarioResult}
    (hok : (runScenario r Locals.init).1 = .ok result) : result.scenario = r.scenario := by
  rcases runScenario_cases h with ⟨-, error, s, t, hrun, -⟩ |
    ⟨-, -, error, s, t, hrun, -⟩ | ⟨-, -, s, hs, hrun⟩
  · simp [hrun] at hok
  · simp [hrun] at hok
  · have hresult : r.Reports result := .inr (.inr hok)
    rw [(reports_iff hs hrun).mp hresult]
    rfl

/-! ### A suite of runs -/

/-- A suite whose scenarios are run by `runScenario`. -/
structure Suite where
  config : RunConfig
  scenarios : List ConcreteScenario
  world : SuiteWorld
  /-- What the `n`-th run meets. -/
  worlds : ℕ → World

namespace Suite

def run (q : Suite) : Except Thrown SuiteSummary :=
  runSuite q.config q.world (executor q.worlds) q.scenarios

/-- The settings of the `n`-th scenario. -/
def nthConfig (q : Suite) (n : ℕ) (scenario : ConcreteScenario) : RunConfig :=
  { q.config with scenario := .concrete scenario, port := q.config.port + n, keep := false }

/-- The `n`-th run. -/
def nth (q : Suite) (n : ℕ) (scenario : ConcreteScenario) : Run :=
  ⟨q.nthConfig n scenario, scenario, some false, q.worlds n⟩

/-- The effects before the first scenario and after the last one succeed, as do the effects of
each run before its setup begins. -/
def Started (q : Suite) : Prop :=
  q.world.mkdir = none ∧ q.world.writeFile = none ∧ ∀ n scenario, (q.nth n scenario).Started

/-- The suite runs every scenario, and has one result per scenario, in order. -/
def Continues (q : Suite) : Prop :=
  ∃ suiteSummary, q.run = .ok suiteSummary ∧
    suiteSummary.results.map (·.scenario) = q.scenarios

end Suite

variable {q : Suite}

/-- The entries of a suite. -/
def Suite.entries (q : Suite) : List (ConcreteScenario × RunConfig) :=
  q.scenarios.zipIdx.map fun p => (p.1, q.nthConfig p.2 p.1)

/-- The suite allocates its entries iff their ports fit. -/
theorem allocateScenarioConfigs_eq_ok {entries : List (ConcreteScenario × RunConfig)} :
    allocateScenarioConfigs q.config q.scenarios = .ok entries ↔
      (∀ p ∈ q.scenarios.zipIdx, ¬q.config.port + p.2 > 65535) ∧ entries = q.entries :=
  Check.mapM_ite_eq_ok

theorem mem_entries_zipIdx {scenario : ConcreteScenario} {config : RunConfig} {n : ℕ} :
    ((scenario, config), n) ∈ q.entries.zipIdx ↔
      q.scenarios[n]? = some scenario ∧ config = q.nthConfig n scenario := by
  rw [List.mem_zipIdx_iff_getElem?]
  simp only [Suite.entries, List.getElem?_map, List.getElem?_zipIdx, Option.map_map,
    Option.map_eq_some_iff, Function.comp, Prod.mk.injEq, Nat.zero_add]
  constructor
  · rintro ⟨scenario, hn, rfl, rfl⟩
    exact ⟨hn, rfl⟩
  · rintro ⟨hn, rfl⟩
    exact ⟨scenario, hn, rfl, rfl⟩

theorem entries_scenarios (q : Suite) : q.entries.zipIdx.map (·.1.1) = q.scenarios := by
  have h : (fun p : (ConcreteScenario × RunConfig) × ℕ => p.1.1) = Prod.fst ∘ Prod.fst := rfl
  rw [h, ← List.map_map, List.zipIdx_map_fst, Suite.entries, List.map_map]
  exact List.zipIdx_map_fst 0 q.scenarios

/-- A started suite passes iff its ports fit and its runs complete. -/
theorem suite_continues_iff (h : q.Started) :
    q.Continues ↔ ∀ n scenario, q.scenarios[n]? = some scenario →
      q.config.port + n ≤ 65535 ∧ (q.nth n scenario).Completes := by
  obtain ⟨hmkdir, hwrite, hruns⟩ := h
  have hpasses : ∀ n scenario, Check.Passes (executor q.worlds n (q.nthConfig n scenario) scenario
      false) ↔ (q.nth n scenario).Completes := fun n scenario =>
    runScenario_passes_iff (hruns n scenario)
  constructor
  · rintro ⟨suiteSummary, hrun, -⟩ n scenario hn
    obtain ⟨-, -, hrun⟩ := Check.bind_eq_ok.mp hrun
    obtain ⟨entries, hentries, hrun⟩ := Check.bind_eq_ok.mp hrun
    obtain ⟨results, hresults, -⟩ := Check.bind_eq_ok.mp hrun
    obtain ⟨hports, rfl⟩ := allocateScenarioConfigs_eq_ok.mp hentries
    refine ⟨not_lt.mp (hports (scenario, n) (List.mem_zipIdx_iff_getElem?.mpr hn)), ?_⟩
    rw [runEntries_eq_mapM] at hresults
    exact (hpasses n scenario).mp (Check.passes_mapM.mp ⟨_, hresults⟩
      ((scenario, q.nthConfig n scenario), n) (mem_entries_zipIdx.mpr ⟨hn, rfl⟩))
  · intro hall
    have hentries : allocateScenarioConfigs q.config q.scenarios = .ok q.entries := by
      refine allocateScenarioConfigs_eq_ok.mpr ⟨fun p hp => ?_, rfl⟩
      exact not_lt.mpr (hall p.2 p.1 (List.mem_zipIdx_iff_getElem?.mp hp)).1
    obtain ⟨results, hresults⟩ : Check.Passes (runEntries (executor q.worlds) 0 q.entries) := by
      rw [runEntries_eq_mapM, Check.passes_mapM]
      rintro ⟨⟨scenario, config⟩, n⟩ hp
      obtain ⟨hn, rfl⟩ := mem_entries_zipIdx.mp hp
      exact (hpasses n scenario).mpr (hall n scenario hn).2
    have horder : results.map (·.scenario) = q.entries.zipIdx.map (·.1.1) := by
      rw [runEntries_eq_mapM] at hresults
      refine Check.map_eq_of_mapM hresults ?_
      rintro ⟨⟨scenario, config⟩, n⟩ hp result hresult
      obtain ⟨-, rfl⟩ := mem_entries_zipIdx.mp hp
      exact scenario_of_result (hruns n scenario) hresult
    refine ⟨aggregateSuiteResults (createSuiteId q.world) q.world.startedAt q.world.completedAt
      q.world.durationMs results, ?_, ?_⟩
    · simp [Suite.run, runSuite, hmkdir, hwrite, awaitWrite, hentries, hresults]
    · exact horder.trans (entries_scenarios q)

/-- **Cleanup, failure reports and suites survive failing writes** exactly when the writes that
fail are none of these: for a run, the event that reports a failed collection, while the policy
asks for a removal, and the event that ends a failed workload; for a suite, the event that reports
a failed collection, the one that reports a failed removal, and the summary of a scenario and its
event. -/
theorem survives_iff {r : Run} {q : Suite} (hr : r.Started) (hq : q.Started) :
    (r.Survives ↔ (r.CollectThrows → r.preserveFailure ≠ some false) ∧
      (r.Unreported → r.CollectThrows ∨ r.CleanupThrows)) ∧
    (q.Continues ↔ ∀ n scenario, q.scenarios[n]? = some scenario →
      q.config.port + n ≤ 65535 ∧ (q.nth n scenario).Completes) :=
  ⟨run_survives_iff hr, suite_continues_iff hq⟩

/-- The collection fails, and the event that says so cannot be written. -/
def collectLost : Step → Option Thrown
  | .collect => some (newError "docker compose logs failed")
  | .collectionFailed => some (newError "ENOSPC: no space left on device")
  | _ => none

/-- The workload fails, and the event that ends it cannot be written. -/
def workloadLost : Step → Option Thrown
  | .executeWorkload => some (newError "connection reset")
  | .workloadFailed => some (newError "ENOSPC: no space left on device")
  | _ => none

/-- A suite of two scenarios, the first of which meets the given failures. -/
def twoScenarios (outcome : Step → Option Thrown) : Suite where
  config := (cacheLossRun outcome none).config
  scenarios := [.cacheLoss, .cleanRestart]
  world := quietSuite
  worlds
    | 0 => (cacheLossRun outcome none).world
    | _ => (cacheLossRun (fun _ => none) none).world

theorem survives_iff_lost :
    ¬(cacheLossRun workloadLost (some false)).Survives ∧
      ¬(twoScenarios collectLost).Continues := by
  have hstarted : (twoScenarios collectLost).Started := by
    refine ⟨rfl, rfl, fun n scenario => ?_⟩
    cases n <;> exact ⟨rfl, rfl⟩
  obtain ⟨hrun, hsuite⟩ := survives_iff (r := cacheLossRun workloadLost (some false))
    (q := twoScenarios collectLost) ⟨rfl, rfl⟩ hstarted
  refine ⟨?_, ?_⟩
  · rw [hrun]
    decide
  · rw [hsuite]
    exact fun hall => (hall 0 .cacheLoss rfl).2.1 ⟨rfl, rfl⟩

/-- A suite leaks a stack and stops before its second scenario; a run reports a failure without
a class. -/
theorem not_survives_lost :
    ¬((∀ r : Run, r.Started → r.Survives) ∧ ∀ q : Suite, q.Started →
      (∀ n < q.scenarios.length, q.config.port + n ≤ 65535) → q.Continues) ∧
    (runScenario (cacheLossRun workloadLost (some false)) Locals.init).1.toOption.map
      (fun result => (result.verdict, result.failureClassification, result.error)) =
        some (.failed, none, none) ∧
    Effect.cleanup ∉ (runScenario (cacheLossRun collectLost (some false)) Locals.init).2.trace ∧
    (twoScenarios collectLost).run = .error (newError "ENOSPC: no space left on device") := by
  refine ⟨?_, by decide, by decide, rfl⟩
  rintro ⟨hrun, -⟩
  obtain ⟨hcleanup, -⟩ := hrun (cacheLossRun collectLost (some false)) ⟨rfl, rfl⟩
  exact absurd (hcleanup (by decide)) (by decide)

end Scenario

end FitzDestroyer
