import FitzDestroyer.Js.Error
import FitzDestroyer.Js.Proc
import FitzDestroyer.Scenario.Names

/-!
# One scenario run

`runScenario` (`src/scenario.ts`) prepares a Compose stack, runs a workload against it, collects
the artifacts, removes the stack if the policy asks for it, and writes a summary.  Every effect
of it may fail; a `World` says which ones do, and the trace of a run records the effects that
were attempted.

* `runScenario` : the function, with its `try`, `catch` and `finally` blocks as procedures;
* `classifyFailure` : the failure class of an error;
* `firstError` : the first effect of the `try` block that fails;
* `afterTry_spec` : the variables when the `finally` block starts.
-/

namespace FitzDestroyer

namespace Scenario

open Js

inductive Phase where
  | setup
  | workload
  deriving DecidableEq, Repr

inductive FailureClassification where
  | setup
  | workload
  | assertion
  | timeout
  | cleanup
  deriving DecidableEq, Repr

inductive CleanupState where
  | removed
  | preserved
  | failed
  deriving DecidableEq, Repr

inductive Verdict where
  | passed
  | failed
  deriving DecidableEq, Repr

/-- The settings of a run that `runScenario` reads. -/
structure RunConfig where
  scenario : ScenarioName
  rootDir : String
  destroyerImage : Option String
  port : ℕ
  keep : Bool

/-- The summary of a run. -/
structure ScenarioResult where
  scenario : ConcreteScenario
  runId : String
  project : String
  verdict : Verdict
  durationMs : ℤ
  workloadStartedAt : Option String
  workloadCompletedAt : Option String
  workloadDurationMs : Option ℤ
  artifactPath : String
  failureClassification : Option FailureClassification
  cleanupState : CleanupState
  error : Option String
  cleanupError : Option String
  cleanupCommand : Option String
  deriving DecidableEq

/-! ### Failure classes -/

/-- `/\b(?:timed? out|timeout|deadline)\b/iu` -/
def timeoutWords : Regex := .words ["time out", "timed out", "timeout", "deadline"]

/-- The words of an assertion failure. -/
def assertionWords : Regex := .words ["expected", "unexpected", "missing", "mismatch", "duplicate",
  "disappeared", "observed", "omitted", "did not", "does not", "quiesce", "reused"]

/-- The class of an error thrown in a phase. -/
def classifyFailure (error : Thrown) (phase : Phase) : FailureClassification :=
  if phase = .setup then .setup
  else if error.name = "TimeoutError" ∨ timeoutWords.test error.errorMessage then .timeout
  else if error.name = "AssertionError" ∨ assertionWords.test error.errorMessage then .assertion
  else .workload

/-! ### Effects -/

/-- The effects of a run. -/
inductive Step where
  | createArtifacts
  | scenarioStarted
  | preflight
  | reset
  | prepareImages
  | startCore
  | workloadStarted
  | executeWorkload
  | workloadPassed
  | stopFitz
  | workloadFailed
  | scenarioFailed
  | collect
  | collectionFailed
  | cleanup
  | cleanupFailed
  | writeSummary
  | scenarioComplete
  deriving DecidableEq, Repr

/-- The effects that write an event or the summary. -/
def Step.IsWrite : Step → Prop
  | .workloadStarted | .workloadPassed | .workloadFailed | .scenarioFailed | .collectionFailed
  | .cleanupFailed | .writeSummary | .scenarioComplete => True
  | _ => False

/-- An effect with the data it is given. -/
inductive Effect where
  | createArtifacts (runId : String)
  | scenarioStarted (scenario : ConcreteScenario) (runId project : String)
  | preflight
  | reset
  | prepareImages
  | startCore
  | workloadStarted (scenario : ConcreteScenario) (startedAt : String)
  | executeWorkload (scenario : ConcreteScenario)
  | workloadPassed (scenario : ConcreteScenario) (startedAt : Option String) (completedAt : String)
      (elapsedMs : ℤ)
  | stopFitz
  | workloadFailed (scenario : ConcreteScenario) (startedAt : Option String) (completedAt : String)
      (elapsedMs : ℤ)
  | scenarioFailed (error : String) (failureClassification : FailureClassification)
  | collect
  | collectionFailed (error : String)
  | cleanup
  | cleanupFailed (error project : String)
  | writeSummary (summary : ScenarioResult)
  | scenarioComplete (summary : ScenarioResult)
  deriving DecidableEq

/-- The step an effect belongs to. -/
def Effect.step : Effect → Step
  | createArtifacts _ => .createArtifacts
  | scenarioStarted _ _ _ => .scenarioStarted
  | preflight => .preflight
  | reset => .reset
  | prepareImages => .prepareImages
  | startCore => .startCore
  | workloadStarted _ _ => .workloadStarted
  | executeWorkload _ => .executeWorkload
  | workloadPassed _ _ _ _ => .workloadPassed
  | stopFitz => .stopFitz
  | workloadFailed _ _ _ _ => .workloadFailed
  | scenarioFailed _ _ => .scenarioFailed
  | collect => .collect
  | collectionFailed _ => .collectionFailed
  | cleanup => .cleanup
  | cleanupFailed _ _ => .cleanupFailed
  | writeSummary _ => .writeSummary
  | scenarioComplete _ => .scenarioComplete

/-- What a run meets: the effects that fail, and the readings of the clocks. -/
structure World where
  /-- The error an effect throws, if it fails. -/
  outcome : Step → Option Thrown
  /-- `new Date().toISOString()` and the random bytes of the run id. -/
  createdAt : String
  random : String
  /-- The clocks when the workload starts, when it ends and when the run ends. -/
  startedAt : String
  completedAt : String
  workloadMs : ℤ
  durationMs : ℤ

/-- A run: the settings, the scenario, `options.preserveFailure`, and what it meets. -/
structure Run where
  config : RunConfig
  scenario : ConcreteScenario
  preserveFailure : Option Bool
  world : World

namespace Run

variable (r : Run)

/-- The error of a step, if it fails. -/
def outcome (step : Step) : Option Thrown := r.world.outcome step

def runId : String := createRunId r.scenario r.world.createdAt r.world.random

def project : String := projectName (routeSegment r.runId)

def artifactPath : String := s!"{r.config.rootDir}/artifacts/{r.runId}"

/-- `#composeFiles` of the stack. -/
def composeFiles : List String :=
  let composeFile := s!"{r.config.rootDir}/" ++
    if r.config.destroyerImage.isNone then "compose.yml" else "compose.destroyer.yml"
  if r.config.scenario = .concrete .cacheAndDiskExhaustion then
    [composeFile, s!"{r.config.rootDir}/compose.exhaustion.yml"]
  else [composeFile]

/-- `stack.cleanupCommand()`. -/
def cleanupCommand : String :=
  let files := " ".intercalate (r.composeFiles.map fun file => s!"-f {file}")
  s!"docker compose {files} --project-name {r.project} --profile clients down --volumes " ++
    "--remove-orphans"

end Run

/-! ### The run -/

/-- The variables of `runScenario`, and the effects attempted so far. -/
structure Locals where
  verdict : Verdict
  failureClassification : Option FailureClassification
  failureMessage : Option String
  cleanupError : Option String
  cleanupState : CleanupState
  phase : Phase
  workloadStartedAt : Option String
  workloadCompletedAt : Option String
  workloadDurationMs : Option ℤ
  trace : List Effect
  deriving DecidableEq

/-- The variables before anything has run. -/
def Locals.init : Locals :=
  ⟨.failed, none, none, none, .preserved, .setup, none, none, none, []⟩

/-- An effect has been attempted. -/
def Locals.push (s : Locals) (e : Effect) : Locals := { s with trace := s.trace ++ [e] }

/-- `await` an effect. -/
def attempt (r : Run) (e : Effect) : Proc Locals Thrown Unit := fun s =>
  match r.outcome e.step with
  | none => (.ok (), s.push e)
  | some error => (.error error, s.push e)

/-- The `try` block up to the assignment of `phase`. -/
def setup (r : Run) : Proc Locals Thrown Unit := do
  attempt r .preflight
  attempt r .reset
  attempt r .prepareImages
  attempt r .startCore
  Proc.modify fun s => { s with phase := .workload }

/-- The rest of the `try` block. -/
def workload (r : Run) : Proc Locals Thrown Unit := do
  Proc.modify fun s => { s with workloadStartedAt := some r.world.startedAt }
  attempt r (.workloadStarted r.scenario r.world.startedAt)
  attempt r (.executeWorkload r.scenario)
  Proc.modify fun s => { s with
    workloadDurationMs := some r.world.workloadMs
    workloadCompletedAt := some r.world.completedAt }
  attempt r (.workloadPassed r.scenario (some r.world.startedAt) r.world.completedAt
    r.world.workloadMs)
  attempt r .stopFitz
  Proc.modify fun s => { s with verdict := .passed }

/-- The `catch` block. -/
def catchBlock (r : Run) (error : Thrown) : Proc Locals Thrown Unit := do
  let s ← Proc.get
  if s.workloadStartedAt ≠ none ∧ s.workloadCompletedAt = none then
    Proc.modify fun s => { s with
      workloadDurationMs := some r.world.workloadMs
      workloadCompletedAt := some r.world.completedAt }
    attempt r (.workloadFailed r.scenario s.workloadStartedAt r.world.completedAt
      r.world.workloadMs)
  Proc.modify fun s => { s with
    failureMessage := some error.errorMessage
    failureClassification := some (classifyFailure error s.phase) }
  attempt r (.scenarioFailed error.errorMessage (classifyFailure error s.phase))

/-- `await stack.collect().catch(..)`. -/
def collectArtifacts (r : Run) : Proc Locals Thrown Unit :=
  Proc.tryCatch (attempt r .collect) fun error => do
    let message := error.errorMessage
    attempt r (.collectionFailed message)
    let s ← Proc.get
    if s.verdict = .passed then
      Proc.modify fun s => { s with
        verdict := .failed
        failureMessage := some message
        failureClassification := some .setup }

/-- `verdict === "passed" ? !config.keep : options.preserveFailure === false`. -/
def shouldCleanup (r : Run) (verdict : Verdict) : Bool :=
  if verdict = .passed then !r.config.keep else r.preserveFailure == some false

/-- The removal of the stack, if the policy asks for it. -/
def cleanupStack (r : Run) : Proc Locals Thrown Unit := do
  let s ← Proc.get
  if shouldCleanup r s.verdict then
    Proc.tryCatch
      (do
        attempt r .cleanup
        Proc.modify fun s => { s with cleanupState := .removed })
      fun error => do
        let message := error.errorMessage
        Proc.modify fun s => { s with cleanupError := some message, cleanupState := .failed }
        attempt r (.cleanupFailed message r.project)
        let s ← Proc.get
        if s.verdict = .passed then
          Proc.modify fun s => { s with
            verdict := .failed
            failureMessage := some message
            failureClassification := some .cleanup }

/-- The summary of a run that ends with the variables `s`. -/
def summary (r : Run) (s : Locals) : ScenarioResult where
  scenario := r.scenario
  runId := r.runId
  project := r.project
  verdict := s.verdict
  durationMs := r.world.durationMs
  workloadStartedAt := s.workloadStartedAt
  workloadCompletedAt := s.workloadCompletedAt
  workloadDurationMs := s.workloadDurationMs
  artifactPath := r.artifactPath
  failureClassification := s.failureClassification
  cleanupState := s.cleanupState
  error := s.failureMessage
  cleanupError := s.cleanupError
  cleanupCommand := if s.cleanupState = .removed then none else some r.cleanupCommand

/-- The `finally` block. -/
def finallyBlock (r : Run) : Proc Locals Thrown ScenarioResult := do
  collectArtifacts r
  cleanupStack r
  let s ← Proc.get
  attempt r (.writeSummary (summary r s))
  attempt r (.scenarioComplete (summary r s))
  return summary r s

/-- `try { .. } catch { .. }`. -/
def tryBlock (r : Run) : Proc Locals Thrown Unit :=
  Proc.tryCatch (do setup r; workload r) (catchBlock r)

/-- A whole run. -/
def runScenario (r : Run) : Proc Locals Thrown ScenarioResult := do
  attempt r (.createArtifacts r.runId)
  attempt r (.scenarioStarted r.scenario r.runId r.project)
  Proc.finallyReturn (tryBlock r) (finallyBlock r)

/-! ### The `try` and `catch` blocks -/

namespace Run

variable (r : Run)

/-- The effects of the `try` block before the workload phase. -/
def setupSteps : List Step := [.preflight, .reset, .prepareImages, .startCore]

/-- The effects of the `try` block in the workload phase. -/
def workloadSteps : List Step := [.workloadStarted, .executeWorkload, .workloadPassed, .stopFitz]

/-- The effects of the `try` block in a phase. -/
def phaseSteps : Phase → List Step
  | .setup => setupSteps
  | .workload => workloadSteps

/-- The attempted steps that failed, in order. -/
def failures (trace : List Effect) : List Step :=
  (trace.map Effect.step).filter fun step => (r.outcome step).isSome

/-- The error of the first step of a list that fails. -/
def firstOf (steps : List Step) : Option Thrown := steps.findSome? r.outcome

/-- The first error of the `try` block, with its phase. -/
def firstError : Option (Phase × Thrown) :=
  match r.firstOf setupSteps with
  | some error => some (.setup, error)
  | none => (r.firstOf workloadSteps).map (.workload, ·)

/-- The first error strikes between the start and the end of the workload, and the event that
reports the end cannot be written: the `catch` block throws before it classifies the error. -/
def Unreported : Prop :=
  r.firstOf setupSteps = none ∧ (r.firstOf [.workloadStarted, .executeWorkload]).isSome ∧
    (r.outcome .workloadFailed).isSome

instance : Decidable r.Unreported := inferInstanceAs (Decidable (_ ∧ _ ∧ _))

end Run

variable {r : Run} {s s' : Locals}

@[simp] theorem push_trace (e : Effect) : (s.push e).trace = s.trace ++ [e] := rfl

theorem attempt_seq {α : Type} (e : Effect) (k : Unit → Proc Locals Thrown α) :
    (attempt r e >>= k) s =
      match r.outcome e.step with
      | none => k () (s.push e)
      | some error => (.error error, s.push e) := by
  rw [Proc.bind_apply, attempt]
  cases r.outcome e.step <;> rfl

theorem modify_seq {α : Type} (f : Locals → Locals) (k : Unit → Proc Locals Thrown α) :
    (Proc.modify f >>= k) s = k () (f s) := rfl

theorem get_seq {α : Type} (k : Locals → Proc Locals Thrown α) :
    (Proc.get >>= k) s = k s s := rfl

/-- What the `setup` part does: its first failing step throws, or the workload phase begins. -/
theorem setup_cases (r : Run) (s : Locals) :
    (∃ error t, r.firstOf Run.setupSteps = some error ∧
      setup r s = (.error error, { s with trace := s.trace ++ t }) ∧
      (∀ e ∈ t, e.step ∈ Run.setupSteps) ∧
      ∃ step ∈ Run.setupSteps, r.failures t = [step] ∧ r.outcome step = some error) ∨
    (∃ t, r.firstOf Run.setupSteps = none ∧
      setup r s = (.ok (), { s with phase := .workload, trace := s.trace ++ t }) ∧
      (∀ e ∈ t, e.step ∈ Run.setupSteps) ∧ r.failures t = []) := by
  simp only [setup, attempt_seq, Effect.step, Run.firstOf, Run.setupSteps]
  rcases h₁ : r.outcome .preflight with _ | error
  · rcases h₂ : r.outcome .reset with _ | error
    · rcases h₃ : r.outcome .prepareImages with _ | error
      · rcases h₄ : r.outcome .startCore with _ | error
        · exact .inr ⟨[.preflight, .reset, .prepareImages, .startCore],
            by simp [h₁, h₂, h₃, h₄], by simp [Proc.modify, Locals.push],
            by simp, by simp [Run.failures, Effect.step, h₁, h₂, h₃, h₄]⟩
        · exact .inl ⟨error, [.preflight, .reset, .prepareImages, .startCore],
            by simp [h₁, h₂, h₃, h₄], by simp [Locals.push], by simp,
            .startCore, by simp, by simp [Run.failures, Effect.step, h₁, h₂, h₃, h₄], h₄⟩
      · exact .inl ⟨error, [.preflight, .reset, .prepareImages], by simp [h₁, h₂, h₃],
          by simp [Locals.push], by simp, .prepareImages, by simp,
          by simp [Run.failures, Effect.step, h₁, h₂, h₃], h₃⟩
    · exact .inl ⟨error, [.preflight, .reset], by simp [h₁, h₂], by simp [Locals.push],
        by simp, .reset, by simp, by simp [Run.failures, Effect.step, h₁, h₂], h₂⟩
  · exact .inl ⟨error, [.preflight], by simp [h₁], by simp [Locals.push], by simp,
      .preflight, by simp, by simp [Run.failures, Effect.step, h₁], h₁⟩

/-- What the `workload` part does: a step before the end of the workload throws, or a step after
it, or the verdict is `passed`. -/
theorem workload_cases (r : Run) (s : Locals) :
    (∃ error t, r.firstOf [.workloadStarted, .executeWorkload] = some error ∧
      workload r s = (.error error, { s with
        workloadStartedAt := some r.world.startedAt
        trace := s.trace ++ t }) ∧
      (∀ e ∈ t, e.step ∈ Run.workloadSteps) ∧
      ∃ step ∈ Run.workloadSteps, r.failures t = [step] ∧ r.outcome step = some error) ∨
    (∃ error t, r.firstOf [.workloadStarted, .executeWorkload] = none ∧
      r.firstOf Run.workloadSteps = some error ∧
      workload r s = (.error error, { s with
        workloadStartedAt := some r.world.startedAt
        workloadCompletedAt := some r.world.completedAt
        workloadDurationMs := some r.world.workloadMs
        trace := s.trace ++ t }) ∧
      (∀ e ∈ t, e.step ∈ Run.workloadSteps) ∧
      ∃ step ∈ Run.workloadSteps, r.failures t = [step] ∧ r.outcome step = some error) ∨
    (∃ t, r.firstOf Run.workloadSteps = none ∧
      workload r s = (.ok (), { s with
        verdict := .passed
        workloadStartedAt := some r.world.startedAt
        workloadCompletedAt := some r.world.completedAt
        workloadDurationMs := some r.world.workloadMs
        trace := s.trace ++ t }) ∧
      (∀ e ∈ t, e.step ∈ Run.workloadSteps) ∧ r.failures t = []) := by
  simp only [workload, modify_seq, attempt_seq, Effect.step, Run.firstOf, Run.workloadSteps]
  -- The first effect that fails ends the workload; the times are kept once it has run.
  rcases h₁ : r.outcome .workloadStarted with _ | error
  · rcases h₂ : r.outcome .executeWorkload with _ | error
    · refine .inr ?_
      rcases h₃ : r.outcome .workloadPassed with _ | error
      · rcases h₄ : r.outcome .stopFitz with _ | error
        · exact .inr ⟨[.workloadStarted r.scenario r.world.startedAt, .executeWorkload r.scenario,
              .workloadPassed r.scenario (some r.world.startedAt) r.world.completedAt
                r.world.workloadMs, .stopFitz],
            by simp [h₁, h₂, h₃, h₄], by simp [Proc.modify, Locals.push],
            by simp, by simp [Run.failures, Effect.step, h₁, h₂, h₃, h₄]⟩
        · exact .inl ⟨error, [.workloadStarted r.scenario r.world.startedAt,
              .executeWorkload r.scenario,
              .workloadPassed r.scenario (some r.world.startedAt) r.world.completedAt
                r.world.workloadMs, .stopFitz],
            by simp [h₁, h₂], by simp [h₁, h₂, h₃, h₄], by simp [Locals.push],
            by simp, .stopFitz, by simp,
            by simp [Run.failures, Effect.step, h₁, h₂, h₃, h₄], h₄⟩
      · exact .inl ⟨error, [.workloadStarted r.scenario r.world.startedAt,
            .executeWorkload r.scenario,
            .workloadPassed r.scenario (some r.world.startedAt) r.world.completedAt
              r.world.workloadMs],
          by simp [h₁, h₂], by simp [h₁, h₂, h₃], by simp [Locals.push], by simp,
          .workloadPassed, by simp, by simp [Run.failures, Effect.step, h₁, h₂, h₃], h₃⟩
    · exact .inl ⟨error, [.workloadStarted r.scenario r.world.startedAt,
          .executeWorkload r.scenario],
        by simp [h₁, h₂], by simp [Locals.push], by simp,
        .executeWorkload, by simp, by simp [Run.failures, Effect.step, h₁, h₂], h₂⟩
  · exact .inl ⟨error, [.workloadStarted r.scenario r.world.startedAt], by simp [h₁],
      by simp [Locals.push], by simp, .workloadStarted, by simp,
      by simp [Run.failures, Effect.step, h₁], h₁⟩

/-- The `catch` block when no workload is running: it reports the error. -/
theorem catchBlock_of_not_running (error : Thrown)
    (h : ¬(s.workloadStartedAt ≠ none ∧ s.workloadCompletedAt = none)) :
    (catchBlock r error s).2 = { s with
      failureMessage := some error.errorMessage
      failureClassification := some (classifyFailure error s.phase)
      trace := s.trace ++
        [.scenarioFailed error.errorMessage (classifyFailure error s.phase)] } := by
  unfold catchBlock
  rw [get_seq, if_neg h]
  rcases hs : r.outcome .scenarioFailed with _ | error' <;>
    simp [modify_seq, attempt, Effect.step, hs, Locals.push]

/-- The `catch` block while the workload runs: it ends the workload, and reports the error unless
the event that ends the workload cannot be written. -/
theorem catchBlock_of_running (error : Thrown)
    (h : s.workloadStartedAt ≠ none ∧ s.workloadCompletedAt = none) :
    ∃ t, (∀ e ∈ t, e.step = .workloadFailed ∨ e.step = .scenarioFailed) ∧
      (catchBlock r error s).2 = { s with
        failureMessage :=
          if r.outcome .workloadFailed = none then some error.errorMessage else s.failureMessage
        failureClassification :=
          if r.outcome .workloadFailed = none then some (classifyFailure error s.phase)
          else s.failureClassification
        workloadDurationMs := some r.world.workloadMs
        workloadCompletedAt := some r.world.completedAt
        trace := s.trace ++ t } := by
  unfold catchBlock
  rw [get_seq, if_pos h]
  rcases hf : r.outcome .workloadFailed with _ | error'
  · refine ⟨[.workloadFailed r.scenario s.workloadStartedAt r.world.completedAt r.world.workloadMs,
      .scenarioFailed error.errorMessage (classifyFailure error s.phase)],
      by simp [Effect.step], ?_⟩
    rcases hs : r.outcome .scenarioFailed with _ | error' <;>
      simp [modify_seq, attempt_seq, attempt, Effect.step, hf, hs, Locals.push]
  · refine ⟨[.workloadFailed r.scenario s.workloadStartedAt r.world.completedAt r.world.workloadMs],
      by simp [Effect.step], ?_⟩
    simp [modify_seq, attempt_seq, Effect.step, hf, Locals.push]

/-- The effects of the `try` block and its `catch`. -/
def Run.trySteps : List Step :=
  Run.setupSteps ++ Run.workloadSteps ++ [.workloadFailed, .scenarioFailed]

/-- The failures in the trace are headed by the first error of the `try` block. -/
def Run.HeadedBy (r : Run) (trace : List Effect) : Option (Phase × Thrown) → Prop
  | none => r.failures trace = []
  | some (phase, error) => ∃ step ∈ Run.phaseSteps phase,
      (r.failures trace).head? = some step ∧ r.outcome step = some error

/-- The variables when the `finally` block starts. -/
structure AfterTry (r : Run) (s₀ s : Locals) : Prop where
  verdict : s.verdict = .passed ↔ r.firstError = none
  message : s.failureMessage =
    if r.Unreported then none else r.firstError.map fun p => p.2.errorMessage
  classification : s.failureClassification =
    if r.Unreported then none else r.firstError.map fun p => classifyFailure p.2 p.1
  cleanupError : s.cleanupError = none
  cleanupState : s.cleanupState = .preserved
  times : s.workloadStartedAt = none ↔ s.workloadCompletedAt = none
  trace : ∃ t, s.trace = s₀.trace ++ t ∧ (∀ e ∈ t, e.step ∈ Run.trySteps) ∧
    r.HeadedBy t r.firstError

@[simp] theorem failures_append (t u : List Effect) :
    r.failures (t ++ u) = r.failures t ++ r.failures u := by
  simp [Run.failures]

theorem firstOf_append (steps steps' : List Step) :
    r.firstOf (steps ++ steps') = (r.firstOf steps).or (r.firstOf steps') := by
  simp [Run.firstOf, List.findSome?_append]

theorem not_unreported_of_setup {error : Thrown} (h : r.firstOf Run.setupSteps = some error) :
    ¬r.Unreported := by
  rintro ⟨h', -⟩
  simp [h'] at h

theorem firstError_of_running {error : Thrown} (hf : r.firstOf Run.setupSteps = none)
    (hg : r.firstOf [.workloadStarted, .executeWorkload] = some error) :
    r.firstError = some (.workload, error) := by
  have hall : r.firstOf Run.workloadSteps = some error := by
    change r.firstOf ([.workloadStarted, .executeWorkload] ++ [.workloadPassed, .stopFitz]) = _
    rw [firstOf_append, hg]
    rfl
  simp [Run.firstError, hf, hall]

theorem firstError_of_unreported (h : r.Unreported) : r.firstError ≠ none := by
  obtain ⟨hf, hg, -⟩ := h
  obtain ⟨error, hg⟩ := Option.isSome_iff_exists.mp hg
  simp [firstError_of_running hf hg]

/-- The effects of the two parts and of the `catch` block are effects of the `try` block. -/
theorem mem_trySteps {t u v : List Effect} (ht : ∀ e ∈ t, e.step ∈ Run.setupSteps)
    (hu : ∀ e ∈ u, e.step ∈ Run.workloadSteps)
    (hv : ∀ e ∈ v, e.step = .workloadFailed ∨ e.step = .scenarioFailed) :
    ∀ e ∈ t ++ u ++ v, e.step ∈ Run.trySteps := by
  intro e he
  rcases List.mem_append.mp he with h | h
  · rcases List.mem_append.mp h with h | h
    · exact List.mem_append_left _ (List.mem_append_left _ (ht e h))
    · exact List.mem_append_left _ (List.mem_append_right _ (hu e h))
  · exact List.mem_append_right _ (by simpa using hv e h)

/-- The `try` block and its `catch` establish `AfterTry`. -/
theorem afterTry_spec (r : Run) (s₀ : Locals) (h₀ : s₀ = { Locals.init with trace := s₀.trace }) :
    AfterTry r s₀ (tryBlock r s₀).2 := by
  have hs : s₀.workloadStartedAt = none := by rw [h₀]; rfl
  have hc : s₀.workloadCompletedAt = none := by rw [h₀]; rfl
  have hv : s₀.verdict = .failed := by rw [h₀]; rfl
  have hm : s₀.failureMessage = none := by rw [h₀]; rfl
  have hk : s₀.failureClassification = none := by rw [h₀]; rfl
  have he : s₀.cleanupError = none := by rw [h₀]; rfl
  have hst : s₀.cleanupState = .preserved := by rw [h₀]; rfl
  have hp : s₀.phase = .setup := by rw [h₀]; rfl
  clear h₀
  unfold tryBlock Proc.tryCatch
  rcases setup_cases r s₀ with ⟨error, t, hf, hr, ht, step, hstep, hfail, hout⟩ |
    ⟨t, hf, hr, ht, hok⟩
  · -- A setup step fails: no workload is running in the `catch` block.
    have hfirst : r.firstError = some (.setup, error) := by simp [Run.firstError, hf]
    rw [Proc.bind_of_error hr]
    dsimp only
    rw [catchBlock_of_not_running error (by simp [hs])]
    refine ⟨by simp [hv, hfirst], by simp [not_unreported_of_setup hf, hfirst],
      by simp [not_unreported_of_setup hf, hfirst, hp], he, hst, by simp [hs, hc], ?_⟩
    refine ⟨t ++ [] ++ [.scenarioFailed error.errorMessage (classifyFailure error .setup)],
      by simp [hp], mem_trySteps ht (by simp) (by simp [Effect.step]), ?_⟩
    rw [hfirst]
    exact ⟨step, hstep, by simp [hfail], hout⟩
  · rw [Proc.bind_of_ok hr]
    rcases workload_cases r { s₀ with phase := .workload, trace := s₀.trace ++ t } with
      ⟨error, u, hg, hr', hu, step, hstep, hfail, hout⟩ |
      ⟨error, u, hg, hg', hr', hu, step, hstep, hfail, hout⟩ | ⟨u, hg, hr', hu, hok'⟩
    · -- The workload is running when the `catch` block starts.
      have hfirst : r.firstError = some (.workload, error) := firstError_of_running hf hg
      have hun : r.Unreported ↔ r.outcome .workloadFailed ≠ none := by
        simp [Run.Unreported, hf, hg, Option.isSome_iff_ne_none]
      rw [hr']
      dsimp only
      obtain ⟨v, hv', hcatch⟩ := catchBlock_of_running (r := r) error
        (s := { s₀ with
          phase := .workload
          workloadStartedAt := some r.world.startedAt
          trace := s₀.trace ++ t ++ u }) (by simp [hc])
      rw [hcatch]
      refine ⟨by simp [hv, hfirst], ?_, ?_, he, hst, by simp, ?_⟩
      · by_cases hfail : r.outcome .workloadFailed = none <;> simp [hun, hfail, hfirst, hm]
      · by_cases hfail : r.outcome .workloadFailed = none <;> simp [hun, hfail, hfirst, hk]
      · refine ⟨t ++ u ++ v, by simp, mem_trySteps ht hu hv', ?_⟩
        rw [hfirst]
        exact ⟨step, hstep, by simp [hok, hfail], hout⟩
    · -- The workload has ended when the `catch` block starts.
      have hfirst : r.firstError = some (.workload, error) := by simp [Run.firstError, hf, hg']
      have hun : ¬r.Unreported := by simp [Run.Unreported, hg]
      rw [hr']
      dsimp only
      rw [catchBlock_of_not_running error (by simp)]
      refine ⟨by simp [hv, hfirst], by simp [hun, hfirst], by simp [hun, hfirst], he, hst,
        by simp, ?_⟩
      refine ⟨t ++ u ++ [.scenarioFailed error.errorMessage (classifyFailure error .workload)],
        by simp, mem_trySteps ht hu (by simp [Effect.step]), ?_⟩
      rw [hfirst]
      exact ⟨step, hstep, by simp [hok, hfail], hout⟩
    · -- Nothing fails.
      have hfirst : r.firstError = none := by simp [Run.firstError, hf, hg]
      rw [hr']
      refine ⟨by simp [hfirst], by simp [hm, hfirst], by simp [hk, hfirst], he, hst, by simp, ?_⟩
      refine ⟨t ++ u ++ [], by simp, mem_trySteps ht hu (by simp), ?_⟩
      rw [hfirst]
      simp [Run.HeadedBy, hok, hok']

end Scenario

end FitzDestroyer
