import FitzDestroyer.Js.Collections
import FitzDestroyer.Pressure.Errors
import FitzDestroyer.Pressure.Latency
import FitzDestroyer.Pressure.Values
import FitzDestroyer.Run.Basic
import Mathlib.Data.List.Perm.Basic
import Mathlib.Logic.Function.Basic

/-!
# Stages of pressure operations

A bombard worker observes each stage of its operations (`observeStage` of `src/worker.ts`): it
counts a stage when it starts, and again when it succeeds or fails.  Operations of several domains
are in flight at the same time, and the shutdown signal can come at any time.

* `StageMetrics` : what is counted of a stage, with `observeStart` and `observeEnd`;
* `PressureStages` : the stages of all domains;
* `stageSystem` : operations that start and end in any order, and the signal;
* `StageAccounted` : the counters of a stage agree;
* `accounted_of_run` : they do so in every run.
-/

namespace FitzDestroyer

namespace Pressure

open Js

/-! ### Counters -/

/-- `expectedShutdownCancellations`. -/
structure ShutdownCancellations where
  failed : ℕ
  ambiguous : ℕ

structure ErrorSample where
  /-- `class`. -/
  errorClass : String
  error : String

structure StageMetrics where
  started : ℕ
  succeeded : ℕ
  failed : ℕ
  ambiguous : ℕ
  retryableBackpressure : ℕ
  expectedShutdownCancellations : ShutdownCancellations
  latency : LatencyHistogram
  errorClasses : Dict ℕ
  errorSamples : List ErrorSample

def createStageMetrics : StageMetrics where
  started := 0
  succeeded := 0
  failed := 0
  ambiguous := 0
  retryableBackpressure := 0
  expectedShutdownCancellations := ⟨0, 0⟩
  latency := .empty
  errorClasses := []
  errorSamples := []

/-- The counter of an error, and of an expected one. -/
def countStageError (metrics : StageMetrics) (ambiguous expectedShutdownCancellation : Bool) :
    StageMetrics :=
  let expected := metrics.expectedShutdownCancellations
  if ambiguous then { metrics with
    ambiguous := metrics.ambiguous + 1
    expectedShutdownCancellations :=
      if expectedShutdownCancellation then { expected with ambiguous := expected.ambiguous + 1 }
      else expected }
  else { metrics with
    failed := metrics.failed + 1
    expectedShutdownCancellations :=
      if expectedShutdownCancellation then { expected with failed := expected.failed + 1 }
      else expected }

def recordStageError (metrics : StageMetrics) (error : Thrown)
    (ambiguous expectedShutdownCancellation : Bool) : StageMetrics :=
  let errorClass := (normalizeErrorClass error).name
  let metrics := countStageError metrics ambiguous expectedShutdownCancellation
  { metrics with
    errorClasses := metrics.errorClasses.bump errorClass
    errorSamples :=
      if metrics.errorSamples.length < 5 then
        metrics.errorSamples ++ [⟨errorClass, error.errorMessage⟩]
      else metrics.errorSamples }

/-- `observeStage`, up to its operation. -/
def observeStart (metrics : StageMetrics) : StageMetrics :=
  { metrics with started := metrics.started + 1 }

/-- `observeStage`, after its operation. -/
def observeEnd (metrics : StageMetrics) (durableOutcomeCanBeAmbiguous aborted : Bool)
    (outcome : Except Thrown Unit) (elapsedMs : Number) : StageMetrics :=
  let metrics := match outcome with
    | .ok () => { metrics with succeeded := metrics.succeeded + 1 }
    | .error error => recordStageError metrics error
        (durableOutcomeCanBeAmbiguous && isAmbiguousDurableError error) aborted
  { metrics with latency := recordStageLatency metrics.latency elapsedMs }

/-- A request that is sent again, since the queue is full. -/
def recordBackpressure (metrics : StageMetrics) : StageMetrics :=
  { metrics with retryableBackpressure := metrics.retryableBackpressure + 1 }

/-- The stages of every domain.  A domain has an entry once it has a stage. -/
abbrev PressureStages := Domain → Dict StageMetrics

namespace PressureStages

/-- `stageMetrics`. -/
def stageMetrics (stages : PressureStages) (domain : Domain) (stage : String) : StageMetrics :=
  ((stages domain).get? stage).getD createStageMetrics

/-- A change of the record that `stageMetrics` returns. -/
def update (stages : PressureStages) (domain : Domain) (stage : String)
    (f : StageMetrics → StageMetrics) : PressureStages :=
  Function.update stages domain ((stages domain).set stage (f (stages.stageMetrics domain stage)))

/-- The stages of a domain have different names. -/
def Named (stages : PressureStages) : Prop := ∀ domain, ((stages domain).map Prod.fst).Nodup

variable {stages : PressureStages} {domain : Domain} {stage : String}
  {f : StageMetrics → StageMetrics}

theorem Named.update (h : stages.Named) : (stages.update domain stage f).Named := by
  intro domain'
  by_cases hdomain : domain' = domain
  · subst hdomain
    simpa only [PressureStages.update, Function.update_self] using Dict.nodup_set (h domain') _ _
  · simpa only [PressureStages.update, Function.update_of_ne hdomain] using h domain'

theorem stageMetrics_update (h : stages.Named) (domain' : Domain) (stage' : String) :
    (stages.update domain stage f).stageMetrics domain' stage' =
      if domain = domain' ∧ stage = stage' then f (stages.stageMetrics domain' stage')
      else stages.stageMetrics domain' stage' := by
  unfold stageMetrics update
  by_cases hdomain : domain' = domain
  · subst hdomain
    rw [Function.update_self, Dict.get?_set (h domain')]
    by_cases hstage : stage = stage'
    · subst hstage
      rw [if_pos rfl, if_pos ⟨rfl, rfl⟩]
      rfl
    · rw [if_neg hstage, if_neg fun hand => hstage hand.2]
  · rw [Function.update_of_ne hdomain, if_neg fun hand => hdomain hand.1.symm]

end PressureStages

/-! ### Runs -/

/-- A call of `observeStage`. -/
structure StageOperation where
  domain : Domain
  stage : String
  durableOutcomeCanBeAmbiguous : Bool

structure StageRun where
  stages : PressureStages
  /-- The operations that have started and not ended. -/
  inFlight : List StageOperation
  /-- `shutdown.signal.aborted`. -/
  aborted : Bool

/-- The run before the first operation. -/
def StageRun.start : StageRun := ⟨fun _ => [], [], false⟩

/-- What can happen next. -/
inductive StageEvent where
  | started (operation : StageOperation)
  /-- One of the operations in flight ends. -/
  | ended (index : ℕ) (outcome : Except Thrown Unit) (elapsedMs : ℚ)
  | backpressure (domain : Domain) (stage : String)
  | shutdown

/-- The state after an event, if it can happen. -/
def StageRun.step (s : StageRun) : StageEvent → Option StageRun
  | .started operation => some { s with
      stages := s.stages.update operation.domain operation.stage observeStart
      inFlight := s.inFlight ++ [operation] }
  | .ended index outcome elapsedMs => s.inFlight[index]?.map fun operation => { s with
      stages := s.stages.update operation.domain operation.stage fun metrics =>
        observeEnd metrics operation.durableOutcomeCanBeAmbiguous s.aborted outcome (.fin elapsedMs)
      inFlight := s.inFlight.eraseIdx index }
  | .backpressure domain stage =>
    some { s with stages := s.stages.update domain stage recordBackpressure }
  | .shutdown => some { s with aborted := true }

def stageSystem : EventSys StageRun StageEvent := ⟨StageRun.step⟩

/-! ### The counters agree -/

/-- The counters of a stage account for every operation, of which some are in flight. -/
structure StageAccounted (limit inFlight : ℕ) (m : StageMetrics) : Prop where
  started : m.started = m.succeeded + m.failed + m.ambiguous + inFlight
  ended : m.started = m.latency.count + inFlight
  latency : m.latency.Consistent
  classNames : (m.errorClasses.map Prod.fst).Nodup
  classes : (m.errorClasses.map Prod.snd).sum = m.failed + m.ambiguous
  cancelledFailed : m.expectedShutdownCancellations.failed ≤ m.failed
  cancelledAmbiguous : m.expectedShutdownCancellations.ambiguous ≤ m.ambiguous
  samples : m.errorSamples.length ≤ limit

section Step

variable {limit inFlight : ℕ} {m : StageMetrics}

theorem accounted_create (limit : ℕ) : StageAccounted limit 0 createStageMetrics where
  started := rfl
  ended := rfl
  latency := consistent_empty
  classNames := List.nodup_nil
  classes := rfl
  cancelledFailed := le_refl 0
  cancelledAmbiguous := le_refl 0
  samples := Nat.zero_le limit

theorem StageAccounted.observeStart (h : StageAccounted limit inFlight m) :
    StageAccounted limit (inFlight + 1) (observeStart m) :=
  { h with
    started := congrArg (· + 1) h.started
    ended := congrArg (· + 1) h.ended }

theorem StageAccounted.recordBackpressure (h : StageAccounted limit inFlight m) :
    StageAccounted limit inFlight (recordBackpressure m) := { h with }

/-- What an error adds to the counters. -/
theorem countStageError_failed (ambiguous expected : Bool) :
    (countStageError m ambiguous expected).failed +
      (countStageError m ambiguous expected).ambiguous = m.failed + m.ambiguous + 1 := by
  cases ambiguous with
  | true => exact (Nat.add_assoc m.failed m.ambiguous 1).symm
  | false => exact Nat.add_right_comm m.failed 1 m.ambiguous

/-- An expected error is counted with the errors of its kind. -/
theorem countStageError_cancelled (h : StageAccounted limit inFlight m)
    (ambiguous expected : Bool) :
    (countStageError m ambiguous expected).expectedShutdownCancellations.failed ≤
      (countStageError m ambiguous expected).failed ∧
    (countStageError m ambiguous expected).expectedShutdownCancellations.ambiguous ≤
      (countStageError m ambiguous expected).ambiguous := by
  have hfailed := h.cancelledFailed
  have hambiguous := h.cancelledAmbiguous
  cases ambiguous <;> cases expected <;> simp [countStageError] <;> omega

theorem countStageError_rest (ambiguous expected : Bool) :
    (countStageError m ambiguous expected).started = m.started ∧
    (countStageError m ambiguous expected).succeeded = m.succeeded ∧
    (countStageError m ambiguous expected).latency = m.latency ∧
    (countStageError m ambiguous expected).errorClasses = m.errorClasses ∧
    (countStageError m ambiguous expected).errorSamples = m.errorSamples := by
  cases ambiguous <;> exact ⟨rfl, rfl, rfl, rfl, rfl⟩

/-- The end of an operation. -/
theorem StageAccounted.observeEnd (h : StageAccounted 5 (inFlight + 1) m) (durable aborted : Bool)
    (outcome : Except Thrown Unit) (elapsedMs : ℚ) :
    StageAccounted 5 inFlight (observeEnd m durable aborted outcome (.fin elapsedMs)) := by
  obtain ⟨hlatency, hcount⟩ := consistent_recordStageLatency h.latency elapsedMs
  have hended : m.started = (recordStageLatency m.latency (.fin elapsedMs)).count + inFlight := by
    have := h.ended
    omega
  have hstarted := h.started
  cases outcome with
  | ok _ =>
    refine { h with started := ?_, ended := hended, latency := hlatency }
    show m.started = m.succeeded + 1 + m.failed + m.ambiguous + inFlight
    omega
  | error error =>
    -- The operation is counted as failed or as ambiguous, besides its error class.
    let ambiguous := durable && isAmbiguousDurableError error
    obtain ⟨hfailed, hambiguous⟩ := countStageError_cancelled h ambiguous aborted
    obtain ⟨hstarted', hsucceeded, hlatency', hclasses, hsamples⟩ :=
      countStageError_rest (m := m) ambiguous aborted
    have hsum := countStageError_failed (m := m) ambiguous aborted
    constructor
    case started =>
      show (countStageError m ambiguous aborted).started =
        (countStageError m ambiguous aborted).succeeded +
        (countStageError m ambiguous aborted).failed +
        (countStageError m ambiguous aborted).ambiguous + inFlight
      omega
    case ended =>
      show (countStageError m ambiguous aborted).started =
        (recordStageLatency (countStageError m ambiguous aborted).latency (.fin elapsedMs)).count +
          inFlight
      rw [hstarted', hlatency']
      exact hended
    case latency =>
      show (recordStageLatency (countStageError m ambiguous aborted).latency
        (.fin elapsedMs)).Consistent
      rw [hlatency']
      exact hlatency
    case classNames =>
      show (((countStageError m ambiguous aborted).errorClasses.bump _).map Prod.fst).Nodup
      rw [hclasses]
      exact Dict.nodup_bump h.classNames _
    case classes =>
      show (((countStageError m ambiguous aborted).errorClasses.bump _).map Prod.snd).sum =
        (countStageError m ambiguous aborted).failed +
          (countStageError m ambiguous aborted).ambiguous
      rw [hclasses, Dict.sum_bump h.classNames, h.classes, hsum]
    case cancelledFailed => exact hfailed
    case cancelledAmbiguous => exact hambiguous
    case samples =>
      have hle := h.samples
      show (if (countStageError m ambiguous aborted).errorSamples.length < 5 then
        (countStageError m ambiguous aborted).errorSamples ++ [_]
        else (countStageError m ambiguous aborted).errorSamples).length ≤ 5
      rw [hsamples]
      split_ifs with hlt
      · rw [List.length_append, List.length_singleton]
        omega
      · exact hle

end Step

namespace StageRun

/-- The operations of a stage that are in flight. -/
def pending (s : StageRun) (domain : Domain) (stage : String) : ℕ :=
  s.inFlight.countP fun operation => operation.domain = domain ∧ operation.stage = stage

/-- Every stage is accounted for. -/
structure AllAccounted (s : StageRun) : Prop where
  named : s.stages.Named
  accounted : ∀ domain stage,
    StageAccounted 5 (s.pending domain stage) (s.stages.stageMetrics domain stage)

theorem allAccounted_start : StageRun.start.AllAccounted where
  named := fun _ => List.nodup_nil
  accounted := fun _ _ => accounted_create 5

/-- One event keeps every stage accounted for. -/
theorem AllAccounted.step {s s' : StageRun} {e : StageEvent} (h : s.AllAccounted)
    (hstep : stageSystem.step s e = some s') : s'.AllAccounted := by
  cases e with
  | started operation =>
    obtain rfl := Option.some.inj hstep
    refine ⟨h.named.update, fun domain stage => ?_⟩
    have haccounted := h.accounted domain stage
    simp only [pending, List.countP_append, List.countP_singleton,
      PressureStages.stageMetrics_update h.named, decide_eq_true_eq]
    split_ifs
    · exact haccounted.observeStart
    · exact haccounted
  | ended index outcome elapsedMs =>
    obtain ⟨operation, hoperation, rfl⟩ := Option.map_eq_some_iff.mp hstep
    obtain ⟨hindex, rfl⟩ := List.getElem?_eq_some_iff.mp hoperation
    let settle metrics := observeEnd metrics s.inFlight[index].durableOutcomeCanBeAmbiguous
      s.aborted outcome (.fin elapsedMs)
    refine ⟨h.named.update (f := settle), fun domain stage => ?_⟩
    have haccounted := h.accounted domain stage
    -- The operation that ends is one of those that were pending in its stage.
    have hpending : s.pending domain stage =
        (s.inFlight.eraseIdx index).countP (fun operation =>
          operation.domain = domain ∧ operation.stage = stage) +
        if s.inFlight[index].domain = domain ∧ s.inFlight[index].stage = stage then 1 else 0 := by
      rw [pending, ← (List.getElem_cons_eraseIdx_perm hindex).countP_eq, List.countP_cons]
      simp only [decide_eq_true_eq]
    simp only [PressureStages.stageMetrics_update h.named]
    split_ifs at hpending ⊢ with hsame
    · rw [hpending] at haccounted
      exact haccounted.observeEnd _ _ _ _
    · rw [hpending] at haccounted
      exact haccounted
  | backpressure domain stage =>
    obtain rfl := Option.some.inj hstep
    refine ⟨h.named.update, fun domain' stage' => ?_⟩
    have haccounted := h.accounted domain' stage'
    simp only [PressureStages.stageMetrics_update h.named]
    split_ifs
    · exact haccounted.recordBackpressure
    · exact haccounted
  | shutdown =>
    obtain rfl := Option.some.inj hstep
    exact ⟨h.named, h.accounted⟩

/-- **Every run accounts for its operations.** -/
theorem allAccounted_of_run {s : StageRun} {es : List StageEvent}
    (h : stageSystem.run .start es = some s) : s.AllAccounted :=
  EventSys.invariant (fun _ _ _ hs hstep => hs.step hstep) allAccounted_start h

end StageRun

end Pressure

end FitzDestroyer
