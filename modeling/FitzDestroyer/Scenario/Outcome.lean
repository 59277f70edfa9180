import FitzDestroyer.Scenario.Run

/-!
# The outcome of a run

What the `finally` block of `runScenario` adds to the variables it starts with, and the summary
of a run in terms of the effects that fail.

* `Run.AsksCleanup` : the policy asks for the removal of the stack;
* `Run.failure` : the class and the message of the failure before the removal;
* `finallyBlock_cases` : a handler of the block throws, or the summary is written;
* `runScenario_of_started` : a run whose first two effects succeed is its `finally` block.
-/

namespace FitzDestroyer

namespace Scenario

open Js

namespace Run

variable (r : Run)

/-- Every step up to the collection of the artifacts succeeds. -/
def Passed : Prop := r.firstError = none ∧ r.outcome .collect = none

instance : Decidable r.Passed := inferInstanceAs (Decidable (_ ∧ _))

/-- The policy asks for the removal of the stack: it passed so far and is not kept, or it failed
and is not preserved. -/
def AsksCleanup : Prop :=
  (r.Passed ∧ r.config.keep = false) ∨ (¬r.Passed ∧ r.preserveFailure = some false)

instance : Decidable r.AsksCleanup := inferInstanceAs (Decidable (_ ∨ _))

/-- The artifacts cannot be collected, and neither can the event that says so be written. -/
def CollectThrows : Prop :=
  (r.outcome .collect).isSome ∧ (r.outcome .collectionFailed).isSome

instance : Decidable r.CollectThrows := inferInstanceAs (Decidable (_ ∧ _))

/-- The stack cannot be removed, and neither can the event that says so be written. -/
def CleanupThrows : Prop :=
  r.AsksCleanup ∧ (r.outcome .cleanup).isSome ∧ (r.outcome .cleanupFailed).isSome

instance : Decidable r.CleanupThrows := inferInstanceAs (Decidable (_ ∧ _))

/-- The class and the message of the failure, before the stack is removed. -/
def failure : Option (FailureClassification × String) :=
  match r.firstError with
  | some (phase, error) =>
    if r.Unreported then none else some (classifyFailure error phase, error.errorMessage)
  | none => (r.outcome .collect).map fun error => (.setup, error.errorMessage)

/-- The class and the message of the failure of the whole run. -/
def finalFailure : Option (FailureClassification × String) :=
  if r.Passed then
    if r.AsksCleanup then
      (r.outcome .cleanup).map fun error => (.cleanup, error.errorMessage)
    else none
  else r.failure

end Run

variable {r : Run} {s s₀ s₁ : Locals}

/-! ### Collection -/

/-- The variables after the collection. -/
structure AfterCollect (r : Run) (s₀ s : Locals) : Prop where
  verdict : s.verdict = .passed ↔ r.Passed
  message : s.failureMessage = r.failure.map (·.2)
  classification : s.failureClassification = r.failure.map (·.1)
  cleanupError : s.cleanupError = none
  cleanupState : s.cleanupState = .preserved
  times : s.workloadStartedAt = none ↔ s.workloadCompletedAt = none
  trace : ∃ t u, s.trace = s₀.trace ++ t ++ u ∧ (∀ e ∈ t, e.step ∈ Run.trySteps) ∧
    r.HeadedBy t r.firstError ∧ (∀ e ∈ u, e.step = .collect ∨ e.step = .collectionFailed) ∧
    r.failures u = if r.outcome .collect = none then [] else [.collect]

/-- The failure of the `try` block is the one recorded when the `finally` block starts. -/
theorem AfterTry.failure_of_error (h : AfterTry r s₀ s) (hf : r.firstError ≠ none) :
    s.failureMessage = r.failure.map (·.2) ∧ s.failureClassification = r.failure.map (·.1) := by
  rw [h.message, h.classification]
  unfold Run.failure
  rcases he : r.firstError with _ | ⟨phase, error⟩
  · exact absurd he hf
  · by_cases hu : r.Unreported <;> simp [hu]

/-- The collection throws: nothing of the `finally` block follows. -/
theorem collectArtifacts_throws (h : r.CollectThrows) :
    ∃ error u, collectArtifacts r s = (.error error, { s with trace := s.trace ++ u }) ∧
      ∀ e ∈ u, e.step = .collect ∨ e.step = .collectionFailed := by
  obtain ⟨hc, hf⟩ := h
  obtain ⟨error, hc⟩ := Option.isSome_iff_exists.mp hc
  obtain ⟨error', hf⟩ := Option.isSome_iff_exists.mp hf
  refine ⟨error', [.collect, .collectionFailed error.errorMessage], ?_, by simp [Effect.step]⟩
  simp [collectArtifacts, Proc.tryCatch, attempt, attempt_seq, Effect.step, hc, hf, Locals.push]

/-- The collection returns. -/
theorem collectArtifacts_returns (h : AfterTry r s₀ s₁) (hc : ¬r.CollectThrows) :
    ∃ s, collectArtifacts r s₁ = (.ok (), s) ∧ AfterCollect r s₀ s := by
  obtain ⟨t, htrace, hsteps, hhead⟩ := h.trace
  rcases ho : r.outcome .collect with _ | error
  · -- The artifacts are collected.
    have hpassed : r.Passed ↔ r.firstError = none := by simp [Run.Passed, ho]
    have hfail : s₁.failureMessage = r.failure.map (·.2) ∧
        s₁.failureClassification = r.failure.map (·.1) := by
      by_cases hf : r.firstError = none
      · rw [h.message, h.classification]
        simp [Run.failure, hf, ho]
      · exact h.failure_of_error hf
    refine ⟨s₁.push .collect, by simp [collectArtifacts, Proc.tryCatch, attempt, Effect.step, ho],
      by rw [hpassed]; exact h.verdict, hfail.1, hfail.2, h.cleanupError, h.cleanupState, h.times,
      t, [.collect], by simp [htrace], hsteps, hhead, by simp [Effect.step], ?_⟩
    simp [Run.failures, Effect.step, ho]
  · have hf : r.outcome .collectionFailed = none := by
      simpa [Run.CollectThrows, ho] using hc
    have hpassed : ¬r.Passed := by simp [Run.Passed, ho]
    have hu : r.failures [.collect, .collectionFailed error.errorMessage] = [.collect] := by
      simp [Run.failures, Effect.step, ho, hf]
    by_cases hv : r.firstError = none
    · -- The collection is the first failure.
      have hpass : s₁.verdict = .passed := h.verdict.mpr hv
      refine ⟨{ s₁ with
          verdict := .failed
          failureMessage := some error.errorMessage
          failureClassification := some .setup
          trace := s₁.trace ++ [.collect, .collectionFailed error.errorMessage] },
        by simp [collectArtifacts, Proc.tryCatch, attempt, attempt_seq, get_seq, Proc.modify,
          Effect.step, ho, hf, Locals.push, hpass],
        by simp [hpassed], by simp [Run.failure, hv, ho], by simp [Run.failure, hv, ho],
        h.cleanupError, h.cleanupState, h.times, t,
        [.collect, .collectionFailed error.errorMessage], by simp [htrace], hsteps, hhead,
        by simp [Effect.step], by simp [hu, ho]⟩
    · -- A failure is recorded already.
      have hpass : s₁.verdict ≠ .passed := fun hp => hv (h.verdict.mp hp)
      refine ⟨{ s₁ with
          trace := s₁.trace ++ [.collect, .collectionFailed error.errorMessage] },
        by simp [collectArtifacts, Proc.tryCatch, attempt, attempt_seq, get_seq,
          Effect.step, ho, hf, Locals.push, hpass],
        by simp [hpassed, hpass], (h.failure_of_error hv).1, (h.failure_of_error hv).2,
        h.cleanupError, h.cleanupState, h.times, t,
        [.collect, .collectionFailed error.errorMessage], by simp [htrace], hsteps, hhead,
        by simp [Effect.step], by simp [hu, ho]⟩

/-! ### Removal -/

/-- The variables when the summary is made. -/
structure AfterCleanup (r : Run) (s₀ s : Locals) : Prop where
  verdict : s.verdict = .passed ↔ r.Passed ∧ (r.AsksCleanup → r.outcome .cleanup = none)
  message : s.failureMessage = r.finalFailure.map (·.2)
  classification : s.failureClassification = r.finalFailure.map (·.1)
  cleanupState : s.cleanupState =
    if r.AsksCleanup then if r.outcome .cleanup = none then .removed else .failed else .preserved
  times : s.workloadStartedAt = none ↔ s.workloadCompletedAt = none
  trace : ∃ t u v, s.trace = s₀.trace ++ t ++ u ++ v ∧ (∀ e ∈ t, e.step ∈ Run.trySteps) ∧
    r.HeadedBy t r.firstError ∧ (∀ e ∈ u, e.step = .collect ∨ e.step = .collectionFailed) ∧
    r.failures u = (if r.outcome .collect = none then [] else [.collect]) ∧
    (∀ e ∈ v, e.step = .cleanup ∨ e.step = .cleanupFailed) ∧
    (Effect.cleanup ∈ v ↔ r.AsksCleanup) ∧
    (r.outcome .cleanupFailed = none →
      r.failures v = if r.AsksCleanup ∧ r.outcome .cleanup ≠ none then [.cleanup] else [])

theorem AfterCollect.shouldCleanup_iff (h : AfterCollect r s₀ s) :
    shouldCleanup r s.verdict = true ↔ r.AsksCleanup := by
  unfold shouldCleanup Run.AsksCleanup
  by_cases hp : r.Passed
  · simp [h.verdict.mpr hp, hp]
  · have hv : s.verdict ≠ .passed := fun hv => hp (h.verdict.mp hv)
    simp [hv, hp]

/-- The removal throws: the summary is not written. -/
theorem cleanupStack_throws (h : AfterCollect r s₀ s) (hc : r.CleanupThrows) :
    ∃ error s' v, cleanupStack r s = (.error error, s') ∧ s'.trace = s.trace ++ v ∧
      Effect.cleanup ∈ v ∧ ∀ e ∈ v, e.step = .cleanup ∨ e.step = .cleanupFailed := by
  obtain ⟨ha, ho, hf⟩ := hc
  obtain ⟨error, ho⟩ := Option.isSome_iff_exists.mp ho
  obtain ⟨error', hf⟩ := Option.isSome_iff_exists.mp hf
  refine ⟨error', { s with
      cleanupError := some error.errorMessage
      cleanupState := .failed
      trace := s.trace ++ [.cleanup, .cleanupFailed error.errorMessage r.project] },
    [.cleanup, .cleanupFailed error.errorMessage r.project], ?_, rfl, by simp,
    by simp [Effect.step]⟩
  simp [cleanupStack, get_seq, h.shouldCleanup_iff.mpr ha, Proc.tryCatch, attempt_seq, modify_seq,
    Effect.step, ho, hf, Locals.push]

/-- The removal returns, or is not asked for. -/
theorem cleanupStack_returns (h : AfterCollect r s₀ s₁) (hc : ¬r.CleanupThrows) :
    ∃ s, cleanupStack r s₁ = (.ok (), s) ∧ AfterCleanup r s₀ s := by
  obtain ⟨t, u, htrace, hsteps, hhead, hu, hufail⟩ := h.trace
  by_cases ha : r.AsksCleanup
  · have hshould := h.shouldCleanup_iff.mpr ha
    rcases ho : r.outcome .cleanup with _ | error
    · -- The stack is removed.
      have hfinal : r.finalFailure = r.failure := by
        unfold Run.finalFailure
        by_cases hp : r.Passed
        · simp [hp, ha, ho, Run.failure, hp.1, hp.2]
        · simp [hp]
      refine ⟨{ s₁ with cleanupState := .removed, trace := s₁.trace ++ [.cleanup] },
        by simp [cleanupStack, get_seq, hshould, Proc.tryCatch, attempt_seq, Proc.modify,
          Effect.step, ho, Locals.push],
        by simp [ha, ho, h.verdict], by rw [hfinal]; exact h.message,
        by rw [hfinal]; exact h.classification, by simp [ha, ho], h.times, t, u, [.cleanup],
        by simp [htrace], hsteps, hhead, hu, hufail, by simp [Effect.step], by simp [ha], ?_⟩
      simp [Run.failures, Effect.step, ho]
    · have hf : r.outcome .cleanupFailed = none := by
        simpa [Run.CleanupThrows, ha, ho] using hc
      by_cases hp : r.Passed
      · -- The removal is the first failure.
        have hpass : s₁.verdict = .passed := h.verdict.mpr hp
        rw [hpass] at hshould
        refine ⟨{ s₁ with
            verdict := .failed
            failureMessage := some error.errorMessage
            failureClassification := some .cleanup
            cleanupError := some error.errorMessage
            cleanupState := .failed
            trace := s₁.trace ++ [.cleanup, .cleanupFailed error.errorMessage r.project] },
          by simp [cleanupStack, get_seq, hshould, Proc.tryCatch, attempt_seq, modify_seq,
            Proc.modify, Effect.step, ho, hf, Locals.push, hpass],
          by simp [ha, ho], by simp [Run.finalFailure, hp, ha, ho],
          by simp [Run.finalFailure, hp, ha, ho], by simp [ha, ho], h.times, t, u,
          [.cleanup, .cleanupFailed error.errorMessage r.project], by simp [htrace], hsteps,
          hhead, hu, hufail, by simp [Effect.step], by simp [ha], ?_⟩
        simp [Run.failures, Effect.step, ho, hf, ha]
      · -- A failure is recorded already.
        have hv : s₁.verdict ≠ .passed := fun hv => hp (h.verdict.mp hv)
        have hfinal : r.finalFailure = r.failure := by simp [Run.finalFailure, hp]
        refine ⟨{ s₁ with
            cleanupError := some error.errorMessage
            cleanupState := .failed
            trace := s₁.trace ++ [.cleanup, .cleanupFailed error.errorMessage r.project] },
          by simp [cleanupStack, get_seq, hshould, Proc.tryCatch, attempt_seq, modify_seq,
            Effect.step, ho, hf, Locals.push, hv],
          by simp [hv, hp], by rw [hfinal]; exact h.message,
          by rw [hfinal]; exact h.classification, by simp [ha, ho], h.times, t, u,
          [.cleanup, .cleanupFailed error.errorMessage r.project], by simp [htrace], hsteps,
          hhead, hu, hufail, by simp [Effect.step], by simp [ha], ?_⟩
        simp [Run.failures, Effect.step, ho, hf, ha]
  · -- The stack is preserved.
    have hshould : shouldCleanup r s₁.verdict = false := by
      rw [Bool.eq_false_iff]
      exact fun hs => ha (h.shouldCleanup_iff.mp hs)
    have hfinal : r.finalFailure = r.failure := by
      unfold Run.finalFailure
      by_cases hp : r.Passed
      · simp [hp, ha, Run.failure, hp.1, hp.2]
      · simp [hp]
    refine ⟨s₁, by simp [cleanupStack, get_seq, hshould], by simp [ha, h.verdict],
      by rw [hfinal]; exact h.message, by rw [hfinal]; exact h.classification,
      by simp [ha, h.cleanupState], h.times, t, u, [], by simp [htrace], hsteps, hhead, hu, hufail,
      by simp, by simp [ha], ?_⟩
    simp [Run.failures, ha]

/-! ### The whole run -/

/-- The first two effects of a run, made before its setup begins, succeed. -/
def Run.Started (r : Run) : Prop :=
  r.outcome .createArtifacts = none ∧ r.outcome .scenarioStarted = none

instance : Decidable r.Started := inferInstanceAs (Decidable (_ ∧ _))

/-- The effects before the `try` block. -/
def Run.prelude (r : Run) : List Effect :=
  [.createArtifacts r.runId, .scenarioStarted r.scenario r.runId r.project]

/-- The variables when the `try` block starts. -/
def Run.entry (r : Run) : Locals := { Locals.init with trace := r.prelude }

@[simp] theorem entry_trace (r : Run) : r.entry.trace = r.prelude := rfl

theorem runScenario_of_started (h : r.Started) :
    runScenario r Locals.init = finallyBlock r (tryBlock r r.entry).2 := by
  unfold runScenario
  rw [attempt_seq, Effect.step, h.1]
  dsimp only
  rw [attempt_seq, Effect.step, h.2]
  rfl

theorem afterTry_entry (r : Run) : AfterTry r r.entry (tryBlock r r.entry).2 :=
  afterTry_spec r r.entry rfl

/-- The summary is written and reported. -/
def writeOut (r : Run) : Proc Locals Thrown ScenarioResult := do
  let s ← Proc.get
  attempt r (.writeSummary (summary r s))
  attempt r (.scenarioComplete (summary r s))
  return summary r s

/-- What a run does: the collection throws, or the removal throws, or the summary is made. -/
theorem runScenario_cases (h : r.Started) :
    (r.CollectThrows ∧ ∃ error s t, runScenario r Locals.init = (.error error, s) ∧
      s.trace = r.prelude ++ t ∧
      ∀ e ∈ t, e.step ∈ Run.trySteps ∨ e.step = .collect ∨ e.step = .collectionFailed) ∨
    (¬r.CollectThrows ∧ r.CleanupThrows ∧ ∃ error s t,
      runScenario r Locals.init = (.error error, s) ∧ s.trace = r.prelude ++ t ∧
      Effect.cleanup ∈ t ∧ ∀ e ∈ t, e.step ∈ Run.trySteps ∨ e.step = .collect ∨
        e.step = .collectionFailed ∨ e.step = .cleanup ∨ e.step = .cleanupFailed) ∨
    (¬r.CollectThrows ∧ ¬r.CleanupThrows ∧ ∃ s, AfterCleanup r r.entry s ∧
      runScenario r Locals.init = writeOut r s) := by
  rw [runScenario_of_started h]
  have htry := afterTry_entry r
  unfold finallyBlock
  by_cases hcollect : r.CollectThrows
  · -- The collection throws: neither a removal nor a summary follows.
    refine .inl ⟨hcollect, ?_⟩
    obtain ⟨t, htrace, hsteps, -⟩ := htry.trace
    obtain ⟨error, u, hrun, hu⟩ := collectArtifacts_throws (s := (tryBlock r r.entry).2) hcollect
    refine ⟨error, _, t ++ u, Proc.bind_of_error hrun, by simp [htrace], ?_⟩
    intro e he
    rcases List.mem_append.mp he with h | h
    · exact .inl (hsteps e h)
    · exact .inr (hu e h)
  · obtain ⟨s₂, hrun, hafter⟩ := collectArtifacts_returns htry hcollect
    rw [Proc.bind_of_ok hrun]
    by_cases hcleanup : r.CleanupThrows
    · -- The removal throws: no summary follows.
      refine .inr (.inl ⟨hcollect, hcleanup, ?_⟩)
      obtain ⟨t, u, htrace, hsteps, -, hu, -⟩ := hafter.trace
      obtain ⟨error, s', v, hrun', htrace', hmem, hv⟩ := cleanupStack_throws hafter hcleanup
      refine ⟨error, s', t ++ u ++ v, Proc.bind_of_error hrun',
        by simp [htrace', htrace], List.mem_append_right _ hmem, ?_⟩
      intro e he
      rcases List.mem_append.mp he with h | h
      · rcases List.mem_append.mp h with h | h
        · exact .inl (hsteps e h)
        · rcases hu e h with h | h
          · exact .inr (.inl h)
          · exact .inr (.inr (.inl h))
      · exact .inr (.inr (.inr (hv e h)))
    · obtain ⟨s₃, hrun', hafter'⟩ := cleanupStack_returns hafter hcleanup
      exact .inr (.inr ⟨hcollect, hcleanup, s₃, hafter', Proc.bind_of_ok hrun'⟩)

/-- The effects of `writeOut`. -/
theorem writeOut_eq (r : Run) (s : Locals) :
    writeOut r s =
      match r.outcome .writeSummary with
      | some error => (.error error, s.push (.writeSummary (summary r s)))
      | none =>
        let s' := (s.push (.writeSummary (summary r s))).push (.scenarioComplete (summary r s))
        match r.outcome .scenarioComplete with
        | some error => (.error error, s')
        | none => (.ok (summary r s), s') := by
  unfold writeOut
  rw [get_seq, attempt_seq, Effect.step]
  rcases r.outcome .writeSummary with _ | error
  · dsimp only
    rw [attempt_seq, Effect.step]
    rcases r.outcome .scenarioComplete with _ | error <;> rfl
  · rfl

end Scenario

end FitzDestroyer
