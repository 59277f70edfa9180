import FitzDestroyer.Pressure.StageAccounting
import FitzDestroyer.Pressure.UnexpectedErrors

/-!
# Errors of the shutdown

A stage that fails after the shutdown signal counts its error as an expected cancellation too
(`observeStage`).  The report subtracts the expected ones (`parsePressureDomain`), the verdict on
the run does not (`pressureUnexpectedErrors`).

* `Agrees` : the verdict reports the domains of which the report counts errors;
* `stages_failed_iff_occurs`, `stages_unexpected_iff_occurs` : the errors of a run;
* `unexpectedErrors_agree_iff` : when the two agree.
-/

namespace FitzDestroyer

namespace Pressure

open Js Workload Check

/-! ### Two counts -/

/-- The definite failures of the stages. -/
def EvidenceDomain.definiteFailures (evidence : EvidenceDomain) : ℕ :=
  (evidence.stages.map fun p => p.2.metrics.failed).sum

/-- The failures that are expected shutdown cancellations. -/
def EvidenceDomain.shutdownFailures (evidence : EvidenceDomain) : ℕ :=
  (evidence.stages.map fun p => p.2.metrics.expectedShutdownCancellations.failed).sum

/-- The sum over the stages of `failed - expectedShutdownCancellations.failed`. -/
def EvidenceDomain.unexpectedFailures (evidence : EvidenceDomain) : ℤ :=
  (evidence.stages.map fun p =>
    (p.2.metrics.failed : ℤ) - p.2.metrics.expectedShutdownCancellations.failed).sum

/-- The verdict reports the domain of the client. -/
def ReportsDomain (client : PressureClientEvidence) (domain : Domain) : Prop :=
  pressureUnexpectedErrors [client] [domain] ≠ []

/-- **The verdict agrees with the report** on every Queue and Stream domain: it reports the domain
iff failures are left when the expected ones are subtracted, which is what the report counts. -/
def Agrees (clients : List PressureClientEvidence) (domains : List Domain) : Prop :=
  ∀ client ∈ clients, ∀ domain ∈ domains, domain = .queue ∨ domain = .stream →
    ∀ evidence, client.domains domain = some evidence →
      (ReportsDomain client domain ↔ 0 < evidence.unexpectedFailures) ∧
      ∀ localeCompare durationMs summary, Guidance.parsePressureDomain localeCompare domain
        (some (evidence.toJson false)) durationMs = .ok summary →
          (ReportsDomain client domain ↔ 0 < summary.errors)

theorem unexpectedFailures_eq (evidence : EvidenceDomain) : evidence.unexpectedFailures =
    (evidence.definiteFailures : ℤ) - evidence.shutdownFailures := by
  unfold EvidenceDomain.unexpectedFailures EvidenceDomain.definiteFailures
    EvidenceDomain.shutdownFailures
  induction evidence.stages with
  | nil => rfl
  | cons p stages ih =>
    simp only [List.map_cons, List.sum_cons, ih]
    push_cast
    omega

/-- Errors are left in the sum iff a stage has one that is not expected. -/
theorem unexpectedFailures_pos {evidence : EvidenceDomain} (h : ∀ p ∈ evidence.stages,
      p.2.metrics.expectedShutdownCancellations.failed ≤ p.2.metrics.failed) :
    0 < evidence.unexpectedFailures ↔ ∃ p ∈ evidence.stages,
      p.2.metrics.expectedShutdownCancellations.failed < p.2.metrics.failed := by
  unfold EvidenceDomain.unexpectedFailures
  generalize evidence.stages = stages at h ⊢
  induction stages with
  | nil => simp
  | cons p stages ih =>
    obtain ⟨hp, hstages⟩ := List.forall_mem_cons.mp h
    have hnonneg : 0 ≤ (stages.map fun p =>
        (p.2.metrics.failed : ℤ) - p.2.metrics.expectedShutdownCancellations.failed).sum := by
      refine List.sum_nonneg fun x hx => ?_
      obtain ⟨q, hq, rfl⟩ := List.mem_map.mp hx
      have := hstages q hq
      omega
    rw [List.exists_mem_cons_iff, ← ih hstages, List.map_cons, List.sum_cons]
    omega

/-- The reports of a run are those of its clients and domains. -/
theorem pressureUnexpectedErrors_eq (clients : List PressureClientEvidence)
    (domains : List Domain) : pressureUnexpectedErrors clients domains =
      clients.flatMap fun client => domains.flatMap fun domain =>
        pressureUnexpectedErrors [client] [domain] := by
  simp only [pressureUnexpectedErrors, List.flatMap_singleton]

theorem reportsDomain_iff {client : PressureClientEvidence} {domain : Domain}
    {evidence : EvidenceDomain} (hdomain : domain = .queue ∨ domain = .stream)
    (h : client.domains domain = some evidence) :
    ReportsDomain client domain ↔ evidence.definiteFailures ≠ 0 := by
  have hcount : unexpectedErrors domain (client.domains domain) = evidence.definiteFailures := by
    rw [h, unexpectedErrors, if_pos hdomain]
    rfl
  simp only [ReportsDomain, pressureUnexpectedErrors, List.flatMap_singleton, hcount]
  split_ifs with hzero <;> simp [hzero]

/-! ### What the report counts -/

theorem errors_of_parseStageSummary {domain : Domain} {name : String} {stage : EvidenceStage}
    {summary : Guidance.PressureStageSummary}
    (h : Guidance.parseStageSummary domain (name, stage.toJson false) = .ok summary) :
    summary.errors =
      (stage.metrics.failed : ℤ) - stage.metrics.expectedShutdownCancellations.failed := by
  simp only [Guidance.parseStageSummary, bind_eq, bind_eq_ok, pure_eq] at h
  obtain ⟨record, hrecord, histogram, -, _, -, failed, hfailed, ambiguous, -, cancelled, -,
    expected, hexpected, started, -, succeeded, -, heq⟩ := h
  obtain rfl := Except.ok.inj heq
  obtain rfl := Except.ok.inj hrecord
  obtain ⟨-, rfl⟩ := Guidance.nonNegativeInteger_count.mp hfailed
  change Guidance.expectedShutdownCancellations
    (some stage.metrics.expectedShutdownCancellations.toJson) _ _ _ _ _ = _ at hexpected
  simp only [Guidance.expectedShutdownCancellations, bind_eq, bind_eq_ok, pure_eq] at hexpected
  obtain ⟨_, hfields, expectedFailed, hexpectedFailed, expectedAmbiguous, -, -, -, heq⟩ := hexpected
  obtain rfl := Except.ok.inj heq
  obtain rfl := Except.ok.inj hfields
  obtain ⟨-, rfl⟩ := Guidance.nonNegativeInteger_count.mp hexpectedFailed
  rfl

/-- **The report** counts the failures that are not expected. -/
theorem errors_of_parsePressureDomain {localeCompare : String → String → Ordering}
    {domain : Domain} {evidence : EvidenceDomain} {durationMs : Number}
    {summary : Guidance.PressureDomainSummary}
    (h : Guidance.parsePressureDomain localeCompare domain (some (evidence.toJson false))
      durationMs = .ok summary) : summary.errors = evidence.unexpectedFailures := by
  simp only [Guidance.parsePressureDomain, bind_eq, bind_eq_ok] at h
  obtain ⟨_, hrecord, completed, -, _, hstagesRecord, stages, hstages, h⟩ := h
  obtain rfl := Except.ok.inj hrecord
  obtain rfl := Except.ok.inj hstagesRecord
  change (Guidance.sortedEntries localeCompare evidence.stages false).mapM _ = _ at hstages
  have herrors : (stages.map Guidance.PressureStageSummary.errors).sum =
      evidence.unexpectedFailures := by
    -- The stages are read in another order, which their sum does not see.
    have hperm : (evidence.stages.map fun p => (p.1, p.2.toJson false)).Perm
        (Guidance.sortedEntries localeCompare evidence.stages false) :=
      ((List.mergeSort_perm _ _).trans (Dict.entries_perm _)).symm
    obtain ⟨inOrder, hinOrder, hsame⟩ := List.perm_comp_forall₂ hperm (mapM_eq_ok.mp hstages)
    rw [← mapM_eq_ok, List.mapM_map] at hinOrder
    have hmap := map_eq_of_mapM (g := Guidance.PressureStageSummary.errors) hinOrder
      fun p _ summary => errors_of_parseStageSummary
    rw [← (hsame.map _).sum_eq, hmap, EvidenceDomain.unexpectedFailures]
  split at h
  · cases h
  · split at h
    · cases h
    · obtain rfl := Except.ok.inj h
      exact herrors

/-- **When the verdict agrees with the report.** -/
theorem agrees_iff (clients : List PressureClientEvidence) (domains : List Domain) :
    Agrees clients domains ↔
      ∀ client ∈ clients, ∀ domain ∈ domains, domain = .queue ∨ domain = .stream →
        ∀ evidence, client.domains domain = some evidence →
          evidence.definiteFailures = 0 ∨
            evidence.shutdownFailures < evidence.definiteFailures := by
  refine forall₂_congr fun client _ => forall₂_congr fun domain _ => forall_congr' fun hdomain =>
    forall₂_congr fun evidence hevidence => ?_
  have hcount := unexpectedFailures_eq evidence
  rw [reportsDomain_iff hdomain hevidence]
  constructor
  · rintro ⟨hverdict, -⟩
    omega
  · intro hcases
    have hverdict : evidence.definiteFailures ≠ 0 ↔ 0 < evidence.unexpectedFailures := by omega
    refine ⟨hverdict, fun localeCompare durationMs summary hsummary => ?_⟩
    rw [errors_of_parsePressureDomain hsummary]
    exact hverdict

/-! ### The errors of a run -/

/-- A stage of the domain has counted an error that is not an expected cancellation. -/
def PressureStages.Unexpected (stages : PressureStages) (domain : Domain) : Prop :=
  ∃ stage, (stages.stageMetrics domain stage).expectedShutdownCancellations.failed <
    (stages.stageMetrics domain stage).failed

/-- An operation fails with an error that its stage counts as a failure. -/
def IsDefinite (durable : Bool) (outcome : Except Thrown Unit) : Prop :=
  ∃ error, outcome = .error error ∧ (durable && isAmbiguousDurableError error) = false

/-- A stage of the domain fails with a definite error. -/
def FailsDefinitely (domain : Domain) (s : StageRun) (e : StageEvent) : Prop :=
  ∃ index outcome elapsedMs, e = .ended index outcome elapsedMs ∧
    ∃ operation ∈ s.inFlight[index]?, operation.domain = domain ∧
      IsDefinite operation.durableOutcomeCanBeAmbiguous outcome

/-- It does so before the shutdown: `observeStage` does not expect the error. -/
def FailsBeforeShutdown (domain : Domain) (s : StageRun) (e : StageEvent) : Prop :=
  s.aborted = false ∧ FailsDefinitely domain s e

/-- Only the end of an operation is a failure. -/
theorem not_failsDefinitely {domain : Domain} {s : StageRun} {e : StageEvent}
    (h : ∀ index outcome elapsedMs, e ≠ .ended index outcome elapsedMs) :
    ¬FailsDefinitely domain s e := by
  rintro ⟨index, outcome, elapsedMs, hevent, -⟩
  exact h index outcome elapsedMs hevent

theorem observeEnd_unexpected {m : StageMetrics} {durable aborted : Bool}
    {outcome : Except Thrown Unit} {elapsedMs : Number}
    (h : m.expectedShutdownCancellations.failed ≤ m.failed) :
    (observeEnd m durable aborted outcome elapsedMs).expectedShutdownCancellations.failed <
        (observeEnd m durable aborted outcome elapsedMs).failed ↔
      m.expectedShutdownCancellations.failed < m.failed ∨
        aborted = false ∧ IsDefinite durable outcome := by
  cases outcome with
  | ok _ => simp [observeEnd, IsDefinite]
  | error error =>
    simp only [observeEnd, recordStageError, IsDefinite, Except.error.injEq, exists_eq_left']
    cases durable && isAmbiguousDurableError error <;> cases aborted <;>
      simp [countStageError]
    omega

section Step

variable {Q : StageMetrics → Prop} {R : Bool → Prop} {s s' : StageRun} {e : StageEvent}

/-- What an event means for the stages of a domain, if only definite errors matter to them. -/
theorem exists_stage_step (h : s.AllAccounted) (hstep : stageSystem.step s e = some s')
    (hstart : ∀ m, Q (observeStart m) ↔ Q m) (hback : ∀ m, Q (recordBackpressure m) ↔ Q m)
    (hend : ∀ m durable outcome elapsedMs, m.expectedShutdownCancellations.failed ≤ m.failed →
      (Q (observeEnd m durable s.aborted outcome elapsedMs) ↔
        Q m ∨ R s.aborted ∧ IsDefinite durable outcome)) (domain : Domain) :
    (∃ stage, Q (s'.stages.stageMetrics domain stage)) ↔
      (∃ stage, Q (s.stages.stageMetrics domain stage)) ∨
        R s.aborted ∧ FailsDefinitely domain s e := by
  cases e with
  | started operation =>
    obtain rfl := Option.some.inj hstep
    rw [exists_stage_update h.named ((hstart _).trans (iff_of_eq (or_false _)).symm)]
    simp only [not_failsDefinitely (e := .started operation) nofun, and_false]
  | ended index outcome elapsedMs =>
    obtain ⟨operation, hoperation, rfl⟩ := Option.map_eq_some_iff.mp hstep
    rw [exists_stage_update h.named (hend _ _ _ _ (h.accounted _ _).cancelledFailed)]
    refine or_congr_right ?_
    constructor
    · rintro ⟨rfl, hexpects, hdefinite⟩
      exact ⟨hexpects, index, outcome, elapsedMs, rfl, operation, hoperation, rfl, hdefinite⟩
    · rintro ⟨hexpects, _, _, _, hevent, operation', hoperation', rfl, hdefinite⟩
      obtain ⟨rfl, rfl, rfl⟩ := StageEvent.ended.inj hevent
      obtain rfl := Option.some.inj (hoperation.symm.trans hoperation')
      exact ⟨rfl, hexpects, hdefinite⟩
  | backpressure domain' stage =>
    obtain rfl := Option.some.inj hstep
    rw [exists_stage_update h.named ((hback _).trans (iff_of_eq (or_false _)).symm)]
    simp only [not_failsDefinitely (e := .backpressure domain' stage) nofun, and_false]
  | shutdown =>
    obtain rfl := Option.some.inj hstep
    simp only [not_failsDefinitely (e := .shutdown) nofun, and_false, or_false]

end Step

section Run

variable {s : StageRun} {es : List StageEvent}

/-- A stage has counted an error iff one of its operations failed. -/
theorem stages_failed_iff_occurs (hr : stageSystem.run .start es = some s) (domain : Domain) :
    s.stages.Failed domain ↔ stageSystem.Occurs (FailsDefinitely domain) .start es := by
  have hoccurs := EventSys.iff_occurs (I := StageRun.AllAccounted)
    (P := fun s => s.stages.Failed domain) (g := FailsDefinitely domain)
    (fun _ _ _ => StageRun.AllAccounted.step)
    (fun s e s' h hstep => by
      have hcounts := exists_stage_step (Q := fun m => m.failed ≠ 0) (R := fun _ => True) h
        hstep (fun _ => Iff.rfl) (fun _ => Iff.rfl)
        (fun m durable outcome elapsedMs _ => by rw [true_and]; exact observeEnd_failed) domain
      rwa [true_and] at hcounts)
    StageRun.allAccounted_start hr
  rw [hoccurs, or_iff_right]
  rintro ⟨stage, hstage⟩
  exact hstage rfl

/-- It has counted an unexpected one iff one of them failed before the shutdown. -/
theorem stages_unexpected_iff_occurs (hr : stageSystem.run .start es = some s) (domain : Domain) :
    s.stages.Unexpected domain ↔
      stageSystem.Occurs (FailsBeforeShutdown domain) .start es := by
  have hoccurs := EventSys.iff_occurs (I := StageRun.AllAccounted)
    (P := fun s => s.stages.Unexpected domain) (g := FailsBeforeShutdown domain)
    (fun _ _ _ => StageRun.AllAccounted.step)
    (fun s e s' h hstep =>
      exists_stage_step (Q := fun m => m.expectedShutdownCancellations.failed < m.failed)
        (R := fun aborted => aborted = false) h hstep (fun _ => Iff.rfl) (fun _ => Iff.rfl)
        (fun _ _ _ _ => observeEnd_unexpected) domain)
    StageRun.allAccounted_start hr
  rw [hoccurs, or_iff_right]
  rintro ⟨stage, hstage⟩
  exact Nat.lt_irrefl 0 hstage

/-- The report counts an error of the domain iff a stage has counted an unexpected one. -/
theorem unexpectedFailures_readDomain (h : s.AllAccounted) (totals : Counters) (domain : Domain) :
    0 < (readDomain totals s.stages domain).unexpectedFailures ↔ s.stages.Unexpected domain := by
  have hle : ∀ p ∈ (readDomain totals s.stages domain).stages,
      p.2.metrics.expectedShutdownCancellations.failed ≤ p.2.metrics.failed := by
    by_contra hnot
    push Not at hnot
    obtain ⟨stage, hstage⟩ := (exists_mem_readDomain
      (Q := fun m => m.failed < m.expectedShutdownCancellations.failed) h.named
      (Nat.lt_irrefl 0)).mp hnot
    exact absurd (h.accounted domain stage).cancelledFailed (not_le.mpr hstage)
  rw [unexpectedFailures_pos hle]
  exact exists_mem_readDomain
    (Q := fun m => m.expectedShutdownCancellations.failed < m.failed) h.named (Nat.lt_irrefl 0)

end Run

/-- **When the verdict and the report agree on unexpected errors.**  The verdict reports each
client and domain by itself.  For all records it agrees with the report iff no domain has definite
failures all of which are expected.  In a run the report counts the failures
before the shutdown, and the verdict reports a domain for exactly these iff, once a stage of it
fails with a definite error, one fails so before the shutdown. -/
theorem unexpectedErrors_agree_iff (clients : List PressureClientEvidence)
    (domains : List Domain) :
    (pressureUnexpectedErrors clients domains =
      clients.flatMap fun client => domains.flatMap fun domain =>
        pressureUnexpectedErrors [client] [domain]) ∧
    (Agrees clients domains ↔
      ∀ client ∈ clients, ∀ domain ∈ domains, domain = .queue ∨ domain = .stream →
        ∀ evidence, client.domains domain = some evidence →
          evidence.definiteFailures = 0 ∨
            evidence.shutdownFailures < evidence.definiteFailures) ∧
    ∀ es s, stageSystem.run .start es = some s → ∀ totals domain,
      domain = .queue ∨ domain = .stream → ∀ client,
        client.domains domain = some (readDomain totals s.stages domain) →
          (0 < (readDomain totals s.stages domain).unexpectedFailures ↔
            stageSystem.Occurs (FailsBeforeShutdown domain) .start es) ∧
          ((ReportsDomain client domain ↔
              stageSystem.Occurs (FailsBeforeShutdown domain) .start es) ↔
            (stageSystem.Occurs (FailsDefinitely domain) .start es →
              stageSystem.Occurs (FailsBeforeShutdown domain) .start es)) := by
  refine ⟨pressureUnexpectedErrors_eq clients domains, agrees_iff clients domains,
    fun es s hr totals domain hdomain client hclient => ?_⟩
  have haccounted := StageRun.allAccounted_of_run hr
  have hreports : ReportsDomain client domain ↔
      stageSystem.Occurs (FailsDefinitely domain) .start es := by
    rw [reportsDomain_iff hdomain hclient, ← stages_failed_iff_occurs hr]
    exact failed_readDomain haccounted.named
  have hbefore : stageSystem.Occurs (FailsBeforeShutdown domain) .start es →
      stageSystem.Occurs (FailsDefinitely domain) .start es :=
    fun hoccurs => hoccurs.imp fun _ _ => And.right
  refine ⟨(unexpectedFailures_readDomain haccounted totals domain).trans
    (stages_unexpected_iff_occurs hr domain), ?_⟩
  rw [hreports]
  exact ⟨Iff.mp, fun himp => ⟨himp, hbefore⟩⟩

/-- An enqueue is in flight when the shutdown comes, and it is rejected. -/
def rejectedInShutdown : List StageEvent :=
  [.started ⟨.queue, "enqueue", true⟩, .shutdown, .ended 0 (.error (newError "rejected")) 1]

/-- What the host reads of a worker that runs the queue. -/
def StageRun.queueEvidence (s : StageRun) : PressureClientEvidence where
  container := "bombard"
  worker := "bombard"
  domains := fun domain =>
    if domain = .queue then some (readDomain emptyCounters s.stages .queue) else none
  queueOutcome := none

/-- **An expected cancellation fails the run.** -/
theorem not_agrees_rejectedInShutdown :
    ∃ s, stageSystem.run .start rejectedInShutdown = some s ∧ s.inFlight = [] ∧
      ¬Agrees [s.queueEvidence] [.queue] := by
  refine ⟨_, rfl, rfl, fun hagrees => ?_⟩
  have hcases := (agrees_iff _ _).mp hagrees _ List.mem_cons_self _ List.mem_cons_self (.inl rfl)
    _ rfl
  revert hcases
  decide +kernel

end Pressure

end FitzDestroyer
