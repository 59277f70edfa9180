import FitzDestroyer.Pressure.Bombard

/-!
# Errors that the verdict reports

The verdict counts the errors of the queue and of the stream by stages, since their operations are
reconciled, and the errors of the other domains by operations.  An error that the check of a
reserved item throws between two stages is counted by the operations only.

* `Bombard.Counts` : what the verdict counts for a domain;
* `RejectsPayload`, `FailsStage` : the two ways of an operation to reject with a definite error;
* `bombard_reports_iff` : when every definite error is reported.
-/

namespace FitzDestroyer

namespace Pressure

open Js Workload

/-! ### Stages that have failed -/

/-- A stage of the domain has counted a definite error. -/
def PressureStages.Failed (stages : PressureStages) (domain : Domain) : Prop :=
  ∃ stage, (stages.stageMetrics domain stage).failed ≠ 0

section Failed

variable {stages : PressureStages} {domain : Domain} {stage : String}
  {f : StageMetrics → StageMetrics}

/-- What a change of one stage means for the stages of a domain. -/
theorem exists_stage_update {Q : StageMetrics → Prop} {P : Prop} (h : stages.Named)
    (hf : Q (f (stages.stageMetrics domain stage)) ↔ Q (stages.stageMetrics domain stage) ∨ P)
    (domain' : Domain) :
    (∃ stage', Q ((stages.update domain stage f).stageMetrics domain' stage')) ↔
      (∃ stage', Q (stages.stageMetrics domain' stage')) ∨ domain = domain' ∧ P := by
  simp only [PressureStages.stageMetrics_update h]
  constructor
  · rintro ⟨stage', hstage⟩
    split_ifs at hstage with hsame
    · obtain ⟨rfl, rfl⟩ := hsame
      exact (hf.mp hstage).imp (fun h => ⟨_, h⟩) fun h => ⟨rfl, h⟩
    · exact .inl ⟨stage', hstage⟩
  · rintro (⟨stage', hstage⟩ | ⟨rfl, hP⟩)
    · refine ⟨stage', ?_⟩
      split_ifs with hsame
      · obtain ⟨rfl, rfl⟩ := hsame
        exact hf.mpr (.inl hstage)
      · exact hstage
    · refine ⟨stage, ?_⟩
      rw [if_pos ⟨rfl, rfl⟩]
      exact hf.mpr (.inr hP)

theorem failed_update {P : Prop} (h : stages.Named)
    (hf : ∀ m, (f m).failed ≠ 0 ↔ m.failed ≠ 0 ∨ P) (domain' : Domain) :
    (stages.update domain stage f).Failed domain' ↔
      stages.Failed domain' ∨ domain = domain' ∧ P :=
  exists_stage_update (Q := fun m => m.failed ≠ 0) h (hf _) domain'

/-- A change that counts no error. -/
theorem failed_update_of_eq (h : stages.Named) (hf : ∀ m, (f m).failed = m.failed)
    (domain' : Domain) : (stages.update domain stage f).Failed domain' ↔ stages.Failed domain' := by
  rw [failed_update (P := False) h (fun m => by rw [hf, or_false]), and_false, or_false]

/-- The stages that the host reads are those of the worker. -/
theorem exists_mem_readDomain {Q : StageMetrics → Prop} {totals : Counters} (h : stages.Named)
    (hQ : ¬Q (readStage createStageMetrics).metrics) :
    (∃ p ∈ (readDomain totals stages domain).stages, Q p.2.metrics) ↔
      ∃ stage, Q (readStage (stages.stageMetrics domain stage)).metrics := by
  have hmem : ∀ p : String × StageMetrics, p ∈ Dict.entries (stages domain) ↔
      (stages domain).get? p.1 = some p.2 :=
    fun p => (Dict.entries_perm _).mem_iff.trans (Dict.get?_eq_some (h domain)).symm
  simp only [readDomain, List.mem_map, ↓existsAndEq, and_true]
  constructor
  · rintro ⟨p, hp, hstage⟩
    refine ⟨p.1, ?_⟩
    rw [PressureStages.stageMetrics, (hmem p).mp hp]
    exact hstage
  · rintro ⟨stage, hstage⟩
    unfold PressureStages.stageMetrics at hstage
    cases hget : (stages domain).get? stage with
    | none =>
      rw [hget] at hstage
      exact absurd hstage hQ
    | some m =>
      rw [hget] at hstage
      exact ⟨(stage, m), (hmem _).mpr hget, hstage⟩

/-- The host reads a definite error iff a stage has counted one. -/
theorem failed_readDomain {totals : Counters} (h : stages.Named) :
    ((readDomain totals stages domain).stages.map fun p => p.2.metrics.failed).sum ≠ 0 ↔
      stages.Failed domain := by
  rw [Ne, List.sum_eq_zero_iff_forall_eq_nat]
  simp only [List.mem_map, forall_exists_index, and_imp, forall_apply_eq_imp_iff₂, not_forall,
    exists_prop]
  exact exists_mem_readDomain (Q := fun m => m.failed ≠ 0) h (not_not.mpr rfl)

end Failed

/-! ### What the verdict reports -/

namespace Bombard

/-- What the verdict counts for the domain is not zero. -/
def Counts (s : Bombard) (domain : Domain) : Prop :=
  if domain = .queue ∨ domain = .stream then s.stages.Failed domain
  else (s.totals domain).error ≠ 0

theorem unexpectedErrors_ne_zero {s : Bombard} {domain : Domain} (h : s.stages.Named) :
    unexpectedErrors domain (some (readDomain s.totals s.stages domain)) ≠ 0 ↔
      s.Counts domain := by
  unfold unexpectedErrors Counts
  split_ifs
  · exact failed_readDomain h
  · exact Iff.rfl

end Bombard

/-- The lines of different domains are different. -/
theorem line_inj {worker : String} {domain other : Domain} {m n : ℕ}
    (h : s!"{worker}/{domain.name}={m}" = s!"{worker}/{other.name}={n}") :
    domain = other := by
  have hname : ∀ (domain : Domain) (rest : List Char),
      (domain.name.toList ++ '=' :: rest).takeWhile (· ≠ '=') = domain.name.toList := by
    intro domain rest
    have hequals : ∀ c ∈ domain.name.toList, decide (c ≠ '=') = true := by
      cases domain <;> decide
    rw [List.takeWhile_append_of_pos hequals]
    simp
  have htext := congrArg String.toList h
  simp only [toString, String.toList_append, List.append_assoc] at htext
  have hrest := congrArg (List.takeWhile (· ≠ '='))
    (List.append_cancel_left (List.append_cancel_left htext))
  refine Domain.name_injective (String.toList_inj.mp ?_)
  exact (hname domain _).symm.trans (hrest.trans (hname other _))

section Reported

variable {selected : List Domain} {worker : RouteSegment} {s : Bombard}

/-- What the worker has counted, as evidence. -/
def Bombard.evidence (selected : List Domain) (worker : RouteSegment) (s : Bombard) :
    PressureClientEvidence where
  container := worker.text
  worker := worker.text
  domains := fun domain =>
    if domain ∈ selected then some (readDomain s.totals s.stages domain) else none
  queueOutcome := none

theorem evidences_evidence : Evidences selected worker s (s.evidence selected worker) :=
  ⟨rfl, fun _ hdomain => if_pos hdomain⟩

theorem reported_of_counts {clients : List PressureClientEvidence}
    {client : PressureClientEvidence} {domain : Domain} (h : s.stages.Named)
    (hclient : client ∈ clients) (hevidences : Evidences selected worker s client)
    (hdomain : domain ∈ selected) (hcounts : s.Counts domain) :
    Reported selected worker clients domain := by
  obtain ⟨hworker, hdomains⟩ := hevidences
  refine ⟨_, (Bombard.unexpectedErrors_ne_zero h).mpr hcounts, ?_⟩
  refine List.mem_flatMap.mpr ⟨client, hclient, List.mem_flatMap.mpr ⟨domain, hdomain, ?_⟩⟩
  simp only [hdomains domain hdomain, hworker]
  rw [if_neg ((Bombard.unexpectedErrors_ne_zero h).mpr hcounts)]
  exact List.mem_singleton_self _

theorem counts_of_reported {domain : Domain} (h : s.stages.Named)
    (hreported : Reported selected worker [s.evidence selected worker] domain) :
    s.Counts domain := by
  obtain ⟨count, -, hline⟩ := hreported
  obtain ⟨client, hclient, hline⟩ := List.mem_flatMap.mp hline
  obtain rfl := List.mem_singleton.mp hclient
  obtain ⟨domain', hdomain', hline⟩ := List.mem_flatMap.mp hline
  simp only [evidences_evidence.2 domain' hdomain'] at hline
  split_ifs at hline with hzero
  · cases hline
  · obtain rfl := line_inj (List.mem_singleton.mp hline)
    exact (Bombard.unexpectedErrors_ne_zero h).mp hzero

end Reported

/-! ### What an event changes -/

/-- The answer that an event brings. -/
def BombardEvent.answer? : BombardEvent → Option BombardAnswer
  | .ended answer _ => some answer
  | _ => none

/-- The stage counts a definite error. -/
def BombardAnswer.Fails (answer : BombardAnswer) : Prop :=
  ∃ error, answer.outcome = .error error ∧
    (answer.stage.durableOutcomeCanBeAmbiguous && isAmbiguousDurableError error) = false

/-- A stage of the domain fails with a definite error. -/
def FailsStage (domain : Domain) (e : BombardEvent) : Prop :=
  ∃ answer ∈ e.answer?, answer.stage.domain = domain ∧ answer.Fails

/-- The check of a reserved item fails with a definite error before the shutdown. -/
def RejectsPayload (namespaceName worker : RouteSegment) (s : Bombard) (e : BombardEvent) : Prop :=
  s.aborted = false ∧ ∃ answer ∈ e.answer?, ∃ error ∈ answer.payloadError? namespaceName worker,
    isAmbiguousDurableError error = false

/-- The error that the operation throws after the stage. -/
def BombardAnswer.thrown? (namespaceName worker : RouteSegment) (answer : BombardAnswer) :
    Option Thrown :=
  match answer.outcome with
  | .error error => some error
  | .ok () => answer.payloadError? namespaceName worker

theorem observeEnd_failed {m : StageMetrics} {durable aborted : Bool}
    {outcome : Except Thrown Unit} {elapsedMs : Number} :
    (observeEnd m durable aborted outcome elapsedMs).failed ≠ 0 ↔ m.failed ≠ 0 ∨
      ∃ error, outcome = .error error ∧ (durable && isAmbiguousDurableError error) = false := by
  cases outcome with
  | ok _ => simp [observeEnd]
  | error error =>
    simp only [observeEnd, recordStageError, Except.error.injEq, exists_eq_left']
    cases durable && isAmbiguousDurableError error <;> simp [countStageError]

namespace Bombard

variable {s : Bombard}

section Parts

variable {stage : BombardStage} {domain : Domain} {error : Thrown} {answer : BombardAnswer}
  {elapsedMs : ℚ}

@[simp] theorem stages_goTo {phase : LoopPhase} : (s.goTo domain phase).stages = s.stages := rfl

@[simp] theorem rejected_goTo {phase : LoopPhase} : (s.goTo domain phase).rejected = s.rejected :=
  rfl

@[simp] theorem totals_goTo {phase : LoopPhase} : (s.goTo domain phase).totals = s.totals := rfl

@[simp] theorem stages_succeed : (s.succeed domain).stages = s.stages := rfl

@[simp] theorem rejected_succeed : (s.succeed domain).rejected = s.rejected := rfl

@[simp] theorem rejected_observe : (s.observe stage).rejected = s.rejected := rfl

@[simp] theorem totals_observe : (s.observe stage).totals = s.totals := rfl

@[simp] theorem rejected_settle : (s.settle answer elapsedMs).rejected = s.rejected := rfl

@[simp] theorem totals_settle : (s.settle answer elapsedMs).totals = s.totals := rfl

@[simp] theorem aborted_settle : (s.settle answer elapsedMs).aborted = s.aborted := rfl

theorem stages_settle : (s.settle answer elapsedMs).stages =
    s.stages.update answer.stage.domain answer.stage.name fun metrics =>
      observeEnd metrics answer.stage.durableOutcomeCanBeAmbiguous s.aborted answer.outcome
        (.fin elapsedMs) := rfl

@[simp] theorem stages_record : (s.record answer).stages = s.stages := by cases answer <;> rfl

@[simp] theorem rejected_record : (s.record answer).rejected = s.rejected := by
  cases answer <;> rfl

@[simp] theorem totals_record : (s.record answer).totals = s.totals := by cases answer <;> rfl

@[simp] theorem aborted_record : (s.record answer).aborted = s.aborted := by cases answer <;> rfl

@[simp] theorem loops_record : (s.record answer).loops = s.loops := by cases answer <;> rfl

@[simp] theorem stages_reject : (s.reject domain error).stages = s.stages := by
  unfold reject
  split_ifs <;> rfl

theorem rejected_reject : (s.reject domain error).rejected =
    s.rejected ++ if s.aborted then [] else [(domain, error)] := by
  unfold reject
  split_ifs
  · exact (List.append_nil _).symm
  · rfl

end Parts

section Event

variable {selected : List Domain} {namespaceName worker : RouteSegment} {answer : BombardAnswer}
  {elapsedMs : ℚ}

/-- What an operation can do after a stage: it rejects, or it goes on. -/
theorem onEnd_cases (namespaceName worker : RouteSegment) (s : Bombard) (answer : BombardAnswer)
    (elapsedMs : ℚ) :
    (∃ error, answer.thrown? namespaceName worker = some error ∧
      s.onEnd namespaceName worker answer elapsedMs =
        ((s.settle answer elapsedMs).record answer).reject answer.stage.domain error) ∨
    (answer.thrown? namespaceName worker = none ∧
      (s.onEnd namespaceName worker answer elapsedMs =
          ((s.settle answer elapsedMs).record answer).succeed answer.stage.domain ∨
        ∃ sequence stage, stage.domain = answer.stage.domain ∧
          s.onEnd namespaceName worker answer elapsedMs =
            { (s.settle answer elapsedMs).record answer with sequence }.observe stage)) := by
  unfold onEnd BombardAnswer.thrown?
  cases houtcome : answer.outcome with
  | error error => exact .inl ⟨error, rfl, rfl⟩
  | ok _ =>
    cases answer with
    | enqueue answer => exact .inr ⟨rfl, .inr ⟨s.sequence, .reserve, rfl, rfl⟩⟩
    | reserve answer =>
      rcases answer with error | (_ | item)
      · cases houtcome
      · exact .inr ⟨rfl, .inl rfl⟩
      · simp only [proceed, BombardAnswer.payloadError?]
        cases decodePressureQueueSequence namespaceName worker item with
        | ok sequence => exact .inr ⟨rfl, .inr ⟨sequence, .complete, rfl, rfl⟩⟩
        | error error => exact .inl ⟨error, rfl, rfl⟩
    | _ => exact .inr ⟨rfl, .inl rfl⟩

theorem named_observe {stage : BombardStage} (h : s.stages.Named) :
    (s.observe stage).stages.Named := h.update

theorem named_settle (h : s.stages.Named) :
    ((s.settle answer elapsedMs).record answer).stages.Named := by
  rw [stages_record, stages_settle]
  exact h.update

theorem named_onEnd (h : s.stages.Named) :
    (s.onEnd namespaceName worker answer elapsedMs).stages.Named := by
  have hsettle : ((s.settle answer elapsedMs).record answer).stages.Named := named_settle h
  obtain ⟨error, -, heq⟩ | ⟨-, heq | ⟨sequence, stage, -, heq⟩⟩ :=
    onEnd_cases namespaceName worker s answer elapsedMs
  · rwa [heq, stages_reject]
  · rwa [heq, stages_succeed]
  · rw [heq]
    exact named_observe hsettle

theorem failed_observe {stage : BombardStage} (h : s.stages.Named) (domain : Domain) :
    (s.observe stage).stages.Failed domain ↔ s.stages.Failed domain :=
  failed_update_of_eq (f := observeStart) h (fun _ => rfl) domain

theorem failed_onEnd (h : s.stages.Named) (domain : Domain) :
    (s.onEnd namespaceName worker answer elapsedMs).stages.Failed domain ↔
      s.stages.Failed domain ∨ answer.stage.domain = domain ∧ answer.Fails := by
  have hsettle : ((s.settle answer elapsedMs).record answer).stages.Failed domain ↔
      s.stages.Failed domain ∨ answer.stage.domain = domain ∧ answer.Fails := by
    rw [stages_record, stages_settle]
    exact failed_update h (fun _ => observeEnd_failed) domain
  rw [← hsettle]
  obtain ⟨error, -, heq⟩ | ⟨-, heq | ⟨sequence, stage, -, heq⟩⟩ :=
    onEnd_cases namespaceName worker s answer elapsedMs
  · rw [heq, stages_reject]
  · rw [heq, stages_succeed]
  · rw [heq]
    exact failed_observe (named_settle h) domain

/-- A stage counts its definite errors, and nothing else does. -/
theorem failed_apply (h : s.stages.Named) (domain : Domain) (e : BombardEvent) :
    (s.apply namespaceName worker e).stages.Failed domain ↔
      s.stages.Failed domain ∨ FailsStage domain e := by
  cases e with
  | loop domain' =>
    have hloop : (s.loop domain').stages.Failed domain ↔ s.stages.Failed domain := by
      unfold loop
      split_ifs
      · exact Iff.rfl
      · exact failed_observe h domain
    simpa [FailsStage, BombardEvent.answer?, apply] using hloop
  | ended answer elapsedMs =>
    simpa [FailsStage, BombardEvent.answer?, apply] using failed_onEnd h domain
  | backpressure stage =>
    simpa [FailsStage, BombardEvent.answer?, apply] using
      failed_update_of_eq (f := recordBackpressure) h (fun _ => rfl) domain
  | shutdown => simp [FailsStage, BombardEvent.answer?, apply]

/-- The operations that reject at an event, with their errors. -/
theorem mem_rejected_apply {e : BombardEvent} {p : Domain × Thrown} :
    p ∈ (s.apply namespaceName worker e).rejected ↔ p ∈ s.rejected ∨ s.aborted = false ∧
      ∃ answer ∈ e.answer?, answer.stage.domain = p.1 ∧
        answer.thrown? namespaceName worker = some p.2 := by
  cases e with
  | loop domain' =>
    have hloop : (s.loop domain').rejected = s.rejected := by
      unfold loop
      split_ifs <;> rfl
    simp [BombardEvent.answer?, apply, hloop]
  | ended answer elapsedMs =>
    simp only [apply, BombardEvent.answer?, Option.mem_some_iff, exists_eq_left']
    obtain ⟨error, herror, heq⟩ | ⟨hnone, heq | ⟨sequence, stage, -, heq⟩⟩ :=
      onEnd_cases namespaceName worker s answer elapsedMs
    · rw [heq, rejected_reject, herror, List.mem_append, rejected_record, rejected_settle,
        aborted_record, aborted_settle]
      cases s.aborted <;> simp [Prod.ext_iff, eq_comm]
    · simp [heq, hnone]
    · simp [heq, hnone]
  | backpressure stage => simp [BombardEvent.answer?, apply]
  | shutdown => simp [BombardEvent.answer?, apply]

theorem named_apply (h : s.stages.Named) (e : BombardEvent) :
    (s.apply namespaceName worker e).stages.Named := by
  cases e with
  | loop domain =>
    show (s.loop domain).stages.Named
    unfold loop
    split_ifs
    · exact h
    · exact named_observe h
  | ended answer elapsedMs => exact named_onEnd h
  | backpressure stage =>
    show (s.stages.update .queue stage.name recordBackpressure).Named
    exact h.update
  | shutdown => exact h

theorem loops_goTo_of_ne {domain domain' : Domain} {phase : LoopPhase} (h : domain' ≠ domain) :
    (s.goTo domain phase).loops domain' = s.loops domain' := Function.update_of_ne h _ _

theorem loops_loop_of_ne {domain domain' : Domain} (h : domain' ≠ domain) :
    (s.loop domain).loops domain' = s.loops domain' := by
  unfold loop
  split_ifs
  · exact loops_goTo_of_ne h
  · exact loops_goTo_of_ne (by rwa [domain_firstStage])

theorem loops_reject_of_ne {domain domain' : Domain} {error : Thrown} (h : domain' ≠ domain) :
    (s.reject domain error).loops domain' = s.loops domain' := by
  unfold reject
  split_ifs
  · exact loops_goTo_of_ne h
  · exact Function.update_of_ne h _ _

theorem loops_onEnd_of_ne {domain : Domain} (h : domain ≠ answer.stage.domain) :
    (s.onEnd namespaceName worker answer elapsedMs).loops domain = s.loops domain := by
  have hrecord : ((s.settle answer elapsedMs).record answer).loops = s.loops := loops_record
  obtain ⟨error, -, heq⟩ | ⟨-, heq | ⟨sequence, stage, hstage, heq⟩⟩ :=
    onEnd_cases namespaceName worker s answer elapsedMs
  · rw [heq, loops_reject_of_ne h, hrecord]
  · rw [heq, ← hrecord]
    exact Function.update_of_ne h _ _
  · rw [heq, ← hrecord]
    exact loops_goTo_of_ne (by rwa [hstage])

/-- No operation is taken from the errors. -/
theorem error_le_reject {domain domain' : Domain} {error : Thrown} :
    (s.totals domain').error ≤ ((s.reject domain error).totals domain').error := by
  unfold reject
  split_ifs
  · exact le_rfl
  · by_cases h : domain' = domain
    · subst h
      simp [next]
    · simp [next, Function.update_of_ne h]

theorem error_succeed {domain domain' : Domain} :
    ((s.succeed domain).totals domain').error = (s.totals domain').error := by
  by_cases h : domain' = domain
  · subst h
    simp [succeed, next]
  · simp [succeed, next, Function.update_of_ne h]

theorem error_le_apply (domain : Domain) (e : BombardEvent) :
    (s.totals domain).error ≤ ((s.apply namespaceName worker e).totals domain).error := by
  cases e with
  | loop domain' =>
    show _ ≤ ((s.loop domain').totals domain).error
    unfold loop
    split_ifs <;> exact le_rfl
  | ended answer elapsedMs =>
    show _ ≤ ((s.onEnd namespaceName worker answer elapsedMs).totals domain).error
    have hrecord : ((s.settle answer elapsedMs).record answer).totals = s.totals := totals_record
    rw [← hrecord]
    obtain ⟨error, -, heq⟩ | ⟨-, heq | ⟨sequence, stage, -, heq⟩⟩ :=
      onEnd_cases namespaceName worker s answer elapsedMs
    · rw [heq]
      exact error_le_reject
    · rw [heq, error_succeed]
    · rw [heq]
      exact le_rfl
  | backpressure stage => exact le_rfl
  | shutdown => exact le_rfl

/-- An operation that rejects is counted. -/
theorem error_onEnd {error : Thrown} (haborted : s.aborted = false)
    (h : answer.thrown? namespaceName worker = some error) :
    ((s.onEnd namespaceName worker answer elapsedMs).totals answer.stage.domain).error ≠ 0 := by
  obtain ⟨error', -, heq⟩ | ⟨hnone, -⟩ := onEnd_cases namespaceName worker s answer elapsedMs
  · rw [heq, reject, if_neg (by simp [haborted])]
    simp [next]
  · rw [hnone] at h
    cases h

end Event

end Bombard

/-! ### Runs -/

section Run

variable {selected : List Domain} {namespaceName worker : RouteSegment} {s s' : Bombard}
  {e : BombardEvent} {es : List BombardEvent}

/-- What holds in every run. -/
structure Bombard.Tracked (selected : List Domain) (s : Bombard) : Prop where
  named : s.stages.Named
  /-- A loop that has left its first phase is selected. -/
  busy : ∀ domain, (s.loops domain).phase ≠ .idle → domain ∈ selected
  /-- An operation that has rejected is counted. -/
  rejected : ∀ p ∈ s.rejected, p.1 ∈ selected ∧ (s.totals p.1).error ≠ 0

theorem Bombard.tracked_start : Bombard.Tracked selected .start where
  named := fun _ => List.nodup_nil
  busy := fun _ hphase => absurd rfl hphase
  rejected := fun _ hp => absurd hp List.not_mem_nil

theorem step_bombardSystem (h : (bombardSystem selected namespaceName worker).step s e = some s') :
    s.Allows selected e ∧ s.apply namespaceName worker e = s' := by
  obtain ⟨hallows, hstep⟩ := EventSys.restrict_step_eq_some.mp h
  exact ⟨hallows, Option.some.inj hstep⟩

/-- A loop moves only if it is selected. -/
theorem Bombard.Tracked.mem_selected (h : Bombard.Tracked selected s)
    (hallows : s.Allows selected e) {domain : Domain}
    (hphase : ((s.apply namespaceName worker e).loops domain).phase ≠ .idle) :
    domain ∈ selected := by
  cases e with
  | loop domain' =>
    by_cases hdomain : domain = domain'
    · exact hdomain ▸ hallows.1
    · refine h.busy domain ?_
      rwa [Bombard.apply, Bombard.loops_loop_of_ne hdomain] at hphase
  | ended answer elapsedMs =>
    by_cases hdomain : domain = answer.stage.domain
    · refine h.busy domain ?_
      rw [hdomain, hallows.1]
      exact nofun
    · refine h.busy domain ?_
      rwa [Bombard.apply, Bombard.loops_onEnd_of_ne hdomain] at hphase
  | backpressure stage => exact h.busy domain hphase
  | shutdown => exact h.busy domain hphase

/-- One event keeps all of it. -/
theorem Bombard.Tracked.step (h : Bombard.Tracked selected s)
    (hstep : (bombardSystem selected namespaceName worker).step s e = some s') :
    Bombard.Tracked selected s' := by
  obtain ⟨hallows, rfl⟩ := step_bombardSystem hstep
  refine ⟨Bombard.named_apply h.named e, fun domain => h.mem_selected hallows, fun p hp => ?_⟩
  rcases Bombard.mem_rejected_apply.mp hp with hp | ⟨haborted, answer, hanswer, hdomain, hthrown⟩
  · obtain ⟨hselected, herror⟩ := h.rejected p hp
    exact ⟨hselected, fun hzero => herror (Nat.eq_zero_of_le_zero
      ((Bombard.error_le_apply p.1 e).trans hzero.le))⟩
  · cases e with
    | ended answer' elapsedMs =>
      obtain rfl := Option.some.inj hanswer
      refine ⟨h.busy p.1 ?_, ?_⟩
      · rw [← hdomain, hallows.1]
        exact nofun
      · rw [← hdomain]
        exact Bombard.error_onEnd haborted hthrown
    | _ => cases hanswer

theorem Bombard.tracked_of_run
    (hr : (bombardSystem selected namespaceName worker).run .start es = some s) :
    Bombard.Tracked selected s :=
  EventSys.invariant (fun _ _ _ => Bombard.Tracked.step) Bombard.tracked_start hr

theorem reports_iff_counts (h : Bombard.Tracked selected s) : Reports selected worker s ↔
    ∀ p ∈ s.rejected, isAmbiguousDurableError p.2 = false → s.Counts p.1 := by
  constructor
  · intro hreports p hp hdefinite
    exact counts_of_reported h.named (hreports p hp hdefinite _
      ⟨_, List.mem_singleton_self _, evidences_evidence⟩)
  · rintro hcounts p hp hdefinite clients ⟨client, hclient, hevidences⟩
    exact reported_of_counts h.named hclient hevidences (h.rejected p hp).1
      (hcounts p hp hdefinite)

/-- A stage of the domain has failed iff it has done so in the run. -/
theorem failed_iff_occurs
    (hr : (bombardSystem selected namespaceName worker).run .start es = some s)
    (domain : Domain) : s.stages.Failed domain ↔
      (bombardSystem selected namespaceName worker).Occurs (fun _ => FailsStage domain) .start
        es := by
  have hstart : ¬Bombard.start.stages.Failed domain := fun ⟨_, hstage⟩ => hstage rfl
  refine (EventSys.iff_occurs (P := fun s => s.stages.Failed domain)
    (fun _ _ _ => Bombard.Tracked.step) (fun s e s' h hstep => ?_) Bombard.tracked_start
    hr).trans (or_iff_right hstart)
  obtain ⟨-, rfl⟩ := step_bombardSystem hstep
  exact Bombard.failed_apply h.named domain e

/-- An operation of the domain rejects with a definite error. -/
def RejectsIn (namespaceName worker : RouteSegment) (domain : Domain) (s : Bombard)
    (e : BombardEvent) : Prop :=
  s.aborted = false ∧ ∃ answer ∈ e.answer?, answer.stage.domain = domain ∧
    ∃ error ∈ answer.thrown? namespaceName worker, isAmbiguousDurableError error = false

theorem rejected_iff_occurs
    (hr : (bombardSystem selected namespaceName worker).run .start es = some s)
    (domain : Domain) :
    (∃ p ∈ s.rejected, p.1 = domain ∧ isAmbiguousDurableError p.2 = false) ↔
      (bombardSystem selected namespaceName worker).Occurs
        (RejectsIn namespaceName worker domain) .start es := by
  have hstart : ¬∃ p ∈ Bombard.start.rejected, p.1 = domain ∧ isAmbiguousDurableError p.2 = false :=
    fun ⟨_, hp, _⟩ => absurd hp List.not_mem_nil
  refine (EventSys.iff_occurs (I := fun _ => True)
    (P := fun s => ∃ p ∈ s.rejected, p.1 = domain ∧ isAmbiguousDurableError p.2 = false)
    (fun _ _ _ _ _ => trivial) (fun s e s' _ hstep => ?_) trivial hr).trans (or_iff_right hstart)
  obtain ⟨-, rfl⟩ := step_bombardSystem hstep
  simp only [Bombard.mem_rejected_apply, or_and_right, exists_or]
  refine or_congr Iff.rfl ⟨?_, ?_⟩
  · rintro ⟨p, ⟨haborted, answer, hanswer, hdomain, hthrown⟩, rfl, hdefinite⟩
    exact ⟨haborted, answer, hanswer, hdomain, p.2, hthrown, hdefinite⟩
  · rintro ⟨haborted, answer, hanswer, hdomain, error, hthrown, hdefinite⟩
    exact ⟨(domain, error), ⟨haborted, answer, hanswer, hdomain, hthrown⟩, rfl, hdefinite⟩

/-- A definite error is counted by its stage, or thrown between two stages. -/
theorem BombardAnswer.fails_or_payloadError {answer : BombardAnswer} {error : Thrown}
    (h : answer.thrown? namespaceName worker = some error)
    (hdefinite : isAmbiguousDurableError error = false) :
    answer.Fails ∨ answer.payloadError? namespaceName worker = some error := by
  unfold thrown? at h
  cases houtcome : answer.outcome with
  | error error' =>
    rw [houtcome] at h
    obtain rfl := Option.some.inj h
    exact .inl ⟨error', houtcome, by rw [hdefinite, Bool.and_false]⟩
  | ok _ =>
    rw [houtcome] at h
    exact .inr h

theorem BombardAnswer.stage_of_payloadError {answer : BombardAnswer} {error : Thrown}
    (h : answer.payloadError? namespaceName worker = some error) :
    answer.stage = .reserve ∧ answer.thrown? namespaceName worker = some error := by
  unfold payloadError? at h
  split at h
  · rename_i item
    exact ⟨rfl, h⟩
  · cases h

theorem rejectsIn_of_rejectsPayload (h : RejectsPayload namespaceName worker s e) :
    RejectsIn namespaceName worker .queue s e := by
  obtain ⟨haborted, answer, hanswer, error, herror, hdefinite⟩ := h
  obtain ⟨hstage, hthrown⟩ := BombardAnswer.stage_of_payloadError herror
  exact ⟨haborted, answer, hanswer, by rw [hstage]; rfl, error, hthrown, hdefinite⟩

theorem payload_or_stage_of_rejectsIn (h : RejectsIn namespaceName worker .queue s e) :
    RejectsPayload namespaceName worker s e ∨ FailsStage .queue e := by
  obtain ⟨haborted, answer, hanswer, hdomain, error, hthrown, hdefinite⟩ := h
  rcases BombardAnswer.fails_or_payloadError hthrown hdefinite with hfails | hpayload
  · exact .inr ⟨answer, hanswer, hdomain, hfails⟩
  · exact .inl ⟨haborted, answer, hanswer, error, hpayload, hdefinite⟩

/-- **Every definite error is reported** iff, once the check of a reserved item fails with one
before the shutdown, a stage of the queue fails with one in the same run. -/
theorem bombard_reports_iff
    (hr : (bombardSystem selected namespaceName worker).run .start es = some s) :
    Reports selected worker s ↔
      ((bombardSystem selected namespaceName worker).Occurs (RejectsPayload namespaceName worker)
          .start es →
        (bombardSystem selected namespaceName worker).Occurs (fun _ => FailsStage .queue)
          .start es) := by
  have htracked := Bombard.tracked_of_run hr
  rw [reports_iff_counts htracked]
  constructor
  · intro hcounts hpayload
    rw [← failed_iff_occurs hr]
    obtain ⟨p, hp, hdomain, hdefinite⟩ :=
      (rejected_iff_occurs hr .queue).mpr (hpayload.imp fun _ _ => rejectsIn_of_rejectsPayload)
    have hqueue := hcounts p hp hdefinite
    rwa [hdomain, Bombard.Counts, if_pos (.inl rfl)] at hqueue
  · intro hqueue p hp hdefinite
    have hrejects := (rejected_iff_occurs hr p.1).mp ⟨p, hp, rfl, hdefinite⟩
    unfold Bombard.Counts
    split_ifs with hdomain
    · rw [failed_iff_occurs hr]
      rcases hdomain with hdomain | hdomain
      · rw [hdomain] at hrejects ⊢
        have hor := EventSys.occurs_or.mp (hrejects.imp fun _ _ => payload_or_stage_of_rejectsIn)
        exact hor.elim hqueue id
      · -- Every error of the stream is thrown by its stage.
        refine hrejects.imp fun _ _ => ?_
        rintro ⟨-, answer, hanswer, hstage, error, hthrown, hdefinite⟩
        refine ⟨answer, hanswer, hstage, (BombardAnswer.fails_or_payloadError hthrown
          hdefinite).resolve_right fun hpayload => ?_⟩
        rw [(BombardAnswer.stage_of_payloadError hpayload).1, hdomain] at hstage
        cases hstage
    · exact (htracked.rejected p hp).2

end Run

/-! ### A queue that returns a foreign item -/

def sampleWorker : RouteSegment := ⟨"bombard", by decide⟩

/-- The loops of a worker that runs the queue only. -/
def sampleSystem : EventSys Bombard BombardEvent :=
  bombardSystem [.queue] sampleWorker sampleWorker

/-- An item with an empty body is reserved. -/
def foreignItem : List BombardEvent :=
  [.loop .queue, .ended (.enqueue (.ok ())) 1, .ended (.reserve (.ok (some []))) 1]

/-- Then an enqueue is rejected. -/
def foreignItemThenRejected : List BombardEvent :=
  foreignItem ++ [.loop .queue, .ended (.enqueue (.error (newError "rejected"))) 1]

theorem reports_iff_rejected : ∃ s, sampleSystem.run .start foreignItemThenRejected = some s ∧
    s.rejected.length = 2 ∧ Reports [.queue] sampleWorker s := by
  have hrun : (sampleSystem.run .start foreignItemThenRejected).map (·.rejected.length) =
      some 2 := by decide +kernel
  obtain ⟨s, hs, hlength⟩ := Option.map_eq_some_iff.mp hrun
  refine ⟨s, hs, hlength, (bombard_reports_iff hs).mpr fun _ => ?_⟩
  have hfails : ∃ answer ∈ (BombardEvent.ended (.enqueue (.error (newError "rejected"))) 1).answer?,
      answer.stage.domain = .queue ∧ answer.Fails :=
    ⟨_, rfl, rfl, newError "rejected", rfl, by decide +kernel⟩
  exact .inr ⟨_, rfl, .inr ⟨_, rfl, .inr ⟨_, rfl, .inr ⟨_, rfl, .inl hfails⟩⟩⟩⟩

/-- **The error of a check between two stages** is not reported. -/
theorem not_reports_foreignItem : ∃ s, sampleSystem.run .start foreignItem = some s ∧
    ¬Reports [.queue] sampleWorker s := by
  have hrun : (sampleSystem.run .start foreignItem).map (fun s =>
      (s.rejected.map fun p => (p.1, isAmbiguousDurableError p.2),
        ((readDomain s.totals s.stages .queue).stages.map fun p => p.2.metrics.failed).sum)) =
          some ([(.queue, false)], 0) := by decide +kernel
  obtain ⟨s, hs, hfacts⟩ := Option.map_eq_some_iff.mp hrun
  obtain ⟨hrejected, hsum⟩ := Prod.mk.inj hfacts
  have htracked := Bombard.tracked_of_run hs
  refine ⟨s, hs, fun hreports => ?_⟩
  have hmem : (Domain.queue, false) ∈
      s.rejected.map fun p => (p.1, isAmbiguousDurableError p.2) := by
    rw [hrejected]
    exact List.mem_singleton_self _
  obtain ⟨p, hp, heq⟩ := List.mem_map.mp hmem
  obtain ⟨hdomain, hdefinite⟩ := Prod.mk.inj heq
  have hcounts := (reports_iff_counts htracked).mp hreports p hp hdefinite
  rw [hdomain, Bombard.Counts, if_pos (.inl rfl)] at hcounts
  exact (failed_readDomain htracked.named).mpr hcounts hsum

end Pressure

end FitzDestroyer
