import FitzDestroyer.Pressure.Analysis
import FitzDestroyer.Pressure.Guidance
import FitzDestroyer.Pressure.Merge
import Mathlib.Algebra.Order.BigOperators.Group.List

/-!
# Stage accounting

The counters that the workers log agree, the host keeps them so, and the report accepts what the
host writes, as long as its sums are safe integers.
-/

namespace FitzDestroyer

namespace Pressure

open Js Workload Check

/-! ### Values that are read back -/

theorem Guidance.nonNegativeInteger_count {n m : ℕ} {label : String} :
    nonNegativeInteger (some (.count n)) label = .ok m ↔ n ≤ maxSafeInteger ∧ m = n := by
  rw [← @Number.sequence?_natCast_eq_some n m, nonNegativeInteger, Option.bind_some]
  change _ ↔ (Json.count n).sequence? = some m
  cases (Json.count n).sequence? <;> simp

/-- A number that is not negative is read back if it is finite. -/
theorem finiteNonNegative?_jsonNumber {x y : Number} (h : x.Nonneg) :
    finiteNonNegative? (some (jsonNumber x)) = some y ↔ x.isFinite = true ∧ y = x := by
  have hneg := Number.isNegative_of_nonneg h
  cases x with
  | fin q =>
    rw [jsonNumber, finiteNonNegative?, if_pos ⟨rfl, hneg⟩, Option.some.injEq]
    exact ⟨fun heq => ⟨rfl, heq.symm⟩, fun heq => heq.2.symm⟩
  | posInf => simp [jsonNumber, finiteNonNegative?, Number.isFinite]
  | _ => exact h.elim

theorem Guidance.nonNegativeNumber_jsonNumber {x y : Number} {label : String} (h : x.Nonneg) :
    nonNegativeNumber (some (jsonNumber x)) label = .ok y ↔ x.isFinite = true ∧ y = x := by
  rw [← finiteNonNegative?_jsonNumber h, nonNegativeNumber]
  cases finiteNonNegative? (some (jsonNumber x)) <;> simp

/-! ### A stage is accepted -/

theorem le_of_mem_counts {counts : List ℕ} {x : ℕ} (h : x ∈ counts) : x ≤ counts.sum :=
  List.single_le_sum (fun _ _ => Nat.zero_le _) x h

namespace Guidance

/-- What `latencyHistogram` reads and checks. -/
theorem latencyHistogram_eq_ok {record : Dict Json} {label : String} {h : LatencyHistogram} :
    latencyHistogram (some (.obj record)) label = .ok h ↔
      (∃ items, arrayField record "buckets" = .ok items ∧
        items.mapM (fun item => nonNegativeInteger (some item) s!"{label} bucket") =
          .ok h.buckets) ∧
      h.buckets.length = latencyBucketUpperMs.length ∧
      numberField record "count" = .ok h.count ∧ numberField record "overflow" = .ok h.overflow ∧
      h.buckets.sum + h.overflow = h.count ∧
      nonNegativeNumber (field record "totalMs") s!"{label}.totalMs" = .ok h.totalMs ∧
      nonNegativeNumber (field record "maxMs") s!"{label}.maxMs" = .ok h.maxMs := by
  rw [latencyHistogram, bind_eq, bind_eq_ok]
  simp only [recordValue, Except.ok.injEq, exists_eq_left', bind_eq, bind_eq_ok, pure_eq]
  constructor
  · rintro ⟨items, hitems, buckets, hbuckets, _, hlength, count, hcount, overflow, hoverflow, _,
      hsum, totalMs, htotal, maxMs, hmax, rfl⟩
    exact ⟨⟨items, hitems, hbuckets⟩, not_not.mp (failIf_eq_ok.mp hlength), hcount, hoverflow,
      not_not.mp (failIf_eq_ok.mp hsum), htotal, hmax⟩
  · rintro ⟨⟨items, hitems, hbuckets⟩, hlength, hcount, hoverflow, hsum, htotal, hmax⟩
    exact ⟨items, hitems, h.buckets, hbuckets, (), failIf_eq_ok.mpr (not_not.mpr hlength), h.count,
      hcount, h.overflow, hoverflow, (), failIf_eq_ok.mpr (not_not.mpr hsum), h.totalMs, htotal,
      h.maxMs, hmax, rfl⟩

/-- **The histogram of a stage is accepted** if its counters are safe and its total is finite. -/
theorem latencyHistogram_toJson {latency latency' : LatencyHistogram} {label : String}
    (h : latency.Consistent) : latencyHistogram (some latency.toJson) label = .ok latency' ↔
      (latency.count ≤ maxSafeInteger ∧ latency.totalMs.isFinite = true) ∧ latency' = latency := by
  obtain ⟨q, hq, hmaxMs⟩ := h.max_nonneg
  have hmaxNonneg : latency.maxMs.Nonneg := by
    rw [hmaxMs]
    exact hq
  have hsum := h.count
  unfold LatencyHistogram.toJson
  rw [latencyHistogram_eq_ok]
  constructor
  · rintro ⟨⟨items, hitems, hbuckets⟩, -, hcount, hoverflow, -, htotal, hmax⟩
    obtain rfl : latency.buckets.map Json.count = items := Except.ok.inj hitems
    obtain ⟨-, hbuckets⟩ := (mapM_count fun _ _ => nonNegativeInteger_count).mp hbuckets
    obtain ⟨hsafe, hcount⟩ := nonNegativeInteger_count.mp hcount
    obtain ⟨-, hoverflow⟩ := nonNegativeInteger_count.mp hoverflow
    obtain ⟨hfinite, htotal⟩ := (nonNegativeNumber_jsonNumber h.total_nonneg).mp htotal
    obtain ⟨-, hmax⟩ := (nonNegativeNumber_jsonNumber hmaxNonneg).mp hmax
    refine ⟨⟨hsafe, hfinite⟩, ?_⟩
    exact LatencyHistogram.ext hcount htotal hmax hbuckets hoverflow
  · rintro ⟨⟨hsafe, hfinite⟩, rfl⟩
    refine ⟨⟨_, rfl, (mapM_count fun _ _ => nonNegativeInteger_count).mpr ⟨fun x hx => ?_, rfl⟩⟩,
      h.length, nonNegativeInteger_count.mpr ⟨hsafe, rfl⟩,
      nonNegativeInteger_count.mpr ⟨by omega, rfl⟩, hsum,
      (nonNegativeNumber_jsonNumber h.total_nonneg).mpr ⟨hfinite, rfl⟩,
      (nonNegativeNumber_jsonNumber hmaxNonneg).mpr ⟨by rw [hmaxMs]; rfl, rfl⟩⟩
    have := le_of_mem_counts hx
    omega

/-- The cancellations of the shutdown are among the errors. -/
theorem expectedShutdownCancellations_le {value : Option Json} {failed ambiguous cancelled : ℕ}
    {samples : Option Json} {label : String} {expected : ShutdownCancellations}
    (h : expectedShutdownCancellations value failed ambiguous cancelled samples label =
      .ok expected) : expected.failed ≤ failed ∧ expected.ambiguous ≤ ambiguous := by
  cases value with
  | none =>
    obtain rfl := Except.ok.inj h
    exact ⟨min_le_left _ _, min_le_left _ _⟩
  | some value =>
    rw [expectedShutdownCancellations, bind_eq, bind_eq_ok] at h
    simp only [bind_eq, bind_eq_ok, pure_eq, Except.ok.injEq] at h
    obtain ⟨record, -, expectedFailed, -, expectedAmbiguous, -, _, hle, rfl⟩ := h
    have hle := failIf_eq_ok.mp hle
    dsimp only
    omega

/-- The cancellations of a stage are accepted, whether they are explicit or inferred. -/
theorem expectedShutdownCancellations_toJson {m : StageMetrics} {limit : ℕ}
    (h : StageAccounted limit 0 m) (hsafe : m.started ≤ maxSafeInteger) (legacy : Bool)
    (cancelled : ℕ) (samples : Option Json) (label : String) :
    Passes (expectedShutdownCancellations
      (if legacy then none else some m.expectedShutdownCancellations.toJson)
      m.failed m.ambiguous cancelled samples label) := by
  cases legacy with
  | true => exact passes_ok _
  | false =>
    have hstarted := h.started
    have hfailed := h.cancelledFailed
    have hambiguous := h.cancelledAmbiguous
    refine ⟨m.expectedShutdownCancellations, ?_⟩
    rw [if_neg Bool.false_ne_true, expectedShutdownCancellations, bind_eq, bind_eq_ok]
    simp only [bind_eq, bind_eq_ok, pure_eq]
    exact ⟨_, rfl, _, nonNegativeInteger_count.mpr ⟨by omega, rfl⟩, _,
      nonNegativeInteger_count.mpr ⟨by omega, rfl⟩, (), failIf_eq_ok.mpr (by omega), rfl⟩

/-- A counter of a table is read back, and is zero if the table has no such name. -/
theorem optionalNumberField_counts {counts : Dict ℕ} {name : String}
    (h : ∀ p ∈ counts, p.2 ≤ maxSafeInteger) :
    optionalNumberField (counts.map fun p => (p.1, .count p.2)) name =
      .ok ((counts.get? name).getD 0) := by
  have hfield : field (counts.map fun p => (p.1, Json.count p.2)) name =
      (counts.get? name).map Json.count := Dict.get?_map Json.count counts name
  rw [optionalNumberField, numberField, hfield]
  cases hget : counts.get? name with
  | none => rfl
  | some x => exact nonNegativeInteger_count.mpr ⟨h _ (Dict.mem_of_get? hget), rfl⟩

/-- **A stage that is accounted for is accepted** if its counters are safe and its total is
finite. -/
theorem parseStageSummary_toJson {domain : Domain} {name : String} {stage : EvidenceStage}
    {limit : ℕ} (h : StageAccounted limit 0 stage.metrics) (legacy : Bool) :
    Passes (parseStageSummary domain (name, stage.toJson legacy)) ↔
      stage.metrics.started ≤ maxSafeInteger ∧ stage.metrics.latency.totalMs.isFinite = true := by
  have hstarted := h.started
  have hended := h.ended
  have hclasses := h.classes
  unfold Passes
  simp only [parseStageSummary, bind_eq, bind_eq_ok, pure_eq]
  constructor
  · rintro ⟨_, record, hrecord, histogram, hhistogram, _, -, failed, -, ambiguous, -, cancelled, -,
      _, -, started, hsafe, -⟩
    obtain rfl := Except.ok.inj hrecord
    exact ⟨(nonNegativeInteger_count.mp hsafe).1,
      ((latencyHistogram_toJson h.latency).mp hhistogram).1.2⟩
  · rintro ⟨hsafe, hfinite⟩
    have hcounts : ∀ p ∈ stage.metrics.errorClasses, p.2 ≤ maxSafeInteger := fun p hp => by
      have := le_of_mem_counts (List.mem_map_of_mem (f := Prod.snd) hp)
      omega
    obtain ⟨expected, hexpected⟩ := expectedShutdownCancellations_toJson h hsafe legacy
      ((stage.metrics.errorClasses.get? "cancelled").getD 0)
      (some (.arr (stage.metrics.errorSamples.map ErrorSample.toJson))) s!"{domain.name}/{name}"
    refine ⟨_, _, rfl, stage.metrics.latency, (latencyHistogram_toJson h.latency).mpr
      ⟨⟨by omega, hfinite⟩, rfl⟩, _, rfl, _, nonNegativeInteger_count.mpr ⟨by omega, rfl⟩, _,
      nonNegativeInteger_count.mpr ⟨by omega, rfl⟩, _, optionalNumberField_counts hcounts,
      expected, ?_, _, nonNegativeInteger_count.mpr ⟨hsafe, rfl⟩, _,
      nonNegativeInteger_count.mpr ⟨by omega, rfl⟩, rfl⟩
    cases legacy <;> exact hexpected

/-- The errors of a stage are not negative. -/
theorem errors_nonneg_of_parse {domain : Domain} {p : String × Json}
    {summary : PressureStageSummary} (h : parseStageSummary domain p = .ok summary) :
    0 ≤ summary.errors := by
  simp only [parseStageSummary, bind_eq, bind_eq_ok, pure_eq] at h
  obtain ⟨record, -, histogram, -, _, -, failed, -, ambiguous, -, cancelled, -, expected,
    hexpected, started, -, succeeded, -, heq⟩ := h
  obtain rfl := Except.ok.inj heq
  have hle := (expectedShutdownCancellations_le hexpected).1
  dsimp only
  omega

/-! ### A domain is accepted -/

variable {localeCompare : String → String → Ordering} {domain : Domain}

/-- The errors of a domain and of its stages are not negative. -/
theorem errors_nonneg {value : Option Json} {durationMs : Number} {summary : PressureDomainSummary}
    (h : parsePressureDomain localeCompare domain value durationMs = .ok summary) :
    0 ≤ summary.errors ∧ ∀ stage ∈ summary.stages, 0 ≤ stage.errors := by
  simp only [parsePressureDomain, bind_eq, bind_eq_ok] at h
  obtain ⟨evidence, -, completed, -, record, -, stages, hstages, h⟩ := h
  have hnonneg : ∀ stage ∈ stages, 0 ≤ stage.errors := by
    intro stage hstage
    obtain ⟨p, -, hp⟩ := exists_of_mapM hstages hstage
    exact errors_nonneg_of_parse hp
  split at h
  · cases h
  · split at h
    · cases h
    · obtain rfl := Except.ok.inj h
      refine ⟨List.sum_nonneg fun x hx => ?_, hnonneg⟩
      obtain ⟨stage, hstage, rfl⟩ := List.mem_map.mp hx
      exact hnonneg stage hstage

variable (localeCompare) in
/-- The stages of a record, in the order in which they are read. -/
def sortedEntries (stages : Dict EvidenceStage) (legacy : Bool) : List (String × Json) :=
  (Dict.entries (stages.map fun p => (p.1, p.2.toJson legacy))).mergeSort
    fun p q => (localeCompare p.1 q.1).isLE

theorem mem_sortedEntries {stages : Dict EvidenceStage} {legacy : Bool} {p : String × Json} :
    p ∈ sortedEntries localeCompare stages legacy ↔
      ∃ q ∈ stages, (q.1, q.2.toJson legacy) = p := by
  rw [sortedEntries, List.mem_mergeSort, (Dict.entries_perm _).mem_iff, List.mem_map]

theorem length_sortedEntries (stages : Dict EvidenceStage) (legacy : Bool) :
    (sortedEntries localeCompare stages legacy).length = stages.length := by
  rw [sortedEntries, List.length_mergeSort, (Dict.entries_perm _).length_eq, List.length_map]

theorem observedRate_ne_none {count : ℕ} {durationMs : ℚ} (h : 0 < durationMs) :
    observedRate count (.fin durationMs) ≠ none := by
  unfold observedRate
  rw [if_neg]
  · simp
  · simpa [Number.isFinite, Number.le] using h

/-- **The evidence of a domain is accepted** iff it has a stage, its counters are safe, and its
latencies are finite. -/
theorem parsePressureDomain_toJson {evidence : EvidenceDomain} {durationMs : ℚ}
    (hduration : 0 < durationMs)
    (h : ∀ p ∈ evidence.stages, StageAccounted 10 0 p.2.metrics) (legacy : Bool) :
    Passes (parsePressureDomain localeCompare domain (some (evidence.toJson legacy))
      (.fin durationMs)) ↔
      evidence.succeeded ≤ maxSafeInteger ∧ evidence.stages ≠ [] ∧ ∀ p ∈ evidence.stages,
        p.2.metrics.started ≤ maxSafeInteger ∧ p.2.metrics.latency.totalMs.isFinite = true := by
  simp only [parsePressureDomain, bind_eq, passes_bind]
  constructor
  · rintro ⟨_, hrecord, completed, hcompleted, _, hstagesRecord, stages, hstages, hmatch⟩
    obtain rfl := Except.ok.inj hrecord
    obtain rfl := Except.ok.inj hstagesRecord
    change (sortedEntries localeCompare evidence.stages legacy).mapM _ = _ at hstages
    refine ⟨(nonNegativeInteger_count.mp hcompleted).1, fun hnil => ?_, fun p hp => ?_⟩
    · have hlength := (mapM_eq_ok.mp hstages).length_eq
      rw [length_sortedEntries, hnil] at hlength
      obtain rfl := List.length_eq_zero_iff.mp hlength.symm
      rw [List.mergeSort_nil] at hmatch
      exact not_passes_error _ hmatch
    · have hpasses := passes_mapM.mp ⟨stages, hstages⟩ _ (mem_sortedEntries.mpr ⟨p, hp, rfl⟩)
      exact (parseStageSummary_toJson (h p hp) legacy).mp hpasses
  · rintro ⟨hsafe, hne, hstages⟩
    have hpasses : Passes ((sortedEntries localeCompare evidence.stages legacy).mapM
        (parseStageSummary domain)) := by
      refine passes_mapM.mpr fun p hp => ?_
      obtain ⟨q, hq, rfl⟩ := mem_sortedEntries.mp hp
      exact (parseStageSummary_toJson (h q hq) legacy).mpr (hstages q hq)
    -- There is a stage, so that there is a slowest one.
    obtain ⟨stages, hparsed⟩ := hpasses
    have hlength := (mapM_eq_ok.mp hparsed).length_eq
    rw [length_sortedEntries] at hlength
    cases hsorted : stages.mergeSort (slower localeCompare) with
    | nil =>
      have hsum := congrArg List.length hsorted
      rw [List.length_mergeSort, ← hlength] at hsum
      exact absurd (List.length_eq_zero_iff.mp hsum) hne
    | cons slowest rest =>
      obtain ⟨rate, hrate⟩ := Option.ne_none_iff_exists'.mp
        (@observedRate_ne_none evidence.succeeded durationMs hduration)
      refine ⟨_, rfl, _, nonNegativeInteger_count.mpr ⟨hsafe, rfl⟩, _, rfl, stages, hparsed, ?_⟩
      rw [hsorted]
      dsimp only
      rw [hrate]
      exact passes_ok _

end Guidance

/-! ### The evidence of a run -/

theorem StageAccounted.readStage {m : StageMetrics} {limit : ℕ} (h : StageAccounted limit 0 m)
    (hlimit : limit ≤ 10) : StageAccounted 10 0 (readStage m).metrics :=
  { h with
    classNames := Dict.nodup_entries h.classNames
    classes := (((Dict.entries_perm _).map Prod.snd).sum_eq).trans h.classes
    samples := h.samples.trans hlimit }

/-- If the log tells that its worker has stopped, then it ends with the counters of a run of which
no operation is in flight. -/
def EndsRun (log : Log) : Prop :=
  ∀ record, stoppedRecord log = some record → ∃ worker totals s queueOutcome,
    (∃ es, stageSystem.run .start es = some s) ∧ s.inFlight = [] ∧
      .record record = stoppedLine worker totals s.stages queueOutcome

/-- The stages of a run that has ended. -/
theorem accounted_of_ended {s : StageRun} {es : List StageEvent}
    (h : stageSystem.run .start es = some s) (hended : s.inFlight = []) (domain : Domain)
    (stage : String) : StageAccounted 5 0 (s.stages.stageMetrics domain stage) := by
  have haccounted := (StageRun.allAccounted_of_run h).accounted domain stage
  rwa [StageRun.pending, hended] at haccounted

/-- **A client whose log ends a run** is accounted for, and has stages in every domain. -/
theorem accounted_of_analyzeLog {domains : List Domain} {container : String} {log : Log}
    {client : PressureClientEvidence} (hlog : EndsRun log)
    (h : analyzeLog domains container log = .ok client) (domain : Domain) :
    client.AllAccounted domain ∧ (domain ∈ domains → clientStages domain client ≠ []) := by
  cases hrecord : stoppedRecord log with
  | none =>
    rw [analyzeLog, hrecord] at h
    cases h
  | some record =>
    obtain ⟨worker, totals, s, queueOutcome, ⟨es, hrun⟩, hended, hline⟩ := hlog record hrecord
    obtain ⟨-, hdomains⟩ := analyzeLog_spec ⟨record, hrecord, hline⟩ h
    obtain ⟨hmem, hnot⟩ := hdomains domain
    by_cases hdomain : domain ∈ domains
    · obtain ⟨hevidence, hne⟩ := hmem hdomain
      have hstages : clientStages domain client =
          Dict.entries ((Dict.entries (s.stages domain)).map fun p => (p.1, readStage p.2)) := by
        rw [clientStages, hevidence]
        rfl
      refine ⟨fun p hp => ?_, fun _ hnil => hne ?_⟩
      · rw [hstages, (Dict.entries_perm _).mem_iff, List.mem_map] at hp
        obtain ⟨q, hq, rfl⟩ := hp
        have hmetrics : s.stages.stageMetrics domain q.1 = q.2 := by
          have hnamed := (StageRun.allAccounted_of_run hrun).named domain
          rw [PressureStages.stageMetrics,
            (Dict.get?_eq_some hnamed).mpr ((Dict.entries_perm _).mem_iff.mp hq)]
          rfl
        have haccounted := accounted_of_ended hrun hended domain q.1
        rw [hmetrics] at haccounted
        exact haccounted.readStage (by decide)
      · have hlength := congrArg List.length (hstages.symm.trans hnil)
        rw [(Dict.entries_perm _).length_eq, List.length_map, (Dict.entries_perm _).length_eq]
          at hlength
        exact List.length_eq_zero_iff.mp hlength
    · have hnil : clientStages domain client = [] := by
        rw [clientStages, hnot hdomain]
        rfl
      refine ⟨fun p hp => ?_, fun hmem => absurd hmem hdomain⟩
      rw [hnil] at hp
      cases hp

/-- The clients that the host reads. -/
theorem accounted_of_pressureClients {logs : List (String × Log)} {domains : List Domain}
    (h : ∀ p ∈ logs, EndsRun p.2) {client : PressureClientEvidence}
    (hclient : client ∈ pressureClients logs domains) (domain : Domain) :
    client.AllAccounted domain ∧ (domain ∈ domains → clientStages domain client ≠ []) := by
  unfold pressureClients at hclient
  cases hclients : analyzePressureLogs logs domains with
  | error e =>
    rw [hclients] at hclient
    cases hclient
  | ok clients =>
    rw [hclients] at hclient
    obtain ⟨p, hp, hlog⟩ := exists_of_mapM hclients hclient
    exact accounted_of_analyzeLog (h p hp) hlog domain

/-- The stages of an aggregate are accounted for. -/
theorem Tallied.accounted {entries : List (String × EvidenceStage)} {stages : Dict EvidenceStage}
    (h : Tallied entries stages) {p : String × EvidenceStage} (hp : p ∈ stages) :
    StageAccounted 10 0 p.2.metrics := by
  have hsums := h.sums p.1
  rw [(Dict.get?_eq_some h.names).mpr hp] at hsums
  exact hsums.accounted

/-- An aggregate has a stage iff a record was added to it. -/
theorem Tallied.eq_nil_iff {entries : List (String × EvidenceStage)} {stages : Dict EvidenceStage}
    (h : Tallied entries stages) : stages = [] ↔ entries = [] := by
  constructor
  · intro hnil
    by_contra hne
    obtain ⟨p, hp⟩ := List.exists_mem_of_ne_nil _ hne
    have hmissing := (h.missing p.1).mp (by rw [hnil]; rfl)
    have hmem : p.2 ∈ recordsOf entries p.1 :=
      List.mem_map_of_mem (List.mem_filter.mpr ⟨hp, decide_eq_true rfl⟩)
    rw [hmissing] at hmem
    cases hmem
  · intro hnil
    by_contra hne
    obtain ⟨p, hp⟩ := List.exists_mem_of_ne_nil _ hne
    have hmissing := (h.missing p.1).mpr (by rw [hnil]; rfl)
    rw [(Dict.get?_eq_some h.names).mpr hp] at hmissing
    cases hmissing

/-- The sums of a domain are safe integers, and its latencies are finite. -/
def EvidenceDomain.InRange (evidence : EvidenceDomain) : Prop :=
  evidence.succeeded ≤ maxSafeInteger ∧ ∀ p ∈ evidence.stages,
    p.2.metrics.started ≤ maxSafeInteger ∧ p.2.metrics.latency.totalMs.isFinite = true

instance (evidence : EvidenceDomain) : Decidable evidence.InRange :=
  inferInstanceAs (Decidable (_ ∧ _))

theorem aggregateClients_spec {clients : List PressureClientEvidence} {domains : List Domain}
    (h : ∀ client ∈ clients, ∀ domain ∈ domains, client.AllAccounted domain) :
    ∃ aggregate, aggregateClients clients domains = .ok aggregate ∧
      aggregate.map Prod.fst = domains ∧ ∀ p ∈ aggregate, Aggregates clients p.1 p.2 := by
  induction domains with
  | nil => exact ⟨[], rfl, rfl, fun p hp => absurd hp List.not_mem_nil⟩
  | cons domain domains ih =>
    obtain ⟨aggregate, haggregate, hdomains, hsums⟩ :=
      ih fun client hclient d hd => h client hclient d (List.mem_cons_of_mem _ hd)
    obtain ⟨sum, hsum, hsum'⟩ :
        ∃ sum, aggregateDomain clients domain = .ok sum ∧ Aggregates clients domain sum :=
      aggregateDomain_spec fun client hclient => h client hclient domain List.mem_cons_self
    refine ⟨(domain, sum) :: aggregate, ?_, by rw [List.map_cons, hdomains],
      List.forall_mem_cons.mpr ⟨hsum', hsums⟩⟩
    rw [aggregateClients, List.mapM_cons, hsum]
    show Except.bind (aggregateClients clients domains) _ = _
    rw [haggregate]
    rfl

/-- The sums of clients are accepted iff they are in range, and there is a client. -/
theorem accepts_iff {localeCompare : String → String → Ordering}
    {clients : List PressureClientEvidence} {domain : Domain} {sum : EvidenceDomain}
    (h : Aggregates clients domain sum)
    (hstages : ∀ client ∈ clients, clientStages domain client ≠ []) (legacy : Bool)
    {durationMs : ℚ} (hduration : 0 < durationMs) :
    Passes (Guidance.parsePressureDomain localeCompare domain (some (sum.toJson legacy))
      (.fin durationMs)) ↔ clients ≠ [] ∧ sum.InRange := by
  rw [Guidance.parsePressureDomain_toJson hduration (fun p hp => h.stages.accounted hp),
    EvidenceDomain.InRange, ne_eq, h.stages.eq_nil_iff]
  have hnil : clients.flatMap (clientStages domain) = [] ↔ clients = [] := by
    rw [List.flatMap_eq_nil_iff]
    refine ⟨fun hall => List.eq_nil_iff_forall_not_mem.mpr fun client hclient => ?_, ?_⟩
    · exact hstages client hclient (hall client hclient)
    · rintro rfl client hclient
      cases hclient
  rw [hnil]
  exact and_left_comm

/-- A client that has published notices, each in the same time. -/
def publisher (count : ℕ) (totalMs : ℚ) : PressureClientEvidence :=
  let latency : LatencyHistogram :=
    ⟨count, .fin totalMs, .fin totalMs, count :: List.replicate 14 0, 0⟩
  let stage : EvidenceStage :=
    ⟨{ createStageMetrics with started := count, succeeded := count, latency },
      latencySummary latency⟩
  { container := "client-1"
    worker := "publisher"
    domains := fun domain =>
      if domain = .notice then some ⟨count, 0, [("publish", stage)]⟩ else none
    queueOutcome := none }

theorem publisher_accounted (count : ℕ) {totalMs : ℚ} (h : 0 ≤ totalMs) :
    (publisher count totalMs).AllAccounted .notice := by
  intro p hp
  obtain rfl := List.mem_singleton.mp ((Dict.entries_perm _).mem_iff.mp hp)
  refine ⟨?_, rfl, ⟨rfl, ?_, h, totalMs, h, rfl⟩, List.nodup_nil, rfl, le_refl 0, le_refl 0,
    Nat.zero_le 10⟩
  · show count = count + 0 + 0 + 0
    rfl
  · show (count :: List.replicate 14 0).sum + 0 = count
    simp

/-- Two clients whose operations are more than a safe integer together. -/
def manyPublished : List PressureClientEvidence := [publisher (2 ^ 52) 0, publisher (2 ^ 52) 0]

/-- Two clients whose latencies are more than a number together. -/
def slowlyPublished : List PressureClientEvidence :=
  [publisher 1 (2 ^ 1023), publisher 1 (2 ^ 1023)]

/-- The sums of these clients are refused, since they are out of range. -/
theorem refused_of_outOfRange {clients : List PressureClientEvidence}
    (h : ∀ client ∈ clients, client.AllAccounted .notice)
    (hrange : ((aggregateDomain clients .notice).toOption.any fun sum => !decide sum.InRange) =
      true) : ∃ sum, aggregateDomain clients .notice = .ok sum ∧
        ¬Passes (Guidance.parsePressureDomain compare .notice (some (sum.toJson false))
          (.fin 1000)) := by
  obtain ⟨sum, hsum, haggregates⟩ := aggregateDomain_spec h
  refine ⟨sum, hsum, fun hpasses => ?_⟩
  rw [hsum] at hrange
  have haccepted := (Guidance.parsePressureDomain_toJson (by norm_num)
    (fun p hp => haggregates.stages.accounted hp) false).mp hpasses
  exact of_decide_eq_false (Bool.not_eq_true' _ ▸ hrange) ⟨haccepted.1, haccepted.2.2⟩

end Pressure

end FitzDestroyer
