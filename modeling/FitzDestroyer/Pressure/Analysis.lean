import FitzDestroyer.Pressure.Evidence

/-!
# What the host reads back

The host reads the counters of the workers back as they have logged them.

* `readStage`, `readDomain` : the evidence of what was counted;
* `parseStage_toJson`, `parseDomain_toJson` : the checks return nothing else;
* `analyzeLog_spec` : neither does the analysis of a log.
-/

namespace FitzDestroyer

namespace Pressure

open Js Workload Check

/-! ### Values -/

/-- A list of counters is read back if they are safe integers. -/
theorem mapM_count {f : Json → Except Thrown ℕ} {xs ys : List ℕ}
    (hf : ∀ n m, f (.count n) = .ok m ↔ n ≤ maxSafeInteger ∧ m = n) :
    (xs.map .count).mapM f = .ok ys ↔ (∀ x ∈ xs, x ≤ maxSafeInteger) ∧ ys = xs := by
  induction xs generalizing ys with
  | nil => simp [eq_comm]
  | cons x xs ih =>
    rw [List.map_cons, List.mapM_cons, List.forall_mem_cons]
    simp only [bind_eq, bind_eq_ok, hf, ih, pure_eq, Except.ok.injEq]
    constructor
    · rintro ⟨_, ⟨hx, rfl⟩, _, ⟨hxs, rfl⟩, rfl⟩
      exact ⟨⟨hx, hxs⟩, rfl⟩
    · rintro ⟨⟨hx, hxs⟩, rfl⟩
      exact ⟨x, ⟨hx, rfl⟩, xs, ⟨hxs, rfl⟩, rfl⟩

theorem numericArray_counts {xs ys : List ℕ} {label : String}
    (h : numericArray (some (.arr (xs.map .count))) label = .ok ys) : ys = xs :=
  ((mapM_count fun _ _ => numericValue_count).mp h).2

theorem nonNegativeNumber_json {x y : Number} {label : String}
    (h : nonNegativeNumber (some (jsonNumber x)) label = .ok y) : y = x := by
  unfold nonNegativeNumber at h
  cases x with
  | fin q =>
    simp only [jsonNumber, finiteNonNegative?] at h
    split_ifs at h
    exact (Except.ok.inj h).symm
  | _ => cases h

theorem stringValue_str {text text' label : String}
    (h : stringValue (some (.str text)) label = .ok text') : text' = text := by
  simp only [stringValue, Option.bind_some, Json.text?] at h
  split_ifs at h
  exact (Except.ok.inj h).symm

/-- The entries of a table are read back one by one. -/
theorem mapM_values {V W : Type} {f : String × Json → Except Thrown (String × W)} {g : V → Json}
    {k : V → W} (hf : ∀ name v y, f (name, g v) = .ok y → y = (name, k v)) {d : Dict V}
    {ys : Dict W} (h : (d.map fun p => (p.1, g p.2)).mapM f = .ok ys) :
    ys = d.map fun p => (p.1, k p.2) := by
  induction d generalizing ys with
  | nil => exact (Except.ok.inj h).symm
  | cons p d ih =>
    rw [List.map_cons, List.mapM_cons] at h
    simp only [bind_eq, bind_eq_ok, pure_eq, Except.ok.injEq] at h
    obtain ⟨y, hy, ys', hys, rfl⟩ := h
    rw [hf _ _ _ hy, ih hys, List.map_cons]

/-! ### A stage -/

/-- The evidence of a stage. -/
def readStage (m : StageMetrics) : EvidenceStage where
  metrics := { m with errorClasses := Dict.entries m.errorClasses }
  latency := latencySummary m.latency

theorem parseLatency_toJson {latency latency' : LatencyHistogram} {label : String}
    (h : parseLatency (some latency.toJson) label = .ok latency') : latency' = latency := by
  simp only [parseLatency, bind_eq, bind_eq_ok, pure_eq] at h
  obtain ⟨_, hrecord, buckets, hbuckets, _, -, count, hcount, totalMs, htotal, maxMs, hmax,
    overflow, hoverflow, heq⟩ := h
  obtain rfl := Except.ok.inj hrecord
  obtain rfl := Except.ok.inj heq
  exact LatencyHistogram.ext (numericValue_count.mp hcount).2 (nonNegativeNumber_json htotal)
    (nonNegativeNumber_json hmax) (numericArray_counts hbuckets) (numericValue_count.mp hoverflow).2

theorem parseErrorSample_toJson {label : String} {samples samples' : List ErrorSample} {index : ℕ}
    (h : ((samples.map ErrorSample.toJson).zipIdx index).mapM (parseErrorSample label) =
      .ok samples') : samples' = samples := by
  induction samples generalizing samples' index with
  | nil => exact (Except.ok.inj h).symm
  | cons sample samples ih =>
    rw [List.map_cons, List.zipIdx_cons, List.mapM_cons] at h
    simp only [bind_eq, bind_eq_ok, pure_eq, Except.ok.injEq] at h
    obtain ⟨sample', hsample, rest, hrest, rfl⟩ := h
    rw [ih hrest]
    simp only [parseErrorSample, bind_eq, bind_eq_ok, pure_eq] at hsample
    obtain ⟨_, hitem, errorClass, hclass, error, herror, heq⟩ := hsample
    obtain rfl := Except.ok.inj hitem
    obtain rfl := Except.ok.inj heq
    rw [stringValue_str hclass, stringValue_str herror]

/-- **A stage is read back** as it was counted. -/
theorem parseStage_toJson {m : StageMetrics} {label : String} {e : EvidenceStage}
    (h : parseStage (some m.toJson) label = .ok e) : e = readStage m := by
  simp only [parseStage, bind_eq, bind_eq_ok, pure_eq] at h
  obtain ⟨_, hrecord, latency, hlatency, _, hclassesRecord, classes, hclasses, samples, hsamples, _,
    hcancellations, started, hstarted, succeeded, hsucceeded, failed, hfailed, ambiguous,
    hambiguous, backpressure, hbackpressure, cancelledFailed, hcancelledFailed, cancelledAmbiguous,
    hcancelledAmbiguous, heq⟩ := h
  obtain rfl := Except.ok.inj hrecord
  obtain rfl := Except.ok.inj hclassesRecord
  obtain rfl := Except.ok.inj hcancellations
  obtain rfl := Except.ok.inj heq
  rw [Dict.entries_map] at hclasses
  obtain rfl := parseLatency_toJson hlatency
  obtain rfl := mapM_values (k := id) (fun name count y hy => by
    obtain ⟨count', hcount, hy⟩ := bind_eq_ok.mp hy
    obtain rfl := Except.ok.inj hy
    rw [(numericValue_count.mp hcount).2]
    rfl) hclasses
  obtain rfl := parseErrorSample_toJson hsamples
  obtain rfl := (numericValue_count.mp hstarted).2
  obtain rfl := (numericValue_count.mp hsucceeded).2
  obtain rfl := (numericValue_count.mp hfailed).2
  obtain rfl := (numericValue_count.mp hambiguous).2
  obtain rfl := (numericValue_count.mp hbackpressure).2
  obtain rfl := (numericValue_count.mp hcancelledFailed).2
  obtain rfl := (numericValue_count.mp hcancelledAmbiguous).2
  simp [readStage]

/-! ### A log -/

theorem Domain.name_injective : Function.Injective Domain.name := by
  intro domain domain' h
  cases domain <;> cases domain' <;> first | rfl | exact absurd h (by decide)

theorem mem_allDomains (domain : Domain) : domain ∈ allDomains := by
  cases domain <;> decide

/-- A field of a table by domains. -/
theorem field_domains (domains : List Domain) (value : Domain → Json) (domain : Domain) :
    field (domains.map fun d => (d.name, value d)) domain.name =
      if domain ∈ domains then some (value domain) else none := by
  induction domains with
  | nil => rfl
  | cons d domains ih =>
    show Dict.get? ((d.name, value d) :: domains.map fun d => (d.name, value d)) domain.name = _
    rw [Dict.get?_cons]
    by_cases hd : d = domain
    · subst hd
      rw [if_pos rfl, if_pos List.mem_cons_self]
    · rw [if_neg fun h => hd (Domain.name_injective h)]
      refine ih.trans ?_
      simp [List.mem_cons, Ne.symm hd]

/-- The evidence of a domain. -/
def readDomain (totals : Counters) (stages : PressureStages) (domain : Domain) :
    EvidenceDomain where
  succeeded := (totals domain).success
  failed := (totals domain).error
  stages := (Dict.entries (stages domain)).map fun p => (p.1, readStage p.2)

/-- **A domain is read back** as it was counted, if it has a stage. -/
theorem parseDomain_toJson {worker : String} {totals : Counters} {stages : PressureStages}
    {domain : Domain} {totalsRecord stagesRecord : Dict Json} {evidence : EvidenceDomain}
    (htotals : .obj totalsRecord = countersJson totals)
    (hstages : .obj stagesRecord = stagesJson stages)
    (h : parseDomain worker totalsRecord stagesRecord domain = .ok evidence) :
    evidence = readDomain totals stages domain ∧ stages domain ≠ [] := by
  obtain rfl := Json.obj.inj htotals
  obtain rfl := Json.obj.inj hstages
  simp only [parseDomain, bind_eq, bind_eq_ok, pure_eq, field_domains, mem_allDomains, if_true,
    List.mem_filter, true_and, decide_eq_true_eq] at h
  obtain ⟨_, htotal, _, hdomain, parsed, hparsed, _, -, succeeded, hsucceeded, failed, hfailed,
    heq⟩ := h
  obtain rfl := Except.ok.inj htotal
  obtain rfl := Except.ok.inj heq
  split_ifs at hdomain with hne
  · obtain rfl := Except.ok.inj hdomain
    rw [Dict.entries_map] at hparsed
    obtain rfl := mapM_values (k := readStage) (fun name m y hy => by
      obtain ⟨e, he, hy⟩ := bind_eq_ok.mp hy
      obtain rfl := Except.ok.inj hy
      rw [parseStage_toJson he]) hparsed
    obtain rfl := (numericValue_count.mp hsucceeded).2
    obtain rfl := (numericValue_count.mp hfailed).2
    exact ⟨rfl, hne⟩
  · cases hdomain

/-- The evidence of every domain, once it has been read. -/
theorem foldlM_domains {parse : Domain → Except Thrown EvidenceDomain} {domains : List Domain}
    {before after : Domain → Option EvidenceDomain}
    (h : domains.foldlM (fun clientDomains domain => do
      let evidence ← parse domain
      return Function.update clientDomains domain (some evidence)) before = .ok after)
    (domain : Domain) :
    (domain ∈ domains → ∃ evidence, parse domain = .ok evidence ∧ after domain = some evidence) ∧
      (domain ∉ domains → after domain = before domain) := by
  induction domains generalizing before with
  | nil =>
    obtain rfl := Except.ok.inj h
    exact ⟨fun hmem => absurd hmem List.not_mem_nil, fun _ => rfl⟩
  | cons d domains ih =>
    rw [List.foldlM_cons] at h
    simp only [bind_eq, bind_eq_ok, pure_eq, Except.ok.injEq] at h
    obtain ⟨_, ⟨evidence, hparse, rfl⟩, h⟩ := h
    obtain ⟨hmem, hnot⟩ := ih h
    constructor
    · intro hdomain
      by_cases hrest : domain ∈ domains
      · exact hmem hrest
      · obtain rfl : domain = d := (List.mem_cons.mp hdomain).resolve_right hrest
        exact ⟨evidence, hparse, by rw [hnot hrest, Function.update_self]⟩
    · intro hdomain
      rw [List.mem_cons, not_or] at hdomain
      rw [hnot hdomain.2, Function.update_of_ne hdomain.1]

/-- The log ends with the counters of a worker. -/
def LogsStopped (log : Log) (worker : RouteSegment) (totals : Counters) (stages : PressureStages)
    (queueOutcome : QueueOutcome) : Prop :=
  ∃ record, stoppedRecord log = some record ∧
    .record record = stoppedLine worker totals stages queueOutcome

/-- **A log is read back** as the worker has written it: every domain has a stage. -/
theorem analyzeLog_spec {domains : List Domain} {container : String} {log : Log}
    {client : PressureClientEvidence} {worker : RouteSegment} {totals : Counters}
    {stages : PressureStages} {queueOutcome : QueueOutcome}
    (hlog : LogsStopped log worker totals stages queueOutcome)
    (h : analyzeLog domains container log = .ok client) :
    client.worker = worker.text ∧ ∀ domain,
      (domain ∈ domains → client.domains domain = some (readDomain totals stages domain) ∧
        stages domain ≠ []) ∧
      (domain ∉ domains → client.domains domain = none) := by
  obtain ⟨record, hrecord, hline⟩ := hlog
  obtain rfl := LogLine.record.inj hline
  rw [analyzeLog, hrecord] at h
  simp only [bind_eq, bind_eq_ok] at h
  obtain ⟨name, hname, totalsRecord, htotals, stagesRecord, hstages, clientDomains, hfold, h⟩ := h
  obtain rfl := stringValue_str hname
  have hclient : client.worker = worker.text ∧ client.domains = clientDomains := by
    split_ifs at h
    · obtain ⟨queueOutcome, -, heq⟩ := bind_eq_ok.mp h
      obtain rfl := Except.ok.inj heq
      exact ⟨rfl, rfl⟩
    · obtain rfl := Except.ok.inj h
      exact ⟨rfl, rfl⟩
  refine ⟨hclient.1, fun domain => ?_⟩
  rw [hclient.2]
  obtain ⟨hmem, hnot⟩ := foldlM_domains hfold domain
  refine ⟨fun hdomain => ?_, hnot⟩
  obtain ⟨evidence, hparse, hafter⟩ := hmem hdomain
  obtain rfl := Except.ok.inj htotals
  obtain rfl := Except.ok.inj hstages
  obtain ⟨rfl, hne⟩ := parseDomain_toJson rfl rfl hparse
  exact ⟨hafter, hne⟩

end Pressure

end FitzDestroyer
