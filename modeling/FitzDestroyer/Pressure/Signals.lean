import FitzDestroyer.Pressure.Rating

/-!
# The documented rating

The rating is about a few signals that stand in the evidence: the definite errors and the latency
of every stage, the counters of the broker and the warnings.

* `PressureSignals`, `PressureSignals.ofEvidence` : the signals, as they stand in the evidence;
* `PressureSignals.Constrained`, `PressureSignals.Watched` : the classification of the README;
* `extractPressureGuidance_signals` : what the rating of accepted evidence is;
* `rating_exact` : it is the classification, it does not fall when a signal rises, and it does not
  depend on ambiguous outcomes and expected cancellations.
-/

namespace FitzDestroyer

namespace Pressure

open Js Workload Check

namespace Guidance

/-! ### Signals -/

/-- The signals of a stage: its definite errors without those of the shutdown, and its latency. -/
structure StageSignal where
  errors : ℤ
  p95Ms : Number

structure PressureSignals where
  requestTimeoutMs : ℕ
  stages : List StageSignal
  ingressTimeouts : ℕ
  /-- Of the normal and the high lane. -/
  routerBackpressure : ℕ
  warnings : List String

/-- The number is larger. -/
def Exceeds : Number → ℚ → Prop
  | .fin p, q => q < p
  | .posInf, _ => True
  | _, _ => False

namespace PressureSignals

def Constrained (s : PressureSignals) : Prop :=
  (∃ stage ∈ s.stages, 0 < stage.errors) ∨
    (∃ stage ∈ s.stages, Exceeds stage.p95Ms (s.requestTimeoutMs / 2)) ∨
    0 < s.ingressTimeouts ∨ 0 < s.routerBackpressure

def Watched (s : PressureSignals) : Prop :=
  (∃ stage ∈ s.stages, Exceeds stage.p95Ms (s.requestTimeoutMs / 4)) ∨
    "pending-growth" ∈ s.warnings ∨ "rss-growth" ∈ s.warnings

/-- Every signal of the first is in the second, or a stronger one. -/
structure Raised (s s' : PressureSignals) : Prop where
  timeout : s.requestTimeoutMs = s'.requestTimeoutMs
  stages : ∀ stage ∈ s.stages, ∃ stage' ∈ s'.stages,
    stage.errors ≤ stage'.errors ∧ stage.p95Ms.lessEq stage'.p95Ms = true
  ingress : s.ingressTimeouts ≤ s'.ingressTimeouts
  router : s.routerBackpressure ≤ s'.routerBackpressure
  warnings : s.warnings ⊆ s'.warnings

end PressureSignals

open Classical in
/-- **The documented rating.** -/
noncomputable def PressureSignals.rating (s : PressureSignals) : GuidanceRating :=
  if s.Constrained then .constrained else if s.Watched then .watch else .clear

/-- `clear`, `watch` and `constrained`, in this order. -/
def GuidanceRating.level : GuidanceRating → ℕ
  | .notRated => 0
  | .clear => 1
  | .watch => 2
  | .constrained => 3

/-! ### Signals in the evidence -/

/-- The fields of an object. -/
def fieldsOf : Option Json → Record
  | some (.obj fields) => fields
  | _ => []

/-- A counter of an object. -/
def number (record : Record) (name : String) : ℕ :=
  ((field record name).bind Json.sequence?).getD 0

/-- The expected cancellations among the definite failures of a stage: as they are told, or, in a
legacy record, inferred from the classes and the samples of its errors. -/
def shutdownFailures (stage : Record) : ℕ :=
  match field stage "expectedShutdownCancellations" with
  | some expected => number (fieldsOf (some expected)) "failed"
  | none =>
    let cancelled := number (fieldsOf (field stage "errorClasses")) "cancelled"
    let inferred := min (number stage "failed" + number stage "ambiguous")
      (cancelled + legacySignalCancellations (field stage "errorSamples"))
    min (number stage "failed") (inferred - min (number stage "ambiguous") inferred)

/-- The histogram of a stage. -/
def histogramOf (record : Record) : LatencyHistogram where
  count := number record "count"
  totalMs := (finiteNonNegative? (field record "totalMs")).getD (.fin 0)
  maxMs := (finiteNonNegative? (field record "maxMs")).getD (.fin 0)
  buckets := (itemsOf (field record "buckets")).map fun item => item.sequence?.getD 0
  overflow := number record "overflow"

def StageSignal.ofRecord (stage : Record) : StageSignal where
  errors := (number stage "failed" : ℤ) - shutdownFailures stage
  p95Ms := (latencySummary (histogramOf (fieldsOf (field stage "latencyHistogram")))).p95Ms

/-- The domain that a value names. -/
def domain? (item : Json) : Option Domain :=
  allDomains.find? fun domain => item.text? = some domain.name

def selectedDomains (evidence : Record) : List Domain :=
  (itemsOf (field evidence "selectedDomains")).filterMap domain?

/-- The stages of a domain. -/
def stagesOf (evidence : Record) (domain : Domain) : List (String × Json) :=
  fieldsOf (field (fieldsOf (field (fieldsOf (field evidence "aggregate")) domain.name)) "stages")

def PressureSignals.ofEvidence (evidence : Record) : PressureSignals where
  requestTimeoutMs := number evidence "requestTimeoutMs"
  stages := (selectedDomains evidence).flatMap fun domain =>
    (stagesOf evidence domain).map fun p => .ofRecord (fieldsOf (some p.2))
  ingressTimeouts :=
    number (fieldsOf (field evidence "brokerSummary")) "ingressDispatchTimeoutsDelta"
  routerBackpressure :=
    number (fieldsOf (field evidence "brokerSummary")) "routerBackpressureDelta" +
      number (fieldsOf (field evidence "brokerSummary")) "routerHighLaneBackpressureDelta"
  warnings := (itemsOf (field evidence "warnings")).filterMap fun item =>
    (field (fieldsOf (some item)) "code").bind Json.text?

/-! ### Reading a stage -/

section Read

variable {record : Record} {name label : String} {value : Option Json} {n : ℕ}

theorem eq_of_nonNegativeInteger (h : nonNegativeInteger value label = .ok n) :
    value.bind Json.sequence? = some n := by
  unfold nonNegativeInteger at h
  cases hvalue : value.bind Json.sequence? with
  | none =>
    rw [hvalue] at h
    cases h
  | some m =>
    rw [hvalue] at h
    rw [Except.ok.inj h]

theorem number_of_numberField (h : numberField record name = .ok n) : number record name = n := by
  rw [number, eq_of_nonNegativeInteger h, Option.getD_some]

theorem number_of_optionalNumberField (h : optionalNumberField record name = .ok n) :
    number record name = n := by
  unfold optionalNumberField at h
  split_ifs at h with hnone
  · rw [number, Option.isNone_iff_eq_none.mp hnone]
    exact Except.ok.inj h
  · exact number_of_numberField h

theorem fieldsOf_of_recordValue {fields : Record} (h : recordValue value label = .ok fields) :
    value = some (.obj fields) := by
  unfold recordValue at h
  split at h
  · exact congrArg (fun fields => some (Json.obj fields)) (Except.ok.inj h)
  · cases h

theorem itemsOf_of_arrayField {items : List Json} (h : arrayField record name = .ok items) :
    itemsOf (field record name) = items := by
  unfold arrayField at h
  split at h
  · rename_i hfield
    rw [hfield]
    exact Except.ok.inj h
  · cases h

theorem getD_of_nonNegativeNumber {x : Number} (h : nonNegativeNumber value label = .ok x) :
    (finiteNonNegative? value).getD (.fin 0) = x := by
  unfold nonNegativeNumber at h
  split at h
  · rename_i hvalue
    rw [hvalue]
    exact Except.ok.inj h
  · cases h

end Read

theorem histogramOf_eq {value : Option Json} {label : String} {histogram : LatencyHistogram}
    (h : latencyHistogram value label = .ok histogram) :
    histogramOf (fieldsOf value) = histogram := by
  simp only [latencyHistogram, bind_eq, bind_eq_ok, pure_eq] at h
  obtain ⟨record, hrecord, items, hitems, buckets, hbuckets, _, -, count, hcount, overflow,
    hoverflow, _, -, totalMs, htotal, maxMs, hmax, heq⟩ := h
  obtain rfl := Except.ok.inj heq
  have hmap : buckets = items.map fun item => item.sequence?.getD 0 := by
    have hread := map_eq_of_mapM (g := id) (k := fun item => item.sequence?.getD 0) hbuckets
      fun item _ n hn => by
        have hsequence : item.sequence? = some n := eq_of_nonNegativeInteger hn
        rw [hsequence, Option.getD_some, id]
    rwa [List.map_id] at hread
  rw [fieldsOf_of_recordValue hrecord, fieldsOf, histogramOf, number_of_numberField hcount,
    number_of_numberField hoverflow, itemsOf_of_arrayField hitems, ← hmap,
    getD_of_nonNegativeNumber htotal, getD_of_nonNegativeNumber hmax]

theorem shutdownFailures_eq {stage : Record} {failed ambiguous cancelled : ℕ} {label : String}
    {expected : ShutdownCancellations} (hfailed : number stage "failed" = failed)
    (hambiguous : number stage "ambiguous" = ambiguous)
    (hcancelled : number (fieldsOf (field stage "errorClasses")) "cancelled" = cancelled)
    (h : expectedShutdownCancellations (field stage "expectedShutdownCancellations") failed
      ambiguous cancelled (field stage "errorSamples") label = .ok expected) :
    shutdownFailures stage = expected.failed := by
  rw [shutdownFailures]
  cases hfield : field stage "expectedShutdownCancellations" with
  | none =>
    rw [hfield] at h
    obtain rfl := Except.ok.inj h
    rw [hfailed, hambiguous, hcancelled]
  | some value =>
    rw [hfield] at h
    simp only [expectedShutdownCancellations, bind_eq, bind_eq_ok, pure_eq] at h
    obtain ⟨record, hrecord, expectedFailed, hexpectedFailed, _, -, _, -, heq⟩ := h
    obtain rfl := Except.ok.inj heq
    dsimp only
    rw [fieldsOf_of_recordValue hrecord]
    exact number_of_numberField hexpectedFailed

/-- **A stage** is summarized by its signals. -/
theorem ofRecord_eq {domain : Domain} {p : String × Json} {summary : PressureStageSummary}
    (h : parseStageSummary domain p = .ok summary) :
    StageSignal.ofRecord (fieldsOf (some p.2)) = ⟨summary.errors, summary.latency.p95Ms⟩ := by
  simp only [parseStageSummary, bind_eq, bind_eq_ok, pure_eq] at h
  obtain ⟨record, hrecord, histogram, hhistogram, errorClasses, hclasses, failed, hfailed,
    ambiguous, hambiguous, cancelled, hcancelled, expected, hexpected, started, -, succeeded, -,
    heq⟩ := h
  obtain rfl := Except.ok.inj heq
  have hfields : fieldsOf (some p.2) = record := by rw [fieldsOf_of_recordValue hrecord, fieldsOf]
  have hcancelled' : number (fieldsOf (field record "errorClasses")) "cancelled" = cancelled := by
    rw [fieldsOf_of_recordValue hclasses, fieldsOf]
    exact number_of_optionalNumberField hcancelled
  rw [hfields, StageSignal.ofRecord, number_of_numberField hfailed, histogramOf_eq hhistogram,
    shutdownFailures_eq (number_of_numberField hfailed) (number_of_numberField hambiguous)
      hcancelled' hexpected]

/-! ### The signals of the rating -/

/-- The signals of a stage that has been summarized. -/
def PressureStageSummary.signal (stage : PressureStageSummary) : StageSignal :=
  ⟨stage.errors, stage.latency.p95Ms⟩

theorem stages_of_parsePressureDomain {localeCompare : String → String → Ordering}
    {domain : Domain} {value : Option Json} {durationMs : Number} {d : PressureDomainSummary}
    (h : parsePressureDomain localeCompare domain value durationMs = .ok d) :
    (d.stages.map PressureStageSummary.signal).Perm
      ((fieldsOf (field (fieldsOf value) "stages")).map fun p =>
        .ofRecord (fieldsOf (some p.2))) := by
  simp only [parsePressureDomain, bind_eq, bind_eq_ok] at h
  obtain ⟨record, hrecord, completed, -, stagesRecord, hstagesRecord, stages, hstages, h⟩ := h
  have hmap := map_eq_of_mapM (g := PressureStageSummary.signal)
    (k := fun p => StageSignal.ofRecord (fieldsOf (some p.2))) hstages
    fun p _ summary hsummary => by
      rw [ofRecord_eq hsummary]
      rfl
  have hd : d.stages = stages := by
    split at h
    · cases h
    · split at h
      · cases h
      · rw [← Except.ok.inj h]
  rw [hd, hmap, fieldsOf_of_recordValue hrecord, fieldsOf, fieldsOf_of_recordValue hstagesRecord,
    fieldsOf]
  exact ((List.mergeSort_perm _ _).trans (Dict.entries_perm _)).map _

/-- A list that is read without a failure. -/
theorem filterMap_eq {α β : Type} {f : α → Option β} {xs : List α} {ys : List β}
    (h : ys.map some = xs.map f) : xs.filterMap f = ys := by
  calc xs.filterMap f = (xs.map f).filterMap id := by rw [List.filterMap_map, Function.id_comp]
    _ = (ys.map some).filterMap id := by rw [h]
    _ = ys := by rw [List.filterMap_map, Function.id_comp, List.filterMap_some]

theorem domain?_of_domainItem {item : Json} {domain : Domain}
    (h : domainItem item = .ok domain) : domain? item = some domain := by
  unfold domainItem at h
  split at h
  · rename_i hfound
    rw [domain?, hfound, Except.ok.inj h]
  · cases h

theorem selectedDomains_eq {evidence : Record} {domains : List Domain}
    (h : domainArray (field evidence "selectedDomains") = .ok domains) :
    selectedDomains evidence = domains := by
  unfold domainArray at h
  split at h
  · rename_i items hitems
    rw [selectedDomains, hitems]
    exact filterMap_eq (map_eq_of_mapM h
      fun item _ domain hdomain => (domain?_of_domainItem hdomain).symm)
  · cases h

theorem warnings_eq {evidence : Record} {items : List Json} {warnings : List (Dict Json)}
    {codes : List String} (hitems : arrayField evidence "warnings" = .ok items)
    (hwarnings : (items.mapM fun item => recordValue (some item) "pressure warning") =
      .ok warnings)
    (hcodes : (warnings.mapM fun warning => stringField warning "code") = .ok codes) :
    (PressureSignals.ofEvidence evidence).warnings = codes := by
  have hfields := map_eq_of_mapM (g := id) (k := fun item => fieldsOf (some item)) hwarnings
    fun item _ warning hwarning => by rw [fieldsOf_of_recordValue hwarning, fieldsOf, id]
  rw [List.map_id] at hfields
  have htexts := map_eq_of_mapM (g := some)
    (k := fun warning => (field warning "code").bind Json.text?) hcodes
    fun warning _ code hcode => by
      unfold stringField at hcode
      split at hcode
      · rename_i hfiltered
        rw [(Option.filter_eq_some_iff.mp hfiltered).1, Except.ok.inj hcode]
      · cases hcode
  rw [hfields, List.map_map] at htexts
  rw [PressureSignals.ofEvidence, itemsOf_of_arrayField hitems]
  exact filterMap_eq htexts

/-- A part of the timeout is exact. -/
theorem greater_timeoutPart {x : Number} {n k : ℕ} (hn : n ≤ maxSafeInteger) (hk : k ≤ 1074) :
    x.greater (timeoutPart n (2 ^ k)) = true ↔ Exceeds x (n / (2 ^ k : ℕ)) := by
  have hlt : n < 2 ^ 53 := Nat.lt_of_le_pred (by decide) hn
  have hpow : ((2 ^ k : ℕ) : ℚ) ≠ 0 := by positivity
  have hpart : timeoutPart n (2 ^ k) = .fin (n / (2 ^ k : ℕ)) := by
    rw [timeoutPart, Number.div, if_neg hpow, Nat.cast_pow, Nat.cast_ofNat]
    exact Number.round_dyadic hlt hk
  rw [hpart]
  cases x <;> simp [Number.greater, Number.lessEq, Exceeds]

section Reasons

variable {n : ℕ} {ds : List PressureDomainSummary}

theorem stageReasons_ne_nil {reasons : Domain → PressureStageSummary → List String} :
    stageReasons reasons ds ≠ [] ↔ ∃ d ∈ ds, ∃ stage ∈ d.stages, reasons d.domain stage ≠ [] := by
  simp only [stageReasons, ne_eq, List.flatMap_eq_nil_iff, not_forall, exists_prop]

theorem stageConstrained_ne_nil (hn : n ≤ maxSafeInteger) {domain : Domain}
    {stage : PressureStageSummary} : stageConstrained n domain stage ≠ [] ↔
      0 < stage.signal.errors ∨ Exceeds stage.signal.p95Ms (n / 2) := by
  have hhalf := @greater_timeoutPart stage.latency.p95Ms n 1 hn (by decide)
  rw [pow_one, Nat.cast_ofNat] at hhalf
  simp only [stageConstrained, PressureStageSummary.signal, ne_eq, List.append_eq_nil_iff,
    ite_eq_right_iff, List.cons_ne_nil, imp_false, not_and_or, not_not, hhalf]

theorem stageWatch_ne_nil (hn : n ≤ maxSafeInteger) {domain : Domain}
    {stage : PressureStageSummary} : stageWatch n domain stage ≠ [] ↔
      ¬Exceeds stage.signal.p95Ms (n / 2) ∧ Exceeds stage.signal.p95Ms (n / 4) := by
  have hhalf := @greater_timeoutPart stage.latency.p95Ms n 1 hn (by decide)
  have hquarter := @greater_timeoutPart stage.latency.p95Ms n 2 hn (by decide)
  rw [pow_one, Nat.cast_ofNat] at hhalf
  have hfour : 2 ^ 2 = 4 := rfl
  rw [hfour, Nat.cast_ofNat] at hquarter
  simp only [stageWatch, PressureStageSummary.signal, ← hhalf, ← hquarter]
  split_ifs <;> simp_all

theorem warningWatch_ne_nil {codes : List String} : codes.flatMap warningWatch ≠ [] ↔
    "pending-growth" ∈ codes ∨ "rss-growth" ∈ codes := by
  simp only [ne_eq, List.flatMap_eq_nil_iff, not_forall, exists_prop, warningWatch,
    List.append_eq_nil_iff, ite_eq_right_iff, List.cons_ne_nil, imp_false, not_and_or, not_not]
  constructor
  · rintro ⟨code, hcode, rfl | rfl⟩
    · exact .inl hcode
    · exact .inr hcode
  · rintro (hcode | hcode)
    · exact ⟨_, hcode, .inl rfl⟩
    · exact ⟨_, hcode, .inr rfl⟩

end Reasons

/-! ### The rating -/

section Rating

variable {localeCompare : String → String → Ordering} {value : Json}
  {workloadDurationMs : Option Number} {g : OperationalGuidance}

theorem perm_stages {aggregate : Dict Json} {durationMs : Number} {domains : List Domain}
    {ds : List PressureDomainSummary}
    (h : (domains.mapM fun domain => parsePressureDomain localeCompare domain
      (field aggregate domain.name) durationMs) = .ok ds) :
    (ds.flatMap fun d => d.stages.map PressureStageSummary.signal).Perm
      (domains.flatMap fun domain =>
        (fieldsOf (field (fieldsOf (field aggregate domain.name)) "stages")).map fun p =>
          .ofRecord (fieldsOf (some p.2))) := by
  rw [mapM_eq_ok] at h
  induction h with
  | nil => exact .refl []
  | cons hd _ ih =>
    rw [List.flatMap_cons, List.flatMap_cons]
    exact (stages_of_parsePressureDomain hd).append ih

theorem exists_signal {ds : List PressureDomainSummary} {signals : List StageSignal}
    (h : (ds.flatMap fun d => d.stages.map PressureStageSummary.signal).Perm signals)
    (P : StageSignal → Prop) :
    (∃ d ∈ ds, ∃ stage ∈ d.stages, P stage.signal) ↔ ∃ signal ∈ signals, P signal := by
  simp only [← h.mem_iff, List.mem_flatMap, List.mem_map]
  constructor
  · rintro ⟨d, hd, stage, hstage, hP⟩
    exact ⟨_, ⟨d, hd, stage, hstage, rfl⟩, hP⟩
  · rintro ⟨_, ⟨d, hd, stage, hstage, rfl⟩, hP⟩
    exact ⟨d, hd, stage, hstage, hP⟩

theorem le_of_numberField {record : Record} {name : String} {n : ℕ}
    (h : numberField record name = .ok n) : n ≤ maxSafeInteger := by
  obtain ⟨item, -, hitem⟩ := Option.bind_eq_some_iff.mp (eq_of_nonNegativeInteger h)
  cases item with
  | num x => exact (Number.isSequence_of_sequence? hitem).2
  | _ => cases hitem

theorem positiveNumberField_eq_ok {record : Record} {name : String} {n : ℕ}
    (h : positiveNumberField record name = .ok n) : numberField record name = .ok n := by
  simp only [positiveNumberField, bind_eq, bind_eq_ok, pure_eq] at h
  obtain ⟨m, hm, _, -, heq⟩ := h
  rwa [← Except.ok.inj heq]

/-- The rating of some reasons. -/
theorem rate_value (constrained watch disclosures : List String) :
    (rate constrained watch disclosures).value = if constrained ≠ [] then .constrained
      else if watch ≠ [] then .watch else .clear := by
  unfold rate
  split_ifs <;> rfl

/-- **The reasons of accepted evidence** are its signals. -/
theorem extractPressureGuidance_signals
    (h : extractPressureGuidance localeCompare value workloadDurationMs = .ok g) :
    let s := PressureSignals.ofEvidence (fieldsOf (some value))
    ∃ constrained watch disclosures, g.rating = rate constrained watch disclosures ∧
      (constrained ≠ [] ↔ s.Constrained) ∧ (constrained = [] → (watch ≠ [] ↔ s.Watched)) := by
  simp only [extractPressureGuidance, bind_eq, bind_eq_ok, pure_eq] at h
  obtain ⟨evidence, hevidence, durationMs, -, timeout, htimeout, domains, hdomains, _, -,
    aggregate, haggregate, ds, hds, broker, hbroker, ingress, hingress, normal, hnormal, high,
    hhigh, items, hitems, warnings, hwarnings, disclosures, -, codes, hcodes, heq⟩ := h
  obtain rfl := Except.ok.inj heq
  have hn := positiveNumberField_eq_ok htimeout
  have hsafe := le_of_numberField hn
  have hrecord : fieldsOf (some value) = evidence := by
    rw [fieldsOf_of_recordValue hevidence, fieldsOf]
  have haggregate' : fieldsOf (field evidence "aggregate") = aggregate := by
    rw [fieldsOf_of_recordValue haggregate, fieldsOf]
  have hbroker' : fieldsOf (field evidence "brokerSummary") = broker := by
    rw [fieldsOf_of_recordValue hbroker, fieldsOf]
  have hsignals : PressureSignals.ofEvidence evidence = {
      requestTimeoutMs := timeout
      stages := (PressureSignals.ofEvidence evidence).stages
      ingressTimeouts := ingress
      routerBackpressure := normal + high
      warnings := codes } := by
    rw [← warnings_eq hitems hwarnings hcodes, ← number_of_numberField hn,
      ← number_of_numberField hingress, ← number_of_numberField hnormal,
      ← number_of_optionalNumberField hhigh, ← hbroker']
    rfl
  have hperm : (ds.flatMap fun d => d.stages.map PressureStageSummary.signal).Perm
      (PressureSignals.ofEvidence evidence).stages := by
    rw [PressureSignals.ofEvidence, selectedDomains_eq hdomains]
    simp only [stagesOf, haggregate']
    exact perm_stages hds
  have hstages := exists_signal hperm
  have hone : ∀ {p : Prop} [Decidable p] {reason : String},
      (if p then [reason] else []) ≠ [] ↔ p := by
    intro p _ reason
    split_ifs <;> simp [*]
  dsimp only
  rw [hrecord]
  refine ⟨_, _, _, rfl, ?_, fun hnone => ?_⟩
  · -- A reason for `constrained` is a signal.
    have hconstrained : stageReasons (stageConstrained timeout) ds ≠ [] ↔
        (∃ d ∈ ds, ∃ stage ∈ d.stages, 0 < stage.signal.errors) ∨
          ∃ d ∈ ds, ∃ stage ∈ d.stages, Exceeds stage.signal.p95Ms (timeout / 2) := by
      simp only [stageReasons_ne_nil, stageConstrained_ne_nil hsafe, and_or_left, exists_or]
    rw [ne_eq, List.append_eq_nil_iff, List.append_eq_nil_iff, not_and_or, not_and_or, ← ne_eq,
      ← ne_eq, ← ne_eq, hconstrained, hone, hone, hsignals, PressureSignals.Constrained,
      hstages fun signal => 0 < signal.errors,
      hstages fun signal => Exceeds signal.p95Ms (timeout / 2), or_assoc, or_assoc]
  · -- No stage exceeds half of the timeout, so a reason for `watch` is a signal.
    have hbelow : ∀ d ∈ ds, ∀ stage ∈ d.stages, ¬Exceeds stage.signal.p95Ms (timeout / 2) := by
      intro d hd stage hstage hexceeds
      refine absurd (List.append_eq_nil_iff.mp (List.append_eq_nil_iff.mp hnone).1).1 ?_
      exact stageReasons_ne_nil.mpr
        ⟨d, hd, stage, hstage, (stageConstrained_ne_nil hsafe).mpr (.inr hexceeds)⟩
    have hwatch : stageReasons (stageWatch timeout) ds ≠ [] ↔
        ∃ d ∈ ds, ∃ stage ∈ d.stages, Exceeds stage.signal.p95Ms (timeout / 4) := by
      rw [stageReasons_ne_nil]
      refine exists_congr fun d => and_congr_right fun hd => exists_congr fun stage =>
        and_congr_right fun hstage => ?_
      rw [stageWatch_ne_nil hsafe, and_iff_right (hbelow d hd stage hstage)]
    rw [ne_eq, List.append_eq_nil_iff, not_and_or, ← ne_eq, ← ne_eq, hwatch, warningWatch_ne_nil,
      hsignals, PressureSignals.Watched, hstages fun signal => Exceeds signal.p95Ms (timeout / 4)]

/-- The rating of accepted evidence is the documented one. -/
theorem rating_eq (h : extractPressureGuidance localeCompare value workloadDurationMs = .ok g) :
    g.rating.value = (PressureSignals.ofEvidence (fieldsOf (some value))).rating := by
  obtain ⟨constrained, watch, disclosures, hrating, hconstrained, hwatch⟩ :=
    extractPressureGuidance_signals h
  rw [hrating, rate_value, PressureSignals.rating]
  by_cases hnone : constrained = []
  · rw [if_neg (not_not.mpr hnone), if_neg fun hc => hconstrained.mpr hc hnone]
    by_cases hempty : watch = []
    · rw [if_neg (not_not.mpr hempty), if_neg fun hw => (hwatch hnone).mpr hw hempty]
    · rw [if_pos hempty, if_pos ((hwatch hnone).mp hempty)]
  · rw [if_pos hnone, if_pos (hconstrained.mp hnone)]

theorem Exceeds.mono {x y : Number} {q : ℚ} (h : Exceeds x q) (hxy : x.lessEq y = true) :
    Exceeds y q := by
  cases x <;> cases y <;> simp_all [Exceeds, Number.lessEq]
  exact h.trans_le hxy

/-- **Stronger signals** stay signals. -/
theorem PressureSignals.Raised.mono {s s' : PressureSignals} (h : s.Raised s') :
    (s.Constrained → s'.Constrained) ∧ (s.Watched → s'.Watched) := by
  have hexceeds : ∀ {q : ℚ}, (∃ stage ∈ s.stages, Exceeds stage.p95Ms q) →
      ∃ stage ∈ s'.stages, Exceeds stage.p95Ms q := by
    rintro q ⟨stage, hstage, hp95⟩
    obtain ⟨stage', hstage', -, hle⟩ := h.stages stage hstage
    exact ⟨stage', hstage', hp95.mono hle⟩
  have htimeout := h.timeout
  constructor
  · rintro (⟨stage, hstage, herrors⟩ | hp95 | hingress | hrouter)
    · obtain ⟨stage', hstage', hle, -⟩ := h.stages stage hstage
      exact .inl ⟨stage', hstage', herrors.trans_le hle⟩
    · exact .inr (.inl (htimeout ▸ hexceeds hp95))
    · exact .inr (.inr (.inl (hingress.trans_le h.ingress)))
    · exact .inr (.inr (.inr (hrouter.trans_le h.router)))
  · rintro (hp95 | hpending | hrss)
    · exact .inl (htimeout ▸ hexceeds hp95)
    · exact .inr (.inl (h.warnings hpending))
    · exact .inr (.inr (h.warnings hrss))

/-- The rating does not fall. -/
theorem PressureSignals.Raised.level_le {s s' : PressureSignals} (h : s.Raised s') :
    s.rating.level ≤ s'.rating.level := by
  obtain ⟨hconstrained, hwatched⟩ := h.mono
  unfold PressureSignals.rating
  split_ifs with hc hc' hw' hw hc' hw' hc' hw' <;>
    first | decide | exact absurd (hconstrained hc) hc' | exact absurd (hwatched hw) hw'

/-! ### Cancellations -/

/-- Two stages that have, besides their expected cancellations, as many definite errors and the same
latency. -/
structure SameStage (stage stage' : Record) : Prop where
  errors : (number stage "failed" : ℤ) - shutdownFailures stage =
    number stage' "failed" - shutdownFailures stage'
  latency : field stage "latencyHistogram" = field stage' "latencyHistogram"

/-- Two records that differ in their ambiguous outcomes and expected cancellations only, and in
what the rating does not look at. -/
structure SameButForCancellations (evidence evidence' : Record) : Prop where
  timeout : field evidence "requestTimeoutMs" = field evidence' "requestTimeoutMs"
  domains : field evidence "selectedDomains" = field evidence' "selectedDomains"
  broker : field evidence "brokerSummary" = field evidence' "brokerSummary"
  warnings : field evidence "warnings" = field evidence' "warnings"
  stages : ∀ domain ∈ selectedDomains evidence,
    List.Forall₂ (fun p p' => SameStage (fieldsOf (some p.2)) (fieldsOf (some p'.2)))
      (stagesOf evidence domain) (stagesOf evidence' domain)

theorem SameStage.signal {stage stage' : Record} (h : SameStage stage stage') :
    StageSignal.ofRecord stage = .ofRecord stage' := by
  rw [StageSignal.ofRecord, StageSignal.ofRecord, h.errors, h.latency]

/-- Their signals are the same. -/
theorem SameButForCancellations.signals {evidence evidence' : Record}
    (h : SameButForCancellations evidence evidence') :
    PressureSignals.ofEvidence evidence = .ofEvidence evidence' := by
  have hdomains : selectedDomains evidence = selectedDomains evidence' := by
    rw [selectedDomains, selectedDomains, h.domains]
  have hstages : (selectedDomains evidence).flatMap (fun domain =>
      (stagesOf evidence domain).map fun p => StageSignal.ofRecord (fieldsOf (some p.2))) =
        (selectedDomains evidence').flatMap fun domain =>
          (stagesOf evidence' domain).map fun p => .ofRecord (fieldsOf (some p.2)) := by
    rw [← hdomains]
    refine List.flatMap_congr fun domain hdomain => ?_
    have hsame := h.stages domain hdomain
    generalize stagesOf evidence domain = ps at hsame
    generalize stagesOf evidence' domain = ps' at hsame
    induction hsame with
    | nil => rfl
    | cons hp _ ih => rw [List.map_cons, List.map_cons, hp.signal, ih]
  simp only [PressureSignals.ofEvidence, hstages, number, h.timeout, h.broker, h.warnings]

end Rating

/-! A worker whose only operation was cancelled by the shutdown. -/

/-- A stage with one failure that is an expected cancellation. -/
def cancelledStage : Json := .obj
  [("started", .count 1), ("succeeded", .count 0), ("failed", .count 1), ("ambiguous", .count 0),
    ("latencyHistogram", .obj [("buckets", .arr (latencyBucketUpperMs.map fun _ => .count 0)),
      ("count", .count 0), ("overflow", .count 0), ("totalMs", .count 0), ("maxMs", .count 0)]),
    ("errorClasses", .obj []),
    ("expectedShutdownCancellations", .obj [("failed", .count 1), ("ambiguous", .count 0)])]

def cancelledEvidence : Json := .obj
  [("durationMs", .count 1000), ("requestTimeoutMs", .count 1000),
    ("selectedDomains", .arr [.str "queue"]),
    ("aggregate", .obj [("queue", .obj
      [("succeeded", .count 0), ("stages", .obj [("enqueue", cancelledStage)])])]),
    ("brokerSummary", .obj
      [("ingressDispatchTimeoutsDelta", .count 0), ("routerBackpressureDelta", .count 0)]),
    ("warnings", .arr [])]

def cancelledGuidance : OperationalGuidance :=
  (extractPressureGuidance (fun _ _ => .eq) cancelledEvidence none).toOption.getD
    (emptyGuidance none "")

theorem extract_cancelledEvidence :
    extractPressureGuidance (fun _ _ => .eq) cancelledEvidence none = .ok cancelledGuidance := by
  have hsome : (extractPressureGuidance (fun _ _ => .eq) cancelledEvidence
      none).toOption.isSome = true := by decide +kernel
  unfold cancelledGuidance
  cases hread : extractPressureGuidance (fun _ _ => .eq) cancelledEvidence none with
  | ok g => rfl
  | error e =>
    rw [hread] at hsome
    cases hsome

end Guidance

end Pressure

end FitzDestroyer
