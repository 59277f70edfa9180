import FitzDestroyer.Pressure.Evidence

/-!
# Merging stages

The host sums the records of a stage over all clients.

* `StageCounter` : every counter of a stage;
* `Sums` : a record that sums others;
* `mergeStage_concat`, `sums_foldlM` : merging sums every counter, and accounts for every operation;
* `Tallied` : a table of stages that sums records by their names;
* `Aggregates`, `aggregateDomain_spec` : so does the evidence of a domain.
-/

namespace FitzDestroyer

namespace Pressure

open Js Check

/-! ### Counters -/

inductive StageCounter where
  | started
  | succeeded
  | failed
  | ambiguous
  | retryableBackpressure
  | cancelledFailed
  | cancelledAmbiguous
  | latencyCount
  | bucket (index : ℕ)
  | overflow
  | errorClass (name : String)

def StageMetrics.counter (m : StageMetrics) : StageCounter → ℕ
  | .started => m.started
  | .succeeded => m.succeeded
  | .failed => m.failed
  | .ambiguous => m.ambiguous
  | .retryableBackpressure => m.retryableBackpressure
  | .cancelledFailed => m.expectedShutdownCancellations.failed
  | .cancelledAmbiguous => m.expectedShutdownCancellations.ambiguous
  | .latencyCount => m.latency.count
  | .bucket index => m.latency.buckets.getD index 0
  | .overflow => m.latency.overflow
  | .errorClass name => (m.errorClasses.get? name).getD 0

/-- The counts of a table are added name by name. -/
theorem foldl_addErrorClass (counts : Dict ℕ) {errorClasses : Dict ℕ}
    (h : (errorClasses.map Prod.fst).Nodup) (hcounts : (counts.map Prod.fst).Nodup) :
    ((counts.foldl addErrorClass errorClasses).map Prod.fst).Nodup ∧
    ((counts.foldl addErrorClass errorClasses).map Prod.snd).sum =
      (errorClasses.map Prod.snd).sum + (counts.map Prod.snd).sum ∧
    ∀ name, (Dict.get? (counts.foldl addErrorClass errorClasses) name).getD 0 =
      (errorClasses.get? name).getD 0 + (counts.get? name).getD 0 := by
  induction counts generalizing errorClasses with
  | nil => exact ⟨h, rfl, fun _ => rfl⟩
  | cons p counts ih =>
    rw [List.map_cons, List.nodup_cons] at hcounts
    obtain ⟨hnodup, hsum, hget⟩ := @ih (addErrorClass errorClasses p)
      (Dict.nodup_set h _ _) hcounts.2
    refine ⟨hnodup, ?_, fun name => ?_⟩
    · have hset := Dict.sum_set h id p.1 ((errorClasses.get? p.1).getD 0 + p.2)
      simp only [Option.map_id, id_eq] at hset
      have hadd : ((addErrorClass errorClasses p).map Prod.snd).sum =
          (errorClasses.map Prod.snd).sum + p.2 := by
        show ((errorClasses.set p.1 _).map fun q => q.2).sum =
          (errorClasses.map fun q => q.2).sum + p.2
        omega
      rw [List.foldl_cons, hsum, hadd, List.map_cons, List.sum_cons, Nat.add_assoc]
    · rw [List.foldl_cons, hget, addErrorClass, Dict.get?_set h, Dict.get?_cons]
      by_cases hname : p.1 = name
      · subst hname
        rw [if_pos rfl, if_pos rfl, Dict.get?_eq_none.mpr hcounts.1]
        rfl
      · rw [if_neg hname, if_neg hname]

/-! ### Two stages -/

theorem getD_zipWith_add {l l' : List ℕ} (h : l.length = l'.length) (index : ℕ) :
    (List.zipWith (· + ·) l l').getD index 0 = l.getD index 0 + l'.getD index 0 := by
  induction l generalizing l' index with
  | nil =>
    obtain rfl := List.length_eq_zero_iff.mp h.symm
    rfl
  | cons x l ih =>
    cases l' with
    | nil => cases h
    | cons x' l' =>
      cases index with
      | zero => rfl
      | succ index => exact ih (Nat.succ.inj h) index

/-- The first items of a list whose start is cut are those of the whole list. -/
theorem take_take_append {α : Type*} (n : ℕ) (l l' : List α) :
    (l.take n ++ l').take n = (l ++ l').take n := by
  rw [List.take_append, List.take_append, List.take_take, min_self, List.length_take]
  congr 2
  omega

/-- A record that sums others. -/
structure Sums (records : List EvidenceStage) (sum : EvidenceStage) : Prop where
  accounted : StageAccounted 10 0 sum.metrics
  counters : ∀ c, sum.metrics.counter c = (records.map fun r => r.metrics.counter c).sum
  samples : sum.metrics.errorSamples =
    (records.flatMap fun r => r.metrics.errorSamples).take 10

theorem sums_nil : Sums [] emptyEvidenceStage where
  accounted := accounted_create 10
  counters := by
    intro c
    cases c with
    | bucket index =>
      show (latencyBucketUpperMs.map fun _ => 0).getD index 0 = 0
      rw [List.getD_eq_getElem?_getD, List.getElem?_map]
      cases latencyBucketUpperMs[index]? <;> rfl
    | _ => rfl
  samples := rfl

/-- **Merging one more record** sums every counter. -/
theorem Sums.concat {records : List EvidenceStage} {target source : EvidenceStage} {limit : ℕ}
    (h : Sums records target) (hs : StageAccounted limit 0 source.metrics) :
    ∃ sum, mergeStage target source = .ok sum ∧ Sums (records ++ [source]) sum := by
  have ht := h.accounted
  -- The host starts from an empty histogram and adds both.
  have hempty : (LatencyHistogram.empty.plus target.metrics.latency).Consistent :=
    consistent_empty.plus ht.latency
  have hlatency : mergeLatencyHistograms [target.metrics.latency, source.metrics.latency] =
      .ok ((LatencyHistogram.empty.plus target.metrics.latency).plus source.metrics.latency) := by
    rw [mergeLatencyHistograms, List.foldlM_cons, mergeInto_eq_ok ht.latency]
    show List.foldlM mergeInto _ [source.metrics.latency] = _
    rw [List.foldlM_cons, mergeInto_eq_ok hs.latency]
    rfl
  obtain ⟨hnames, hclasses, hclass⟩ := foldl_addErrorClass
    (Dict.entries source.metrics.errorClasses) ht.classNames (Dict.nodup_entries hs.classNames)
  rw [((Dict.entries_perm _).map Prod.snd).sum_eq] at hclasses
  refine ⟨_, by rw [mergeStage, hlatency]; rfl, ?_, fun c => ?_, ?_⟩
  · -- The counters of both stages add up as they do in each.
    have h₁ := ht.started
    have h₂ := hs.started
    have h₃ := ht.ended
    have h₄ := hs.ended
    have h₅ := ht.classes
    have h₆ := hs.classes
    constructor
    case started => dsimp only; omega
    case ended =>
      show target.metrics.started + source.metrics.started =
        0 + target.metrics.latency.count + source.metrics.latency.count + 0
      omega
    case latency => exact hempty.plus hs.latency
    case classNames => exact hnames
    case classes =>
      rw [hclasses]
      dsimp only
      omega
    case cancelledFailed => exact Nat.add_le_add ht.cancelledFailed hs.cancelledFailed
    case cancelledAmbiguous => exact Nat.add_le_add ht.cancelledAmbiguous hs.cancelledAmbiguous
    case samples => exact List.length_take_le _ _
  · have hsum : ∀ x, ((records ++ [source]).map fun r => r.metrics.counter x).sum =
        target.metrics.counter x + source.metrics.counter x := by
      intro x
      rw [List.map_append, List.sum_append, ← h.counters x, List.map_singleton, List.sum_singleton]
    rw [hsum]
    cases c with
    | latencyCount =>
      show 0 + target.metrics.latency.count + source.metrics.latency.count = _
      rw [Nat.zero_add]
      rfl
    | overflow =>
      show 0 + target.metrics.latency.overflow + source.metrics.latency.overflow = _
      rw [Nat.zero_add]
      rfl
    | bucket index =>
      have hzero : LatencyHistogram.empty.buckets.getD index 0 = 0 :=
        sums_nil.counters (.bucket index)
      have hfirst : (LatencyHistogram.empty.plus target.metrics.latency).buckets.getD index 0 =
          target.metrics.latency.buckets.getD index 0 := by
        rw [LatencyHistogram.plus,
          getD_zipWith_add (consistent_empty.length.trans ht.latency.length.symm), hzero,
          Nat.zero_add]
      show (List.zipWith (· + ·) (LatencyHistogram.empty.plus target.metrics.latency).buckets
        source.metrics.latency.buckets).getD index 0 = _
      rw [getD_zipWith_add (hempty.length.trans hs.latency.length.symm), hfirst]
      rfl
    | errorClass name =>
      refine (hclass name).trans ?_
      rw [Dict.get?_entries hs.classNames]
      rfl
    | _ => rfl
  · show (target.metrics.errorSamples ++ source.metrics.errorSamples).take 10 = _
    rw [h.samples, take_take_append, List.flatMap_append, List.flatMap_singleton]

/-- **Merging a list of records** sums every counter. -/
theorem sums_foldlM {records : List EvidenceStage}
    (h : ∀ r ∈ records, StageAccounted 10 0 r.metrics) :
    ∃ sum, records.foldlM mergeStage emptyEvidenceStage = .ok sum ∧ Sums records sum := by
  induction records using List.reverseRecOn with
  | nil => exact ⟨_, rfl, sums_nil⟩
  | append_singleton records r ih =>
    obtain ⟨target, hfold, hsums⟩ := ih fun x hx => h x (List.mem_append_left _ hx)
    obtain ⟨sum, hmerge, hsum⟩ := hsums.concat (h r (by simp))
    refine ⟨sum, ?_, hsum⟩
    rw [List.foldlM_append, hfold]
    show List.foldlM mergeStage target [r] = _
    rw [List.foldlM_cons, hmerge]
    rfl

/-! ### A table of stages -/

/-- The records of a name. -/
def recordsOf (entries : List (String × EvidenceStage)) (name : String) : List EvidenceStage :=
  (entries.filter fun p => p.1 = name).map Prod.snd

theorem recordsOf_concat (entries : List (String × EvidenceStage)) (p : String × EvidenceStage)
    (name : String) : recordsOf (entries ++ [p]) name =
      if p.1 = name then recordsOf entries name ++ [p.2] else recordsOf entries name := by
  unfold recordsOf
  rw [List.filter_append, List.map_append]
  by_cases h : p.1 = name <;> simp [h]

/-- A table of stages that sums records by their names. -/
structure Tallied (entries : List (String × EvidenceStage)) (stages : Dict EvidenceStage) :
    Prop where
  names : (stages.map Prod.fst).Nodup
  missing : ∀ name, stages.get? name = none ↔ recordsOf entries name = []
  sums : ∀ name, Sums (recordsOf entries name) ((stages.get? name).getD emptyEvidenceStage)

theorem tallied_nil : Tallied [] [] where
  names := List.nodup_nil
  missing := fun _ => iff_of_true rfl rfl
  sums := fun _ => sums_nil

/-- One more record. -/
theorem Tallied.addStage {entries : List (String × EvidenceStage)} {stages : Dict EvidenceStage}
    {p : String × EvidenceStage} (h : Tallied entries stages)
    (hp : StageAccounted 10 0 p.2.metrics) :
    ∃ stages', addStage stages p = .ok stages' ∧ Tallied (entries ++ [p]) stages' := by
  obtain ⟨sum, hmerge, hsum⟩ := (h.sums p.1).concat hp
  refine ⟨stages.set p.1 sum, by rw [Pressure.addStage, hmerge]; rfl, Dict.nodup_set h.names _ _,
    fun name => ?_, fun name => ?_⟩
  · rw [Dict.get?_set h.names, recordsOf_concat]
    split_ifs
    · simp
    · exact h.missing name
  · rw [Dict.get?_set h.names, recordsOf_concat]
    by_cases hname : p.1 = name
    · subst hname
      rw [if_pos rfl, if_pos rfl]
      exact hsum
    · rw [if_neg hname, if_neg hname]
      exact h.sums name

theorem Tallied.foldlM (more : List (String × EvidenceStage))
    {entries : List (String × EvidenceStage)} {stages : Dict EvidenceStage}
    (h : Tallied entries stages) (hmore : ∀ p ∈ more, StageAccounted 10 0 p.2.metrics) :
    ∃ stages', more.foldlM Pressure.addStage stages = .ok stages' ∧
      Tallied (entries ++ more) stages' := by
  induction more generalizing entries stages with
  | nil => exact ⟨stages, rfl, by rwa [List.append_nil]⟩
  | cons p more ih =>
    obtain ⟨stages₁, hstep, h₁⟩ := h.addStage (hmore p List.mem_cons_self)
    obtain ⟨stages₂, hfold, h₂⟩ := ih h₁ fun q hq => hmore q (List.mem_cons_of_mem p hq)
    refine ⟨stages₂, ?_, by rwa [List.append_assoc, List.singleton_append] at h₂⟩
    rw [List.foldlM_cons, hstep]
    exact hfold

/-! ### Clients -/

/-- The stages of a client in a domain. -/
def clientStages (domain : Domain) (client : PressureClientEvidence) :
    List (String × EvidenceStage) :=
  (client.domains domain).elim [] fun evidence => Dict.entries evidence.stages

/-- Every stage of the client in the domain is accounted for. -/
def PressureClientEvidence.AllAccounted (client : PressureClientEvidence) (domain : Domain) :
    Prop := ∀ p ∈ clientStages domain client, StageAccounted 10 0 p.2.metrics

/-- The evidence of a domain that sums the evidence of clients. -/
structure Aggregates (clients : List PressureClientEvidence) (domain : Domain)
    (sum : EvidenceDomain) : Prop where
  succeeded : sum.succeeded =
    (clients.map fun client => (client.domains domain).elim 0 EvidenceDomain.succeeded).sum
  failed : sum.failed =
    (clients.map fun client => (client.domains domain).elim 0 EvidenceDomain.failed).sum
  stages : Tallied (clients.flatMap (clientStages domain)) sum.stages

/-- One more client. -/
theorem Aggregates.addClient {clients : List PressureClientEvidence} {domain : Domain}
    {sum : EvidenceDomain} {client : PressureClientEvidence} (h : Aggregates clients domain sum)
    (hclient : client.AllAccounted domain) :
    ∃ sum', addClient domain sum client = .ok sum' ∧
      Aggregates (clients ++ [client]) domain sum' := by
  unfold Pressure.addClient
  cases hdomain : client.domains domain with
  | none =>
    refine ⟨sum, rfl, ?_, ?_, ?_⟩
    · simpa [hdomain] using h.succeeded
    · simpa [hdomain] using h.failed
    · simpa [clientStages, hdomain] using h.stages
  | some evidence =>
    have hentries : clientStages domain client = Dict.entries evidence.stages := by
      rw [clientStages, hdomain]
      rfl
    obtain ⟨stages, hfold, hstages⟩ := h.stages.foldlM (clientStages domain client) hclient
    rw [hentries] at hfold
    refine ⟨_, by dsimp only; rw [hfold]; rfl, ?_, ?_, ?_⟩
    · simpa [hdomain] using h.succeeded
    · simpa [hdomain] using h.failed
    · simpa using hstages

/-- A change of the summaries does not matter to the counters. -/
theorem Tallied.map {entries : List (String × EvidenceStage)} {stages : Dict EvidenceStage}
    (h : Tallied entries stages) (latency : EvidenceStage → LatencySummary) :
    Tallied entries (stages.map fun p => (p.1, { p.2 with latency := latency p.2 })) := by
  have hget := Dict.get?_map (fun stage => { stage with latency := latency stage }) stages
  refine ⟨by simpa [List.map_map, Function.comp_def] using h.names, fun name => ?_, fun name => ?_⟩
  · rw [hget, Option.map_eq_none_iff, h.missing]
  · have hsums := h.sums name
    rw [hget]
    cases hstage : stages.get? name with
    | none =>
      rw [hstage] at hsums
      exact hsums
    | some stage =>
      rw [hstage] at hsums
      exact ⟨hsums.accounted, hsums.counters, hsums.samples⟩

/-- **The evidence of a domain sums that of all clients.** -/
theorem aggregateDomain_spec {clients : List PressureClientEvidence} {domain : Domain}
    (h : ∀ client ∈ clients, client.AllAccounted domain) :
    ∃ sum, aggregateDomain clients domain = .ok sum ∧ Aggregates clients domain sum := by
  have hfold : ∃ sum, clients.foldlM (addClient domain) ⟨0, 0, []⟩ = .ok sum ∧
      Aggregates clients domain sum := by
    induction clients using List.reverseRecOn with
    | nil => exact ⟨_, rfl, rfl, rfl, tallied_nil⟩
    | append_singleton clients client ih =>
      obtain ⟨sum, hfold, hsum⟩ := ih fun c hc => h c (List.mem_append_left _ hc)
      obtain ⟨sum', hadd, hsum'⟩ := hsum.addClient (h client (by simp))
      refine ⟨sum', ?_, hsum'⟩
      rw [List.foldlM_append, hfold]
      show List.foldlM (addClient domain) sum [client] = _
      rw [List.foldlM_cons, hadd]
      rfl
  obtain ⟨sum, hfold, hsum⟩ := hfold
  refine ⟨sum.summarize, by rw [aggregateDomain, hfold]; rfl, ?_⟩
  exact ⟨hsum.succeeded, hsum.failed,
    hsum.stages.map fun stage => latencySummary stage.metrics.latency⟩

end Pressure

end FitzDestroyer
