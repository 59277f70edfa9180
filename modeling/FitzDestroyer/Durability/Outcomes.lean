import FitzDestroyer.Durability.Ledger
import FitzDestroyer.Pressure.Errors
import Mathlib.Data.Multiset.Lattice

/-!
# Outcomes of interrupted operations

After a cut or a storage fault the host tallies what the writers logged about the operations of one
sequence (`cutOutcomes` in `orchestration/durability-crash-cuts.ts`, `storageOperationEvidence` in
`orchestration/storage-faults.ts`).

* `cutOutcomes`, `storageOperationEvidence` : the two tallies;
* `OperationOutcome` : the outcomes, ordered by what they reveal of an operation;
* `finalOutcome` : the greatest outcome that the records give, which is what both tallies compute;
* `outcomes_agree` : the tallies agree with each other and with the ledger, in any order of records.
-/

namespace FitzDestroyer

namespace Durability

open Js Workload

/-- What is known of an operation. -/
inductive OperationOutcome where
  | ambiguous
  | failed
  | acknowledged
  deriving DecidableEq, Repr

namespace OperationOutcome

def rank : OperationOutcome → ℕ
  | ambiguous => 0
  | failed => 1
  | acknowledged => 2

theorem rank_injective : Function.Injective rank := by
  intro a b h
  cases a <;> cases b <;> first | rfl | exact absurd h (by decide)

/-- An acknowledgement says more than a failure, and a failure more than nothing. -/
instance : LinearOrder OperationOutcome := LinearOrder.lift' rank rank_injective

instance : OrderBot OperationOutcome where
  bot := ambiguous
  bot_le a := Nat.zero_le a.rank

theorem le_acknowledged (a : OperationOutcome) : a ≤ acknowledged := by cases a <;> decide

theorem le_ambiguous_iff {a : OperationOutcome} : a ≤ ambiguous ↔ a = ambiguous := by
  cases a <;> decide

theorem le_failed_iff {a : OperationOutcome} : a ≤ failed ↔ a ≠ acknowledged := by
  cases a <;> decide

theorem sup_acknowledged (a : OperationOutcome) : a ⊔ acknowledged = acknowledged :=
  sup_of_le_right a.le_acknowledged

theorem sup_failed (a : OperationOutcome) :
    a ⊔ failed = if a ≠ acknowledged then failed else a := by
  cases a <;> decide

theorem sup_ambiguous (a : OperationOutcome) : a ⊔ ambiguous = a := sup_bot_eq a

end OperationOutcome

/-- `value === number`. -/
def strictEquals : Option Json → Number → Bool
  | some (.num value), number => value ≠ .nan && value = number
  | _, _ => false

/-! ### Crash cuts -/

/-- A record of the logs of a cut. -/
def tallyRecord (sequence : Number) (result : DurableDomain → OperationOutcome) (record : Record) :
    DurableDomain → OperationOutcome :=
  match durableDomain (field record "domain") with
  | none => result
  | some domain =>
    if strictEquals (field record "sequence") sequence then
      let result := if IsEvent record "durability_operation_acknowledged" then
        Function.update result domain .acknowledged else result
      if IsEvent record "durability_operation_failed" ∧ result domain ≠ .acknowledged then
        Function.update result domain .failed else result
    else result

def cutOutcomes (logs : List Log) (sequence : Number) : DurableDomain → OperationOutcome :=
  logs.foldl (fun result log => (parseJsonRecords log).foldl (tallyRecord sequence) result)
    fun _ => .ambiguous

/-! ### Storage faults -/

inductive StorageFailureLayer where
  | none
  | admission
  | routing
  | persistence
  | recovery
  deriving DecidableEq, Repr

/-- `/\b(?:a|b|..)\w*\b/iu` for the texts `a`, `b`, .. -/
def wordsFrom (texts : List String) : Regex :=
  .seq (.boundary Regex.isWordFold) (.seq (Regex.oneOf (texts.map (Regex.lit Regex.foldEq)))
    (.seq (.star (.char Regex.isWordFold)) (.boundary Regex.isWordFold)))

def classifyStorageFailure (error : String) : StorageFailureLayer :=
  if (wordsFrom ["recover", "hydrate", "replay", "restore"]).test error then .recovery
  else if (wordsFrom ["storage", "provider", "persist", "durab", "cloud", "s3", "sqrzl",
      "object"]).test error then .persistence
  else
    let normalized := Pressure.normalizeErrorClass (newError error)
    if normalized = .connection ∨ normalized = .timeout ∨ normalized = .protocol then .routing
    else .admission

/-- What the host keeps of a storage fault: the outcomes, and the texts of the first failures with
the layers they point at. -/
structure StorageEvidence where
  outcomes : DurableDomain → OperationOutcome
  failureLayers : List StorageFailureLayer
  errorSamples : List String

/-- The text of an error is kept while there are fewer than 20. -/
def keepSample (errorSamples : List String) (error : Option Json) : List String :=
  match error.bind Json.text? with
  | some text => if errorSamples.length < 20 then errorSamples ++ [text] else errorSamples
  | none => errorSamples

/-- A record of the logs of a storage fault. -/
def evidenceRecord (sequence : Number)
    (evidence : (DurableDomain → OperationOutcome) × List String) (record : Record) :
    (DurableDomain → OperationOutcome) × List String :=
  if ¬strictEquals (field record "sequence") sequence then evidence else
  match (field record "domain").bind Json.text? with
  | none => evidence
  | some text =>
    match durableDomains.find? fun candidate => candidate.name = text with
    | none => evidence
    | some domain =>
      let outcomes := if IsEvent record "durability_operation_acknowledged" then
        Function.update evidence.1 domain .acknowledged else evidence.1
      if IsEvent record "durability_operation_failed" ∧ outcomes domain ≠ .acknowledged then
        (Function.update outcomes domain .failed, keepSample evidence.2 (field record "error"))
      else (outcomes, evidence.2)

def storageOperationEvidence (logs : List Log) (sequence : Number) : StorageEvidence :=
  let evidence := logs.foldl (fun evidence log =>
    (parseJsonRecords log).foldl (evidenceRecord sequence) evidence) (fun _ => .ambiguous, [])
  { outcomes := evidence.1
    failureLayers := (evidence.2.map classifyStorageFailure).eraseDups
    errorSamples := evidence.2 }

/-! ### The greatest outcome -/

/-- The record logs the event for the operation of a domain. -/
def Logs (event : String) (domain : DurableDomain) (sequence : Number) (record : Record) : Prop :=
  durableDomain (field record "domain") = some domain ∧
    strictEquals (field record "sequence") sequence = true ∧ IsEvent record event

instance (event : String) (domain : DurableDomain) (sequence : Number) (record : Record) :
    Decidable (Logs event domain sequence record) :=
  inferInstanceAs (Decidable (_ ∧ _))

/-- What one record says of the operation of a domain. -/
def outcomeOf (domain : DurableDomain) (sequence : Number) (record : Record) : OperationOutcome :=
  if Logs "durability_operation_acknowledged" domain sequence record then .acknowledged
  else if Logs "durability_operation_failed" domain sequence record then .failed
  else .ambiguous

/-- The greatest outcome that the records give. -/
def finalOutcome (domain : DurableDomain) (sequence : Number) (records : List Record) :
    OperationOutcome :=
  (records.map (outcomeOf domain sequence) : Multiset OperationOutcome).sup

section

variable {domain : DurableDomain} {sequence : Number} {record : Record} {records : List Record}

theorem not_isEvent_failed (h : IsEvent record "durability_operation_acknowledged") :
    ¬IsEvent record "durability_operation_failed" := by
  intro hfailed
  exact absurd (Option.some.inj (h.symm.trans hfailed)) (by decide)

theorem outcomeOf_eq_acknowledged : outcomeOf domain sequence record = .acknowledged ↔
    Logs "durability_operation_acknowledged" domain sequence record := by
  unfold outcomeOf
  split_ifs with h <;> simp [h]

theorem outcomeOf_eq_ambiguous : outcomeOf domain sequence record = .ambiguous ↔
    ¬Logs "durability_operation_acknowledged" domain sequence record ∧
      ¬Logs "durability_operation_failed" domain sequence record := by
  unfold outcomeOf
  split_ifs with h h' <;> simp [*]

/-- A record of another operation says nothing. -/
theorem outcomeOf_of_other (h : ¬(durableDomain (field record "domain") = some domain ∧
    strictEquals (field record "sequence") sequence = true)) :
    outcomeOf domain sequence record = .ambiguous :=
  outcomeOf_eq_ambiguous.mpr ⟨fun hack => h ⟨hack.1, hack.2.1⟩, fun hfail => h ⟨hfail.1, hfail.2.1⟩⟩

theorem outcomeOf_of_same (hdomain : durableDomain (field record "domain") = some domain)
    (hsequence : strictEquals (field record "sequence") sequence = true) :
    outcomeOf domain sequence record =
      if IsEvent record "durability_operation_acknowledged" then .acknowledged
      else if IsEvent record "durability_operation_failed" then .failed else .ambiguous := by
  simp only [outcomeOf, Logs, hdomain, hsequence, true_and]

/-- A record raises the outcome of its domain. -/
theorem tallyRecord_apply (result : DurableDomain → OperationOutcome) :
    tallyRecord sequence result record domain =
      result domain ⊔ outcomeOf domain sequence record := by
  unfold tallyRecord
  rcases hdomain : durableDomain (field record "domain") with _ | domain'
  · rw [outcomeOf_of_other (by simp [hdomain]), OperationOutcome.sup_ambiguous]
  dsimp only
  by_cases hsequence : strictEquals (field record "sequence") sequence = true
  · rw [if_pos hsequence]
    by_cases hsame : domain = domain'
    · subst hsame
      rw [outcomeOf_of_same hdomain hsequence]
      by_cases hack : IsEvent record "durability_operation_acknowledged"
      · simp [hack, not_isEvent_failed hack, OperationOutcome.sup_acknowledged]
      · by_cases hfailed : IsEvent record "durability_operation_failed"
        · simp only [hack, hfailed, if_false, if_true, true_and, OperationOutcome.sup_failed]
          split_ifs <;> simp
        · simp [hack, hfailed, OperationOutcome.sup_ambiguous]
    · -- The update is at another domain.
      rw [outcomeOf_of_other (by simp [hdomain, Ne.symm hsame]), OperationOutcome.sup_ambiguous]
      split_ifs <;> simp [Function.update_of_ne hsame]
  · rw [if_neg hsequence, outcomeOf_of_other (by simp [hsequence]), OperationOutcome.sup_ambiguous]

theorem foldl_tallyRecord (result : DurableDomain → OperationOutcome) :
    records.foldl (tallyRecord sequence) result domain =
      result domain ⊔ finalOutcome domain sequence records := by
  induction records generalizing result with
  | nil => simp [finalOutcome]
  | cons record records ih =>
    have hcons : finalOutcome domain sequence (record :: records) =
        outcomeOf domain sequence record ⊔ finalOutcome domain sequence records := by
      simp [finalOutcome]
    rw [List.foldl_cons, ih, tallyRecord_apply, sup_assoc, hcons]

/-- The tally of a cut is the greatest outcome that its records give. -/
theorem cutOutcomes_eq_finalOutcome (logs : List Log) :
    cutOutcomes logs sequence domain =
      finalOutcome domain sequence (logs.flatMap parseJsonRecords) := by
  rw [cutOutcomes, ← List.foldl_flatMap, foldl_tallyRecord]
  exact bot_sup_eq _

/-- The order of the records does not matter. -/
theorem finalOutcome_perm {records' : List Record} (h : records.Perm records') :
    finalOutcome domain sequence records = finalOutcome domain sequence records' :=
  congrArg Multiset.sup (Multiset.coe_eq_coe.mpr (h.map _))

theorem finalOutcome_le_iff {outcome : OperationOutcome} :
    finalOutcome domain sequence records ≤ outcome ↔
      ∀ record ∈ records, outcomeOf domain sequence record ≤ outcome := by
  rw [finalOutcome, Multiset.sup_le]
  simp only [Multiset.mem_coe, List.forall_mem_map]

/-- An acknowledgement dominates. -/
theorem finalOutcome_eq_acknowledged : finalOutcome domain sequence records = .acknowledged ↔
    ∃ record ∈ records, Logs "durability_operation_acknowledged" domain sequence record := by
  have hle : finalOutcome domain sequence records ≤ .failed ↔
      ∀ record ∈ records, ¬Logs "durability_operation_acknowledged" domain sequence record := by
    rw [finalOutcome_le_iff]
    simp only [OperationOutcome.le_failed_iff, ne_eq, outcomeOf_eq_acknowledged]
  rw [← not_iff_not, ← ne_eq, ← OperationOutcome.le_failed_iff, hle]
  simp only [not_exists, not_and]

theorem finalOutcome_eq_ambiguous : finalOutcome domain sequence records = .ambiguous ↔
    ∀ record ∈ records, ¬Logs "durability_operation_acknowledged" domain sequence record ∧
      ¬Logs "durability_operation_failed" domain sequence record := by
  rw [← OperationOutcome.le_ambiguous_iff, finalOutcome_le_iff]
  simp only [OperationOutcome.le_ambiguous_iff, outcomeOf_eq_ambiguous]

/-- A failure dominates what is ambiguous. -/
theorem finalOutcome_eq_failed : finalOutcome domain sequence records = .failed ↔
    (∃ record ∈ records, Logs "durability_operation_failed" domain sequence record) ∧
      ∀ record ∈ records, ¬Logs "durability_operation_acknowledged" domain sequence record := by
  have hcases : finalOutcome domain sequence records = .failed ↔
      ¬finalOutcome domain sequence records = .ambiguous ∧
        ¬finalOutcome domain sequence records = .acknowledged := by
    cases finalOutcome domain sequence records <;> decide
  rw [hcases, finalOutcome_eq_ambiguous, finalOutcome_eq_acknowledged]
  constructor
  · rintro ⟨hsome, hnone⟩
    have hack : ∀ record ∈ records,
        ¬Logs "durability_operation_acknowledged" domain sequence record :=
      fun record hrecord hlogs => hnone ⟨record, hrecord, hlogs⟩
    refine ⟨?_, hack⟩
    by_contra hfail
    exact hsome fun record hrecord =>
      ⟨hack record hrecord, fun hlogs => hfail ⟨record, hrecord, hlogs⟩⟩
  · rintro ⟨⟨record, hrecord, hlogs⟩, hack⟩
    exact ⟨fun hnone => (hnone record hrecord).2 hlogs,
      fun ⟨record, hrecord, hlogs⟩ => hack record hrecord hlogs⟩

/-! ### The storage faults keep the same outcomes -/

/-- The two tallies take the same step on a record. -/
theorem evidenceRecord_fst (evidence : (DurableDomain → OperationOutcome) × List String) :
    (evidenceRecord sequence evidence record).1 = tallyRecord sequence evidence.1 record := by
  unfold evidenceRecord tallyRecord durableDomain
  by_cases hsequence : strictEquals (field record "sequence") sequence = true
  · rw [if_neg (not_not.mpr hsequence)]
    rcases (field record "domain").bind Json.text? with _ | text
    · rfl
    · dsimp only [Option.bind_some]
      generalize durableDomains.find? _ = found
      cases found with
      | none => rfl
      | some domain =>
        dsimp only
        rw [if_pos hsequence, apply_ite Prod.fst]
  · rw [if_pos hsequence]
    split
    · rfl
    · rw [if_neg hsequence]

theorem foldl_evidenceRecord (evidence : (DurableDomain → OperationOutcome) × List String) :
    (records.foldl (evidenceRecord sequence) evidence).1 =
      records.foldl (tallyRecord sequence) evidence.1 := by
  induction records generalizing evidence with
  | nil => rfl
  | cons record records ih => rw [List.foldl_cons, List.foldl_cons, ih, evidenceRecord_fst]

theorem storageOperationEvidence_outcomes (logs : List Log) :
    (storageOperationEvidence logs sequence).outcomes = cutOutcomes logs sequence := by
  rw [storageOperationEvidence, cutOutcomes, ← List.foldl_flatMap, ← List.foldl_flatMap]
  exact foldl_evidenceRecord _

/-- At most 20 texts are kept. -/
theorem length_keepSample {errorSamples : List String} (h : errorSamples.length ≤ 20)
    (error : Option Json) : (keepSample errorSamples error).length ≤ 20 := by
  unfold keepSample
  rcases error.bind Json.text? with _ | text
  · exact h
  · dsimp only
    split_ifs with hlt
    · rw [List.length_append, List.length_singleton]
      omega
    · exact h

/-- A record leaves the texts as they are, or adds its own. -/
theorem evidenceRecord_snd (evidence : (DurableDomain → OperationOutcome) × List String) :
    (evidenceRecord sequence evidence record).2 = evidence.2 ∨
      (evidenceRecord sequence evidence record).2 =
        keepSample evidence.2 (field record "error") := by
  unfold evidenceRecord
  by_cases hsequence : strictEquals (field record "sequence") sequence = true
  · rw [if_neg (not_not.mpr hsequence)]
    rcases (field record "domain").bind Json.text? with _ | text
    · exact .inl rfl
    · dsimp only
      generalize durableDomains.find? _ = found
      cases found with
      | none => exact .inl rfl
      | some domain =>
        dsimp only
        rw [apply_ite Prod.snd]
        exact (ite_eq_or_eq _ _ _).symm
  · rw [if_pos hsequence]
    exact .inl rfl

theorem length_evidenceRecord {evidence : (DurableDomain → OperationOutcome) × List String}
    (h : evidence.2.length ≤ 20) : (evidenceRecord sequence evidence record).2.length ≤ 20 := by
  rcases @evidenceRecord_snd sequence record evidence with heq | heq
  · rwa [heq]
  · rw [heq]
    exact length_keepSample h _

theorem length_errorSamples (logs : List Log) :
    (storageOperationEvidence logs sequence).errorSamples.length ≤ 20 := by
  have hrun : ∀ (records : List Record)
      (evidence : (DurableDomain → OperationOutcome) × List String), evidence.2.length ≤ 20 →
        (records.foldl (evidenceRecord sequence) evidence).2.length ≤ 20 := by
    intro records
    induction records with
    | nil => exact fun _ h => h
    | cons record records ih => exact fun evidence h => ih _ (length_evidenceRecord h)
  rw [storageOperationEvidence, ← List.foldl_flatMap]
  exact hrun _ _ (Nat.zero_le _)

/-! ### The ledger acknowledges the same operations -/

theorem strictEquals_of_sequence? {value : Option Json} {n : ℕ}
    (h : value.bind Json.sequence? = some n) : strictEquals value sequence ↔ sequence = n := by
  obtain ⟨json, rfl, hjson⟩ := Option.bind_eq_some_iff.mp h
  cases json with
  | num x =>
    obtain rfl := Number.eq_of_sequence? hjson
    simp [strictEquals, eq_comm]
  | _ => cases hjson

/-- A record that the ledger takes has a sequence if it has a durable domain. -/
theorem sequence_of_addRecord {ledger ledger' : DomainLedger}
    (h : addRecord ledger record = .ok ledger') :
    (durableDomain (field record "domain")).isSome →
      ((field record "sequence").bind Json.sequence?).isSome := by
  intro hdomain
  obtain ⟨domain, hdomain⟩ := Option.isSome_iff_exists.mp hdomain
  rw [addRecord, hdomain] at h
  obtain ⟨n, hn, -⟩ := Check.bind_eq_ok.mp h
  rw [numericValue_eq_ok.mp hn]
  rfl

theorem sequences_of_foldlM {ledger ledger' : DomainLedger}
    (h : records.foldlM addRecord ledger = .ok ledger') :
    ∀ record ∈ records, (durableDomain (field record "domain")).isSome →
      ((field record "sequence").bind Json.sequence?).isSome := by
  induction records generalizing ledger with
  | nil => exact List.forall_mem_nil _
  | cons record records ih =>
    rw [List.foldlM_cons] at h
    obtain ⟨next, hnext, hrest⟩ := Check.bind_eq_ok.mp h
    exact List.forall_mem_cons.mpr ⟨sequence_of_addRecord hnext, ih hrest⟩

/-- Logs that the ledger takes are well formed. -/
theorem wellFormed_of_foldlM {logs : List Log} {ledger ledger' : DomainLedger}
    (h : logs.foldlM (fun ledger log => (parseJsonRecords log).foldlM addRecord ledger) ledger =
      .ok ledger') : WellFormed logs := by
  induction logs generalizing ledger with
  | nil => exact List.forall_mem_nil _
  | cons log logs ih =>
    rw [List.foldlM_cons] at h
    obtain ⟨next, hnext, hrest⟩ := Check.bind_eq_ok.mp h
    intro record hrecord
    rw [List.flatMap_cons, List.mem_append] at hrecord
    rcases hrecord with hfirst | hlater
    · exact sequences_of_foldlM hnext record hfirst
    · exact ih hrest record hlater

/-- What was observed does not change what was acknowledged. -/
theorem acknowledged_of_observeDomain {observed : Record} {ledger ledger' : DomainLedger}
    {observedDomain : DurableDomain}
    (h : observeDomain observed ledger observedDomain = .ok ledger') (n : ℕ) :
    n ∈ (ledger' domain).acknowledged ↔ n ∈ (ledger domain).acknowledged := by
  unfold observeDomain at h
  rcases hfield : field observed observedDomain.name with _ | value
  · rw [hfield] at h
    cases h
  · cases value with
    | arr items =>
      rw [hfield] at h
      obtain ⟨values, -, hvalues⟩ := Check.bind_eq_ok.mp h
      cases hduplicate : findDuplicate [] values with
      | some duplicate =>
        rw [hduplicate] at hvalues
        cases hvalues
      | none =>
        rw [hduplicate] at hvalues
        obtain rfl := Except.ok.inj hvalues
        by_cases hsame : domain = observedDomain
        · subst hsame
          rw [Function.update_self, LedgerEntry.observe, mem_sortUnique]
        · rw [Function.update_of_ne hsame]
    | _ =>
      rw [hfield] at h
      cases h

theorem acknowledged_of_foldlM {observed : Record} {domains : List DurableDomain}
    {ledger ledger' : DomainLedger}
    (h : domains.foldlM (observeDomain observed) ledger = .ok ledger') (n : ℕ) :
    n ∈ (ledger' domain).acknowledged ↔ n ∈ (ledger domain).acknowledged := by
  induction domains generalizing ledger with
  | nil =>
    obtain rfl := Except.ok.inj h
    rfl
  | cons first domains ih =>
    rw [List.foldlM_cons] at h
    obtain ⟨next, hnext, hrest⟩ := Check.bind_eq_ok.mp h
    rw [ih hrest, acknowledged_of_observeDomain hnext]

/-- The acknowledged sequences of the ledger are those of the writers' records. -/
theorem mem_ledger_acknowledged {baselineLogs cutLogs verifyLogs : List Log} {ledger : DomainLedger}
    (h : analyzeDurabilityLedger baselineLogs cutLogs verifyLogs = .ok ledger)
    (domain : DurableDomain) : WellFormed (baselineLogs ++ cutLogs) ∧ ∀ n,
      n ∈ (ledger domain).acknowledged ↔
        n ∈ sequences "durability_operation_acknowledged" domain (baselineLogs ++ cutLogs) := by
  obtain ⟨written, hwritten, hverify⟩ := Check.bind_eq_ok.mp h
  have hwell := wellFormed_of_foldlM hwritten
  rw [foldlM_logs hwell] at hwritten
  obtain rfl := Except.ok.inj hwritten
  refine ⟨hwell, ?_⟩
  cases verifyLogs with
  | nil => cases hverify
  | cons verifyLog rest =>
    cases rest with
    | cons _ _ => cases hverify
    | nil =>
      obtain ⟨record, -, hrecord⟩ := Check.bind_eq_ok.mp hverify
      obtain ⟨observed, -, hobserved⟩ := Check.bind_eq_ok.mp hrecord
      exact acknowledged_of_foldlM hobserved

/-- In well-formed logs the records of acknowledgements are the acknowledged sequences. -/
theorem exists_acknowledged_iff {logs : List Log} (h : WellFormed logs) :
    (∃ record ∈ logs.flatMap parseJsonRecords,
      Logs "durability_operation_acknowledged" domain sequence record) ↔
      ∃ n ∈ sequences "durability_operation_acknowledged" domain logs, sequence = (n : Number) := by
  constructor
  · rintro ⟨record, hrecord, hdomain, hsequence, hevent⟩
    obtain ⟨n, hn⟩ := Option.isSome_iff_exists.mp
      (h record hrecord (Option.isSome_iff_exists.mpr ⟨domain, hdomain⟩))
    refine ⟨n, List.mem_filterMap.mpr ⟨record, hrecord, ?_⟩,
      (strictEquals_of_sequence? hn).mp hsequence⟩
    rw [recorded, if_pos ⟨hdomain, hevent⟩, hn]
  · rintro ⟨n, hn, rfl⟩
    obtain ⟨record, hrecord, hrecorded⟩ := List.mem_filterMap.mp hn
    unfold recorded at hrecorded
    split_ifs at hrecorded with hsays
    exact ⟨record, hrecord, hsays.1, (strictEquals_of_sequence? hrecorded).mpr rfl, hsays.2⟩

end

/-- **The tallies agree**: the outcome of an operation is the greatest that some record gives, in
both tallies and in any order of the records, and an operation is acknowledged iff the ledger of the
same logs acknowledges its sequence. -/
theorem outcomes_agree (logs : List Log) (sequence : Number) :
    (∀ domain, (storageOperationEvidence logs sequence).outcomes domain =
        cutOutcomes logs sequence domain) ∧
      (∀ domain,
        (cutOutcomes logs sequence domain = .acknowledged ↔
          ∃ record ∈ logs.flatMap parseJsonRecords,
            Logs "durability_operation_acknowledged" domain sequence record) ∧
        (cutOutcomes logs sequence domain = .failed ↔
          (∃ record ∈ logs.flatMap parseJsonRecords,
            Logs "durability_operation_failed" domain sequence record) ∧
          ∀ record ∈ logs.flatMap parseJsonRecords,
            ¬Logs "durability_operation_acknowledged" domain sequence record)) ∧
      (∀ logs' : List Log,
        (logs.flatMap parseJsonRecords).Perm (logs'.flatMap parseJsonRecords) →
          cutOutcomes logs' sequence = cutOutcomes logs sequence ∧
          (storageOperationEvidence logs' sequence).outcomes =
            (storageOperationEvidence logs sequence).outcomes) ∧
      ∀ baselineLogs cutLogs verifyLogs ledger, baselineLogs ++ cutLogs = logs →
        analyzeDurabilityLedger baselineLogs cutLogs verifyLogs = .ok ledger →
          ∀ domain, cutOutcomes logs sequence domain = .acknowledged ↔
            ∃ n ∈ (ledger domain).acknowledged, sequence = (n : Number) := by
  have hperm : ∀ logs' : List Log,
      (logs.flatMap parseJsonRecords).Perm (logs'.flatMap parseJsonRecords) →
        cutOutcomes logs' sequence = cutOutcomes logs sequence := by
    intro logs' h
    funext domain
    rw [cutOutcomes_eq_finalOutcome, cutOutcomes_eq_finalOutcome, finalOutcome_perm h]
  refine ⟨fun domain => congrFun (storageOperationEvidence_outcomes logs) domain,
    fun domain => ?_, fun logs' h => ⟨hperm logs' h, ?_⟩, ?_⟩
  · rw [cutOutcomes_eq_finalOutcome]
    exact ⟨finalOutcome_eq_acknowledged, finalOutcome_eq_failed⟩
  · rw [storageOperationEvidence_outcomes, storageOperationEvidence_outcomes, hperm logs' h]
  · rintro baselineLogs cutLogs verifyLogs ledger rfl hledger domain
    obtain ⟨hwell, hmem⟩ := mem_ledger_acknowledged hledger domain
    rw [cutOutcomes_eq_finalOutcome, finalOutcome_eq_acknowledged, exists_acknowledged_iff hwell]
    simp only [hmem]

end Durability

end FitzDestroyer
