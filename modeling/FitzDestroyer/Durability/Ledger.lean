import FitzDestroyer.Js.Collections
import FitzDestroyer.Workload.Log
import FitzDestroyer.Workload.Model
import Mathlib.Data.List.Dedup
import Mathlib.Data.List.Sort

/-!
# The durability ledger

The host of the crash cuts (`orchestration/durability-crash-cuts.ts`) collects the sequences that
the writers started and saw acknowledged, and those that the verifier observed after the restart.

* `analyzeDurabilityLedger`, `assertDurabilityLedger` : the verdict;
* `Balanced` : what the verdict asks of a domain;
* `verdict_iff` : the verdict accepts iff every domain is balanced.
-/

namespace FitzDestroyer

namespace Durability

open Js Workload

/-- `DURABLE_DOMAINS`. -/
def durableDomains : List DurableDomain := [.queue, .kv, .stream, .schedule]

theorem mem_durableDomains (domain : DurableDomain) : domain ∈ durableDomains := by
  cases domain <;> decide

/-- `durableDomain(value)`. -/
def durableDomain (value : Option Json) : Option DurableDomain :=
  (value.bind Json.text?).bind fun text => durableDomains.find? fun domain => domain.name = text

/-- The sequences of a domain. -/
structure LedgerEntry where
  started : List ℕ
  acknowledged : List ℕ
  failed : List ℕ
  observed : List ℕ

abbrev DomainLedger := DurableDomain → LedgerEntry

def emptyLedger : DomainLedger := fun _ => ⟨[], [], [], []⟩

/-- A sequence is added under the event of its record. -/
def LedgerEntry.add (entry : LedgerEntry) (record : Record) (sequence : ℕ) : LedgerEntry where
  started := if IsEvent record "durability_operation_started" then entry.started ++ [sequence]
    else entry.started
  acknowledged := if IsEvent record "durability_operation_acknowledged" then
    entry.acknowledged ++ [sequence] else entry.acknowledged
  failed := if IsEvent record "durability_operation_failed" then entry.failed ++ [sequence]
    else entry.failed
  observed := entry.observed

/-- A record of a writer. -/
def addRecord (ledger : DomainLedger) (record : Record) : Except Thrown DomainLedger :=
  match durableDomain (field record "domain") with
  | none => .ok ledger
  | some domain => do
    let sequence ← numericValue (field record "sequence") "durability sequence"
    return Function.update ledger domain ((ledger domain).add record sequence)

/-- `recordField(record, name)`. -/
def recordField (record : Record) (name : String) : Except Thrown Record :=
  match field record name with
  | some (.obj fields) => .ok fields
  | _ => .error (newError s!"{name} is not an object")

/-- `[...new Set(values)].sort((left, right) => left - right)`. -/
def sortUnique (values : List ℕ) : List ℕ := values.dedup.mergeSort (· ≤ ·)

/-- The entry of a domain with what was observed: every list is sorted, without duplicates. -/
def LedgerEntry.observe (entry : LedgerEntry) (values : List ℕ) : LedgerEntry where
  started := sortUnique entry.started
  acknowledged := sortUnique entry.acknowledged
  failed := sortUnique entry.failed
  observed := sortUnique values

/-- The sequences that the verifier observed in a domain. -/
def observeDomain (observed : Record) (ledger : DomainLedger) (domain : DurableDomain) :
    Except Thrown DomainLedger :=
  match field observed domain.name with
  | some (.arr items) => do
    let values ← items.mapM fun item => numericValue (some item) s!"{domain.name} observed"
    match findDuplicate [] values with
    | some duplicate => throw (newError
        s!"{domain.name} observed sequence {duplicate} more than once after restart")
    | none => return Function.update ledger domain ((ledger domain).observe values)
  | _ => .error (newError s!"Durability verifier omitted {domain.name}")

def analyzeDurabilityLedger (baselineLogs cutLogs verifyLogs : List Log) :
    Except Thrown DomainLedger := do
  let ledger ← (baselineLogs ++ cutLogs).foldlM (fun ledger log =>
    (parseJsonRecords log).foldlM addRecord ledger) emptyLedger
  match verifyLogs with
  | [verifyLog] =>
    let record ← requiredEvent verifyLog "durability_verify_complete"
    let observed ← recordField record "observed"
    durableDomains.foldlM (observeDomain observed) ledger
  | _ => throw (newError s!"Expected one durability verifier log, found {verifyLogs.length}")

/-- The checks of a domain. -/
def assertDomain (iterations : ℕ) (domain : DurableDomain) (entry : LedgerEntry) :
    Except Thrown Unit := do
  Check.forEach (List.range (iterations + 1)) fun sequence =>
    Check.failIf (sequence ∉ entry.started)
      (newError s!"{domain.name} did not start durability sequence {sequence}")
  Check.failIf (0 ∉ entry.acknowledged)
    (newError s!"{domain.name} baseline was not acknowledged")
  Check.forEach entry.acknowledged fun sequence =>
    Check.failIf (sequence ∉ entry.observed)
      (newError s!"{domain.name} acknowledged sequence {sequence} disappeared after restart")
  Check.forEach entry.observed fun sequence =>
    Check.failIf (sequence ∉ entry.started)
      (newError s!"{domain.name} exposed unstarted sequence {sequence}")

def assertDurabilityLedger (ledger : DomainLedger) (iterations : ℕ) : Except Thrown Unit :=
  Check.forEach durableDomains fun domain => assertDomain iterations domain (ledger domain)

/-- `analyzeDurabilityLedger`, then `assertDurabilityLedger`. -/
def verdict (baselineLogs cutLogs verifyLogs : List Log) (iterations : ℕ) :
    Except Thrown Unit := do
  let ledger ← analyzeDurabilityLedger baselineLogs cutLogs verifyLogs
  assertDurabilityLedger ledger iterations

/-! ### What the logs say -/

/-- The sequence of a record that has a durable domain and the given event. -/
def recorded (event : String) (domain : DurableDomain) (record : Record) : Option ℕ :=
  if durableDomain (field record "domain") = some domain ∧ IsEvent record event then
    (field record "sequence").bind Json.sequence?
  else none

/-- The sequences that the logs record for an event of a domain. -/
def sequences (event : String) (domain : DurableDomain) (logs : List Log) : List ℕ :=
  (logs.flatMap parseJsonRecords).filterMap (recorded event domain)

/-- Every record that has a durable domain has a sequence. -/
def WellFormed (logs : List Log) : Prop :=
  ∀ record ∈ logs.flatMap parseJsonRecords, (durableDomain (field record "domain")).isSome →
    ((field record "sequence").bind Json.sequence?).isSome

/-- The verifier reports the sequences that it observed. -/
def Reports (verifyLog : Log) (observed : DurableDomain → List ℕ) : Prop :=
  ∃ record fields, requiredEvent verifyLog "durability_verify_complete" = .ok record ∧
    field record "observed" = some (.obj fields) ∧ ∀ domain,
      ∃ items, field fields domain.name = some (.arr items) ∧
        items.map Json.sequence? = (observed domain).map some

/-- What the verdict asks of a domain. -/
structure Balanced (started acknowledged observed : List ℕ) (iterations : ℕ) : Prop where
  all : ∀ sequence ≤ iterations, sequence ∈ started
  baseline : 0 ∈ acknowledged
  kept : ∀ sequence ∈ acknowledged, sequence ∈ observed
  known : ∀ sequence ∈ observed, sequence ∈ started
  once : observed.Nodup

@[simp] theorem mem_sortUnique {values : List ℕ} {value : ℕ} :
    value ∈ sortUnique values ↔ value ∈ values := by
  rw [sortUnique, List.mem_mergeSort, List.mem_dedup]

/-- The ledger of some records. -/
def ledgerOf (records : List Record) : DomainLedger := fun domain =>
  { started := records.filterMap (recorded "durability_operation_started" domain)
    acknowledged := records.filterMap (recorded "durability_operation_acknowledged" domain)
    failed := records.filterMap (recorded "durability_operation_failed" domain)
    observed := [] }

theorem addRecord_ledgerOf {records : List Record} {record : Record}
    (h : (durableDomain (field record "domain")).isSome →
      ((field record "sequence").bind Json.sequence?).isSome) :
    addRecord (ledgerOf records) record = .ok (ledgerOf (records ++ [record])) := by
  unfold addRecord
  cases hdomain : durableDomain (field record "domain") with
  | none =>
    refine congrArg Except.ok (funext fun domain => ?_)
    simp [ledgerOf, recorded, hdomain]
  | some domain =>
    obtain ⟨sequence, hsequence⟩ := Option.isSome_iff_exists.mp (h (hdomain ▸ rfl))
    dsimp only
    rw [numericValue_eq_ok.mpr hsequence]
    refine congrArg Except.ok (funext fun domain' => ?_)
    by_cases hsame : domain' = domain
    · subst hsame
      rw [Function.update_self]
      simp only [ledgerOf, LedgerEntry.add, List.filterMap_append]
      congr 1 <;> split_ifs with hevent <;> simp [recorded, hdomain, hevent, hsequence]
    · rw [Function.update_of_ne hsame]
      simp [ledgerOf, recorded, hdomain, Ne.symm hsame]

theorem foldlM_addRecord {before records : List Record}
    (h : ∀ record ∈ records, (durableDomain (field record "domain")).isSome →
      ((field record "sequence").bind Json.sequence?).isSome) :
    records.foldlM addRecord (ledgerOf before) = .ok (ledgerOf (before ++ records)) := by
  induction records generalizing before with
  | nil => rw [List.append_nil]; rfl
  | cons record records ih =>
    obtain ⟨hrecord, hrecords⟩ := List.forall_mem_cons.mp h
    rw [List.foldlM_cons, addRecord_ledgerOf hrecord]
    change records.foldlM addRecord (ledgerOf (before ++ [record])) = _
    rw [ih hrecords, List.append_assoc, List.singleton_append]

/-- The ledger of well-formed logs. -/
theorem foldlM_logs {logs : List Log} (h : WellFormed logs) :
    logs.foldlM (fun ledger log => (parseJsonRecords log).foldlM addRecord ledger) emptyLedger =
      .ok (ledgerOf (logs.flatMap parseJsonRecords)) := by
  have hlogs : ∀ (logs : List Log) (before : List Record), WellFormed logs →
      logs.foldlM (fun ledger log => (parseJsonRecords log).foldlM addRecord ledger)
        (ledgerOf before) = .ok (ledgerOf (before ++ logs.flatMap parseJsonRecords)) := by
    intro logs
    induction logs with
    | nil => intro before _; rw [List.flatMap_nil, List.append_nil]; rfl
    | cons log logs ih =>
      intro before hwell
      have hfirst : ∀ record ∈ parseJsonRecords log,
          (durableDomain (field record "domain")).isSome →
            ((field record "sequence").bind Json.sequence?).isSome :=
        fun record hrecord => hwell record (List.mem_flatMap.mpr ⟨log, List.mem_cons_self, hrecord⟩)
      have hrest : WellFormed logs := fun record hrecord => hwell record (by
        rw [List.flatMap_cons]
        exact List.mem_append_right _ hrecord)
      rw [List.foldlM_cons, foldlM_addRecord hfirst]
      change logs.foldlM _ (ledgerOf (before ++ parseJsonRecords log)) = _
      rw [ih _ hrest, List.flatMap_cons, List.append_assoc]
  exact hlogs logs [] h

theorem mapM_numericValue {items : List Json} {values : List ℕ} {name : String}
    (h : items.map Json.sequence? = values.map some) :
    (items.mapM fun item => numericValue (some item) name) = .ok values := by
  rw [Check.mapM_eq_ok]
  simp only [numericValue_eq_ok, Option.bind_some]
  have heq : List.Forall₂ (· = ·) (items.map Json.sequence?) (values.map some) := by
    rw [h, List.forall₂_eq_eq_eq]
  rwa [List.forall₂_map_left_iff, List.forall₂_map_right_iff] at heq

/-- A domain passes iff nothing was observed twice in it. -/
theorem observeDomain_eq_ok {fields : Record} {domain : DurableDomain} {items : List Json}
    {values : List ℕ} (hfield : field fields domain.name = some (.arr items))
    (hvalues : items.map Json.sequence? = values.map some) {ledger ledger' : DomainLedger} :
    observeDomain fields ledger domain = .ok ledger' ↔ values.Nodup ∧
      ledger' = Function.update ledger domain ((ledger domain).observe values) := by
  unfold observeDomain
  rw [hfield]
  dsimp only
  rw [mapM_numericValue hvalues, Check.bind_eq, Except.bind]
  cases hduplicate : findDuplicate [] values with
  | none => simp [findDuplicate_nil.mp hduplicate, eq_comm]
  | some duplicate =>
    have : ¬values.Nodup := fun hnodup => by simp [findDuplicate_nil.mpr hnodup] at hduplicate
    simp [this]

theorem foldlM_observeDomain {fields : Record} {observed : DurableDomain → List ℕ}
    (h : ∀ domain, ∃ items, field fields domain.name = some (.arr items) ∧
      items.map Json.sequence? = (observed domain).map some)
    {domains : List DurableDomain} (hdomains : domains.Nodup) {ledger ledger' : DomainLedger} :
    domains.foldlM (observeDomain fields) ledger = .ok ledger' ↔
      (∀ domain ∈ domains, (observed domain).Nodup) ∧ ledger' = fun domain =>
        if domain ∈ domains then (ledger domain).observe (observed domain) else ledger domain := by
  induction domains generalizing ledger with
  | nil => simp [eq_comm]
  | cons first domains ih =>
    obtain ⟨items, hfield, hvalues⟩ := h first
    obtain ⟨hfirst, hrest⟩ := List.nodup_cons.mp hdomains
    rw [List.foldlM_cons, Check.bind_eq, Check.bind_eq_ok, List.forall_mem_cons]
    simp only [observeDomain_eq_ok hfield hvalues, ih hrest]
    have hledger : (fun domain => if domain ∈ domains then
        ((Function.update ledger first ((ledger first).observe (observed first))) domain).observe
          (observed domain)
        else (Function.update ledger first ((ledger first).observe (observed first))) domain) =
        fun domain => if domain ∈ first :: domains then (ledger domain).observe (observed domain)
          else ledger domain := by
      funext domain
      by_cases heq : domain = first
      · subst heq
        simp [hfirst]
      · simp [heq]
    constructor
    · rintro ⟨_, ⟨hnodup, rfl⟩, hall, rfl⟩
      exact ⟨⟨hnodup, hall⟩, hledger⟩
    · rintro ⟨⟨hnodup, hall⟩, rfl⟩
      exact ⟨_, ⟨hnodup, rfl⟩, hall, hledger.symm⟩

theorem assertDomain_eq_ok {iterations : ℕ} {domain : DurableDomain} {entry : LedgerEntry} :
    assertDomain iterations domain entry = .ok () ↔
      (∀ sequence ≤ iterations, sequence ∈ entry.started) ∧ 0 ∈ entry.acknowledged ∧
        (∀ sequence ∈ entry.acknowledged, sequence ∈ entry.observed) ∧
          ∀ sequence ∈ entry.observed, sequence ∈ entry.started := by
  simp only [assertDomain, Check.bind_eq, Check.seq_eq_ok, Check.forEach_eq_ok,
    Check.failIf_eq_ok, not_not, List.mem_range, Nat.lt_succ_iff]

/-- **The verdict** accepts iff every domain is balanced. -/
theorem verdict_iff {baselineLogs cutLogs : List Log} (h : WellFormed (baselineLogs ++ cutLogs))
    {verifyLog : Log} {observed : DurableDomain → List ℕ} (hobserved : Reports verifyLog observed)
    (iterations : ℕ) :
    Check.Passes (verdict baselineLogs cutLogs [verifyLog] iterations) ↔ ∀ domain,
      Balanced (sequences "durability_operation_started" domain (baselineLogs ++ cutLogs))
        (sequences "durability_operation_acknowledged" domain (baselineLogs ++ cutLogs))
        (observed domain) iterations := by
  obtain ⟨record, fields, hrecord, hfields, hitems⟩ := hobserved
  have hanalyze : ∀ ledger, analyzeDurabilityLedger baselineLogs cutLogs [verifyLog] =
      .ok ledger ↔ (∀ domain, (observed domain).Nodup) ∧ ledger = fun domain =>
        (ledgerOf ((baselineLogs ++ cutLogs).flatMap parseJsonRecords) domain).observe
          (observed domain) := by
    intro ledger
    have hfield : recordField record "observed" = .ok fields := by rw [recordField, hfields]
    have hfold := @foldlM_observeDomain fields observed hitems durableDomains (by decide)
      (ledgerOf ((baselineLogs ++ cutLogs).flatMap parseJsonRecords)) ledger
    simp only [mem_durableDomains, forall_const, if_true] at hfold
    rw [analyzeDurabilityLedger, foldlM_logs h, ← hfold]
    change (requiredEvent verifyLog _).bind _ = _ ↔ _
    rw [hrecord]
    change (recordField record _).bind _ = _ ↔ _
    rw [hfield]
    rfl
  rw [verdict, Check.bind_eq, Check.passes_bind]
  simp only [hanalyze, Check.passes_unit, assertDurabilityLedger, Check.forEach_eq_ok,
    mem_durableDomains, forall_const, assertDomain_eq_ok]
  constructor
  · rintro ⟨_, ⟨hnodup, rfl⟩, hall⟩ domain
    obtain ⟨hstarted, hbaseline, hkept, hknown⟩ := hall domain
    simp only [LedgerEntry.observe, mem_sortUnique] at hstarted hbaseline hkept hknown
    exact ⟨hstarted, hbaseline, hkept, hknown, hnodup domain⟩
  · intro hall
    refine ⟨_, ⟨fun domain => (hall domain).once, rfl⟩, fun domain => ?_⟩
    simp only [LedgerEntry.observe, mem_sortUnique]
    exact ⟨(hall domain).all, (hall domain).baseline, (hall domain).kept, (hall domain).known⟩

end Durability

end FitzDestroyer
