import FitzDestroyer.Check.Basic
import FitzDestroyer.Js.Collections
import FitzDestroyer.Js.Number
import Mathlib.Algebra.BigOperators.Group.List.Basic
import Mathlib.Data.List.Nodup

/-!
# Queue reconciliation

`reconcileQueueOutcomes` (`src/pressure.ts`) compares what every bombard worker recorded about
its queue with what a reconciler drained from it afterwards, and throws at the first
contradiction.

* `reconcileQueueOutcomes` : the function, with its helpers `assertUnique` and `assertDisjoint`;
* `Consistent` : what it means that the outcome of one worker and its observed list agree;
* `reconcileQueueOutcomes_iff` : the function returns **iff** every worker is consistent, no
  worker without an entry has the name of an inherited member, and every observed worker is
  known, and then its totals are the sums of the list lengths.
-/

namespace FitzDestroyer

namespace Pressure

open Js Check

/-- What a bombard worker recorded about its queue. -/
structure QueueClientOutcome where
  worker : String
  acknowledged : List Number
  ambiguousEnqueues : List Number
  failedEnqueues : List Number
  completed : List Number
  ambiguousCompletions : List Number

/-- The sequences the reconciler drained, by worker. -/
abbrev ObservedByWorker := Dict (List Number)

/-- The list of a worker among the entries, or else the empty one. -/
def ObservedByWorker.of (observedByWorker : ObservedByWorker) (worker : String) : List Number :=
  (observedByWorker.lookup worker).getD []

/-- `Object.keys(observedByWorker)`. -/
def ObservedByWorker.workers (observedByWorker : ObservedByWorker) : List String :=
  (Dict.entries observedByWorker).map Prod.fst

/-- The errors the reconciliation throws; the docstrings give their texts. -/
inductive ReconcileError where
  /-- `TypeError: values is not iterable` -/
  | notIterable
  /-- `${label} has invalid sequence ${value}` -/
  | invalidSequence (label : String) (value : Number)
  /-- `${label} contains duplicate sequence ${value}` -/
  | duplicateSequence (label : String) (value : Number)
  /-- `${worker} queue sequence ${sequence} has multiple enqueue outcomes` -/
  | multipleOutcomes (worker : String) (sequence : Number)
  /-- `${worker} observed unacknowledged queue sequence ${sequence}` -/
  | unacknowledged (worker : String) (sequence : Number)
  /-- `${worker} failed enqueue sequence ${sequence} became visible` -/
  | failedVisible (worker : String) (sequence : Number)
  /-- `${worker} acknowledged queue sequence ${sequence} resolved ${count} times` -/
  | acknowledgedResolved (worker : String) (sequence : Number) (count : ℕ)
  /-- `${worker} ambiguous queue sequence ${sequence} resolved ${count} times` -/
  | ambiguousResolved (worker : String) (sequence : Number) (count : ℕ)
  /-- `Queue reconciler returned unknown worker ${worker}` -/
  | unknownWorker (worker : String)
  deriving DecidableEq

/-- The sums over all workers. -/
structure Totals where
  acknowledged : ℕ
  ambiguousEnqueues : ℕ
  failedEnqueues : ℕ
  completed : ℕ
  ambiguousCompletions : ℕ
  observed : ℕ
  deriving DecidableEq

/-- The reconciled evidence: the totals, and every outcome with its observed list sorted. -/
structure QueueReconciliation where
  totals : Totals
  clients : List (QueueClientOutcome × List Number)

/-! ### The checks -/

/-- `observedByWorker[worker] ?? []`, as the list that `assertUnique` runs through.  A key without
an entry may still name a member that every object inherits: a function or an object, which is not
nullish and no list. -/
def ObservedByWorker.values (observedByWorker : ObservedByWorker) (worker : String) :
    Except ReconcileError (List Number) :=
  match observedByWorker.lookup worker with
  | some values => .ok values
  | none => if worker ∈ inheritedMembers then .error .notIterable else .ok []

/-- The loop of `assertUnique`, with the sequences seen so far. -/
def assertUniqueFrom (label : String) (seen : List Number) :
    List Number → Except ReconcileError Unit
  | [] => .ok ()
  | value :: values => do
    failIf (!value.isSafeInteger || value.isNegative) (.invalidSequence label value)
    failIf (value ∈ seen) (.duplicateSequence label value)
    assertUniqueFrom label (value :: seen) values

/-- The values are distinct non-negative safe integers. -/
def assertUnique (values : List Number) (label : String) : Except ReconcileError Unit :=
  assertUniqueFrom label [] values

/-- No sequence has two enqueue outcomes. -/
def assertDisjoint (worker : String) (acknowledged ambiguous failed : List Number) :
    Except ReconcileError Unit := do
  forEach acknowledged fun sequence =>
    failIf (sequence ∈ ambiguous ∨ sequence ∈ failed) (.multipleOutcomes worker sequence)
  forEach ambiguous fun sequence =>
    failIf (sequence ∈ failed) (.multipleOutcomes worker sequence)

/-- `Number(completed.has(sequence)) + Number(observed.has(sequence))`. -/
def resolutions (completed observed : List Number) (sequence : Number) : ℕ :=
  (decide (sequence ∈ completed)).toNat + (decide (sequence ∈ observed)).toNat

/-- The checks on one worker.  Every list has passed `assertUnique` when it becomes a set, so
the sets are the lists. -/
def reconcileClient (observedByWorker : ObservedByWorker) (outcome : QueueClientOutcome) :
    Except ReconcileError (QueueClientOutcome × List Number) := do
  assertUnique outcome.acknowledged s!"{outcome.worker} acknowledged"
  assertUnique outcome.ambiguousEnqueues s!"{outcome.worker} ambiguousEnqueues"
  assertUnique outcome.failedEnqueues s!"{outcome.worker} failedEnqueues"
  assertUnique outcome.completed s!"{outcome.worker} completed"
  assertUnique outcome.ambiguousCompletions s!"{outcome.worker} ambiguousCompletions"
  let acknowledged := outcome.acknowledged
  let ambiguous := outcome.ambiguousEnqueues
  let failed := outcome.failedEnqueues
  assertDisjoint outcome.worker acknowledged ambiguous failed
  let completed := outcome.completed
  let ambiguousCompletions := outcome.ambiguousCompletions
  let observed ← observedByWorker.values outcome.worker
  assertUnique observed s!"{outcome.worker} observed"
  forEach (completed ++ ambiguousCompletions ++ observed) fun sequence =>
    failIf (sequence ∉ acknowledged ∧ sequence ∉ ambiguous)
      (.unacknowledged outcome.worker sequence)
  forEach failed fun sequence =>
    failIf (sequence ∈ completed ∨ sequence ∈ ambiguousCompletions ∨ sequence ∈ observed)
      (.failedVisible outcome.worker sequence)
  forEach acknowledged fun sequence =>
    let count := resolutions completed observed sequence
    -- both branches of the maximum are 1 in the source
    let maximum := 1
    let minimum := if sequence ∈ ambiguousCompletions then 0 else 1
    failIf (count < minimum ∨ count > maximum)
      (.acknowledgedResolved outcome.worker sequence count)
  forEach ambiguous fun sequence =>
    let count := resolutions completed observed sequence
    failIf (count > 1) (.ambiguousResolved outcome.worker sequence count)
  return (outcome, observed.mergeSort Number.le)

/-- The additions one worker makes to the totals. -/
def Totals.add (observedByWorker : ObservedByWorker) (totals : Totals)
    (outcome : QueueClientOutcome) : Totals where
  acknowledged := totals.acknowledged + outcome.acknowledged.length
  ambiguousEnqueues := totals.ambiguousEnqueues + outcome.ambiguousEnqueues.length
  failedEnqueues := totals.failedEnqueues + outcome.failedEnqueues.length
  completed := totals.completed + outcome.completed.length
  ambiguousCompletions := totals.ambiguousCompletions + outcome.ambiguousCompletions.length
  observed := totals.observed + (observedByWorker.of outcome.worker).length

/-- The verdict on the queues of all workers. -/
def reconcileQueueOutcomes (outcomes : List QueueClientOutcome)
    (observedByWorker : ObservedByWorker) : Except ReconcileError QueueReconciliation := do
  let clients ← outcomes.mapM (reconcileClient observedByWorker)
  forEach observedByWorker.workers fun worker =>
    failIf (worker ∉ outcomes.map QueueClientOutcome.worker) (.unknownWorker worker)
  return ⟨outcomes.foldl (Totals.add observedByWorker) ⟨0, 0, 0, 0, 0, 0⟩, clients⟩

/-! ### What the checks decide -/

/-- A duplicate-free list of non-negative safe integers. -/
def IsSequenceSet (values : List Number) : Prop :=
  values.Nodup ∧ ∀ v ∈ values, v.IsSequence

/-- The worker has an entry, or its name is none that every object inherits. -/
def ObservedByWorker.Readable (observedByWorker : ObservedByWorker) (worker : String) : Prop :=
  worker ∈ observedByWorker.workers ∨ worker ∉ inheritedMembers

instance (observedByWorker : ObservedByWorker) (worker : String) :
    Decidable (observedByWorker.Readable worker) := inferInstanceAs (Decidable (_ ∨ _))

/-- The outcome of a worker agrees with the list the reconciler observed in its queue. -/
structure Consistent (outcome : QueueClientOutcome) (observed : List Number) : Prop where
  acknowledged_set : IsSequenceSet outcome.acknowledged
  ambiguous_set : IsSequenceSet outcome.ambiguousEnqueues
  failed_set : IsSequenceSet outcome.failedEnqueues
  completed_set : IsSequenceSet outcome.completed
  ambiguousCompletions_set : IsSequenceSet outcome.ambiguousCompletions
  observed_set : IsSequenceSet observed
  acknowledged_ambiguous : outcome.acknowledged.Disjoint outcome.ambiguousEnqueues
  acknowledged_failed : outcome.acknowledged.Disjoint outcome.failedEnqueues
  ambiguous_failed : outcome.ambiguousEnqueues.Disjoint outcome.failedEnqueues
  completed_subset : outcome.completed ⊆ outcome.acknowledged ++ outcome.ambiguousEnqueues
  ambiguousCompletions_subset :
    outcome.ambiguousCompletions ⊆ outcome.acknowledged ++ outcome.ambiguousEnqueues
  observed_subset : observed ⊆ outcome.acknowledged ++ outcome.ambiguousEnqueues
  completed_observed : outcome.completed.Disjoint observed
  resolved : ∀ s ∈ outcome.acknowledged,
    s ∈ outcome.completed ∨ s ∈ observed ∨ s ∈ outcome.ambiguousCompletions

/-- The sum of the lengths of one list over all workers. -/
def totalLength (outcomes : List QueueClientOutcome)
    (list : QueueClientOutcome → List Number) : ℕ :=
  (outcomes.map fun o => (list o).length).sum

theorem assertUniqueFrom_eq_ok {label : String} {seen values : List Number} :
    assertUniqueFrom label seen values = .ok () ↔
      IsSequenceSet values ∧ ∀ v ∈ values, v ∉ seen := by
  induction values generalizing seen with
  | nil => simp [assertUniqueFrom, IsSequenceSet]
  | cons v values ih =>
    simp only [assertUniqueFrom, bind_eq, seq_eq_ok, failIf_eq_ok, ih, IsSequenceSet,
      List.nodup_cons, List.mem_cons, Number.IsSequence]
    grind

theorem assertUnique_eq_ok {values : List Number} {label : String} :
    assertUnique values label = .ok () ↔ IsSequenceSet values := by
  simp [assertUnique, assertUniqueFrom_eq_ok]

theorem assertDisjoint_eq_ok {worker : String} {acknowledged ambiguous failed : List Number} :
    assertDisjoint worker acknowledged ambiguous failed = .ok () ↔
      acknowledged.Disjoint ambiguous ∧ acknowledged.Disjoint failed ∧
        ambiguous.Disjoint failed := by
  simp only [assertDisjoint, bind_eq, seq_eq_ok, forEach_eq_ok, failIf_eq_ok, List.Disjoint]
  grind

theorem resolutions_le_one {completed observed : List Number} {s : Number} :
    ¬ 1 < resolutions completed observed s ↔ ¬ (s ∈ completed ∧ s ∈ observed) := by
  unfold resolutions
  by_cases hc : s ∈ completed <;> by_cases ho : s ∈ observed <;> simp [hc, ho]

theorem resolutions_eq_zero {completed observed : List Number} {s : Number} :
    resolutions completed observed s < 1 ↔ s ∉ completed ∧ s ∉ observed := by
  unfold resolutions
  by_cases hc : s ∈ completed <;> by_cases ho : s ∈ observed <;> simp [hc, ho]

/-- The check of an acknowledged sequence. -/
theorem acknowledged_check_iff {completed observed ambiguousCompletions : List Number}
    {s : Number} :
    ¬ (resolutions completed observed s < (if s ∈ ambiguousCompletions then 0 else 1) ∨
        resolutions completed observed s > 1) ↔
      (s ∈ completed ∨ s ∈ observed ∨ s ∈ ambiguousCompletions) ∧
        ¬ (s ∈ completed ∧ s ∈ observed) := by
  rw [not_or, gt_iff_lt, resolutions_le_one]
  by_cases ha : s ∈ ambiguousCompletions
  · simp [ha]
  · simp only [ha, if_false, resolutions_eq_zero, or_false]
    tauto

theorem ObservedByWorker.mem_workers {observedByWorker : ObservedByWorker} {worker : String} :
    worker ∈ observedByWorker.workers ↔ worker ∈ observedByWorker.map Prod.fst :=
  ((Dict.entries_perm observedByWorker).map Prod.fst).mem_iff

/-- A worker whose list can be read has the one of its entry, or none. -/
theorem ObservedByWorker.values_eq_ok {observedByWorker : ObservedByWorker} {worker : String}
    {values : List Number} : observedByWorker.values worker = .ok values ↔
      observedByWorker.Readable worker ∧ values = observedByWorker.of worker := by
  rw [ObservedByWorker.values, Readable, ObservedByWorker.of, mem_workers]
  cases hlookup : observedByWorker.lookup worker with
  | none =>
    have hnone : worker ∉ observedByWorker.map Prod.fst := by
      intro hmem
      obtain ⟨p, hp, rfl⟩ := List.mem_map.mp hmem
      exact absurd (List.lookup_eq_none_iff.mp hlookup p hp) (by simp)
    by_cases hmember : worker ∈ inheritedMembers
    · simp [hnone, hmember]
    · simp [hnone, hmember, eq_comm]
  | some found =>
    have hsome : worker ∈ observedByWorker.map Prod.fst := by
      obtain ⟨l, r, heq, -⟩ := List.lookup_eq_some_iff.mp hlookup
      rw [heq]
      simp
    simp [hsome, eq_comm]

/-- The checks on one worker pass exactly when its list can be read and agrees. -/
theorem passes_reconcileClient {observedByWorker : ObservedByWorker}
    {outcome : QueueClientOutcome} :
    Passes (reconcileClient observedByWorker outcome) ↔
      observedByWorker.Readable outcome.worker ∧
        Consistent outcome (observedByWorker.of outcome.worker) := by
  simp only [reconcileClient, bind_eq, passes_bind, exists_unit, assertUnique_eq_ok,
    assertDisjoint_eq_ok, forEach_eq_ok, failIf_eq_ok, acknowledged_check_iff, resolutions_le_one,
    gt_iff_lt, pure_eq, passes_ok, and_true, ObservedByWorker.values_eq_ok, and_assoc,
    exists_and_left, exists_eq_left]
  constructor
  · rintro ⟨hack, hamb, hfail, hcomp, hac, haa, haf, hmf, hread, hobs, hsub, -, hres, honce⟩
    -- What is completed or observed was enqueued, perhaps ambiguously.
    have hknown : ∀ s, s ∈ outcome.completed ∨ s ∈ outcome.ambiguousCompletions ∨
        s ∈ observedByWorker.of outcome.worker →
        s ∈ outcome.acknowledged ++ outcome.ambiguousEnqueues := fun s hs => by
      have := hsub s (by simpa [or_assoc] using hs)
      rw [List.mem_append]
      tauto
    refine ⟨hread, hack, hamb, hfail, hcomp, hac, hobs, haa, haf, hmf,
      fun s hs => hknown s (.inl hs),
      fun s hs => hknown s (.inr (.inl hs)), fun s hs => hknown s (.inr (.inr hs)), ?_,
      fun s hs => (hres s hs).1⟩
    intro s hc ho
    obtain hs | hs := List.mem_append.1 (hknown s (.inl hc))
    · exact (hres s hs).2 ⟨hc, ho⟩
    · exact honce s hs ⟨hc, ho⟩
  · rintro ⟨hread, h⟩
    have hknown : ∀ s, s ∈ outcome.completed ∨ s ∈ outcome.ambiguousCompletions ∨
        s ∈ observedByWorker.of outcome.worker →
        s ∈ outcome.acknowledged ∨ s ∈ outcome.ambiguousEnqueues := fun s hs => by
      rw [← List.mem_append]
      rcases hs with hs | hs | hs
      · exact h.completed_subset hs
      · exact h.ambiguousCompletions_subset hs
      · exact h.observed_subset hs
    refine ⟨h.acknowledged_set, h.ambiguous_set, h.failed_set, h.completed_set,
      h.ambiguousCompletions_set, h.acknowledged_ambiguous, h.acknowledged_failed,
      h.ambiguous_failed, hread, h.observed_set, fun s hs => ?_, fun s hs hvis => ?_,
      fun s hs => ⟨h.resolved s hs, fun hb => h.completed_observed hb.1 hb.2⟩,
      fun s _ hb => h.completed_observed hb.1 hb.2⟩
    · have := hknown s (by simpa [or_assoc] using hs)
      tauto
    · rcases hknown s hvis with hk | hk
      · exact h.acknowledged_failed hk hs
      · exact h.ambiguous_failed hk hs

theorem passes_reconcileQueueOutcomes {outcomes : List QueueClientOutcome}
    {observedByWorker : ObservedByWorker} :
    Passes (reconcileQueueOutcomes outcomes observedByWorker) ↔
      (∀ o ∈ outcomes, observedByWorker.Readable o.worker ∧
        Consistent o (observedByWorker.of o.worker)) ∧
        ∀ w ∈ observedByWorker.workers, w ∈ outcomes.map QueueClientOutcome.worker := by
  rw [reconcileQueueOutcomes, bind_eq, passes_bind]
  simp only [← passes_reconcileClient, ← passes_mapM, bind_eq, passes_seq, forEach_eq_ok,
    failIf_eq_ok, not_not, pure_eq, passes_ok, and_true]
  constructor
  · rintro ⟨clients, hc, hw⟩
    exact ⟨⟨clients, hc⟩, hw⟩
  · rintro ⟨⟨clients, hc⟩, hw⟩
    exact ⟨clients, hc, hw⟩

theorem foldl_totals_add (observedByWorker : ObservedByWorker) (outcomes : List QueueClientOutcome)
    (t : Totals) :
    outcomes.foldl (Totals.add observedByWorker) t =
      ⟨t.acknowledged + totalLength outcomes (·.acknowledged),
       t.ambiguousEnqueues + totalLength outcomes (·.ambiguousEnqueues),
       t.failedEnqueues + totalLength outcomes (·.failedEnqueues),
       t.completed + totalLength outcomes (·.completed),
       t.ambiguousCompletions + totalLength outcomes (·.ambiguousCompletions),
       t.observed + totalLength outcomes fun o => observedByWorker.of o.worker⟩ := by
  induction outcomes generalizing t with
  | nil => simp [totalLength]
  | cons o outcomes ih => simp [ih, Totals.add, totalLength, Nat.add_assoc]

/-- What a reconciliation that returned says. -/
theorem totals_reconcileQueueOutcomes {outcomes : List QueueClientOutcome}
    {observedByWorker : ObservedByWorker} {r : QueueReconciliation}
    (h : reconcileQueueOutcomes outcomes observedByWorker = .ok r) :
    r.totals = ⟨totalLength outcomes (·.acknowledged), totalLength outcomes (·.ambiguousEnqueues),
      totalLength outcomes (·.failedEnqueues), totalLength outcomes (·.completed),
      totalLength outcomes (·.ambiguousCompletions),
      totalLength outcomes fun o => observedByWorker.of o.worker⟩ := by
  simp only [reconcileQueueOutcomes, bind_eq, bind_eq_ok, pure_eq, Except.ok.injEq] at h
  obtain ⟨clients, -, _, -, rfl⟩ := h
  simp [foldl_totals_add]

/-- **`reconcileQueueOutcomes` is sound and complete**: it returns iff every worker is
consistent with what was observed in its queue, no worker without an entry has the name of a member
that every object inherits, and every observed worker is known, and then the totals are the sums of
the list lengths.  In particular a lost acknowledged enqueue, a resurrected completion, a
duplicated observation and a visible failed enqueue are rejected. -/
theorem reconcileQueueOutcomes_iff (outcomes : List QueueClientOutcome)
    (observedByWorker : ObservedByWorker) :
    (Passes (reconcileQueueOutcomes outcomes observedByWorker) ↔
      (∀ o ∈ outcomes, Consistent o (observedByWorker.of o.worker)) ∧
        (∀ w ∈ observedByWorker.workers, w ∈ outcomes.map QueueClientOutcome.worker) ∧
        ∀ o ∈ outcomes, o.worker ∈ inheritedMembers → o.worker ∈ observedByWorker.workers) ∧
    (∀ r, reconcileQueueOutcomes outcomes observedByWorker = .ok r →
      r.totals = ⟨totalLength outcomes (·.acknowledged),
        totalLength outcomes (·.ambiguousEnqueues), totalLength outcomes (·.failedEnqueues),
        totalLength outcomes (·.completed), totalLength outcomes (·.ambiguousCompletions),
        totalLength outcomes fun o => observedByWorker.of o.worker⟩) ∧
    ∀ o ∈ outcomes, ∀ s,
      (s ∈ o.acknowledged ∧ s ∉ o.completed ∧ s ∉ observedByWorker.of o.worker ∧
          s ∉ o.ambiguousCompletions ∨
        s ∈ o.completed ∧ s ∈ observedByWorker.of o.worker ∨
        1 < (observedByWorker.of o.worker).count s ∨
        s ∈ o.failedEnqueues ∧ s ∈ observedByWorker.of o.worker) →
      ¬ Passes (reconcileQueueOutcomes outcomes observedByWorker) := by
  refine ⟨?_, fun r h => totals_reconcileQueueOutcomes h, ?_⟩
  · have hreadable : ∀ worker, observedByWorker.Readable worker ↔
        (worker ∈ inheritedMembers → worker ∈ observedByWorker.workers) := fun worker => by
      rw [ObservedByWorker.Readable, or_comm, ← imp_iff_not_or]
    rw [passes_reconcileQueueOutcomes]
    simp only [hreadable, forall_and]
    tauto
  intro o ho s hs hpass
  have h := ((passes_reconcileQueueOutcomes.1 hpass).1 o ho).2
  rcases hs with ⟨hack, hc, hobs, hac⟩ | ⟨hc, hobs⟩ | hcount | ⟨hfail, hobs⟩
  · rcases h.resolved s hack with hr | hr | hr
    · exact hc hr
    · exact hobs hr
    · exact hac hr
  · exact h.completed_observed hc hobs
  · exact hcount.not_ge (List.nodup_iff_count_le_one.1 h.observed_set.1 s)
  · rcases List.mem_append.1 (h.observed_subset hobs) with hk | hk
    · exact h.acknowledged_failed hk hfail
    · exact h.ambiguous_failed hk hfail

/-- A worker that did nothing. -/
def idleOutcome (worker : String) : QueueClientOutcome := ⟨worker, [], [], [], [], []⟩

/-- **A worker named like an inherited member** makes the reconciliation throw, though nothing was
enqueued and nothing observed. -/
theorem not_passes_constructor :
    Consistent (idleOutcome "constructor") (ObservedByWorker.of [] "constructor") ∧
    (∀ w ∈ ObservedByWorker.workers [],
      w ∈ [idleOutcome "constructor"].map QueueClientOutcome.worker) ∧
    ¬Passes (reconcileQueueOutcomes [idleOutcome "constructor"] []) ∧
    ¬∀ outcomes observedByWorker,
      (outcomes.map QueueClientOutcome.worker).Nodup →
      (Passes (reconcileQueueOutcomes outcomes observedByWorker) ↔
        (∀ o ∈ outcomes, Consistent o (observedByWorker.of o.worker)) ∧
          ∀ w ∈ observedByWorker.workers, w ∈ outcomes.map QueueClientOutcome.worker) := by
  have hempty : IsSequenceSet [] := ⟨List.nodup_nil, List.forall_mem_nil _⟩
  have hconsistent : Consistent (idleOutcome "constructor") [] := by
    refine ⟨hempty, hempty, hempty, hempty, hempty, hempty, ?_, ?_, ?_, ?_, ?_, ?_, ?_, ?_⟩ <;>
      simp [idleOutcome]
  have hworkers : ∀ w ∈ ObservedByWorker.workers [],
      w ∈ [idleOutcome "constructor"].map QueueClientOutcome.worker := fun w hw =>
    absurd (ObservedByWorker.mem_workers.mp hw) List.not_mem_nil
  have hthrows : ¬Passes (reconcileQueueOutcomes [idleOutcome "constructor"] []) := by
    intro hpass
    rcases ((passes_reconcileQueueOutcomes.mp hpass).1 _ List.mem_cons_self).1 with hread | hread
    · exact absurd (ObservedByWorker.mem_workers.mp hread) List.not_mem_nil
    · exact hread (by decide)
  refine ⟨hconsistent, hworkers, hthrows, fun hclaim => hthrows ?_⟩
  have hdistinct : ([idleOutcome "constructor"].map QueueClientOutcome.worker).Nodup :=
    List.nodup_singleton _
  refine (hclaim _ _ hdistinct).mpr ⟨fun o ho => ?_, hworkers⟩
  obtain rfl := List.mem_singleton.mp ho
  exact hconsistent

end Pressure

end FitzDestroyer
