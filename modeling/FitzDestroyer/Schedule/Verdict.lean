import Mathlib.Algebra.BigOperators.Group.Finset.Piecewise
import Mathlib.Algebra.Order.BigOperators.Group.List
import FitzDestroyer.Schedule.Records

/-!
# The verdict is exact

The host accepts the logs of a fleet iff the deliveries to the fleet are exact.

* `Tally.addSessions` : the tally after the logs of a fleet, with its fields in closed form;
* `evidence_accepted_iff` : the evidence of a fleet is accepted iff the deliveries are exact;
* `summarize_passes_iff` : the verdict.
-/

namespace FitzDestroyer

namespace Schedule

open Js Workload

/-! ### Deliveries and counters -/

section Deliveries

variable {o : Options} {workerId : String} (s : Session o workerId)

/-- The schedules that are delivered to the subscriber, in order. -/
def Session.ids : List (DeliveryKind × ℕ) := identities o s.events

theorem deliveries_eq_count (kind : DeliveryKind) (sequence : ℕ) :
    s.deliveries kind sequence = s.ids.count (kind, sequence) := by
  rw [Session.deliveries, Session.ids, identities, List.count, List.countP_filterMap]
  refine List.countP_congr fun n _ => ?_
  have hdelivers : Delivers o n kind sequence ↔ identity? o n = some (kind, sequence) :=
    (@identity?_eq_some o n (kind, sequence)).symm
  rw [decide_eq_true_iff, hdelivers]
  rcases identity? o n with _ | id <;> simp

theorem range_of_mem_ids {id : DeliveryKind × ℕ} (h : id ∈ s.ids) :
    id.2 < 10 ^ 8 ∧ id.2 < o.operations := by
  obtain ⟨n, -, hn⟩ := List.mem_filterMap.mp h
  have hdelivers := identity?_eq_some.mp hn
  exact ⟨hdelivers.digits, hdelivers.range⟩

theorem filter_ids (kind : DeliveryKind) : s.ids.toFinset.filter (·.1 = kind) =
    ((Finset.range o.operations).filter fun sequence => (kind, sequence) ∈ s.ids).image
      (Prod.mk kind) := by
  ext ⟨kind', sequence⟩
  simp only [Finset.mem_filter, List.mem_toFinset, Finset.mem_image, Finset.mem_range,
    Prod.mk.injEq]
  constructor
  · rintro ⟨hmem, rfl⟩
    exact ⟨sequence, ⟨(range_of_mem_ids s hmem).2, hmem⟩, rfl, rfl⟩
  · rintro ⟨_, ⟨-, hmem⟩, rfl, rfl⟩
    exact ⟨hmem, rfl⟩

theorem counts_eq_card (kind : DeliveryKind) : s.subscriber.counts kind =
    ((Finset.range o.operations).filter fun sequence => (kind, sequence) ∈ s.ids).card := by
  have hcounts : s.subscriber.counts kind = (s.ids.toFinset.filter (·.1 = kind)).card :=
    (reflects_subscriber s).counts kind
  rw [hcounts, filter_ids, Finset.card_image_of_injective _ (Prod.mk_right_injective kind)]

theorem counts_le (kind : DeliveryKind) : s.subscriber.counts kind ≤ o.operations := by
  rw [counts_eq_card]
  exact (Finset.card_filter_le _ _).trans (Finset.card_range _).le

/-- A subscriber without duplicates counts its deliveries. -/
theorem counts_eq_sum (h : s.ids.Nodup) (kind : DeliveryKind) : s.subscriber.counts kind =
    ((List.range o.operations).map fun sequence => s.deliveries kind sequence).sum := by
  have hcount :
      ∀ sequence, s.deliveries kind sequence = if (kind, sequence) ∈ s.ids then 1 else 0 :=
    fun sequence => by rw [deliveries_eq_count, h.count]
  rw [counts_eq_card, Finset.card_filter]
  simp only [hcount]
  have hrange : (List.range o.operations).toFinset = Finset.range o.operations := by
    ext sequence
    simp
  rw [← List.sum_toFinset _ List.nodup_range, hrange]

theorem counts_eq_zero {kind : DeliveryKind} :
    s.subscriber.counts kind = 0 ↔ ∀ sequence, s.deliveries kind sequence = 0 := by
  rw [counts_eq_card, Finset.card_eq_zero, Finset.filter_eq_empty_iff]
  simp only [deliveries_eq_count, List.count_eq_zero, Finset.mem_range]
  exact ⟨fun h sequence hmem => h (range_of_mem_ids s hmem).2 hmem, fun h sequence _ => h sequence⟩

theorem duplicates_eq_zero : s.subscriber.duplicates = 0 ↔ s.ids.Nodup := by
  have h : s.subscriber.duplicates + s.ids.toFinset.card = s.ids.length :=
    (reflects_subscriber s).duplicates
  rw [← Multiset.coe_nodup, ← Multiset.toFinset_card_eq_card_iff_nodup]
  change _ ↔ s.ids.toFinset.card = s.ids.length
  omega

/-- No notification is invalid iff each delivers a schedule. -/
theorem invalid_eq_zero : s.subscriber.invalid = 0 ↔
    ∀ n ∈ s.notifications, ∃ kind sequence, Delivers o n kind sequence := by
  have h : s.subscriber.invalid + s.ids.length = s.notifications.length :=
    (reflects_subscriber s).invalid
  have hlength : s.ids.length = s.notifications.length ↔
      ∀ n ∈ s.notifications, (identity? o n).isSome := List.filterMap_length_eq_length
  have hsome : ∀ n, (identity? o n).isSome ↔ ∃ kind sequence, Delivers o n kind sequence := by
    intro n
    simp only [Option.isSome_iff_exists, identity?_eq_some, Prod.exists]
  simp only [← hsome]
  rw [← hlength]
  omega

end Deliveries

/-! ### The tally of a fleet -/

section Fleet

variable {o : Options} {t : Tally} {workers : List (Σ workerId, Session o workerId)}

/-- The tally after the logs of a fleet. -/
def Tally.addSessions (t : Tally) (workers : List (Σ workerId, Session o workerId)) : Tally :=
  workers.foldl (fun t p => t.addSession p.2) t

/-- The logs are read iff the counters of every subscriber are safe integers. -/
theorem tallyLogs_eq_ok {t' : Tally} :
    (workers.map fun p => (p.1, p.2.log)).foldlM (tallyLog o.operations) t = .ok t' ↔
      (∀ p ∈ workers, p.2.counters.Safe) ∧ t' = t.addSessions workers := by
  induction workers generalizing t with
  | nil => simp [Tally.addSessions, eq_comm]
  | cons p workers ih =>
    rw [List.map_cons, List.foldlM_cons, Check.bind_eq, Check.bind_eq_ok, List.forall_mem_cons]
    simp only [tallyLog_eq_ok, ih]
    constructor
    · rintro ⟨_, ⟨hp, rfl⟩, hworkers, rfl⟩
      exact ⟨⟨hp, hworkers⟩, rfl⟩
    · rintro ⟨⟨hp, hworkers⟩, rfl⟩
      exact ⟨_, ⟨hp, rfl⟩, hworkers, rfl⟩

/-- A number to which each subscriber adds its part. -/
theorem addSessions_sum {g : Tally → ℕ} {k : (Σ workerId, Session o workerId) → ℕ}
    (h : ∀ (t : Tally) p, g (t.addSession p.2) = g t + k p) :
    g (t.addSessions workers) = g t + (workers.map k).sum := by
  induction workers generalizing t with
  | nil => rfl
  | cons p workers ih =>
    rw [Tally.addSessions, List.foldl_cons, List.map_cons, List.sum_cons, ← Nat.add_assoc, ← h]
    exact ih

/-- The subscribers that received a broadcast. -/
theorem addSessions_broadcastWorkers (sequence : ℕ) :
    (t.addSessions workers).broadcastWorkers sequence = t.broadcastWorkers sequence ∪
      ((workers.filter fun p => (.broadcast, sequence) ∈ p.2.ids).map Sigma.fst).toFinset := by
  induction workers generalizing t with
  | nil => simp [Tally.addSessions]
  | cons p workers ih =>
    rw [Tally.addSessions, List.foldl_cons]
    refine ih.trans ?_
    have hadd : (t.addSession p.2).broadcastWorkers sequence =
        if (.broadcast, sequence) ∈ p.2.ids then insert p.1 (t.broadcastWorkers sequence)
        else t.broadcastWorkers sequence := rfl
    by_cases hmem : (.broadcast, sequence) ∈ p.2.ids
    · rw [hadd, if_pos hmem, List.filter_cons_of_pos (by simpa using hmem), List.map_cons,
        List.toFinset_cons, Finset.insert_union, Finset.union_insert]
    · rw [hadd, if_neg hmem, List.filter_cons_of_neg (by simpa using hmem)]

theorem card_broadcastWorkers (h : (workers.map Sigma.fst).Nodup) (sequence : ℕ) :
    ((Tally.init.addSessions workers).broadcastWorkers sequence).card = workers.length ↔
      ∀ p ∈ workers, (.broadcast, sequence) ∈ p.2.ids := by
  have hnodup : ((workers.filter fun p =>
      (.broadcast, sequence) ∈ p.2.ids).map Sigma.fst).Nodup :=
    h.sublist ((List.filter_sublist).map _)
  rw [addSessions_broadcastWorkers]
  simp only [Tally.init, Finset.empty_union]
  rw [List.toFinset_card_of_nodup hnodup, List.length_map, List.length_filter_eq_length_iff]
  simp only [decide_eq_true_eq]

/-- The subscribers whose clients report that their handlers are saturated. -/
theorem addSessions_saturations : (t.addSessions workers).clientHandlerSaturations = [] ↔
    t.clientHandlerSaturations = [] ∧ ∀ p ∈ workers, handlerSaturated ∉ p.2.clientEvents := by
  have hbumps : ∀ (d : Dict ℕ) (key : String) (events : List String),
      events.foldl (fun d _ => d.bump key) d = [] ↔ d = [] ∧ events = [] := by
    intro d key events
    induction events generalizing d with
    | nil => simp
    | cons event events ih => simp [ih, Dict.bump_ne_nil]
  induction workers generalizing t with
  | nil => simp [Tally.addSessions]
  | cons p workers ih =>
    have hadd : (t.addSession p.2).clientHandlerSaturations = [] ↔
        t.clientHandlerSaturations = [] ∧ handlerSaturated ∉ p.2.clientEvents := by
      refine (hbumps _ _ _).trans ?_
      simp only [List.filter_eq_nil_iff, decide_eq_true_eq]
      exact and_congr_right fun _ => ⟨fun h hmem => h _ hmem rfl, fun h event hmem he =>
        h (he ▸ hmem)⟩
    rw [Tally.addSessions, List.foldl_cons, List.forall_mem_cons, ← and_assoc, ← hadd]
    exact ih

/-- The broadcasts of each subscriber, in the order of the logs. -/
theorem addSessions_subscribers (h : (t.subscriberBroadcastDeliveries.map Prod.fst ++
    workers.map Sigma.fst).Nodup) : (t.addSessions workers).subscriberBroadcastDeliveries =
      t.subscriberBroadcastDeliveries ++
        workers.map fun p => (p.1, p.2.counters.broadcastDeliveries) := by
  induction workers generalizing t with
  | nil => simp [Tally.addSessions]
  | cons p workers ih =>
    have hfresh : p.1 ∉ t.subscriberBroadcastDeliveries.map Prod.fst := fun hmem =>
      (List.nodup_append.mp h).2.2 _ hmem p.1 (by simp) rfl
    have hadd : (t.addSession p.2).subscriberBroadcastDeliveries =
        t.subscriberBroadcastDeliveries ++ [(p.1, p.2.counters.broadcastDeliveries)] :=
      Dict.set_of_not_mem hfresh
    rw [Tally.addSessions, List.foldl_cons]
    refine (ih ?_).trans ?_
    · rw [hadd]
      simpa using h
    · rw [hadd]
      simp

end Fleet

/-! ### The verdict -/

theorem sequenceViolations_eq_zero {count : ℕ} {condition : ℕ → Bool} :
    (sequenceViolations count condition).count = 0 ↔
      ∀ sequence < count, condition sequence = true := by
  simp [sequenceViolations]

theorem subscriberDeficits_eq_zero {e : ScheduleDeliveryEvidence} :
    e.subscriberDeficits.length = 0 ↔
      ∀ p ∈ e.subscriberBroadcastDeliveries, p.2 = e.expected.firesPerMode := by
  rw [ScheduleDeliveryEvidence.subscriberDeficits, List.length_map, List.length_eq_zero_iff,
    List.filter_eq_nil_iff]
  simp only [(Dict.entries_perm _).mem_iff, decide_eq_true_eq, not_not]

/-- A sum over sequences and subscribers, either way around. -/
theorem sum_deliveries_comm {o : Options} {workers : List (Σ workerId, Session o workerId)}
    (kind : DeliveryKind) (sequences : List ℕ) :
    (workers.map fun p => (sequences.map fun s => p.2.deliveries kind s).sum).sum =
      (sequences.map fun s => (workers.map fun p => p.2.deliveries kind s).sum).sum := by
  induction workers with
  | nil => simp
  | cons p workers ih => simp [ih, List.sum_map_add]

namespace Fleet

variable (f : Fleet)

/-- The tally of the logs of a fleet. -/
def tally : Tally := Tally.init.addSessions f.workers

/-- What the host reads from the logs of a fleet. -/
def evidence : ScheduleDeliveryEvidence where
  expected := ⟨f.workers.length, f.options.operations, f.options.operations * f.workers.length,
    f.options.operations, 0⟩
  observed := f.tally.observed
  subscriberBroadcastDeliveries := f.tally.subscriberBroadcastDeliveries
  clientEventCounts := f.tally.clientEventCounts
  clientHandlerSaturations := f.tally.clientHandlerSaturations
  missingBroadcast := sequenceViolations f.options.operations fun sequence =>
    (f.tally.broadcastWorkers sequence).card = f.workers.length
  missingSingle := sequenceViolations f.options.operations fun sequence =>
    0 < f.tally.singleCounts sequence
  duplicateSingle := sequenceViolations f.options.operations fun sequence =>
    f.tally.singleCounts sequence ≤ 1

theorem analyze_eq_ok {e : ScheduleDeliveryEvidence} :
    analyzeScheduleDeliveryLogs f.logs f.options.operations f.workers.length = .ok e ↔
      (∀ p ∈ f.workers, p.2.counters.Safe) ∧ e = f.evidence := by
  have hsize : ¬f.logs.size ≠ f.workers.length :=
    not_not.mpr (List.length_map _)
  have hentries : f.logs.entries = f.workers.map fun p => (p.1, p.2.log) := rfl
  unfold analyzeScheduleDeliveryLogs
  rw [Check.bind_eq, Check.seq_eq_ok, Check.failIf_eq_ok, Check.bind_eq, Check.bind_eq_ok, hentries]
  simp only [tallyLogs_eq_ok, Check.pure_eq, Except.ok.injEq]
  constructor
  · rintro ⟨-, _, ⟨hsafe, rfl⟩, rfl⟩
    exact ⟨hsafe, rfl⟩
  · rintro ⟨hsafe, rfl⟩
    exact ⟨hsize, _, ⟨hsafe, rfl⟩, rfl⟩

theorem singleCounts_eq (sequence : ℕ) : f.tally.singleCounts sequence =
    (f.workers.map fun p => p.2.deliveries .single sequence).sum := by
  have h : f.tally.singleCounts sequence = 0 + (f.workers.map fun p =>
      p.2.ids.count (.single, sequence)).sum :=
    addSessions_sum (g := fun t => t.singleCounts sequence) fun _ _ => rfl
  simp only [deliveries_eq_count]
  rw [h, Nat.zero_add]

/-- The evidence of a fleet is accepted iff the counters of its subscribers add up. -/
theorem evidence_accepted_iff : f.evidence.Accepted ↔
    (f.workers.map fun p => p.2.subscriber.counts .broadcast).sum =
        f.options.operations * f.workers.length ∧
      (f.workers.map fun p => p.2.subscriber.counts .single).sum = f.options.operations ∧
      (∀ p ∈ f.workers, p.2.subscriber.counts .cancelled = 0) ∧
      (∀ p ∈ f.workers, p.2.subscriber.duplicates = 0) ∧
      (∀ p ∈ f.workers, p.2.subscriber.invalid = 0) ∧
      (∀ sequence < f.options.operations, ∀ p ∈ f.workers, (.broadcast, sequence) ∈ p.2.ids) ∧
      (∀ sequence < f.options.operations,
        (f.workers.map fun p => p.2.deliveries .single sequence).sum = 1) ∧
      (∀ p ∈ f.workers, handlerSaturated ∉ p.2.clientEvents) ∧
      ∀ p ∈ f.workers, p.2.subscriber.counts .broadcast = f.options.operations := by
  -- Every counter of the tally is the sum of those of the subscribers.
  have hsum : ∀ (g : ScheduleDeliverySummary → ℕ), (∀ (t : Tally) (p : Σ workerId,
      Session f.options workerId), g (t.addSession p.2).observed = g t.observed + g p.2.counters) →
      g ⟨0, 0, 0, 0, 0, 0⟩ = 0 →
      g f.tally.observed = (f.workers.map fun p => g p.2.counters).sum := by
    intro g hg hzero
    have h : g f.tally.observed = g Tally.init.observed + _ :=
      addSessions_sum (g := fun t => g t.observed) hg
    rw [h, Tally.init, hzero, Nat.zero_add]
  have hbroadcast := hsum (·.broadcastDeliveries) (fun _ _ => rfl) rfl
  have hsingle := hsum (·.singleDeliveries) (fun _ _ => rfl) rfl
  have hcancelled := hsum (·.cancelledDeliveries) (fun _ _ => rfl) rfl
  have hduplicates := hsum (·.duplicates) (fun _ _ => rfl) rfl
  have hinvalid := hsum (·.invalid) (fun _ _ => rfl) rfl
  have hworkers := fun sequence => card_broadcastWorkers (o := f.options) f.nodup sequence
  have hsaturations : f.tally.clientHandlerSaturations = [] ↔
      ∀ p ∈ f.workers, handlerSaturated ∉ p.2.clientEvents :=
    addSessions_saturations.trans (and_iff_right rfl)
  have hsubscribers : f.tally.subscriberBroadcastDeliveries =
      f.workers.map fun p => (p.1, p.2.subscriber.counts .broadcast) :=
    addSessions_subscribers (t := Tally.init) f.nodup
  -- A sequence is neither missing nor delivered twice iff it is delivered once.
  have hones : (∀ sequence < f.options.operations, 0 < f.tally.singleCounts sequence) ∧
      (∀ sequence < f.options.operations, f.tally.singleCounts sequence ≤ 1) ↔
      ∀ sequence < f.options.operations,
        (f.workers.map fun p => p.2.deliveries .single sequence).sum = 1 := by
    simp only [← singleCounts_eq]
    exact ⟨fun h sequence hs => le_antisymm (h.2 _ hs) (h.1 _ hs),
      fun h => ⟨fun sequence hs => (h _ hs).ge, fun sequence hs => (h _ hs).le⟩⟩
  have hdeficits : f.evidence.subscriberDeficits.length = 0 ↔
      ∀ p ∈ f.workers, p.2.subscriber.counts .broadcast = f.options.operations := by
    rw [subscriberDeficits_eq_zero, show f.evidence.subscriberBroadcastDeliveries = _
      from hsubscribers, List.forall_mem_map]
    rfl
  constructor
  · intro h
    refine ⟨hbroadcast.symm.trans h.broadcast, hsingle.symm.trans h.single, ?_, ?_, ?_, ?_,
      hones.mp ⟨?_, ?_⟩, ?_, hdeficits.mp h.deficits⟩
    · exact fun p hp => List.sum_eq_zero_iff.mp (hcancelled.symm.trans h.cancelled) _
        (List.mem_map_of_mem hp)
    · exact fun p hp => List.sum_eq_zero_iff.mp (hduplicates.symm.trans h.duplicates) _
        (List.mem_map_of_mem hp)
    · exact fun p hp => List.sum_eq_zero_iff.mp (hinvalid.symm.trans h.invalid) _
        (List.mem_map_of_mem hp)
    · exact fun sequence hs => (hworkers sequence).mp (of_decide_eq_true
        (sequenceViolations_eq_zero.mp h.missingBroadcast sequence hs))
    · exact fun sequence hs => of_decide_eq_true
        (sequenceViolations_eq_zero.mp h.missingSingle sequence hs)
    · exact fun sequence hs => of_decide_eq_true
        (sequenceViolations_eq_zero.mp h.duplicateSingle sequence hs)
    · refine hsaturations.mp ?_
      have hnil := List.length_eq_zero_iff.mp h.saturations
      exact List.Perm.nil_eq (hnil ▸ Dict.entries_perm _) |>.symm
  · rintro ⟨hb, hs, hc, hd, hi, hmissing, hone, hsat, hdef⟩
    refine ⟨hbroadcast.trans hb, hsingle.trans hs, hcancelled.trans ?_, hduplicates.trans ?_,
      hinvalid.trans ?_, ?_, ?_, ?_, ?_, hdeficits.mpr hdef⟩
    · exact List.sum_eq_zero_iff.mpr (List.forall_mem_map.mpr hc)
    · exact List.sum_eq_zero_iff.mpr (List.forall_mem_map.mpr hd)
    · exact List.sum_eq_zero_iff.mpr (List.forall_mem_map.mpr hi)
    · exact sequenceViolations_eq_zero.mpr fun sequence hseq => decide_eq_true
        ((hworkers sequence).mpr (hmissing sequence hseq))
    · exact sequenceViolations_eq_zero.mpr fun sequence hseq => decide_eq_true
        ((hones.mpr hone).1 sequence hseq)
    · exact sequenceViolations_eq_zero.mpr fun sequence hseq => decide_eq_true
        ((hones.mpr hone).2 sequence hseq)
    · rw [(Dict.entries_perm _).length_eq, List.length_eq_zero_iff]
      exact hsaturations.mpr hsat

/-- A fleet with exact deliveries has at most as many schedules as sequences of eight digits. -/
theorem Exact.operations_le {f : Fleet} (h : f.Exact) : f.options.operations ≤ 10 ^ 8 := by
  by_contra hlt
  have hsum := h.single (10 ^ 8) (not_le.mp hlt)
  obtain ⟨p, -, hp⟩ : ∃ p ∈ f.workers, p.2.deliveries .single (10 ^ 8) ≠ 0 := by
    by_contra hnone
    simp only [not_exists, not_and, not_not] at hnone
    rw [List.sum_eq_zero_iff.mpr (List.forall_mem_map.mpr hnone)] at hsum
    cases hsum
  rw [deliveries_eq_count] at hp
  exact absurd (range_of_mem_ids p.2 (List.count_pos_iff.mp (Nat.pos_of_ne_zero hp))).1
    (lt_irrefl _)

/-- Each schedule reaches a subscriber at most once. -/
theorem Exact.nodup_ids {f : Fleet} (h : f.Exact) {p : Σ workerId, Session f.options workerId}
    (hp : p ∈ f.workers) : p.2.ids.Nodup := by
  rw [List.nodup_iff_count_le_one]
  rintro ⟨kind, sequence⟩
  rw [← deliveries_eq_count]
  by_cases hs : sequence < f.options.operations
  · cases kind with
    | broadcast => exact (h.broadcast sequence hs p hp).le
    | single =>
      rw [← h.single sequence hs]
      exact List.le_sum_of_mem (List.mem_map_of_mem hp)
    | cancelled => exact (h.cancelled p hp sequence).trans_le (Nat.zero_le 1)
  · rw [deliveries_eq_count, List.count_eq_zero.mpr fun hmem => hs (range_of_mem_ids p.2 hmem).2]
    exact Nat.zero_le 1

theorem Exact.broadcast_eq {f : Fleet} (h : f.Exact) {p : Σ workerId, Session f.options workerId}
    (hp : p ∈ f.workers) : p.2.subscriber.counts .broadcast = f.options.operations := by
  have hones : ((List.range f.options.operations).map fun sequence =>
      p.2.deliveries .broadcast sequence) = List.replicate f.options.operations 1 := by
    rw [List.map_eq_replicate_iff.mpr fun sequence hs =>
      h.broadcast sequence (List.mem_range.mp hs) p hp, List.length_range]
  rw [counts_eq_sum _ (h.nodup_ids hp), hones]
  simp

/-- The counters of a fleet with exact deliveries are safe integers. -/
theorem Exact.safe {f : Fleet} (h : f.Exact) {p : Σ workerId, Session f.options workerId}
    (hp : p ∈ f.workers) : p.2.counters.Safe := by
  have hle : f.options.operations ≤ maxSafeInteger :=
    h.operations_le.trans (by decide)
  have hduplicates := (duplicates_eq_zero p.2).mpr (h.nodup_ids hp)
  have hinvalid := (invalid_eq_zero p.2).mpr (h.valid p hp)
  have hlateness := (reflects_subscriber p.2).lateness
  exact ⟨(counts_le p.2 .broadcast).trans hle, (counts_le p.2 .single).trans hle,
    (counts_le p.2 .cancelled).trans hle, hduplicates.trans_le (Nat.zero_le _),
    hinvalid.trans_le (Nat.zero_le _), hlateness.trans (by decide)⟩

theorem Exact.accepted {f : Fleet} (h : f.Exact) : f.evidence.Accepted := by
  refine f.evidence_accepted_iff.mpr ⟨?_, ?_, ?_, ?_, ?_, ?_, h.single, h.unsaturated, ?_⟩
  · rw [List.map_congr_left fun p hp => h.broadcast_eq hp]
    simp [Nat.mul_comm]
  · -- Each single schedule is counted by one subscriber.
    rw [List.map_congr_left fun p hp => counts_eq_sum p.2 (h.nodup_ids hp) .single,
      sum_deliveries_comm, List.map_congr_left fun sequence hs =>
        h.single sequence (List.mem_range.mp hs)]
    simp
  · exact fun p hp => (counts_eq_zero p.2).mpr (h.cancelled p hp)
  · exact fun p hp => (duplicates_eq_zero p.2).mpr (h.nodup_ids hp)
  · exact fun p hp => (invalid_eq_zero p.2).mpr (h.valid p hp)
  · intro sequence hs p hp
    have hone := h.broadcast sequence hs p hp
    rw [deliveries_eq_count] at hone
    exact List.count_pos_iff.mp (hone ▸ Nat.one_pos)
  · exact fun p hp => h.broadcast_eq hp

theorem exact_of_accepted {f : Fleet} (h : f.evidence.Accepted) : f.Exact := by
  obtain ⟨-, -, hcancelled, hduplicates, hinvalid, hbroadcast, hsingle, hsaturated, -⟩ :=
    f.evidence_accepted_iff.mp h
  refine ⟨fun sequence hs p hp => ?_, hsingle, fun p hp => ?_, fun p hp => ?_, hsaturated⟩
  · -- A broadcast that every subscriber received was not received twice.
    have hnodup := (duplicates_eq_zero p.2).mp (hduplicates p hp)
    rw [deliveries_eq_count]
    exact List.count_eq_one_of_mem hnodup (hbroadcast sequence hs p hp)
  · exact (counts_eq_zero p.2).mp (hcancelled p hp)
  · exact (invalid_eq_zero p.2).mp (hinvalid p hp)

end Fleet

/-- **The verdict on a fleet is exact**: the logs of its subscribers are accepted iff every
broadcast reached every subscriber once, every single schedule reached one subscriber once, no
cancelled schedule was delivered, every notification was valid, and no client reported that its
handlers were saturated. -/
theorem summarize_passes_iff (f : Fleet) :
    Check.Passes (summarizeScheduleDeliveryLogs f.logs f.options.operations f.workers.length) ↔
      f.Exact := by
  have hassert : Check.Passes (summarizeScheduleDeliveryLogs f.logs f.options.operations
      f.workers.length) ↔ (∀ p ∈ f.workers, p.2.counters.Safe) ∧ f.evidence.Accepted := by
    unfold summarizeScheduleDeliveryLogs
    rw [Check.bind_eq, Check.passes_bind]
    simp only [f.analyze_eq_ok, Check.bind_eq, Check.passes_seq, assertScheduleDelivery,
      Check.failIf_eq_ok, not_not, Check.pure_eq, Check.passes_ok, and_true]
    constructor
    · rintro ⟨_, ⟨hsafe, rfl⟩, haccepted⟩
      exact ⟨hsafe, haccepted⟩
    · rintro ⟨hsafe, haccepted⟩
      exact ⟨_, ⟨hsafe, rfl⟩, haccepted⟩
  rw [hassert]
  constructor
  · rintro ⟨-, haccepted⟩
    exact Fleet.exact_of_accepted haccepted
  · intro h
    exact ⟨fun p hp => h.safe hp, h.accepted⟩

end Schedule

end FitzDestroyer
