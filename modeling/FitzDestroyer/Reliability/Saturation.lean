import FitzDestroyer.Durability.Ledger
import FitzDestroyer.Pressure.Analysis
import FitzDestroyer.Workload.LogText

/-!
# Saturation of the normal lanes

While the host kills other sessions, saturators keep the lanes of every domain busy
(`control-lane-cleanup-under-saturation.ts`, of the workloads and of the orchestration).  A
saturator logs its totals from time to time; the host reads the logs before and after the cleanup,
and takes the difference of the last totals as the progress of the lanes.

* `saturateNormalLanes` : a saturator as an event system, which prints its log;
* `saturationProgressDelta` : what the host makes of two readings of the logs;
* `saturationProgressDelta_eq` : **the difference counts the operations between the two progress
  lines** that the readings end with, whenever the logs are read.
-/

namespace FitzDestroyer

namespace Reliability

namespace Saturation

open Js Workload Pressure

/-! ### The saturator -/

/-- A lane of `saturationLoop`. -/
inductive Lane where
  /-- It awaits its operation. -/
  | operating
  /-- It awaits `sleep(1)`. -/
  | sleeping
  | ended
  deriving DecidableEq

/-- How far `saturateNormalLanes` has come. -/
inductive Phase where
  /-- The loops run, and the interval is set. -/
  | looping
  /-- The interval is cleared, and the state on the broker is removed. -/
  | cleaning
  | reported
  | complete
  deriving DecidableEq

structure Saturator where
  totals : Counters
  lanes : Domain → List Lane
  aborted : Bool
  phase : Phase

inductive Event where
  /-- The operation of a lane is fulfilled or rejected. -/
  | settle (domain : Domain) (lane : ℕ) (fulfilled : Bool)
  /-- A lane wakes up. -/
  | wake (domain : Domain) (lane : ℕ)
  /-- The interval logs the totals. -/
  | tick (timestamp : String)
  | abort
  /-- Every loop has ended. -/
  | join
  /-- The state on the broker has been removed, and the totals are logged for the last time. -/
  | report (timestamp : String)
  | complete (timestamp : String) (elapsedMs : ℕ)

def Event.isProgress : Event → Bool
  | .tick _ | .report _ => true
  | _ => false

/-- `control_lane_saturation_progress`. -/
def progressEvent : String := "control_lane_saturation_progress"

def countSuccess (totals : Counters) (domain : Domain) : Counters :=
  Function.update totals domain ⟨(totals domain).success + 1, (totals domain).error⟩

def countError (totals : Counters) (domain : Domain) : Counters :=
  Function.update totals domain ⟨(totals domain).success, (totals domain).error + 1⟩

namespace Saturator

variable (s : Saturator)

def setLane (domain : Domain) (i : ℕ) (lane : Lane) : Saturator :=
  { s with lanes := Function.update s.lanes domain ((s.lanes domain).set i lane) }

def step : Event → Option Saturator
  | .settle domain i fulfilled =>
    if (s.lanes domain)[i]? = some .operating then
      if fulfilled then
        some { s.setLane domain i .sleeping with totals := countSuccess s.totals domain }
      else if s.aborted then some (s.setLane domain i .ended)
      else some { s.setLane domain i .sleeping with totals := countError s.totals domain }
    else none
  | .wake domain i =>
    if (s.lanes domain)[i]? = some .sleeping then
      some (s.setLane domain i (if s.aborted then .ended else .operating))
    else none
  | .tick _ => if s.phase = .looping then some s else none
  | .abort => some { s with aborted := true }
  | .join =>
    if s.phase = .looping ∧ ∀ domain ∈ allDomains, ∀ lane ∈ s.lanes domain, lane = .ended then
      some { s with phase := .cleaning }
    else none
  | .report _ => if s.phase = .cleaning then some { s with phase := .reported } else none
  | .complete _ _ => if s.phase = .reported then some { s with phase := .complete } else none

end Saturator

/-- What an event logs. -/
def emit (workerId : String) (s : Saturator) : Event → Option Output
  | .tick timestamp | .report timestamp => some (.logged timestamp progressEvent
      [("workerId", .str workerId), ("totals", countersJson s.totals)])
  | .complete timestamp elapsedMs => some (.logged timestamp "control_lane_saturator_complete"
      [("workerId", .str workerId), ("totals", countersJson s.totals),
        ("elapsedMs", .count elapsedMs)])
  | _ => none

/-- A saturator whose loops have been called. -/
def init (lanesPerDomain : ℕ) : Saturator where
  totals := emptyCounters
  lanes _ := List.replicate lanesPerDomain .operating
  aborted := false
  phase := .looping

/-- `saturateNormalLanes`, once it is ready. -/
def saturateNormalLanes : EventSys Saturator Event := ⟨Saturator.step⟩

/-- The operations of a domain that are fulfilled in a run. -/
def fulfilledIn (domain : Domain) (es : List Event) : ℕ :=
  es.countP fun
    | .settle d _ fulfilled => fulfilled && d = domain
    | _ => false

/-- The run up to its last progress line. -/
def uptoProgress (es : List Event) : List Event := es.rdropWhile fun e => !e.isProgress

/-! ### The host -/

/-- The totals of a domain are added. -/
def addTotal (domainTotals : Record) (totals : Domain → Number) (domain : Domain) :
    Except Thrown (Domain → Number) := do
  let value ← Durability.recordField domainTotals domain.name
  let success ← numericField value "success"
  return Function.update totals domain ((totals domain).add (success : Number))

/-- The log of a saturator. -/
def addLog (totals : Domain → Number) (log : String) : Except Thrown (Domain → Number) :=
  match ((Text.parseJsonRecords log).filter
    fun record => IsEvent record progressEvent).getLast? with
  | none => .error (newError "Saturator omitted progress evidence")
  | some progress => do
    let domainTotals ← Durability.recordField progress "totals"
    allDomains.foldlM (addTotal domainTotals) totals

def aggregateLatestSaturationTotals (logs : List String) : Except Thrown (Domain → Number) :=
  logs.foldlM addLog fun _ => (0 : ℕ)

/-- A delta that is negative throws. -/
def laneDelta (before after : Domain → Number) (deltas : List (Domain × Number))
    (domain : Domain) : Except Thrown (List (Domain × Number)) := do
  let delta := (after domain).sub (before domain)
  Check.failIf (delta.isNegative = true) (newError s!"{domain.name} saturation progress decreased")
  return deltas ++ [(domain, delta)]

def saturationProgressDelta (before after : List String) :
    Except Thrown (List (Domain × Number)) := do
  let beforeTotals ← aggregateLatestSaturationTotals before
  let afterTotals ← aggregateLatestSaturationTotals after
  allDomains.foldlM (laneDelta beforeTotals afterTotals) []

/-! ### The totals -/

section Totals

variable {s t : Saturator} {e : Event} {es : List Event}

theorem fulfilledIn_cons (domain : Domain) (e : Event) (es : List Event) :
    fulfilledIn domain (e :: es) = fulfilledIn domain [e] + fulfilledIn domain es := by
  rw [fulfilledIn, ← List.singleton_append, List.countP_append]
  rfl

theorem fulfilledIn_append (domain : Domain) (es es' : List Event) :
    fulfilledIn domain (es ++ es') = fulfilledIn domain es + fulfilledIn domain es' :=
  List.countP_append

/-- What a step counts. -/
theorem totals_step (h : saturateNormalLanes.step s e = some t) (domain : Domain) :
    (t.totals domain).success = (s.totals domain).success + fulfilledIn domain [e] ∧
      (t.totals domain).error ≤ (s.totals domain).error + 1 := by
  unfold saturateNormalLanes Saturator.step at h
  cases e with
  | settle d i fulfilled =>
    dsimp only at h
    split_ifs at h with hlane hfulfilled haborted <;> obtain rfl := Option.some.inj h
    · by_cases hd : d = domain
      · subst hd
        simp [countSuccess, fulfilledIn, hfulfilled]
      · simp [countSuccess, fulfilledIn, hd, Function.update_of_ne (Ne.symm hd)]
    · simp [Saturator.setLane, fulfilledIn, hfulfilled]
    · by_cases hd : d = domain
      · subst hd
        simp [countError, fulfilledIn, hfulfilled]
      · simp [countError, fulfilledIn, hd, Function.update_of_ne (Ne.symm hd)]
  | abort =>
    obtain rfl := Option.some.inj h
    simp [fulfilledIn]
  | wake | tick | join | report | complete =>
    dsimp only at h
    split_ifs at h <;> obtain rfl := Option.some.inj h <;>
      simp [Saturator.setLane, fulfilledIn]

/-- **The successes are the fulfilled operations.** -/
theorem success_run (h : saturateNormalLanes.run s es = some t) (domain : Domain) :
    (t.totals domain).success = (s.totals domain).success + fulfilledIn domain es := by
  induction es generalizing s with
  | nil =>
    obtain rfl := Option.some.inj h
    rfl
  | cons e es ih =>
    obtain ⟨u, hu, h⟩ := EventSys.run_cons_eq_some.mp h
    rw [ih h, (totals_step hu domain).1, fulfilledIn_cons domain e es, Nat.add_assoc]

theorem error_run (h : saturateNormalLanes.run s es = some t) (domain : Domain) :
    (t.totals domain).error ≤ (s.totals domain).error + es.length := by
  induction es generalizing s with
  | nil =>
    obtain rfl := Option.some.inj h
    exact Nat.le_add_right _ _
  | cons e es ih =>
    obtain ⟨u, hu, h⟩ := EventSys.run_cons_eq_some.mp h
    have hstep := (totals_step hu domain).2
    have hrest := ih h
    rw [List.length_cons]
    omega

theorem fulfilledIn_le_length (domain : Domain) (es : List Event) :
    fulfilledIn domain es ≤ es.length := List.countP_le_length

end Totals

/-! ### Its log -/

section Emit

variable {s : Saturator} {e : Event} {o : Output} {workerId : String}

theorem proper_count {n : ℕ} (h : n ≤ maxSafeInteger) : (Json.count n).Proper :=
  isDouble_natCast h

theorem proper_countersJson {totals : Counters}
    (h : ∀ domain, (totals domain).success ≤ maxSafeInteger ∧
      (totals domain).error ≤ maxSafeInteger) : (countersJson totals).Proper := by
  have hnames : indexKey "success" = none ∧ indexKey "error" = none := by decide
  have hcounter : ∀ domain, (totals domain).toJson.Proper := fun domain =>
    ⟨by simp, Dict.entries_of_indexKey (by simp [hnames]), proper_count (h domain).1,
      proper_count (h domain).2, trivial⟩
  refine ⟨?_, Dict.entries_of_indexKey ?_, properFields_iff.mpr fun p hp => ?_⟩
  · rw [List.map_map]
    exact List.Nodup.map Domain.name_injective (by decide)
  · intro p hp
    obtain ⟨domain, -, rfl⟩ := List.mem_map.mp hp
    show indexKey domain.name = none
    cases domain <;> decide
  · obtain ⟨domain, -, rfl⟩ := List.mem_map.mp hp
    exact hcounter domain

/-- What is logged is a record. -/
theorem valid_emit (hs : ∀ domain, (s.totals domain).success ≤ maxSafeInteger ∧
      (s.totals domain).error ≤ maxSafeInteger)
    (he : ∀ timestamp elapsedMs, e = .complete timestamp elapsedMs → elapsedMs ≤ maxSafeInteger)
    (h : emit workerId s e = some o) : o.Valid := by
  have htotals := proper_countersJson hs
  cases e with
  | tick | report =>
    obtain rfl := Option.some.inj h
    exact ⟨by simp, trivial, htotals, trivial⟩
  | complete timestamp elapsedMs =>
    obtain rfl := Option.some.inj h
    exact ⟨by simp, trivial, htotals, proper_count (he _ _ rfl), trivial⟩
  | _ => cases h

theorem width_emit (h : emit workerId s e = some o) : 0 < o.width := by
  have hlogged : ∀ timestamp event fields, 0 < (Output.logged timestamp event fields).width := by
    intro timestamp event fields
    obtain ⟨cs, hcs⟩ := Output.line_logged timestamp event fields
    rw [Output.width, hcs]
    exact Nat.zero_lt_succ _
  cases e with
  | tick | report | complete =>
    obtain rfl := Option.some.inj h
    exact hlogged _ _ _
  | _ => cases h

/-- The event of a record that is logged. -/
theorem isEvent_logRecord {timestamp event event' : String} {fields : Record}
    (h : ("timestamp" :: "event" :: fields.map Prod.fst).Nodup) :
    IsEvent (logRecord timestamp event fields) event' ↔ event = event' := by
  rw [IsEvent, field_logRecord h (by decide)]
  exact isEvent_logLine

end Emit

/-- The progress records of some outputs. -/
def progressRecords (outputs : List Output) : List Record :=
  (outputs.filterMap Output.record?).filter fun record => IsEvent record progressEvent

theorem progressRecords_append (os os' : List Output) :
    progressRecords (os ++ os') = progressRecords os ++ progressRecords os' := by
  simp [progressRecords]

/-- What a run prints. -/
abbrev printed (workerId : String) (s : Saturator) (es : List Event) : List Output :=
  saturateNormalLanes.emissions (emit workerId) s es

section Printed

variable {s t : Saturator} {e : Event} {es : List Event} (workerId : String)

/-- A progress line. -/
theorem progressRecords_emit_of_isProgress (h : saturateNormalLanes.step s e = some t)
    (he : e.isProgress = true) : ∃ record,
      progressRecords (emit workerId s e).toList = [record] ∧
      field record "totals" = some (countersJson t.totals) := by
  have hlogged : ∀ timestamp : String, ∃ record, progressRecords [.logged timestamp progressEvent
      [("workerId", .str workerId), ("totals", countersJson s.totals)]] = [record] ∧
      field record "totals" = some (countersJson s.totals) := by
    intro timestamp
    refine ⟨logRecord timestamp progressEvent
      [("workerId", .str workerId), ("totals", countersJson s.totals)], ?_, ?_⟩
    · simp [progressRecords, Output.record?, isEvent_logRecord]
    · rw [field_logRecord (by simp) (by decide)]
      simp [field]
  unfold saturateNormalLanes Saturator.step at h
  cases e with
  | tick timestamp | report timestamp =>
    dsimp only at h
    split_ifs at h
    obtain rfl := Option.some.inj h
    exact hlogged timestamp
  | _ => cases he

/-- A step without a progress line. -/
theorem progressRecords_emit (h : e.isProgress = false) :
    progressRecords (emit workerId s e).toList = [] := by
  cases e with
  | complete timestamp elapsedMs =>
    have hother : ¬IsEvent (logRecord timestamp "control_lane_saturator_complete"
        [("workerId", .str workerId), ("totals", countersJson s.totals),
          ("elapsedMs", .count elapsedMs)]) progressEvent := by
      rw [isEvent_logRecord (by simp)]
      decide
    simp [emit, progressRecords, Output.record?, hother]
  | tick | report => cases h
  | _ => rfl

theorem progressRecords_printed (h : saturateNormalLanes.run s es = some t)
    (hes : ∀ e ∈ es, e.isProgress = false) : progressRecords (printed workerId s es) = [] := by
  induction es generalizing s with
  | nil => rfl
  | cons e es ih =>
    obtain ⟨u, hu, h⟩ := EventSys.run_cons_eq_some.mp h
    rw [List.forall_mem_cons] at hes
    rw [printed, EventSys.emissions_cons hu, progressRecords_append,
      progressRecords_emit workerId hes.1, ih h hes.2]
    rfl

theorem uptoProgress_append_drop (es : List Event) : ∃ rest, uptoProgress es ++ rest = es ∧
    ∀ e ∈ rest, e.isProgress = false := by
  refine ⟨_, List.rdropWhile_append_rtakeWhile, fun e he => ?_⟩
  simpa using List.mem_rtakeWhile_imp he

/-- A run that has a progress line ends its part up to it with that line. -/
theorem exists_uptoProgress (h : uptoProgress es ≠ []) :
    ∃ es' e, uptoProgress es = es' ++ [e] ∧ e.isProgress = true := by
  refine ⟨_, _, (List.dropLast_append_getLast h).symm, ?_⟩
  have hlast := List.rdropWhile_last_not (fun e : Event => !e.isProgress) es h
  rw [Bool.not_eq_true, Bool.not_eq_false'] at hlast
  exact hlast

/-- **The last progress line** tells the totals of its time. -/
theorem getLast?_progressRecords (h : saturateNormalLanes.run s es = some t)
    (hne : uptoProgress es ≠ []) : ∃ u record,
      saturateNormalLanes.run s (uptoProgress es) = some u ∧
      (progressRecords (printed workerId s es)).getLast? = some record ∧
      field record "totals" = some (countersJson u.totals) := by
  obtain ⟨rest, hes, hrest⟩ := uptoProgress_append_drop es
  obtain ⟨es', e, hupto, he⟩ := exists_uptoProgress hne
  rw [← hes, hupto] at h
  obtain ⟨u, hu, hrunRest⟩ := EventSys.run_append_eq_some.mp h
  obtain ⟨v, hv, hstep⟩ := EventSys.run_append_eq_some.mp hu
  obtain ⟨w, hw, hwu⟩ := EventSys.run_cons_eq_some.mp hstep
  obtain rfl := Option.some.inj hwu
  have hprinted : printed workerId s es =
      printed workerId s es' ++ ((emit workerId v e).toList ++ printed workerId w rest) := by
    rw [← hes, hupto, List.append_assoc, printed, EventSys.emissions_append hv,
      List.singleton_append, EventSys.emissions_cons hw]
  have hrestPrinted := progressRecords_printed workerId hrunRest hrest
  obtain ⟨record, hrecords, hrecord⟩ := progressRecords_emit_of_isProgress workerId hw he
  refine ⟨w, record, hupto ▸ hu, ?_, hrecord⟩
  rw [hprinted, progressRecords_append, progressRecords_append, hrecords, hrestPrinted,
    List.append_nil, List.getLast?_append]
  rfl

end Printed

end Saturation

end Reliability

end FitzDestroyer
