import FitzDestroyer.Js.Collections
import FitzDestroyer.Schedule.Subscriber

/-!
# The verdict on schedule deliveries

`analyzeScheduleDeliveryLogs` and `assertScheduleDelivery` (`orchestration/schedule-delivery.ts`)
read the logs of a fleet of subscribers, and accept them if every schedule was delivered as it
should be.

* `summarizeScheduleDeliveryLogs` : the verdict of the host;
* `Fleet` : the subscribers of a fleet, and their logs;
* `Fleet.Exact` : every schedule reached the subscribers it should reach, once.
-/

namespace FitzDestroyer

namespace Schedule

open Js Workload

/-! ### The host -/

structure ScheduleDeliverySummary where
  broadcastDeliveries : ℕ
  singleDeliveries : ℕ
  cancelledDeliveries : ℕ
  duplicates : ℕ
  invalid : ℕ
  maxLatenessMs : ℕ
  deriving DecidableEq, Repr

/-- The deliveries that are expected. -/
structure Expected where
  replicas : ℕ
  firesPerMode : ℕ
  broadcastDeliveries : ℕ
  singleDeliveries : ℕ
  cancelledDeliveries : ℕ

/-- The sequences that violate a condition: their number, and the first ones. -/
structure Violations where
  count : ℕ
  sample : List ℕ

structure ScheduleDeliveryEvidence where
  expected : Expected
  observed : ScheduleDeliverySummary
  subscriberBroadcastDeliveries : Dict ℕ
  clientEventCounts : Dict ℕ
  clientHandlerSaturations : Dict ℕ
  missingBroadcast : Violations
  missingSingle : Violations
  duplicateSingle : Violations

/-- The variables of `analyzeScheduleDeliveryLogs`.  Sums are exact: the scenario refuses products
of its sizes that are not safe integers. -/
structure Tally where
  observed : ScheduleDeliverySummary
  broadcastWorkers : ℕ → Finset String
  singleCounts : ℕ → ℕ
  subscriberBroadcastDeliveries : Dict ℕ
  clientEventCounts : Dict ℕ
  clientHandlerSaturations : Dict ℕ

def Tally.init : Tally := ⟨⟨0, 0, 0, 0, 0, 0⟩, fun _ => ∅, fun _ => 0, [], [], []⟩

/-- The event of a client whose handlers are saturated. -/
def handlerSaturated : String := "fitz.connection.handler_saturated"

/-- A client event of a worker. -/
def Tally.onClientEvent (t : Tally) (workerId clientEvent : String) : Tally :=
  { t with
    clientEventCounts := t.clientEventCounts.bump clientEvent
    clientHandlerSaturations :=
      if clientEvent = handlerSaturated then t.clientHandlerSaturations.bump workerId
      else t.clientHandlerSaturations }

/-- A broadcast delivery to a worker. -/
def Tally.onBroadcast (t : Tally) (workerId : String) (sequence : ℕ) : Tally :=
  { t with
    broadcastWorkers :=
      Function.update t.broadcastWorkers sequence (insert workerId (t.broadcastWorkers sequence)) }

/-- A single delivery. -/
def Tally.onSingle (t : Tally) (sequence : ℕ) : Tally :=
  { t with
    singleCounts := Function.update t.singleCounts sequence (t.singleCounts sequence + 1) }

/-- One record of the log of a worker. -/
def tallyRecord (firesPerMode : ℕ) (workerId : String) (t : Tally) (record : Record) :
    Except Thrown Tally :=
  if IsEvent record "fitz_client_event" then
    .ok (t.onClientEvent workerId (fieldText record "clientEvent"))
  else if ¬IsEvent record "schedule_notification_received" then .ok t
  else do
    let sequence ← numericValue (field record "sequence") "schedule notification sequence"
    Check.failIf (firesPerMode ≤ sequence) (newError
      s!"Schedule notification sequence {sequence} exceeds {(firesPerMode : ℤ) - 1}")
    let kind := (field record "kind").bind Json.text?
    if kind = some "broadcast" then .ok (t.onBroadcast workerId sequence)
    else if kind = some "single" then .ok (t.onSingle sequence)
    else if kind = some "cancelled" then .ok t
    else
      let kindText := fieldText record "kind"
      .error (newError ("Schedule notification has invalid kind '" ++ kindText ++ "'"))

/-- The counters of the last record of a worker. -/
def Tally.addComplete (t : Tally) (workerId : String) (counters : ScheduleDeliverySummary) :
    Tally :=
  { t with
    observed :=
      { broadcastDeliveries := t.observed.broadcastDeliveries + counters.broadcastDeliveries
        singleDeliveries := t.observed.singleDeliveries + counters.singleDeliveries
        cancelledDeliveries := t.observed.cancelledDeliveries + counters.cancelledDeliveries
        duplicates := t.observed.duplicates + counters.duplicates
        invalid := t.observed.invalid + counters.invalid
        maxLatenessMs := max t.observed.maxLatenessMs counters.maxLatenessMs }
    subscriberBroadcastDeliveries :=
      t.subscriberBroadcastDeliveries.set workerId counters.broadcastDeliveries }

/-- The log of one worker. -/
def tallyLog (firesPerMode : ℕ) (t : Tally) (p : String × Log) : Except Thrown Tally := do
  let complete ← requiredEvent p.2 "schedule_subscriber_complete"
  let broadcast ← numericField complete "broadcast"
  let single ← numericField complete "single"
  let cancelled ← numericField complete "cancelled"
  let duplicates ← numericField complete "duplicates"
  let invalid ← numericField complete "invalid"
  let maxLatenessMs ← numericField complete "maxLatenessMs"
  (parseJsonRecords p.2).foldlM (tallyRecord firesPerMode p.1)
    (t.addComplete p.1 ⟨broadcast, single, cancelled, duplicates, invalid, maxLatenessMs⟩)

/-- The sequences below `count` that violate the condition, at most 20 of them as a sample. -/
def sequenceViolations (count : ℕ) (condition : ℕ → Bool) : Violations :=
  let violations := (List.range count).filter fun sequence => !condition sequence
  ⟨violations.length, violations.take 20⟩

def analyzeScheduleDeliveryLogs (logs : JsMap String Log) (firesPerMode expectedReplicas : ℕ) :
    Except Thrown ScheduleDeliveryEvidence := do
  Check.failIf (logs.size ≠ expectedReplicas) (newError
    s!"Schedule subscriber logs cover {logs.size}/{expectedReplicas} replicas")
  let t ← logs.entries.foldlM (tallyLog firesPerMode) Tally.init
  return {
    expected := ⟨expectedReplicas, firesPerMode, firesPerMode * expectedReplicas, firesPerMode, 0⟩
    observed := t.observed
    subscriberBroadcastDeliveries := t.subscriberBroadcastDeliveries
    clientEventCounts := t.clientEventCounts
    clientHandlerSaturations := t.clientHandlerSaturations
    missingBroadcast := sequenceViolations firesPerMode fun sequence =>
      (t.broadcastWorkers sequence).card = expectedReplicas
    missingSingle := sequenceViolations firesPerMode fun sequence => 0 < t.singleCounts sequence
    duplicateSingle := sequenceViolations firesPerMode fun sequence =>
      t.singleCounts sequence ≤ 1 }

/-- `formatViolationSample`. -/
def Violations.format (v : Violations) : String :=
  if v.count = 0 then "0"
  else
    let sample := ",".intercalate (v.sample.map fun sequence => s!"{sequence}")
    let rest := if v.sample.length < v.count then ",..." else ""
    s!"{v.count} [{sample}{rest}]"

def formatCounts (counts : Dict ℕ) : String :=
  if counts.entries = [] then "none"
  else
    let total := (counts.entries.map Prod.snd).sum
    let items := ",".intercalate (counts.entries.map fun p => s!"{p.1}:{p.2}")
    s!"{total} [{items}]"

/-- The subscribers that have not received every broadcast. -/
def ScheduleDeliveryEvidence.subscriberDeficits (evidence : ScheduleDeliveryEvidence) :
    List String :=
  (evidence.subscriberBroadcastDeliveries.entries.filter fun p =>
    p.2 ≠ evidence.expected.firesPerMode).map fun p =>
      s!"{p.1}:{p.2}/{evidence.expected.firesPerMode}"

/-- The condition of `assertScheduleDelivery`. -/
structure ScheduleDeliveryEvidence.Accepted (e : ScheduleDeliveryEvidence) : Prop where
  broadcast : e.observed.broadcastDeliveries = e.expected.broadcastDeliveries
  single : e.observed.singleDeliveries = e.expected.singleDeliveries
  cancelled : e.observed.cancelledDeliveries = e.expected.cancelledDeliveries
  duplicates : e.observed.duplicates = 0
  invalid : e.observed.invalid = 0
  missingBroadcast : e.missingBroadcast.count = 0
  missingSingle : e.missingSingle.count = 0
  duplicateSingle : e.duplicateSingle.count = 0
  saturations : e.clientHandlerSaturations.entries.length = 0
  deficits : e.subscriberDeficits.length = 0

instance (e : ScheduleDeliveryEvidence) : Decidable e.Accepted :=
  decidable_of_iff (_ ∧ _ ∧ _ ∧ _ ∧ _ ∧ _ ∧ _ ∧ _ ∧ _ ∧ _)
    ⟨fun ⟨h₁, h₂, h₃, h₄, h₅, h₆, h₇, h₈, h₉, h₁₀⟩ =>
      ScheduleDeliveryEvidence.Accepted.mk h₁ h₂ h₃ h₄ h₅ h₆ h₇ h₈ h₉ h₁₀,
    fun h => ⟨h.1, h.2, h.3, h.4, h.5, h.6, h.7, h.8, h.9, h.10⟩⟩

def assertScheduleDelivery (e : ScheduleDeliveryEvidence) : Except Thrown Unit :=
  Check.failIf (¬e.Accepted) (newError ("; ".intercalate [
    "Schedule delivery failed",
    s!"Broadcast={e.observed.broadcastDeliveries}/{e.expected.broadcastDeliveries}",
    s!"Single={e.observed.singleDeliveries}/{e.expected.singleDeliveries}",
    s!"cancelled={e.observed.cancelledDeliveries}/{e.expected.cancelledDeliveries}",
    s!"duplicates={e.observed.duplicates}",
    s!"invalid={e.observed.invalid}",
    "subscriber Broadcast=" ++
      (if e.subscriberDeficits = [] then "none" else ",".intercalate e.subscriberDeficits),
    s!"client handler saturation={formatCounts e.clientHandlerSaturations}",
    s!"missing Broadcast={e.missingBroadcast.format}",
    s!"missing Single={e.missingSingle.format}",
    s!"duplicate Single={e.duplicateSingle.format}"]))

def summarizeScheduleDeliveryLogs (logs : JsMap String Log) (firesPerMode expectedReplicas : ℕ) :
    Except Thrown ScheduleDeliverySummary := do
  let evidence ← analyzeScheduleDeliveryLogs logs firesPerMode expectedReplicas
  assertScheduleDelivery evidence
  return evidence.observed

/-! ### Fleets -/

/-- The notification of an event. -/
def SubscriberEvent.notification? : SubscriberEvent → Option Notification
  | .notification n => some n
  | _ => none

/-- The name of a client event. -/
def OtherLine.clientEvent? : OtherLine → Option String
  | .clientEvent _ name _ => some name
  | .noise _ => none

/-- The name of a client event among the events of a subscriber. -/
def SubscriberEvent.clientEvent? : SubscriberEvent → Option String
  | .other line => line.clientEvent?
  | _ => none

namespace Session

variable {o : Options} {workerId : String} (s : Session o workerId)

/-- The notifications that are delivered to the subscriber, in order. -/
def notifications : List Notification := s.events.filterMap SubscriberEvent.notification?

/-- The client events in the log of the subscriber, in order. -/
def clientEvents : List String :=
  s.before.filterMap OtherLine.clientEvent? ++ s.events.filterMap SubscriberEvent.clientEvent? ++
    s.after.filterMap OtherLine.clientEvent?

/-- How often a schedule is delivered to the subscriber. -/
def deliveries (kind : DeliveryKind) (sequence : ℕ) : ℕ :=
  s.notifications.countP fun n => Delivers o n kind sequence

/-- The variables of the subscriber when it completes. -/
def subscriber : Subscriber :=
  s.events.foldl (Subscriber.onEvent o workerId) (.start o workerId s.before)

/-- The log of the subscriber. -/
def log : Log :=
  s.subscriber.log ++ logLine "schedule_subscriber_complete"
    (s.subscriber.completeFields workerId s.elapsedMs) :: s.after.map OtherLine.line

end Session

/-- The subscribers of a fleet. -/
structure Fleet where
  options : Options
  workers : List (Σ workerId, Session options workerId)
  nodup : (workers.map Sigma.fst).Nodup

/-- The logs of a fleet. -/
def Fleet.logs (f : Fleet) : JsMap String Log where
  entries := f.workers.map fun p => (p.1, p.2.log)
  nodup := by simpa [List.map_map, Function.comp_def] using f.nodup

/-- The deliveries to a fleet are exact. -/
structure Fleet.Exact (f : Fleet) : Prop where
  /-- Every broadcast reaches every subscriber once. -/
  broadcast : ∀ sequence < f.options.operations, ∀ p ∈ f.workers,
    p.2.deliveries .broadcast sequence = 1
  /-- Every single schedule reaches one subscriber, once. -/
  single : ∀ sequence < f.options.operations,
    (f.workers.map fun p => p.2.deliveries .single sequence).sum = 1
  /-- No cancelled schedule is delivered. -/
  cancelled : ∀ p ∈ f.workers, ∀ sequence, p.2.deliveries .cancelled sequence = 0
  /-- Every notification delivers a schedule. -/
  valid : ∀ p ∈ f.workers, ∀ n ∈ p.2.notifications, ∃ kind sequence,
    Delivers f.options n kind sequence
  /-- No client reports that its handlers are saturated. -/
  unsaturated : ∀ p ∈ f.workers, handlerSaturated ∉ p.2.clientEvents

end Schedule

end FitzDestroyer
