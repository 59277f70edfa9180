import FitzDestroyer.Js.Collections
import FitzDestroyer.Schedule.Subscriber

/-!
# Schedules through an outage

Subscribers of `runScheduleOutage` (`workloads/schedule-outage.ts`) record the schedules that they
receive, a canceller cancels half of the schedules while they fall due, and the host
(`orchestration/schedule-outage.ts`) compares the records.

* `Outage.Subscriber` : the variables and the log of a subscriber, with `Subscriber.onEvent`;
* `Outage.raceCancel` : the canceller;
* `analyzeScheduleOutage`, `assertScheduleOutage` : the verdict of the host.
-/

namespace FitzDestroyer

namespace Schedule

namespace Outage

open Js Workload

inductive ScheduleOutageKind where
  | repeated
  | race
  deriving DecidableEq, Repr

def ScheduleOutageKind.name : ScheduleOutageKind → String
  | repeated => "repeated"
  | race => "race"

structure Options where
  namespaceName : String
  /-- The number of schedules of each kind. -/
  operations : ℕ
  seed : ℕ
  payloadBytes : ℕ
  handlerDelayMs : ℕ

/-- A notification, with the time at which its handler is called. -/
structure Notification where
  route : String
  payload : List UInt8
  receivedAtMs : ℕ
  /-- No time of a `Date` is later. -/
  time : receivedAtMs ≤ 8640000000000000

/-- The start of the routes of a kind. -/
def kindStart (namespaceName : String) (kind : ScheduleOutageKind) : String :=
  s!"{routeStart namespaceName}{kind.name}/job-"

def route (namespaceName : String) (kind : ScheduleOutageKind) (sequence : ℕ) : String :=
  kindStart namespaceName kind ++ String.ofList (pad sequence 8)

/-- The sequence of a route of a kind: `^…/job-(\d{8})$`. -/
def kindSequence (namespaceName : String) (kind : ScheduleOutageKind) (value : String) :
    Option ℕ :=
  ((kindStart namespaceName kind).toList.isPrefixOf? value.toList).bind (digits? 8)

def parseRoute (namespaceName value : String) : Except Thrown (ScheduleOutageKind × ℕ) :=
  match kindSequence namespaceName .repeated value, kindSequence namespaceName .race value with
  | some sequence, _ => .ok (.repeated, sequence)
  | none, some sequence => .ok (.race, sequence)
  | none, none => .error (newError s!"Unexpected Schedule outage route {value}")

def payload (o : Options) (kind : ScheduleOutageKind) (sequence : ℕ) : List UInt8 :=
  deterministicPayload o.seed o.payloadBytes .schedule (if kind = .repeated then 0 else 1) sequence

/-- The checks of the handler. -/
def checkNotification (o : Options) (n : Notification) :
    Except Thrown (ScheduleOutageKind × ℕ) := do
  let identity ← parseRoute o.namespaceName n.route
  assertBytesEqual n.payload (payload o identity.1 identity.2) n.route
  return identity

/-! ### The subscriber -/

structure Delivery where
  kind : ScheduleOutageKind
  sequence : ℕ
  receivedAtMs : ℕ
  deriving DecidableEq, Repr

namespace Delivery

/-- The fields of a delivery in a log. -/
def fields (d : Delivery) : Record :=
  [("kind", .str d.kind.name), ("sequence", .count d.sequence),
    ("receivedAtMs", .count d.receivedAtMs)]

/-- The key of a schedule in `seen`. -/
def key (identity : ScheduleOutageKind × ℕ) : String := s!"{identity.1.name}:{identity.2}"

def identity (d : Delivery) : ScheduleOutageKind × ℕ := (d.kind, d.sequence)

end Delivery

/-- The variables of a subscriber, and its log so far. -/
structure Subscriber where
  seen : Finset String
  deliveries : List Delivery
  duplicates : ℕ
  activeHandlers : ℕ
  log : Log

/-- What can happen while a subscriber waits to be stopped. -/
inductive SubscriberEvent where
  | notification (n : Notification)
  /-- The delay of a handler is over. -/
  | handlerDone
  | other (line : OtherLine)

def SubscriberEvent.notification? : SubscriberEvent → Option Notification
  | notification n => some n
  | _ => none

namespace Subscriber

def print (s : Subscriber) (event : String) (fields : Record) : Subscriber :=
  { s with log := s.log ++ [logLine event fields] }

def startHandler (s : Subscriber) : Subscriber := { s with activeHandlers := s.activeHandlers + 1 }

/-- The `finally` block of the handler. -/
def finishHandler (s : Subscriber) : Subscriber := { s with activeHandlers := s.activeHandlers - 1 }

/-- A notification that passes the checks. -/
def record (s : Subscriber) (d : Delivery) : Subscriber :=
  if Delivery.key d.identity ∈ s.seen then { s with duplicates := s.duplicates + 1 }
  else { s with
    seen := insert (Delivery.key d.identity) s.seen
    deliveries := s.deliveries ++ [d] }.print "schedule_outage_delivery" d.fields

/-- The handler of a notification, up to its delay.  The client logs what the handler throws. -/
def onNotification (o : Options) (s : Subscriber) (n : Notification) : Subscriber :=
  match checkNotification o n with
  | .error _ => s.startHandler.finishHandler
  | .ok identity =>
    let s := s.startHandler.record ⟨identity.1, identity.2, n.receivedAtMs⟩
    if 0 < o.handlerDelayMs then s else s.finishHandler

def onEvent (o : Options) (s : Subscriber) : SubscriberEvent → Subscriber
  | .notification n => s.onNotification o n
  | .handlerDone => s.finishHandler
  | .other line => { s with log := s.log ++ [line.line] }

/-- The subscriber is ready, after the given lines. -/
def start (workerId : String) (before : List OtherLine) : Subscriber where
  seen := ∅
  deliveries := []
  duplicates := 0
  activeHandlers := 0
  log := before.map OtherLine.line ++
    [logLine "schedule_outage_subscriber_ready" [("workerId", .str workerId)]]

end Subscriber

/-- A subscriber from its start to its end, with the lines its worker prints before and after.
Its handlers drain before the deadline. -/
structure Session (o : Options) where
  workerId : String
  before : List OtherLine
  events : List SubscriberEvent
  after : List OtherLine
  drained : (events.foldl (Subscriber.onEvent o) (.start workerId before)).activeHandlers = 0

namespace Session

variable {o : Options}

/-- The subscriber when it is stopped. -/
def final (s : Session o) : Subscriber :=
  s.events.foldl (Subscriber.onEvent o) (.start s.workerId s.before)

def notifications (s : Session o) : List Notification :=
  s.events.filterMap SubscriberEvent.notification?

/-- The fields of the last record. -/
def completeFields (s : Session o) : Record :=
  [("workerId", .str s.workerId),
    ("deliveries", .arr (s.final.deliveries.map fun d => .obj d.fields)),
    ("duplicates", .count s.final.duplicates)]

def log (s : Session o) : Log :=
  s.final.log ++ logLine "schedule_outage_subscriber_complete" s.completeFields ::
    s.after.map OtherLine.line

end Session

/-! ### The canceller -/

/-- The cancellation of one sequence is acknowledged, or fails. -/
def raceCancelOne (cancels : ℕ → Bool) (answers : List ℕ × List ℕ) (sequence : ℕ) :
    List ℕ × List ℕ :=
  if cancels sequence then (answers.1 ++ [sequence], answers.2)
  else (answers.1, answers.2 ++ [sequence])

/-- The sequences whose cancellation is acknowledged, and those whose cancellation fails. -/
def raceCancel (operations : ℕ) (cancels : ℕ → Bool) : List ℕ × List ℕ :=
  (List.range operations).foldl (raceCancelOne cancels) ([], [])

/-- The log of the canceller, with the lines its worker prints before and after. -/
def cancellerLog (before after : List OtherLine) (acknowledged failed : List ℕ) : Log :=
  before.map OtherLine.line ++ logLine "schedule_outage_race_cancel_complete"
    [("acknowledged", .arr (acknowledged.map .count)), ("failed", .arr (failed.map .count))] ::
      after.map OtherLine.line

/-! ### The host -/

structure ScheduleOutageLedger where
  missedAtMs : ℕ
  repeatedAtMs : ℕ
  missedDeliveries : ℕ
  repeatedSequences : List ℕ
  raceSequences : List ℕ
  duplicateDeliveries : ℕ
  cancellationAcknowledged : List ℕ
  cancellationFailed : List ℕ

namespace ScheduleOutageLedger

/-- A sequence is added to the ones of its kind. -/
def add (l : ScheduleOutageLedger) : ScheduleOutageKind → ℕ → ScheduleOutageLedger
  | .repeated, sequence => { l with repeatedSequences := l.repeatedSequences ++ [sequence] }
  | .race, sequence => { l with raceSequences := l.raceSequences ++ [sequence] }

/-- A delivery of the last record of a subscriber. -/
def readDelivery (l : ScheduleOutageLedger) (value : Json) : Except Thrown ScheduleOutageLedger :=
  match value with
  | .obj delivery => do
    let sequence ← numericValue (field delivery "sequence") "Schedule outage sequence"
    let receivedAt ← numericValue (field delivery "receivedAtMs") "Schedule outage receivedAtMs"
    let l := if receivedAt < l.repeatedAtMs then
      { l with missedDeliveries := l.missedDeliveries + 1 } else l
    let kind := (field delivery "kind").bind Json.text?
    if kind = some "repeated" then return l.add .repeated sequence
    else if kind = some "race" then return l.add .race sequence
    else throw (newError ("Unexpected Schedule outage kind " ++ fieldText delivery "kind"))
  | _ => .ok l

/-- The log of a subscriber. -/
def readSubscriber (l : ScheduleOutageLedger) (log : Log) :
    Except Thrown ScheduleOutageLedger := do
  let complete ← requiredEvent log "schedule_outage_subscriber_complete"
  let duplicates ← numericValue (field complete "duplicates") "Schedule outage duplicates"
  match field complete "deliveries" with
  | some (.arr deliveries) =>
    deliveries.foldlM readDelivery
      { l with duplicateDeliveries := l.duplicateDeliveries + duplicates }
  | _ => throw (newError "Schedule outage deliveries must be an array")

end ScheduleOutageLedger

def onlyLog (logs : List Log) : Except Thrown Log :=
  match logs with
  | [log] => .ok log
  | _ => .error (newError s!"Expected one Schedule outage log, found {logs.length}")

def analyzeScheduleOutage (subscriberLogs cancellerLogs : List Log)
    (missedAtMs repeatedAtMs : ℕ) : Except Thrown ScheduleOutageLedger := do
  let l ← subscriberLogs.foldlM ScheduleOutageLedger.readSubscriber
    ⟨missedAtMs, repeatedAtMs, 0, [], [], 0, [], []⟩
  let log ← onlyLog cancellerLogs
  let cancel ← requiredEvent log "schedule_outage_race_cancel_complete"
  let acknowledged ← numericArray (field cancel "acknowledged")
    "Schedule cancellation acknowledged"
  let failed ← numericArray (field cancel "failed") "Schedule cancellation failed"
  return { l with cancellationAcknowledged := acknowledged, cancellationFailed := failed }

/-- Two lists of sequences print alike iff they are the same. -/
def assertExactSequences (values : List ℕ) (operations : ℕ) (label : String) :
    Except Thrown Unit :=
  let actual := values.mergeSort (· ≤ ·)
  let expected := List.range operations
  Check.failIf (actual ≠ expected) (newError
    s!"{label} sequences {sequencesText actual} != {sequencesText expected}")

/-- The fields of the ledger, as the error of a delivery prints them. -/
def ScheduleOutageLedger.text (l : ScheduleOutageLedger) : String :=
  (Json.obj [("missedAtMs", .count l.missedAtMs), ("repeatedAtMs", .count l.repeatedAtMs),
    ("missedDeliveries", .count l.missedDeliveries),
    ("repeatedSequences", .arr (l.repeatedSequences.map .count)),
    ("raceSequences", .arr (l.raceSequences.map .count)),
    ("duplicateDeliveries", .count l.duplicateDeliveries),
    ("cancellationAcknowledged", .arr (l.cancellationAcknowledged.map .count)),
    ("cancellationFailed", .arr (l.cancellationFailed.map .count))]).stringify

def assertScheduleOutage (l : ScheduleOutageLedger) (operations : ℕ) : Except Thrown Unit := do
  Check.failIf (l.missedDeliveries ≠ 0 ∨ l.duplicateDeliveries ≠ 0) (newError
    s!"Schedule outage produced missed/duplicate delivery: {l.text}")
  assertExactSequences l.repeatedSequences operations "repeated Schedule occurrence"
  match findDuplicate [] l.raceSequences with
  | some raceDuplicate => throw (newError
      s!"Schedule cancellation race delivered sequence {raceDuplicate} twice")
  | none => pure ()
  Check.forEach l.raceSequences fun sequence =>
    Check.failIf (operations ≤ sequence) (newError s!"Schedule race sequence {sequence} is invalid")
  let cancellationOutcomes :=
    (l.cancellationAcknowledged ++ l.cancellationFailed).mergeSort (· ≤ ·)
  assertExactSequences cancellationOutcomes operations "Schedule cancellation outcome"

/-- The verdict of the host over the logs of the subscribers and of the canceller. -/
def outageVerdict (o : Options) (sessions : List (Session o)) (cancellerLog : Log)
    (missedAtMs repeatedAtMs : ℕ) : Except Thrown Unit := do
  let l ← analyzeScheduleOutage (sessions.map Session.log) [cancellerLog] missedAtMs repeatedAtMs
  assertScheduleOutage l o.operations

end Outage

end Schedule

end FitzDestroyer
