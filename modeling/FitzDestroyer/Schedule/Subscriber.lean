import FitzDestroyer.Workload.Log
import FitzDestroyer.Workload.Model
import Mathlib.Data.Finset.Card
import Mathlib.Data.Finset.Image

/-!
# Schedule subscribers

`runScheduleSubscriber` (`workloads/schedule-delivery.ts`) checks each notification of a schedule,
counts the schedules it has seen, and logs what it received.

* `parseScheduleRoute`, `checkNotification` : the checks of a notification;
* `Subscriber` : the counters and the log, with `Subscriber.onEvent`;
* `Delivers` : the notification is the one a schedule should deliver;
* `checkNotification_eq_ok` : the notifications that pass are the ones that deliver a schedule.
-/

namespace FitzDestroyer

namespace Schedule

open Js Workload

/-! ### Routes and payloads -/

inductive DeliveryKind where
  | broadcast
  | single
  | cancelled
  deriving DecidableEq, Repr

def DeliveryKind.name : DeliveryKind → String
  | broadcast => "broadcast"
  | single => "single"
  | cancelled => "cancelled"

/-- `DELIVERY_KINDS`. -/
def deliveryKinds : List DeliveryKind := [.broadcast, .single, .cancelled]

/-- `DELIVERY_KINDS.indexOf(kind)`. -/
def DeliveryKind.index (kind : DeliveryKind) : ℕ := deliveryKinds.idxOf kind

/-- What the subscribers of a fleet share. -/
structure Options where
  namespaceName : String
  /-- The number of schedules of each kind. -/
  operations : ℕ
  seed : ℕ
  payloadBytes : ℕ
  fireAtMs : ℤ
  handlerDelayMs : ℕ

structure Notification where
  route : String
  payload : List UInt8
  /-- `Date.now()` when the handler is called. -/
  receivedAtMs : ℤ

/-- `SCHEDULE_DELIVERY_TOLERANCE_MS`. -/
def deliveryToleranceMs : ℤ := 1000

/-- The start of every route of a namespace. -/
def routeStart (namespaceName : String) : String := s!"schedule://destroyer/{namespaceName}/"

def scheduleDeliveryRoute (namespaceName : String) (kind : DeliveryKind) (sequence : ℕ) : String :=
  s!"{routeStart namespaceName}{kind.name}/job-{String.ofList (pad sequence 8)}"

def scheduleDeliveryPayload (o : Options) (kind : DeliveryKind) (sequence : ℕ) : List UInt8 :=
  deterministicPayload o.seed o.payloadBytes .schedule kind.index sequence

/-- `/^job-(\d{8})$/u`, and the number of its digits. -/
def parseOperation (operation : List Char) : Option ℕ :=
  ("job-".toList.isPrefixOf? operation).bind (digits? 8)

def parseScheduleRoute (namespaceName route : String) : Except Thrown (DeliveryKind × ℕ) :=
  let unexpected := newError s!"unexpected Schedule route '{route}'"
  match (routeStart namespaceName).toList.isPrefixOf? route.toList with
  | none => .error unexpected
  | some rest =>
    match rest.splitOn '/' with
    | [kindName, operation] =>
      match deliveryKinds.find? fun kind => kind.name.toList = kindName with
      | none => .error unexpected
      | some kind =>
        match parseOperation operation with
        | none => .error (newError
            s!"unexpected Schedule operation '{String.ofList operation}'")
        | some sequence => .ok (kind, sequence)
    | _ => .error unexpected

/-- The checks of the handler: the schedule a notification belongs to, and its lateness. -/
def checkNotification (o : Options) (n : Notification) :
    Except Thrown ((DeliveryKind × ℕ) × ℤ) := do
  let identity ← parseScheduleRoute o.namespaceName n.route
  Check.failIf (o.operations ≤ identity.2) (newError
    s!"schedule sequence {identity.2} is outside 0..{(o.operations : ℤ) - 1}")
  assertBytesEqual n.payload (scheduleDeliveryPayload o identity.1 identity.2) n.route
  let latenessMs := n.receivedAtMs - o.fireAtMs
  Check.failIf (latenessMs < 0 ∨ deliveryToleranceMs < latenessMs) (newError
    s!"{n.route} arrived {latenessMs}ms from its scheduled time")
  return (identity, latenessMs)

/-! ### The subscriber -/

/-- The variables of a subscriber, and its log so far. -/
structure Subscriber where
  seen : Finset String
  counts : DeliveryKind → ℕ
  duplicates : ℕ
  invalid : ℕ
  activeHandlers : ℕ
  maxActiveHandlers : ℕ
  maxLatenessMs : ℕ
  log : Log

namespace Subscriber

/-- `log(event, fields)`. -/
def print (s : Subscriber) (event : String) (fields : Record) : Subscriber :=
  { s with log := s.log ++ [logLine event fields] }

/-- A handler starts. -/
def startHandler (s : Subscriber) : Subscriber :=
  { s with
    activeHandlers := s.activeHandlers + 1
    maxActiveHandlers := max s.maxActiveHandlers (s.activeHandlers + 1) }

/-- The `finally` block of a handler. -/
def finishHandler (s : Subscriber) : Subscriber :=
  { s with activeHandlers := s.activeHandlers - 1 }

/-- The key of a schedule in `seen`. -/
def key (identity : DeliveryKind × ℕ) : String := s!"{identity.1.name}:{identity.2}"

/-- A notification that passes the checks is counted. -/
def count (s : Subscriber) (identity : DeliveryKind × ℕ) : Subscriber :=
  if key identity ∈ s.seen then { s with duplicates := s.duplicates + 1 }
  else { s with
    seen := insert (key identity) s.seen
    counts := Function.update s.counts identity.1 (s.counts identity.1 + 1) }

/-- The record of a notification that passes the checks. -/
def receivedFields (o : Options) (workerId : String) (n : Notification)
    (identity : DeliveryKind × ℕ) (latenessMs : ℤ) : Record :=
  [("workerId", .str workerId), ("route", .str n.route), ("kind", .str identity.1.name),
    ("sequence", .count identity.2), ("fireAtMs", .int o.fireAtMs),
    ("receivedAtMs", .int n.receivedAtMs), ("latenessMs", .int latenessMs)]

/-- The handler of a notification, up to its delay. -/
def onNotification (o : Options) (workerId : String) (s : Subscriber) (n : Notification) :
    Subscriber :=
  match checkNotification o n with
  | .ok (identity, latenessMs) =>
    let s := { s.startHandler with maxLatenessMs := max s.maxLatenessMs latenessMs.toNat }
    let s := (s.count identity).print "schedule_notification_received"
      (receivedFields o workerId n identity latenessMs)
    if 0 < o.handlerDelayMs then s else s.finishHandler
  | .error error =>
    let s := { s.startHandler with invalid := s.invalid + 1 }
    (s.print "schedule_notification_invalid" [("workerId", .str workerId),
      ("route", .str n.route), ("receivedAtMs", .int n.receivedAtMs),
      ("error", .str error.errorMessage)]).finishHandler

end Subscriber

/-- A line that is not printed by the handler: a warning or an error of the client, or a line
without a JSON object. -/
inductive OtherLine where
  | clientEvent (level clientEvent : String) (fields : Json)
  | noise (text : String)

def OtherLine.line : OtherLine → LogLine
  | clientEvent level name fields => logLine "fitz_client_event"
      [("level", .str level), ("clientEvent", .str name), ("fields", fields)]
  | noise text => .noise text

/-- The other lines hold no record of a workload. -/
theorem not_isEvent_otherLines {event : String} (hevent : "fitz_client_event" ≠ event)
    (lines : List OtherLine) :
    ∀ record ∈ parseJsonRecords (lines.map OtherLine.line), ¬IsEvent record event := by
  intro record hrecord
  obtain ⟨line, hline, hrecord⟩ := List.mem_filterMap.mp hrecord
  obtain ⟨other, -, rfl⟩ := List.mem_map.mp hline
  cases other with
  | clientEvent level name fields =>
    obtain rfl := Option.some.inj hrecord
    exact isEvent_logLine.not.mpr hevent
  | noise text => cases hrecord

/-- What can happen while a subscriber waits to be stopped. -/
inductive SubscriberEvent where
  | notification (n : Notification)
  /-- The delay of a handler is over. -/
  | handlerDone
  | other (line : OtherLine)

namespace Subscriber

def onEvent (o : Options) (workerId : String) (s : Subscriber) : SubscriberEvent → Subscriber
  | .notification n => s.onNotification o workerId n
  | .handlerDone => s.finishHandler
  | .other line => { s with log := s.log ++ [line.line] }

/-- The subscriber is ready, after the given lines. -/
def start (o : Options) (workerId : String) (before : List OtherLine) : Subscriber where
  seen := ∅
  counts := fun _ => 0
  duplicates := 0
  invalid := 0
  activeHandlers := 0
  maxActiveHandlers := 0
  maxLatenessMs := 0
  log := before.map OtherLine.line ++ [logLine "schedule_subscriber_ready"
    [("workerId", .str workerId), ("pattern", .str s!"{routeStart o.namespaceName}*/*"),
      ("fireAtMs", .int o.fireAtMs), ("expectedBroadcast", .count o.operations)]]

/-- The last record of a subscriber. -/
def completeFields (workerId : String) (s : Subscriber) (elapsedMs : ℤ) : Record :=
  [("workerId", .str workerId), ("broadcast", .count (s.counts .broadcast)),
    ("single", .count (s.counts .single)), ("cancelled", .count (s.counts .cancelled)),
    ("duplicates", .count s.duplicates), ("invalid", .count s.invalid),
    ("maxActiveHandlers", .count s.maxActiveHandlers), ("clientHandlersActive", .count 0),
    ("clientHandlersQueued", .count 0), ("maxLatenessMs", .count s.maxLatenessMs),
    ("elapsedMs", .int elapsedMs)]

end Subscriber

/-- A subscriber from its start to its end, with the lines its worker prints before and after.
Its handlers drain before the deadline. -/
structure Session (o : Options) (workerId : String) where
  before : List OtherLine
  events : List SubscriberEvent
  after : List OtherLine
  elapsedMs : ℤ
  drained : (events.foldl (Subscriber.onEvent o workerId)
    (.start o workerId before)).activeHandlers = 0

/-! ### Deliveries -/

/-- The notification delivers a schedule: it has the route and the payload of the schedule, whose
sequence is in range and has at most eight digits, and it is not late or early. -/
structure Delivers (o : Options) (n : Notification) (kind : DeliveryKind) (sequence : ℕ) :
    Prop where
  digits : sequence < 10 ^ 8
  range : sequence < o.operations
  route : n.route = scheduleDeliveryRoute o.namespaceName kind sequence
  payload : n.payload = scheduleDeliveryPayload o kind sequence
  lateness : 0 ≤ n.receivedAtMs - o.fireAtMs ∧ n.receivedAtMs - o.fireAtMs ≤ deliveryToleranceMs

theorem delivers_iff {o : Options} {n : Notification} {kind : DeliveryKind} {sequence : ℕ} :
    Delivers o n kind sequence ↔ sequence < 10 ^ 8 ∧ sequence < o.operations ∧
      n.route = scheduleDeliveryRoute o.namespaceName kind sequence ∧
      n.payload = scheduleDeliveryPayload o kind sequence ∧
      0 ≤ n.receivedAtMs - o.fireAtMs ∧ n.receivedAtMs - o.fireAtMs ≤ deliveryToleranceMs :=
  ⟨fun h => ⟨h.digits, h.range, h.route, h.payload, h.lateness⟩,
    fun ⟨hd, hr, hroute, hp, hl⟩ => ⟨hd, hr, hroute, hp, hl⟩⟩

instance (o : Options) (n : Notification) (kind : DeliveryKind) (sequence : ℕ) :
    Decidable (Delivers o n kind sequence) :=
  decidable_of_iff _ delivers_iff.symm

theorem parseOperation_eq_some {operation : List Char} {sequence : ℕ} :
    parseOperation operation = some sequence ↔
      sequence < 10 ^ 8 ∧ operation = "job-".toList ++ pad sequence 8 := by
  unfold parseOperation
  simp only [Option.bind_eq_some_iff, List.isPrefixOf?_eq_some_iff_append_eq,
    digits?_eq_some (show 0 < 8 by decide)]
  constructor
  · rintro ⟨_, rfl, hlt, rfl⟩
    exact ⟨hlt, rfl⟩
  · rintro ⟨hlt, rfl⟩
    exact ⟨_, rfl, hlt, rfl⟩

theorem find_deliveryKinds {kindName : List Char} {kind : DeliveryKind} :
    (deliveryKinds.find? fun kind => kind.name.toList = kindName) = some kind ↔
      kind.name.toList = kindName := by
  constructor
  · intro h
    simpa using List.find?_some h
  · rintro rfl
    cases kind <;> decide

theorem splitOn_eq_pair {cs xs ys : List Char} (hx : '/' ∉ xs) (hy : '/' ∉ ys)
    (h : cs = xs ++ '/' :: ys) : cs.splitOn '/' = [xs, ys] := by
  rw [h, List.splitOn_append_cons_self_of_not_mem hx, List.splitOn_eq_singleton hy]

theorem toList_scheduleDeliveryRoute (namespaceName : String) (kind : DeliveryKind)
    (sequence : ℕ) : (scheduleDeliveryRoute namespaceName kind sequence).toList =
      (routeStart namespaceName).toList ++ (kind.name.toList ++ '/' ::
        ("job-".toList ++ pad sequence 8)) := by
  simp [scheduleDeliveryRoute, toString]

theorem slash_not_mem_name (kind : DeliveryKind) : '/' ∉ kind.name.toList := by
  cases kind <;> decide

theorem slash_not_mem_operation (sequence : ℕ) : '/' ∉ "job-".toList ++ pad sequence 8 := by
  intro h
  rcases List.mem_append.mp h with h | h
  · exact absurd h (by decide)
  · exact absurd (isDigit_of_mem_pad h) (by decide)

/-- A route is parsed iff it is the route of a schedule with at most eight digits. -/
theorem parseScheduleRoute_eq_ok {namespaceName route : String} {kind : DeliveryKind}
    {sequence : ℕ} : parseScheduleRoute namespaceName route = .ok (kind, sequence) ↔
      sequence < 10 ^ 8 ∧ route = scheduleDeliveryRoute namespaceName kind sequence := by
  rw [← String.toList_inj, toList_scheduleDeliveryRoute]
  constructor
  · intro h
    unfold parseScheduleRoute at h
    dsimp only at h
    split at h
    · cases h
    · rename_i rest hrest
      rw [List.isPrefixOf?_eq_some_iff_append_eq] at hrest
      split at h
      · rename_i kindName operation hsplit
        split at h
        · cases h
        · rename_i kind' hkind
          split at h
          · cases h
          · rename_i sequence' hsequence
            obtain ⟨rfl, rfl⟩ := Prod.mk.inj (Except.ok.inj h)
            obtain ⟨hlt, rfl⟩ := parseOperation_eq_some.mp hsequence
            have hjoin := @List.intercalate_splitOn _ rest _ _ '/'
            rw [hsplit] at hjoin
            refine ⟨hlt, ?_⟩
            rw [← hrest, ← hjoin, ← find_deliveryKinds.mp hkind]
            simp [List.intercalate]
      · cases h
  · rintro ⟨hlt, hroute⟩
    have hsplit := splitOn_eq_pair (slash_not_mem_name kind) (slash_not_mem_operation sequence) rfl
    unfold parseScheduleRoute
    dsimp only
    rw [List.isPrefixOf?_eq_some_iff_append_eq.mpr hroute.symm]
    dsimp only
    rw [hsplit]
    dsimp only
    rw [find_deliveryKinds.mpr rfl]
    dsimp only
    rw [parseOperation_eq_some.mpr ⟨hlt, rfl⟩]

/-- **The notifications that pass the checks** are the ones that deliver a schedule. -/
theorem checkNotification_eq_ok {o : Options} {n : Notification} {kind : DeliveryKind}
    {sequence : ℕ} {latenessMs : ℤ} :
    checkNotification o n = .ok ((kind, sequence), latenessMs) ↔
      Delivers o n kind sequence ∧ latenessMs = n.receivedAtMs - o.fireAtMs := by
  unfold checkNotification
  rw [Check.bind_eq, Check.bind_eq_ok, delivers_iff]
  simp only [Check.bind_eq, Check.seq_eq_ok, Check.failIf_eq_ok, Check.pure_eq,
    Except.ok.injEq, Prod.mk.injEq, assertBytesEqual_eq_ok, not_or, not_lt, not_le]
  constructor
  · rintro ⟨identity, hroute, hrange, hpayload, hlate, rfl, rfl⟩
    obtain ⟨hlt, hroute⟩ := parseScheduleRoute_eq_ok.mp hroute
    exact ⟨⟨hlt, hrange, hroute, hpayload, hlate⟩, rfl⟩
  · rintro ⟨⟨hlt, hrange, hroute, hpayload, hlate⟩, rfl⟩
    exact ⟨(kind, sequence), parseScheduleRoute_eq_ok.mpr ⟨hlt, hroute⟩, hrange, hpayload, hlate,
      rfl, rfl⟩

end Schedule

end FitzDestroyer
