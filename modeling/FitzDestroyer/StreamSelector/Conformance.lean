import FitzDestroyer.Js.NumberText
import FitzDestroyer.Js.Utf8
import FitzDestroyer.Workload.Log
import Mathlib.Data.Finset.Card
import Mathlib.Data.Finset.Image

/-!
# Stream selectors and cursors

`runStreamSelectorCursorConformance` (`workloads/stream-selector-cursor-conformance.ts`) writes a
visible and a filtered record to each of four routes, replays eight selectors with a filter, and
continues a replay on another connection.

* `StreamRoute`, `Selector` : the routes, and the selectors with the routes they match;
* `Broker` : what the broker answers in a run;
* `onBatch`, `runCase` : the replay of a selector;
* `verifyReconnectContinuation` : the continued replay;
* `runStreamSelectorCursorConformance` : the run.
-/

namespace FitzDestroyer

namespace StreamSelector

open Js Workload

/-! ### Routes and selectors -/

structure StreamRoute where
  realm : String
  area : String
  resource : String
  deriving DecidableEq, Repr

def StreamRoute.text (r : StreamRoute) : String := s!"stream://{r.realm}/{r.area}/{r.resource}"

inductive Selector where
  /-- A segment that is left out is `*`. -/
  | segments (realm area resource : Option String)
  /-- All routes of a realm, `…/**`. -/
  | realmTree (realm : String)
  /-- All routes, `**`. -/
  | all
  deriving DecidableEq, Repr

namespace Selector

def text : Selector → String
  | segments realm area resource =>
    let segment (s : Option String) := s.getD "*"
    s!"stream://{segment realm}/{segment area}/{segment resource}"
  | realmTree realm => s!"stream://{realm}/**"
  | all => "stream://**"

/-- A segment of a selector matches a segment of a route. -/
def segmentMatches : Option String → String → Bool
  | none, _ => true
  | some s, segment => s = segment

/-- The selector matches the route. -/
def isMatch : Selector → StreamRoute → Bool
  | segments realm area resource, r => segmentMatches realm r.realm && segmentMatches area r.area &&
      segmentMatches resource r.resource
  | realmTree realm, r => r.realm = realm
  | all, _ => true

end Selector

inductive CursorAxis where
  | resource
  | area
  | realm
  | global
  deriving DecidableEq, Repr

def CursorAxis.name : CursorAxis → String
  | resource => "resource"
  | area => "area"
  | realm => "realm"
  | global => "global"

structure SelectorCase where
  selector : Selector
  axis : CursorAxis
  expectedRecords : ℕ
  deriving DecidableEq, Repr

def streamSelectorCases (namespaceName : String) : List SelectorCase :=
  let realmA := s!"{namespaceName}-a"
  [⟨.segments realmA "area-a" "resource-a", .resource, 2⟩,
    ⟨.segments realmA "area-a" none, .area, 4⟩,
    ⟨.segments realmA none "resource-a", .realm, 4⟩,
    ⟨.segments realmA none none, .realm, 6⟩,
    ⟨.realmTree realmA, .realm, 6⟩,
    ⟨.segments none "area-a" "resource-a", .global, 4⟩,
    ⟨.segments none none none, .global, 8⟩,
    ⟨.all, .global, 8⟩]

def streamRoutes (namespaceName : String) : List StreamRoute :=
  [⟨s!"{namespaceName}-a", "area-a", "resource-a"⟩,
    ⟨s!"{namespaceName}-a", "area-a", "resource-b"⟩,
    ⟨s!"{namespaceName}-a", "area-b", "resource-a"⟩,
    ⟨s!"{namespaceName}-b", "area-a", "resource-a"⟩]

def payload (route : String) (offset : ℕ) : List UInt8 := encode s!"{route}:{offset}"

/-! ### The broker -/

structure StreamRecord where
  route : String
  offset : ℤ
  areaOffset : Option ℤ
  realmOffset : Option ℤ
  globalOffset : Option ℤ
  body : List UInt8
  deriving DecidableEq, Repr

inductive StreamReadItem where
  | event (record : StreamRecord)
  | filteredRange (fromOffset toOffset : ℤ)
  deriving DecidableEq, Repr

structure Batch where
  fromOffset : ℤ
  nextOffset : ℤ
  caughtUp : Bool
  items : List StreamReadItem
  records : List StreamRecord

/-- What a read yields, and what it throws after that. -/
structure Read where
  batches : List Batch
  error : Option Thrown

/-- What the broker and the connections do in a run. -/
structure Broker where
  /-- What the steps of the session of a route throw: it begins, appends twice and commits. -/
  sessionError : StreamRoute → ℕ → Option Thrown
  /-- The replay of a selector from offset 0, with the records of other kinds filtered out. -/
  replay : SelectorCase → Read
  /-- What connecting and closing the client of the first part of the continued replay throws. -/
  firstConnectError : Option Thrown
  firstCloseError : Option Thrown
  /-- The replay of all routes from offset 0, of which the client reads one batch. -/
  firstRead : Read
  secondConnectError : Option Thrown
  secondCloseError : Option Thrown
  /-- The replay of all routes from an offset. -/
  secondRead : ℤ → Read

/-- The session of a route: a record of the kind `keep`, then one of the kind `drop`. -/
def writeRoute (b : Broker) (r : StreamRoute) : Except Thrown Unit := do
  Check.attempt (b.sessionError r 0)
  Check.attempt (b.sessionError r 1)
  Check.attempt (b.sessionError r 2)
  Check.attempt (b.sessionError r 3)

/-! ### The replay of a selector -/

/-- `Number(item.toOffset - item.fromOffset + 1n)` for a range, and 1 for an event. -/
def itemSpan : StreamReadItem → Number
  | .event _ => (1 : ℕ)
  | .filteredRange fromOffset toOffset => Number.round ((toOffset - fromOffset + 1 : ℤ) : ℚ)

/-- The offset of a record on an axis. -/
def StreamRecord.offsetOn (record : StreamRecord) : CursorAxis → Option ℤ
  | .resource => some record.offset
  | .area => record.areaOffset
  | .realm => record.realmOffset
  | .global => record.globalOffset

def assertAxis (record : StreamRecord) (axis : CursorAxis) (selector : String) :
    Except Thrown Unit :=
  Check.failIf (record.offsetOn axis = none) (newError s!"{selector} omitted {axis.name} offset")

def identity (record : StreamRecord) : String := s!"{record.route}:{record.offset}"

/-- The variables of a replay, and the counters of the run that it changes. -/
structure ReplayState where
  seen : Finset String
  visible : ℕ
  filtered : Number
  previousOffset : ℤ
  caughtUp : Bool
  cursorAdvances : Number
  duplicateRecords : ℕ

section Replay

variable (c : SelectorCase)

def onItem (s : ReplayState) (item : StreamReadItem) : Except Thrown ReplayState := do
  let s := { s with cursorAdvances := s.cursorAdvances.add (itemSpan item) }
  match item with
  | .event record =>
    let duplicateRecords :=
      if identity record ∈ s.seen then s.duplicateRecords + 1 else s.duplicateRecords
    let s := { s with duplicateRecords, seen := insert (identity record) s.seen }
    assertAxis record c.axis c.selector.text
    return { s with visible := s.visible + 1 }
  | .filteredRange _ _ => return { s with filtered := s.filtered.add (itemSpan item) }

def onBatch (s : ReplayState) (batch : Batch) : Except Thrown ReplayState := do
  Check.failIf (batch.nextOffset ≤ batch.fromOffset ∨ batch.nextOffset ≤ s.previousOffset)
    (newError s!"{c.selector.text} cursor did not advance")
  let s := { s with previousOffset := batch.nextOffset, caughtUp := batch.caughtUp }
  batch.items.foldlM (onItem c) s

end Replay

/-- The counters of the run. -/
structure Counters where
  visibleRecords : ℕ
  filteredOffsets : Number
  cursorAdvances : Number
  duplicateRecords : ℕ
  missingRecords : ℕ
  deriving DecidableEq

def Counters.zero : Counters := ⟨0, (0 : ℕ), (0 : ℕ), 0, 0⟩

def ReplayState.start (k : Counters) : ReplayState :=
  ⟨∅, 0, (0 : ℕ), -1, false, k.cursorAdvances, k.duplicateRecords⟩

def runCase (b : Broker) (k : Counters) (c : SelectorCase) : Except Thrown Counters := do
  let s ← (b.replay c).batches.foldlM (onBatch c) (.start k)
  Check.attempt (b.replay c).error
  let expectedVisible := c.expectedRecords / 2
  let missing := s.caughtUp = false ∨ s.visible ≠ expectedVisible ∨
    s.filtered ≠ (expectedVisible : Number)
  return {
    visibleRecords := k.visibleRecords + s.visible
    filteredOffsets := k.filteredOffsets.add s.filtered
    cursorAdvances := s.cursorAdvances
    duplicateRecords := s.duplicateRecords
    missingRecords := if missing then k.missingRecords + 1 else k.missingRecords }

/-! ### The run -/

def verifyReconnectContinuation (b : Broker) (expected : ℕ) : Except Thrown ℕ := do
  Check.attempt b.firstConnectError
  -- The loop over the batches stops after the first.
  let (firstCount, nextOffset) ← (match b.firstRead.batches with
    | batch :: _ => return (batch.records.length, batch.nextOffset)
    | [] => do
      Check.attempt b.firstRead.error
      return (0, 0) : Except Thrown (ℕ × ℤ))
  Check.attempt b.firstCloseError
  Check.attempt b.secondConnectError
  let second := b.secondRead nextOffset
  let remaining := (second.batches.map fun batch => batch.records.length).sum
  Check.attempt second.error
  Check.attempt b.secondCloseError
  Check.failIf (firstCount ≠ 1 ∨ firstCount + remaining ≠ expected)
    (newError s!"Stream reconnect continuation observed {firstCount}+{remaining}/{expected}")
  return 1

/-- The values of the evidence of a run that is as it should be. -/
def expectedEvidence : List (String × ℕ) :=
  [("selectors", 8), ("recordsWritten", 8), ("visibleRecords", 21), ("filteredOffsets", 21),
    ("cursorAdvances", 42), ("duplicateRecords", 0), ("missingRecords", 0),
    ("reconnectContinuations", 1)]

/-- The number of a value. -/
def number? : Json → Option Number
  | .num value => some value
  | _ => none

def assertStreamSelectorEvidence (record : Record) : Except Thrown Unit :=
  Check.forEach expectedEvidence fun (name, value) =>
    Check.failIf ((field record name).bind number? ≠ some (value : Number))
      (newError s!"{name}={fieldText record name}/{value}")

/-- The evidence that the workload checks and logs. -/
def runStreamSelectorCursorConformance (namespaceName : String) (b : Broker) :
    Except Thrown Record := do
  let routes := streamRoutes namespaceName
  Check.forEach routes (writeRoute b)
  let k ← (streamSelectorCases namespaceName).foldlM (runCase b) .zero
  let reconnectContinuations ← verifyReconnectContinuation b (routes.length * 2)
  let evidence : Record := [("selectors", .count 8), ("recordsWritten", .count (routes.length * 2)),
    ("visibleRecords", .count k.visibleRecords), ("filteredOffsets", .num k.filteredOffsets),
    ("cursorAdvances", .num k.cursorAdvances), ("duplicateRecords", .count k.duplicateRecords),
    ("missingRecords", .count k.missingRecords),
    ("reconnectContinuations", .count reconnectContinuations)]
  assertStreamSelectorEvidence evidence
  return evidence

end StreamSelector

end FitzDestroyer
