import FitzDestroyer.Check.Fold
import FitzDestroyer.Js.Collections
import FitzDestroyer.Table.Sorted
import FitzDestroyer.Workload.Model
import FitzDestroyer.Workload.Paging
import Mathlib.Data.List.Lex

/-!
# The recovery workload

`loadRecoveryWorkload` (`workloads/recovery.ts`) writes to the four durable domains, and
`verifyRecoveryWorkload` reads them back after a restart.

* `DurableState` : what the broker holds, as far as it can be read;
* `loadRecoveryWorkload` : the state after the load;
* `Paging` : the sizes of the pages in which the broker answers;
* `verifyRecoveryWorkload` : the checks.
-/

namespace FitzDestroyer

namespace Recovery

open Js Workload

structure WorkloadShape where
  namespaceName : String
  seed : ℕ
  resources : ℕ
  entriesPerResource : ℕ
  payloadBytes : ℕ

/-! ### The state of the broker -/

/-- A key of a table: keys are ordered byte by byte. -/
structure Key where
  bytes : List UInt8
  deriving DecidableEq, Repr

namespace Key

/-- The bytes of a key, as numbers. -/
def values (key : Key) : List ℕ := key.bytes.map UInt8.toNat

theorem values_injective : Function.Injective values := by
  rintro ⟨xs⟩ ⟨ys⟩ h
  exact congrArg Key.mk (List.map_injective_iff.mpr (fun _ _ => UInt8.toNat_inj.mp) h)

instance : LinearOrder Key := LinearOrder.lift' values values_injective

theorem lt_iff {a b : Key} : a < b ↔ a.values < b.values := Iff.rfl

end Key

@[ext] structure StreamRecord where
  offset : ℕ
  body : List UInt8
  deriving DecidableEq, Repr

@[ext] structure ScheduleEntry where
  route : String
  cron : String
  deliveryMode : String
  payload : List UInt8
  deriving DecidableEq, Repr

/-- What the broker holds: a queue, a table and a stream for each resource, and the schedules in
the order in which they are listed. -/
structure DurableState where
  queue : ℕ → List (List UInt8)
  kv : ℕ → Table Key (List UInt8)
  stream : ℕ → List StreamRecord
  schedule : List ScheduleEntry

/-! ### The load -/

def resourceRoute (domain : DurableDomain) (shape : WorkloadShape) (resource : ℕ) : String :=
  s!"{domain.name}://destroyer/{shape.namespaceName}/{domain.name}-{String.ofList (pad resource 4)}"

def scheduleRoute (shape : WorkloadShape) (resource entry : ℕ) : String :=
  s!"schedule://destroyer/{shape.namespaceName}/schedule-{String.ofList (pad resource 4)}/job-" ++
    String.ofList (pad entry 8)

def kvKey (entry : ℕ) : Key := ⟨encode s!"key-{String.ofList (pad entry 8)}"⟩

/-- The payload of an entry of the workload. -/
def WorkloadShape.payload (shape : WorkloadShape) (domain : DurableDomain)
    (resource entry : ℕ) : List UInt8 :=
  deterministicPayload shape.seed shape.payloadBytes domain resource entry

/-- `MUTATION_BATCH_SIZE`. -/
def mutationBatchSize : ℕ := 250

/-- `READ_BATCH_SIZE`. -/
def readBatchSize : ℕ := 250

/-- The entries of each transaction of a load, from an entry on. -/
def batchesFrom (count start : ℕ) : List (List ℕ) :=
  if start < count then
    List.range' start (min count (start + mutationBatchSize) - start) ::
      batchesFrom count (start + mutationBatchSize)
  else []
termination_by count - start
decreasing_by simp only [mutationBatchSize]; omega

/-- The queue after `loadQueue`. -/
def loadQueue (shape : WorkloadShape) (resource : ℕ) : List (List UInt8) :=
  (List.range shape.entriesPerResource).map (shape.payload .queue resource)

/-- The table after `loadKv`: a transaction a batch. -/
def loadKv (shape : WorkloadShape) (resource : ℕ) : Table Key (List UInt8) :=
  (batchesFrom shape.entriesPerResource 0).foldl (fun table batch =>
    batch.foldl (fun table entry => table.put (kvKey entry) (shape.payload .kv resource entry))
      table) .empty

/-- The stream after `loadStream`: a session a batch, whose appends give their offsets. -/
def loadStream (shape : WorkloadShape) (resource : ℕ) : List StreamRecord :=
  (batchesFrom shape.entriesPerResource 0).flatMap fun batch =>
    batch.map fun entry => ⟨entry, shape.payload .stream resource entry⟩

/-- The schedule that `loadSchedules` creates for an entry. -/
def scheduleEntry (shape : WorkloadShape) (resource entry : ℕ) : ScheduleEntry where
  route := scheduleRoute shape resource entry
  cron := "0 0 1 1 *"
  deliveryMode := "Single"
  payload := shape.payload .schedule resource entry

/-- The schedules that `loadSchedules` creates. -/
def loadSchedules (shape : WorkloadShape) (resource : ℕ) : List ScheduleEntry :=
  (List.range shape.entriesPerResource).map (scheduleEntry shape resource)

/-- The state after the load. -/
def loadRecoveryWorkload (shape : WorkloadShape) : DurableState where
  queue := loadQueue shape
  kv := loadKv shape
  stream := loadStream shape
  schedule := (List.range shape.resources).flatMap (loadSchedules shape)

/-! ### The pages of the broker -/

/-- The sizes of the pages in which the broker answers.  A reserve and a scan answer with at most
as many items as they were asked for, and with an item if there is one. -/
structure Paging where
  /-- The size of a reserve of a resource, by the number of items reserved before. -/
  reserve : ℕ → ℕ → ℕ
  /-- The size of a scan of a resource, by the number of entries read before. -/
  scan : ℕ → ℕ → ℕ
  /-- The sizes of the batches of a stream, up to the last one. -/
  stream : ℕ → List ℕ
  /-- The sizes of the pages of schedules, up to the last one. -/
  schedule : List ℕ

/-! ### The checks -/

/-- The check of an item of a queue. -/
def verifyQueueItem (shape : WorkloadShape) (resource observed : ℕ) (body : List UInt8) :
    Except Thrown Unit :=
  assertBytesEqual body (shape.payload .queue resource observed)
    s!"{resourceRoute .queue shape resource} entry {observed}"

/-- The loop of `verifyQueue`. -/
def verifyQueueFrom (shape : WorkloadShape) (resource : ℕ) (sizes : ℕ → ℕ) (observed : ℕ)
    (queue : List (List UInt8)) : Except Thrown Unit :=
  let route := resourceRoute .queue shape resource
  if observed < shape.entriesPerResource then
    let items := answer (min 1024 (shape.entriesPerResource - observed)) (sizes observed) queue
    if _hitems : items = [] then
      .error (newError s!"{route}: queue ended after {observed} entries")
    else
      match _h : Check.forEachFrom (verifyQueueItem shape resource) observed items with
      | .error error => .error error
      | .ok observed' =>
        verifyQueueFrom shape resource sizes observed' (queue.drop items.length)
  else .ok ()
termination_by shape.entriesPerResource - observed
decreasing_by
  have hcount := Check.forEachFrom_count _h
  have hpos := List.length_pos_iff.mpr _hitems
  omega

def verifyQueue (shape : WorkloadShape) (sizes : ℕ → ℕ) (queue : List (List UInt8))
    (resource : ℕ) : Except Thrown Unit :=
  verifyQueueFrom shape resource sizes 0 queue

/-- The check of an entry of a scan. -/
def verifyKvItem (shape : WorkloadShape) (resource observed : ℕ) (item : Key × List UInt8) :
    Except Thrown Unit := do
  let route := resourceRoute .kv shape resource
  assertBytesEqual item.1.bytes (kvKey observed).bytes s!"{route} key {observed}"
  assertBytesEqual item.2 (shape.payload .kv resource observed) s!"{route} value {observed}"

/-- The loop of `verifyKv`. -/
def verifyKvFrom (shape : WorkloadShape) (resource : ℕ) (sizes : ℕ → ℕ)
    (table : Table Key (List UInt8)) (observed : ℕ) : Except Thrown Unit :=
  let route := resourceRoute .kv shape resource
  if observed < shape.entriesPerResource then
    let entries := answer (min readBatchSize (shape.entriesPerResource - observed))
      (sizes observed) (table.scan (kvKey observed))
    if _hentries : entries = [] then
      .error (newError s!"{route}: KV scan ended after {observed} entries")
    else
      match _h : Check.forEachFrom (verifyKvItem shape resource) observed entries with
      | .error error => .error error
      | .ok observed' => verifyKvFrom shape resource sizes table observed'
  else .ok ()
termination_by shape.entriesPerResource - observed
decreasing_by
  have hcount := Check.forEachFrom_count _h
  have hpos := List.length_pos_iff.mpr _hentries
  omega

def verifyKv (shape : WorkloadShape) (sizes : ℕ → ℕ) (table : Table Key (List UInt8))
    (resource : ℕ) : Except Thrown Unit := do
  verifyKvFrom shape resource sizes table 0
  let extra := answer 1 1 (table.scan (kvKey shape.entriesPerResource))
  Check.failIf (extra ≠ []) (newError
    s!"{resourceRoute .kv shape resource}: KV contains unexpected extra data")

/-- The check of a record of a stream. -/
def verifyStreamRecord (shape : WorkloadShape) (resource observed : ℕ) (record : StreamRecord) :
    Except Thrown Unit := do
  let route := resourceRoute .stream shape resource
  Check.failIf (record.offset ≠ observed) (newError
    s!"{route}: stream offset {record.offset} != {observed}")
  assertBytesEqual record.body (shape.payload .stream resource observed)
    s!"{route} entry {observed}"

def verifyStream (shape : WorkloadShape) (sizes : List ℕ) (records : List StreamRecord)
    (resource : ℕ) : Except Thrown Unit := do
  let observed ← (cut sizes records).foldlM
    (Check.forEachFrom (verifyStreamRecord shape resource)) 0
  Check.failIf (observed ≠ shape.entriesPerResource) (newError
    s!"{resourceRoute .stream shape resource}: stream contained {observed} entries")

/-- The check of the schedule of an entry. -/
def verifySchedule (shape : WorkloadShape) (observed : JsMap String ScheduleEntry)
    (resource entry : ℕ) : Except Thrown Unit :=
  let route := scheduleRoute shape resource entry
  match observed.get? route with
  | none => .error (newError s!"{route}: schedule missing")
  | some actual => do
    Check.failIf (actual.cron ≠ "0 0 1 1 *" ∨ actual.deliveryMode ≠ "Single") (newError
      s!"{route}: schedule metadata mismatch")
    assertBytesEqual actual.payload (shape.payload .schedule resource entry) s!"{route} payload"

/-- The map of the schedules of some pages, by their routes. -/
def observedSchedules (pages : List (List ScheduleEntry)) : JsMap String ScheduleEntry :=
  pages.foldl (fun observed page =>
    page.foldl (fun observed entry => observed.set entry.route entry) observed) .empty

def verifySchedules (shape : WorkloadShape) (sizes : List ℕ) (schedules : List ScheduleEntry) :
    Except Thrown Unit := do
  let expectedCount := shape.resources * shape.entriesPerResource
  let observed := observedSchedules (cut sizes schedules)
  Check.failIf (observed.size ≠ expectedCount) (newError
    s!"schedule count {observed.size} != {expectedCount}")
  Check.forEach (List.range shape.resources) fun resource =>
    Check.forEach (List.range shape.entriesPerResource) (verifySchedule shape observed resource)

def runResourceOperationsSequentially (resources : ℕ) (operation : ℕ → Except Thrown Unit) :
    Except Thrown Unit :=
  Check.forEach (List.range resources) operation

def totalDurableEntries (shape : WorkloadShape) : ℕ :=
  4 * shape.resources * shape.entriesPerResource

/-- The checks of the four domains.  They run concurrently, so that the error of another one may
come first; they pass iff all of them do. -/
def verifyRecoveryWorkload (shape : WorkloadShape) (paging : Paging) (state : DurableState) :
    Except Thrown ℕ := do
  runResourceOperationsSequentially shape.resources fun resource =>
    verifyQueue shape (paging.reserve resource) (state.queue resource) resource
  runResourceOperationsSequentially shape.resources fun resource =>
    verifyKv shape (paging.scan resource) (state.kv resource) resource
  runResourceOperationsSequentially shape.resources fun resource =>
    verifyStream shape (paging.stream resource) (state.stream resource) resource
  verifySchedules shape paging.schedule state.schedule
  return totalDurableEntries shape

end Recovery

end FitzDestroyer
