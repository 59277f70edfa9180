import FitzDestroyer.Durability.Ledger
import FitzDestroyer.Recovery.Model
import FitzDestroyer.Schedule.Subscriber

/-!
# Crash cuts

A writer of the crash cuts (`workloads/durability-crash-cuts.ts`) writes one value to each durable
domain and logs what became of it; the broker is killed meanwhile.  After the last restart the
verifier reads the values back.

* `Writer` : a writer, with the lines of its log;
* `RecoveredState` : what the verifier can read;
* `verifyDurabilityState` : the sequences that it observes, domain by domain;
* `crashCutVerdict` : the verdict of the host over the logs of the writers and of the verifier.
-/

namespace FitzDestroyer

namespace Durability

open Js Workload Recovery Schedule

structure CrashCutOptions where
  namespaceName : String
  seed : ℕ
  payloadBytes : ℕ
  iterations : ℕ

def crashCutRoute (domain : DurableDomain) (namespaceName : String) (sequence : ℕ) : String :=
  match domain with
  | .schedule => s!"schedule://destroyer/{namespaceName}/crash-cut" ++
      s!"/job-{String.ofList (pad sequence 8)}"
  | .stream =>
    if 0 < sequence then
      s!"stream://destroyer/{namespaceName}/crash-cut-{String.ofList (pad sequence 8)}"
    else s!"stream://destroyer/{namespaceName}/crash-cut"
  | .queue => s!"queue://destroyer/{namespaceName}/crash-cut"
  | .kv => s!"kv://destroyer/{namespaceName}/crash-cut"

def crashCutPayload (o : CrashCutOptions) (domain : DurableDomain) (sequence : ℕ) : List UInt8 :=
  deterministicPayload o.seed o.payloadBytes domain 0 sequence

/-- The schedule that a writer creates. -/
def crashCutSchedule (o : CrashCutOptions) (sequence : ℕ) : ScheduleEntry where
  route := crashCutRoute .schedule o.namespaceName sequence
  cron := "0 0 1 1 *"
  deliveryMode := "Single"
  payload := crashCutPayload o .schedule sequence

/-! ### Writers -/

inductive DurabilityAction where
  | baseline
  | cut
  deriving DecidableEq, Repr

def DurabilityAction.name : DurabilityAction → String
  | baseline => "baseline"
  | cut => "cut"

inductive Outcome where
  | acknowledged
  | failed (error : String)
  deriving DecidableEq, Repr

def Outcome.name : Outcome → String
  | acknowledged => "acknowledged"
  | failed _ => "failed"

/-- A line of the log of a writer. -/
inductive WriterLine where
  | started (domain : DurableDomain)
  | dispatched
  | settled (domain : DurableDomain) (outcome : Outcome)
  | complete (outcomes : DurableDomain → Outcome)
  | other (line : OtherLine)

/-- The line that is printed. -/
def WriterLine.line (action : DurabilityAction) (sequence : ℕ) : WriterLine → LogLine
  | started domain => logLine "durability_operation_started"
      [("action", .str action.name), ("domain", .str domain.name), ("sequence", .count sequence)]
  | dispatched => logLine "durability_operations_dispatched"
      [("action", .str action.name), ("sequence", .count sequence),
        ("domains", .arr (durableDomains.map fun domain => .str domain.name))]
  | settled domain .acknowledged => logLine "durability_operation_acknowledged"
      [("action", .str action.name), ("domain", .str domain.name), ("sequence", .count sequence)]
  | settled domain (.failed error) => logLine "durability_operation_failed"
      [("action", .str action.name), ("domain", .str domain.name), ("sequence", .count sequence),
        ("error", .str error)]
  | complete outcomes => logLine "durability_writer_complete"
      [("action", .str action.name), ("sequence", .count sequence),
        ("outcomes", .arr (durableDomains.map fun domain =>
          .obj [("domain", .str domain.name), ("outcome", .str (outcomes domain).name)]))]
  | other line => line.line

/-- How far a writer is. -/
structure WriterState where
  /-- The domains whose operations have not been started. -/
  waiting : List DurableDomain
  dispatched : Bool
  settled : List (DurableDomain × Outcome)
  complete : Bool

def WriterState.start : WriterState := ⟨durableDomains, false, [], false⟩

/-- The operations are started one after the other and dispatched; they settle in any order. -/
def WriterState.step (s : WriterState) : WriterLine → Option WriterState
  | .started domain =>
    match s.waiting with
    | [] => none
    | first :: waiting => if first = domain then some { s with waiting := waiting } else none
  | .dispatched =>
    if s.waiting = [] ∧ s.dispatched = false then some { s with dispatched := true } else none
  | .settled domain outcome =>
    if s.dispatched ∧ domain ∉ s.settled.map Prod.fst then
      some { s with settled := s.settled ++ [(domain, outcome)] }
    else none
  | .complete outcomes =>
    if s.complete = false ∧ ∀ domain ∈ durableDomains, (domain, outcomes domain) ∈ s.settled then
      some { s with complete := true }
    else none
  | .other _ => some s

/-- A writer that has dispatched its operations: some of them may not have settled when its log
ends. -/
structure Writer where
  action : DurabilityAction
  lines : List WriterLine
  state : WriterState
  run : lines.foldlM WriterState.step .start = some state
  dispatched : state.dispatched = true

namespace Writer

def log (w : Writer) (sequence : ℕ) : Log := w.lines.map (WriterLine.line w.action sequence)

/-- The operation on the domain was acknowledged. -/
def Acknowledged (w : Writer) (domain : DurableDomain) : Prop :=
  .settled domain .acknowledged ∈ w.lines

end Writer

/-! ### The verifier -/

/-- What the broker holds after the restart: the queue, the table, the streams by their routes,
and the schedules in the order in which they are listed. -/
structure RecoveredState where
  queue : List (List UInt8)
  kv : Key → Option (List UInt8)
  stream : String → List StreamRecord
  schedule : List ScheduleEntry

/-- The sizes of the pages in which the broker answers. -/
structure VerifierPaging where
  /-- The size of a reserve, by the number of items reserved before. -/
  reserve : ℕ → ℕ
  stream : ℕ → List ℕ
  schedule : List ℕ

def identifyPayload (o : CrashCutOptions) (domain : DurableDomain) (actual : List UInt8) :
    Except Thrown ℕ :=
  match (List.range (o.iterations + 1)).find? fun sequence =>
    (assertBytesEqual actual (crashCutPayload o domain sequence) s!"{domain.name} payload").isOk
  with
  | some sequence => .ok sequence
  | none => .error (newError
      s!"{domain.name} crash-cut payload did not match a started operation")

/-- The loop over the queue: every item is completed. -/
def observeQueueFrom (o : CrashCutOptions) (sizes : ℕ → ℕ) (observed : ℕ)
    (queue : List (List UInt8)) : Except Thrown (List ℕ) :=
  let items := answer 10 (sizes observed) queue
  if _hitems : items = [] then .ok []
  else do
    let sequences ← items.mapM (identifyPayload o .queue)
    let rest ← observeQueueFrom o sizes (observed + items.length) (queue.drop items.length)
    return sequences ++ rest
termination_by queue.length
decreasing_by
  have hpos : 0 < (answer 10 (sizes observed) queue).length := List.length_pos_iff.mpr _hitems
  have hle : (answer 10 (sizes observed) queue).length ≤ queue.length :=
    List.length_take_le' _ _
  rw [List.length_drop]
  omega

/-- A loop over the sequences, and what it observed. -/
def observeEach (iterations : ℕ) (observe : ℕ → Except Thrown (List ℕ)) :
    Except Thrown (List ℕ) := do
  let parts ← (List.range (iterations + 1)).mapM observe
  return parts.flatten

/-- A loop over pages, and what it observed. -/
def observePages {α : Type} (pages : List (List α)) (observe : α → Except Thrown ℕ) :
    Except Thrown (List ℕ) := do
  let parts ← pages.mapM fun page => page.mapM observe
  return parts.flatten

def observeKey (o : CrashCutOptions) (kv : Key → Option (List UInt8)) (sequence : ℕ) :
    Except Thrown (List ℕ) :=
  match kv (kvKey sequence) with
  | none => .ok []
  | some value => do
    assertBytesEqual value (crashCutPayload o .kv sequence) s!"KV crash-cut {sequence}"
    return [sequence]

def observeRecord (o : CrashCutOptions) (sequence : ℕ) (record : StreamRecord) :
    Except Thrown ℕ := do
  Check.failIf (record.offset ≠ 0) (newError s!"Unexpected Stream crash-cut offset {record.offset}")
  assertBytesEqual record.body (crashCutPayload o .stream sequence)
    s!"Stream crash-cut {sequence}"
  return sequence

/-- `/\/job-(\d{8})$/u`, and the number of its digits. -/
def jobSequence (route : String) : Option ℕ :=
  ("/job-".toList.isPrefixOf? (route.toList.drop (route.toList.length - 13))).bind (digits? 8)

def observeSchedule (o : CrashCutOptions) (entry : ScheduleEntry) : Except Thrown ℕ :=
  let unexpected := newError s!"Unexpected Schedule crash-cut route {entry.route}"
  match jobSequence entry.route with
  | none => .error unexpected
  | some sequence => do
    Check.failIf (o.iterations < sequence) unexpected
    assertBytesEqual entry.payload (crashCutPayload o .schedule sequence)
      s!"Schedule crash-cut {sequence}"
    return sequence

/-- What the verifier observes in a domain. -/
def observe (o : CrashCutOptions) (paging : VerifierPaging) (state : RecoveredState) :
    DurableDomain → Except Thrown (List ℕ)
  | .queue => observeQueueFrom o paging.reserve 0 state.queue
  | .kv => observeEach o.iterations (observeKey o state.kv)
  | .stream => observeEach o.iterations fun sequence =>
      observePages (cut (paging.stream sequence)
        (state.stream (crashCutRoute .stream o.namespaceName sequence))) (observeRecord o sequence)
  | .schedule => observePages (cut paging.schedule state.schedule) (observeSchedule o)

/-- `observed[domain].sort((left, right) => left - right)`. -/
def sortSequences (sequences : List ℕ) : List ℕ := sequences.mergeSort (· ≤ ·)

/-- The sequences that the verifier observes. -/
def verifyDurabilityState (o : CrashCutOptions) (paging : VerifierPaging)
    (state : RecoveredState) : Except Thrown (DurableDomain → List ℕ) := do
  let queue ← observe o paging state .queue
  let kv ← observe o paging state .kv
  let stream ← observe o paging state .stream
  let schedule ← observe o paging state .schedule
  return fun
    | .queue => sortSequences queue
    | .kv => sortSequences kv
    | .stream => sortSequences stream
    | .schedule => sortSequences schedule

/-- The last record of the verifier. -/
def verifierComplete (observed : DurableDomain → List ℕ) : Record :=
  [("observed", .obj (durableDomains.map fun domain =>
    (domain.name, .arr ((observed domain).map .count))))]

/-- The log of the verifier, with the lines its worker prints before and after. -/
def verifierLog (before after : List OtherLine) (observed : DurableDomain → List ℕ) : Log :=
  before.map OtherLine.line ++
    (durableDomains.flatMap fun domain => (observed domain).map fun sequence =>
      logLine "durability_operation_observed"
        [("domain", .str domain.name), ("sequence", .count sequence)]) ++
    logLine "durability_verify_complete" (verifierComplete observed) :: after.map OtherLine.line

/-- The baseline, a writer for each iteration, the verifier and the verdict of the host. -/
def crashCutVerdict (o : CrashCutOptions) (writers : ℕ → Writer) (paging : VerifierPaging)
    (state : RecoveredState) (before after : List OtherLine) : Except Thrown Unit := do
  let observed ← verifyDurabilityState o paging state
  verdict [(writers 0).log 0]
    ((List.range o.iterations).map fun i => (writers (i + 1)).log (i + 1))
    [verifierLog before after observed] o.iterations

end Durability

end FitzDestroyer
