import FitzDestroyer.Pressure.Queue
import FitzDestroyer.Pressure.Stages
import FitzDestroyer.Workload.Log

/-!
# Evidence of a pressure run

A bombard worker logs its counters when it stops; the host (`orchestration/pressure.ts`) reads
them back, looks for definite errors, and sums the stages of all clients.

* `stoppedLine` : what a worker logs;
* `analyzePressureLogs`, `parseStage` : what the host reads back;
* `pressureUnexpectedErrors` : the definite errors;
* `mergeStage`, `aggregateClients` : the sums;
* `StageCounter` : every counter of a stage.
-/

namespace FitzDestroyer

namespace Pressure

open Js Workload

/-! ### The log of a worker -/

/-- A number, as `JSON.stringify` prints it. -/
def jsonNumber : Number → Json
  | .fin q => .num (.fin q)
  | _ => .null

/-- `ALL_DOMAINS`. -/
def allDomains : List Domain := [.queue, .kv, .stream, .schedule, .notice, .lease, .rpc]

structure DomainCounter where
  success : ℕ
  error : ℕ

abbrev Counters := Domain → DomainCounter

def emptyCounters : Counters := fun _ => ⟨0, 0⟩

def LatencyHistogram.toJson (latency : LatencyHistogram) : Json := .obj
  [("count", .count latency.count), ("totalMs", jsonNumber latency.totalMs),
    ("maxMs", jsonNumber latency.maxMs), ("buckets", .arr (latency.buckets.map .count)),
    ("overflow", .count latency.overflow)]

def ShutdownCancellations.toJson (cancellations : ShutdownCancellations) : Json :=
  .obj [("failed", .count cancellations.failed), ("ambiguous", .count cancellations.ambiguous)]

def ErrorSample.toJson (sample : ErrorSample) : Json :=
  .obj [("class", .str sample.errorClass), ("error", .str sample.error)]

/-- A table of counters. -/
def countsJson (counts : Dict ℕ) : Json := .obj (counts.map fun p => (p.1, .count p.2))

def StageMetrics.toJson (m : StageMetrics) : Json := .obj
  [("started", .count m.started), ("succeeded", .count m.succeeded), ("failed", .count m.failed),
    ("ambiguous", .count m.ambiguous), ("retryableBackpressure", .count m.retryableBackpressure),
    ("expectedShutdownCancellations", m.expectedShutdownCancellations.toJson),
    ("latency", m.latency.toJson), ("errorClasses", countsJson m.errorClasses),
    ("errorSamples", .arr (m.errorSamples.map ErrorSample.toJson))]

def DomainCounter.toJson (counter : DomainCounter) : Json :=
  .obj [("success", .count counter.success), ("error", .count counter.error)]

def countersJson (counters : Counters) : Json :=
  .obj (allDomains.map fun domain => (domain.name, (counters domain).toJson))

/-- The stages of the domains that have one. -/
def stagesJson (stages : PressureStages) : Json :=
  .obj ((allDomains.filter fun domain => stages domain ≠ []).map fun domain =>
    (domain.name, .obj ((stages domain).map fun p => (p.1, p.2.toJson))))

def QueueOutcome.toJson (outcome : QueueOutcome) : Json := .obj
  [("acknowledged", .arr (outcome.acknowledged.map .count)),
    ("ambiguousEnqueues", .arr (outcome.ambiguousEnqueues.map .count)),
    ("failedEnqueues", .arr (outcome.failedEnqueues.map .count)),
    ("completed", .arr (outcome.completed.map .count)),
    ("ambiguousCompletions", .arr (outcome.ambiguousCompletions.map .count))]

/-- The last line of a bombard worker. -/
def stoppedLine (worker : RouteSegment) (totals : Counters) (stages : PressureStages)
    (queueOutcome : QueueOutcome) : LogLine :=
  logLine "stopped" [("worker", .str worker.text), ("totals", countersJson totals),
    ("stages", stagesJson stages), ("queueOutcome", queueOutcome.toJson)]

/-! ### Reading it back -/

/-- A stage of a client, or of all clients.  The histogram of its metrics is under
`latencyHistogram`. -/
structure EvidenceStage where
  metrics : StageMetrics
  latency : LatencySummary

structure EvidenceDomain where
  succeeded : ℕ
  failed : ℕ
  stages : Dict EvidenceStage

structure PressureClientEvidence where
  container : String
  worker : String
  domains : Domain → Option EvidenceDomain
  queueOutcome : Option QueueClientOutcome

def objectValue (value : Option Json) (label : String) : Except Thrown (Dict Json) :=
  match value with
  | some (.obj fields) => .ok fields
  | _ => .error (newError s!"{label} must be an object")

def numericArray (value : Option Json) (label : String) : Except Thrown (List ℕ) :=
  match value with
  | some (.arr items) => items.mapM fun item => numericValue (some item) label
  | _ => .error (newError s!"{label} must be an array")

def stringValue (value : Option Json) (label : String) : Except Thrown String :=
  match value.bind Json.text? with
  | some text => if text = "" then .error (newError s!"{label} must be a string") else .ok text
  | none => .error (newError s!"{label} must be a string")

/-- The number of a value, if it is finite and not negative. -/
def finiteNonNegative? : Option Json → Option Number
  | some (.num value) => if value.isFinite ∧ value.isNegative = false then some value else none
  | _ => none

def nonNegativeNumber (value : Option Json) (label : String) : Except Thrown Number :=
  match finiteNonNegative? value with
  | some value => .ok value
  | none => .error (newError s!"{label} must be a non-negative number")

def parseLatency (value : Option Json) (label : String) : Except Thrown LatencyHistogram := do
  let record ← objectValue value label
  let buckets ← numericArray (field record "buckets") s!"{label} buckets"
  Check.failIf (buckets.length ≠ latencyBucketUpperMs.length) (newError
    s!"{label} expected {latencyBucketUpperMs.length} buckets, found {buckets.length}")
  let count ← numericValue (field record "count") s!"{label}.count"
  let totalMs ← nonNegativeNumber (field record "totalMs") s!"{label}.totalMs"
  let maxMs ← nonNegativeNumber (field record "maxMs") s!"{label}.maxMs"
  let overflow ← numericValue (field record "overflow") s!"{label}.overflow"
  return ⟨count, totalMs, maxMs, buckets, overflow⟩

def parseErrorSample (label : String) (sample : Json × ℕ) : Except Thrown ErrorSample := do
  let item ← objectValue (some sample.1) s!"{label} error sample {sample.2}"
  let errorClass ← stringValue (field item "class") s!"{label} error sample class"
  let error ← stringValue (field item "error") s!"{label} error sample error"
  return ⟨errorClass, error⟩

/-- The items of an array, and of any other value none. -/
def itemsOf : Option Json → List Json
  | some (.arr items) => items
  | _ => []

/-- The counter of a field that may be missing. -/
def optionalCount (value : Option Json) (label : String) : Except Thrown ℕ :=
  match value with
  | none => .ok 0
  | some value => numericValue (some value) label

/-- The object of a field that may be missing: then both its counters are zero. -/
def shutdownCancellationsRecord (value : Option Json) (label : String) :
    Except Thrown (Dict Json) :=
  match value with
  | none => .ok [("failed", .count 0), ("ambiguous", .count 0)]
  | some value => objectValue (some value) label

def parseStage (value : Option Json) (label : String) : Except Thrown EvidenceStage := do
  let record ← objectValue value label
  let latencyHistogram ← parseLatency (field record "latency") s!"{label} latency"
  let errorClassesRecord ← objectValue (field record "errorClasses") s!"{label} error classes"
  -- The names of a table are different, so that every one of them is added.
  let errorClasses ← (Dict.entries errorClassesRecord).mapM fun p => do
    let count ← numericValue (some p.2) s!"{label} {p.1}"
    return (p.1, count)
  let errorSamples ← (itemsOf (field record "errorSamples")).zipIdx.mapM (parseErrorSample label)
  let shutdownCancellations ← shutdownCancellationsRecord
    (field record "expectedShutdownCancellations") s!"{label} expected shutdown cancellations"
  let started ← numericValue (field record "started") s!"{label}.started"
  let succeeded ← numericValue (field record "succeeded") s!"{label}.succeeded"
  let failed ← numericValue (field record "failed") s!"{label}.failed"
  let ambiguous ← numericValue (field record "ambiguous") s!"{label}.ambiguous"
  let retryableBackpressure ← optionalCount (field record "retryableBackpressure")
    s!"{label}.retryableBackpressure"
  let cancelledFailed ← numericValue (field shutdownCancellations "failed")
    s!"{label} shutdown cancellation failures"
  let cancelledAmbiguous ← numericValue (field shutdownCancellations "ambiguous")
    s!"{label} ambiguous shutdown cancellations"
  return {
    metrics := { started, succeeded, failed, ambiguous, retryableBackpressure,
                 expectedShutdownCancellations := ⟨cancelledFailed, cancelledAmbiguous⟩,
                 latency := latencyHistogram, errorClasses, errorSamples }
    latency := latencySummary latencyHistogram }

def parseQueueOutcome (worker : String) (value : Option Json) :
    Except Thrown QueueClientOutcome := do
  let record ← objectValue value s!"{worker} queue outcome"
  let acknowledged ← numericArray (field record "acknowledged") s!"{worker} acknowledged"
  let ambiguousEnqueues ← numericArray (field record "ambiguousEnqueues")
    s!"{worker} ambiguous enqueues"
  let failedEnqueues ← numericArray (field record "failedEnqueues") s!"{worker} failed enqueues"
  let completed ← numericArray (field record "completed") s!"{worker} completed"
  let ambiguousCompletions ← numericArray (field record "ambiguousCompletions")
    s!"{worker} ambiguous completions"
  return ⟨worker, numbers acknowledged, numbers ambiguousEnqueues, numbers failedEnqueues,
    numbers completed, numbers ambiguousCompletions⟩

/-- The evidence of one domain in `analyzePressureLogs`. -/
def parseDomain (worker : String) (totals stages : Dict Json) (domain : Domain) :
    Except Thrown EvidenceDomain := do
  let domainTotal ← objectValue (field totals domain.name) s!"{worker} {domain.name} totals"
  let domainStages ← objectValue (field stages domain.name) s!"{worker} {domain.name} stages"
  let parsedStages ← (Dict.entries domainStages).mapM fun p => do
    let stage ← parseStage (some p.2) s!"{worker} {domain.name}/{p.1}"
    return (p.1, stage)
  Check.failIf (parsedStages = []) (newError s!"{worker} {domain.name} omitted stage evidence")
  let succeeded ← numericValue (field domainTotal "success") s!"{worker} {domain.name}.success"
  let failed ← numericValue (field domainTotal "error") s!"{worker} {domain.name}.error"
  return ⟨succeeded, failed, parsedStages⟩

/-- The last record that a worker has stopped. -/
def stoppedRecord (log : Log) : Option Record :=
  (parseJsonRecords log).reverse.find? fun record => IsEvent record "stopped"

/-- The evidence of one log in `analyzePressureLogs`. -/
def analyzeLog (domains : List Domain) (container : String) (log : Log) :
    Except Thrown PressureClientEvidence :=
  match stoppedRecord log with
  | none => .error (newError s!"Bombard client {container} omitted stopped evidence")
  | some stopped => do
    let worker ← stringValue (field stopped "worker") s!"{container} worker"
    let totals ← objectValue (field stopped "totals") s!"{worker} totals"
    let stages ← objectValue (field stopped "stages") s!"{worker} stages"
    let clientDomains ← domains.foldlM (fun clientDomains domain => do
      let evidence ← parseDomain worker totals stages domain
      return Function.update clientDomains domain (some evidence)) fun _ => none
    if .queue ∈ domains then
      let queueOutcome ← parseQueueOutcome worker (field stopped "queueOutcome")
      return ⟨container, worker, clientDomains, some queueOutcome⟩
    else return ⟨container, worker, clientDomains, none⟩

def analyzePressureLogs (logs : List (String × Log)) (domains : List Domain) :
    Except Thrown (List PressureClientEvidence) :=
  logs.mapM fun p => analyzeLog domains p.1 p.2

/-- The clients of `runPressureScenario`: none, if a log cannot be read. -/
def pressureClients (logs : List (String × Log)) (domains : List Domain) :
    List PressureClientEvidence :=
  match analyzePressureLogs logs domains with
  | .ok clients => clients
  | .error _ => []

/-! ### Errors -/

/-- The errors of a domain that the verdict counts.  Queue outcomes are reconciled after the run
and Stream outcomes inline, so that only definite stage failures count there. -/
def unexpectedErrors (domain : Domain) (evidence : Option EvidenceDomain) : ℕ :=
  if domain = .queue ∨ domain = .stream then
    evidence.elim 0 fun e => (e.stages.map fun p => p.2.metrics.failed).sum
  else evidence.elim 0 EvidenceDomain.failed

def pressureUnexpectedErrors (clients : List PressureClientEvidence) (domains : List Domain) :
    List String :=
  clients.flatMap fun client => domains.flatMap fun domain =>
    let count := unexpectedErrors domain (client.domains domain)
    if count = 0 then [] else [s!"{client.worker}/{domain.name}={count}"]

/-! ### Sums -/

def emptyEvidenceStage : EvidenceStage := ⟨createStageMetrics, latencySummary .empty⟩

/-- One name of the loop over `source.errorClasses`. -/
def addErrorClass (errorClasses : Dict ℕ) (p : String × ℕ) : Dict ℕ :=
  errorClasses.set p.1 ((errorClasses.get? p.1).getD 0 + p.2)

def mergeStage (target source : EvidenceStage) : Except Thrown EvidenceStage := do
  let t := target.metrics
  let s := source.metrics
  let latency ← mergeLatencyHistograms [t.latency, s.latency]
  return { target with metrics := {
    started := t.started + s.started
    succeeded := t.succeeded + s.succeeded
    failed := t.failed + s.failed
    ambiguous := t.ambiguous + s.ambiguous
    retryableBackpressure := t.retryableBackpressure + s.retryableBackpressure
    expectedShutdownCancellations :=
      ⟨t.expectedShutdownCancellations.failed + s.expectedShutdownCancellations.failed,
        t.expectedShutdownCancellations.ambiguous + s.expectedShutdownCancellations.ambiguous⟩
    latency
    errorClasses := (Dict.entries s.errorClasses).foldl addErrorClass t.errorClasses
    errorSamples := (t.errorSamples ++ s.errorSamples).take 10 } }

/-- One stage of one client in `aggregateClients`. -/
def addStage (stages : Dict EvidenceStage) (p : String × EvidenceStage) :
    Except Thrown (Dict EvidenceStage) := do
  let current ← mergeStage ((stages.get? p.1).getD emptyEvidenceStage) p.2
  return stages.set p.1 current

/-- One client in `aggregateClients`. -/
def addClient (domain : Domain) (sum : EvidenceDomain) (client : PressureClientEvidence) :
    Except Thrown EvidenceDomain :=
  match client.domains domain with
  | none => .ok sum
  | some evidence => do
    let stages ← (Dict.entries evidence.stages).foldlM addStage sum.stages
    return ⟨sum.succeeded + evidence.succeeded, sum.failed + evidence.failed, stages⟩

/-- The summaries at the end of `aggregateClients`. -/
def EvidenceDomain.summarize (evidence : EvidenceDomain) : EvidenceDomain :=
  { evidence with stages := evidence.stages.map fun p =>
      (p.1, { p.2 with latency := latencySummary p.2.metrics.latency }) }

/-- One domain of `aggregateClients`. -/
def aggregateDomain (clients : List PressureClientEvidence) (domain : Domain) :
    Except Thrown EvidenceDomain := do
  let sum ← clients.foldlM (addClient domain) ⟨0, 0, []⟩
  return sum.summarize

def aggregateClients (clients : List PressureClientEvidence) (domains : List Domain) :
    Except Thrown (List (Domain × EvidenceDomain)) :=
  domains.mapM fun domain => do
    let evidence ← aggregateDomain clients domain
    return (domain, evidence)

end Pressure

end FitzDestroyer
