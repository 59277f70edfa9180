import FitzDestroyer.Pressure.Evidence

/-!
# Guidance from pressure evidence

The report reads the evidence of a run back (`src/operational-guidance.ts`), checks its equations
again, and subtracts the errors that the shutdown of the clients has caused.

* `EvidenceDomain.toJson` : the evidence of a domain, as it is written;
* `latencyHistogram`, `expectedShutdownCancellations` : the checks of a stage;
* `parsePressureDomain` : the summary of a domain.
-/

namespace FitzDestroyer

namespace Pressure

open Js Workload

/-! ### The evidence that is written -/

def LatencySummary.toJson (latency : LatencySummary) : Json := .obj
  [("count", .count latency.count), ("meanMs", jsonNumber latency.meanMs),
    ("p50Ms", jsonNumber latency.p50Ms), ("p95Ms", jsonNumber latency.p95Ms),
    ("p99Ms", jsonNumber latency.p99Ms), ("maxMs", jsonNumber latency.maxMs)]

/-- The evidence of a stage.  A legacy record does not tell the errors of the shutdown apart. -/
def EvidenceStage.toJson (legacy : Bool) (stage : EvidenceStage) : Json :=
  let m := stage.metrics
  .obj ([("started", .count m.started), ("succeeded", .count m.succeeded),
    ("failed", .count m.failed), ("ambiguous", .count m.ambiguous),
    ("retryableBackpressure", .count m.retryableBackpressure),
    ("latencyHistogram", m.latency.toJson), ("latency", stage.latency.toJson),
    ("errorClasses", countsJson m.errorClasses),
    ("errorSamples", .arr (m.errorSamples.map ErrorSample.toJson))] ++
    if legacy then []
    else [("expectedShutdownCancellations", m.expectedShutdownCancellations.toJson)])

def EvidenceDomain.toJson (legacy : Bool) (evidence : EvidenceDomain) : Json := .obj
  [("succeeded", .count evidence.succeeded), ("failed", .count evidence.failed),
    ("stages", .obj (evidence.stages.map fun p => (p.1, p.2.toJson legacy)))]

namespace Guidance

/-! ### Fields -/

def recordValue (value : Option Json) (label : String) : Except Thrown (Dict Json) :=
  match value with
  | some (.obj fields) => .ok fields
  | _ => .error (newError s!"{label} was not an object")

def recordField (record : Record) (name : String) : Except Thrown (Dict Json) :=
  recordValue (field record name) name

def arrayField (record : Record) (name : String) : Except Thrown (List Json) :=
  match field record name with
  | some (.arr items) => .ok items
  | _ => .error (newError s!"{name} was not an array")

def nonNegativeInteger (value : Option Json) (label : String) : Except Thrown ℕ :=
  match value.bind Json.sequence? with
  | some n => .ok n
  | none => .error (newError s!"{label} was not a non-negative integer")

def numberField (record : Record) (name : String) : Except Thrown ℕ :=
  nonNegativeInteger (field record name) name

def optionalNumberField (record : Record) (name : String) : Except Thrown ℕ :=
  if (field record name).isNone then .ok 0 else numberField record name

def nonNegativeNumber (value : Option Json) (label : String) : Except Thrown Number :=
  match finiteNonNegative? value with
  | some value => .ok value
  | none => .error (newError s!"{label} was not a non-negative number")

/-! ### A stage -/

def latencyHistogram (value : Option Json) (label : String) : Except Thrown LatencyHistogram := do
  let record ← recordValue value label
  let items ← arrayField record "buckets"
  let buckets ← items.mapM fun item => nonNegativeInteger (some item) s!"{label} bucket"
  Check.failIf (buckets.length ≠ latencyBucketUpperMs.length) (newError
    s!"{label} expected {latencyBucketUpperMs.length} buckets, found {buckets.length}")
  let count ← numberField record "count"
  let overflow ← numberField record "overflow"
  Check.failIf (buckets.sum + overflow ≠ count) (newError
    s!"{label} count did not match its buckets and overflow")
  let totalMs ← nonNegativeNumber (field record "totalMs") s!"{label}.totalMs"
  let maxMs ← nonNegativeNumber (field record "maxMs") s!"{label}.maxMs"
  return ⟨count, totalMs, maxMs, buckets, overflow⟩

/-- The sample of a legacy record has the text of a signal, and another class than
`cancelled`. -/
def isLegacySignal : Json → Bool
  | .obj sample =>
    (field sample "class").bind Json.text? ≠ some "cancelled" &&
      match (field sample "error").bind Json.text? with
      | some error => receivedSignal.test error
      | none => false
  | _ => false

def legacySignalCancellations (value : Option Json) : ℕ := (itemsOf value).countP isLegacySignal

def expectedShutdownCancellations (value : Option Json) (failed ambiguous legacyCancelled : ℕ)
    (legacyErrorSamples : Option Json) (label : String) : Except Thrown ShutdownCancellations :=
  match value with
  | none =>
    let inferredTotal := min (failed + ambiguous)
      (legacyCancelled + legacySignalCancellations legacyErrorSamples)
    let inferredAmbiguous := min ambiguous inferredTotal
    .ok ⟨min failed (inferredTotal - inferredAmbiguous), inferredAmbiguous⟩
  | some value => do
    let record ← recordValue (some value) s!"{label} expectedShutdownCancellations"
    let expectedFailed ← numberField record "failed"
    let expectedAmbiguous ← numberField record "ambiguous"
    Check.failIf (expectedFailed > failed ∨ expectedAmbiguous > ambiguous) (newError
      s!"{label} expected shutdown cancellations exceeded recorded outcomes")
    return ⟨expectedFailed, expectedAmbiguous⟩

structure PressureStageSummary where
  stage : String
  started : ℕ
  succeeded : ℕ
  errors : ℤ
  ambiguousOutcomes : ℕ
  expectedCancellations : ℕ
  latency : LatencySummary

/-- A stage of `parsePressureDomain`. -/
def parseStageSummary (domain : Domain) (p : String × Json) :
    Except Thrown PressureStageSummary := do
  let label := s!"{domain.name}/{p.1}"
  let record ← recordValue (some p.2) label
  let histogram ← latencyHistogram (field record "latencyHistogram") s!"{label} latencyHistogram"
  let errorClasses ← recordField record "errorClasses"
  let failed ← numberField record "failed"
  let ambiguous ← numberField record "ambiguous"
  let cancelled ← optionalNumberField errorClasses "cancelled"
  let shutdownCancellations ← expectedShutdownCancellations
    (field record "expectedShutdownCancellations") failed ambiguous cancelled
    (field record "errorSamples") label
  let started ← numberField record "started"
  let succeeded ← numberField record "succeeded"
  return {
    stage := p.1
    started
    succeeded
    errors := failed - shutdownCancellations.failed
    ambiguousOutcomes := ambiguous
    expectedCancellations := shutdownCancellations.failed + shutdownCancellations.ambiguous
    latency := latencySummary histogram }

/-! ### A domain -/

/-- `observedRate`, for a count. -/
def observedRate (count : ℕ) (durationMs : Number) : Option Number :=
  if durationMs.isFinite = false ∨ durationMs.le (.fin 0) then none
  else some (roundMs ((count : Number).div (durationMs.div (1000 : ℕ))))

def completionSemanticsForDomain : Domain → String
  | .queue => "completed Queue enqueue/reserve/completion loops"
  | .kv => "committed KV transactions"
  | .stream => "committed Stream append sessions"
  | .schedule => "accepted durable Schedule upserts"
  | .notice => "publisher acceptance, not confirmed fanout"
  | .lease => "completed Lease acquire/release cycles"
  | .rpc => "completed RPC calls with a response"

structure PressureDomainSummary where
  domain : Domain
  completionSemantics : String
  completedOperations : ℕ
  observedOperationsPerSecond : Number
  errors : ℤ
  ambiguousOutcomes : ℕ
  expectedCancellations : ℕ
  slowestStage : String
  stages : List PressureStageSummary

section Domain

variable (localeCompare : String → String → Ordering)

/-- The order of the slowest stages: a longer time at the 95th percentile comes first. -/
def slower (left right : PressureStageSummary) : Bool :=
  if left.latency.p95Ms = right.latency.p95Ms then (localeCompare left.stage right.stage).isLE
  else right.latency.p95Ms.le left.latency.p95Ms

/-- `localeCompare` is the collation of the host. -/
def parsePressureDomain (domain : Domain) (value : Option Json) (durationMs : Number) :
    Except Thrown PressureDomainSummary := do
  let evidence ← recordValue value s!"{domain.name} pressure evidence"
  let completedOperations ← numberField evidence "succeeded"
  let stagesRecord ← recordField evidence "stages"
  let entries := (Dict.entries stagesRecord).mergeSort fun p q => (localeCompare p.1 q.1).isLE
  let stages ← entries.mapM (parseStageSummary domain)
  match stages.mergeSort (slower localeCompare) with
  | [] => throw (newError s!"{domain.name} omitted stage evidence")
  | slowest :: _ =>
    match observedRate completedOperations durationMs with
    | none => throw (newError s!"{domain.name} observed rate could not be calculated")
    | some rate => return {
        domain
        completionSemantics := completionSemanticsForDomain domain
        completedOperations
        observedOperationsPerSecond := rate
        errors := (stages.map PressureStageSummary.errors).sum
        ambiguousOutcomes := (stages.map PressureStageSummary.ambiguousOutcomes).sum
        expectedCancellations := (stages.map PressureStageSummary.expectedCancellations).sum
        slowestStage := slowest.stage
        stages }

end Domain

end Guidance

end Pressure

end FitzDestroyer
