import FitzDestroyer.Js.Rounding
import FitzDestroyer.Pressure.Guidance

/-!
# The rating of a pressure run

`extractPressureGuidance` (`src/operational-guidance.ts`) turns the evidence of a pressure run
into metrics and an advisory rating.

* `OperationalGuidance` : metrics, rating and pressure detail of a scenario;
* `stageConstrained`, `stageWatch`, `warningWatch` : the reasons of a rating;
* `extractPressureGuidance` : the guidance from the evidence.
-/

namespace FitzDestroyer

namespace Pressure

open Js Workload

namespace Guidance

/-! ### Metrics -/

inductive GuidanceRating where
  | clear
  | watch
  | constrained
  | notRated
  deriving DecidableEq, Repr

structure CompletionSemantics where
  key : String
  label : String

structure CountMetric where
  key : String
  label : String
  value : ℤ
  unit : String
  completionSemantics : String

structure RateMetric where
  key : String
  label : String
  count : ℕ
  durationMs : Number
  valuePerSecond : Number
  unit : String
  completionSemantics : String

structure LatencyMetric where
  key : String
  label : String
  statistic : String
  valueMs : Number

structure BandwidthMetric where
  key : String
  label : String
  bytes : ℕ
  durationMs : Number
  bytesPerSecond : Number
  completionSemantics : String

structure RecoveryMetric where
  key : String
  label : String
  durationMs : Number

structure MetricCollections where
  completionSemantics : List CompletionSemantics
  counts : List CountMetric
  rates : List RateMetric
  latencies : List LatencyMetric
  bandwidth : List BandwidthMetric
  recoveries : List RecoveryMetric

structure Rating where
  value : GuidanceRating
  reasons : List String

structure OperationalGuidance extends MetricCollections where
  workloadDurationMs : Option Number
  rating : Rating
  pressureDomains : List PressureDomainSummary

def mutableMetrics : MetricCollections := ⟨[], [], [], [], [], []⟩

def emptyGuidance (workloadDurationMs : Option Number) (reason : String) :
    OperationalGuidance where
  toMetricCollections := mutableMetrics
  workloadDurationMs
  rating := ⟨.notRated, [reason]⟩
  pressureDomains := []

def addCount (m : MetricCollections) (key label : String) (value : ℤ) (unit semantics : String) :
    MetricCollections :=
  { m with
    counts := m.counts ++ [⟨key, label, value, unit, semantics⟩]
    completionSemantics :=
      if m.completionSemantics.any fun item => item.key = key then m.completionSemantics
      else m.completionSemantics ++ [⟨key, semantics⟩] }

def addCountAndRate (m : MetricCollections) (key label : String) (value : ℕ)
    (unit semantics : String) (durationMs : Number) : MetricCollections :=
  let counted := addCount m key label value unit semantics
  match observedRate value durationMs with
  | none => counted
  | some rate => { counted with
      rates := counted.rates ++ [⟨key, label, value, durationMs, rate, s!"{unit}/s", semantics⟩] }

/-- `capitalize`, for the name of a domain. -/
def capitalize (value : String) : String :=
  String.ofList ((value.toList.take 1).map Char.toUpper ++ value.toList.drop 1)

def stageLatencies (domain : Domain) (stage : PressureStageSummary) : List LatencyMetric :=
  [("mean", stage.latency.meanMs), ("p50", stage.latency.p50Ms), ("p95", stage.latency.p95Ms),
    ("p99", stage.latency.p99Ms), ("max", stage.latency.maxMs)].map fun p =>
    ⟨s!"{domain.name}-{stage.stage}-{p.1}", s!"{domain.name}/{stage.stage} {p.1}", p.1, p.2⟩

/-- The metrics of a domain. -/
def addDomain (durationMs : Number) (m : MetricCollections) (d : PressureDomainSummary) :
    MetricCollections :=
  let name := d.domain.name
  let counted := addCountAndRate m s!"{name}-operations" s!"{capitalize name} operations"
    d.completedOperations "operations" d.completionSemantics durationMs
  let errors := addCount counted s!"{name}-errors" s!"{capitalize name} errors" d.errors "errors"
    "definite workload errors excluding expected shutdown cancellations"
  { errors with latencies := errors.latencies ++ d.stages.flatMap (stageLatencies d.domain) }

/-! ### Reading the evidence -/

def positiveNumberField (record : Record) (name : String) : Except Thrown ℕ := do
  let value ← numberField record name
  Check.failIf (value = 0) (newError s!"{name} must be greater than zero")
  return value

def stringField (record : Record) (name : String) : Except Thrown String :=
  match ((field record name).bind Json.text?).filter fun text => text ≠ "" with
  | some text => .ok text
  | none => .error (newError s!"{name} was not a string")

def domainItem (item : Json) : Except Thrown Domain :=
  match allDomains.find? fun domain => item.text? = some domain.name with
  | some domain => .ok domain
  | none => .error (newError ("selectedDomains contained " ++ item.asText))

def domainArray (value : Option Json) : Except Thrown (List Domain) :=
  match value with
  | some (.arr items) => items.mapM domainItem
  | _ => .error (newError "selectedDomains must be an array")

/-- What is disclosed about the growth of the memory. -/
def rssDisclosures (evidence : Record) : Except Thrown (List String) :=
  match field evidence "rssGrowthAssessment" with
  | none => .ok []
  | some value => do
    let assessment ← recordValue (some value) "RSS growth assessment"
    let status ← stringField assessment "status"
    if status = "not-assessed" then
      let reason ← stringField assessment "reason"
      return [s!"RSS growth was not assessed: {reason}"]
    else if status ≠ "assessed" then
      throw (newError s!"RSS growth assessment had unknown status {status}")
    else return []

/-! ### Reasons -/

/-- `timeout / parts`. -/
def timeoutPart (requestTimeoutMs parts : ℕ) : Number := (requestTimeoutMs : Number).div parts

def stageConstrained (requestTimeoutMs : ℕ) (domain : Domain) (stage : PressureStageSummary) :
    List String :=
  let label := s!"{domain.name}/{stage.stage}"
  let p95 := numberText stage.latency.p95Ms
  (if 0 < stage.errors then [s!"{label} recorded {stage.errors} definite workload errors"]
    else []) ++
  if stage.latency.p95Ms.greater (timeoutPart requestTimeoutMs 2) then
    [s!"{label} p95 {p95} ms exceeded 50% of the {requestTimeoutMs} ms request timeout"]
  else []

def stageWatch (requestTimeoutMs : ℕ) (domain : Domain) (stage : PressureStageSummary) :
    List String :=
  let label := s!"{domain.name}/{stage.stage}"
  let p95 := numberText stage.latency.p95Ms
  if stage.latency.p95Ms.greater (timeoutPart requestTimeoutMs 2) then []
  else if stage.latency.p95Ms.greater (timeoutPart requestTimeoutMs 4) then
    [s!"{label} p95 {p95} ms exceeded 25% of the {requestTimeoutMs} ms request timeout"]
  else []

def warningWatch (code : String) : List String :=
  (if code = "pending-growth" then ["Broker pending work grew through the final samples"]
    else []) ++
  if code = "rss-growth" then ["Post-warmup Fitz RSS growth crossed the diagnostic signal"]
  else []

/-- The reasons of every stage. -/
def stageReasons (reasons : Domain → PressureStageSummary → List String)
    (pressureDomains : List PressureDomainSummary) : List String :=
  pressureDomains.flatMap fun d => d.stages.flatMap fun stage => reasons d.domain stage

def rate (constrained watch disclosures : List String) : Rating :=
  if constrained ≠ [] then ⟨.constrained, constrained ++ watch ++ disclosures⟩
  else if watch ≠ [] then ⟨.watch, watch ++ disclosures⟩
  else ⟨.clear, "No saturation signals at the observed rate." :: disclosures⟩

section Extract

variable (localeCompare : String → String → Ordering)

/-- `extractPressureGuidance`, on the contents of `pressure-evidence.json`. -/
def extractPressureGuidance (value : Json) (workloadDurationMs : Option Number) :
    Except Thrown OperationalGuidance := do
  let evidence ← recordValue (some value) "pressure evidence"
  let durationMs ← positiveNumberField evidence "durationMs"
  let requestTimeoutMs ← positiveNumberField evidence "requestTimeoutMs"
  let selectedDomains ← domainArray (field evidence "selectedDomains")
  Check.failIf (selectedDomains = []) (newError "selectedDomains was empty")
  let aggregate ← recordField evidence "aggregate"
  let pressureDomains ← selectedDomains.mapM fun domain =>
    parsePressureDomain localeCompare domain (field aggregate domain.name) durationMs
  let brokerSummary ← recordField evidence "brokerSummary"
  let ingressTimeouts ← numberField brokerSummary "ingressDispatchTimeoutsDelta"
  let routerNormal ← numberField brokerSummary "routerBackpressureDelta"
  let routerHighLane ← optionalNumberField brokerSummary "routerHighLaneBackpressureDelta"
  let routerBackpressure := routerNormal + routerHighLane
  let items ← arrayField evidence "warnings"
  let warnings ← items.mapM fun item => recordValue (some item) "pressure warning"
  let disclosures ← rssDisclosures evidence
  let codes ← warnings.mapM fun warning => stringField warning "code"
  let constrained := stageReasons (stageConstrained requestTimeoutMs) pressureDomains ++
    (if 0 < ingressTimeouts then [s!"Ingress dispatch timeouts increased by {ingressTimeouts}"]
      else []) ++
    if 0 < routerBackpressure then [s!"Router backpressure increased by {routerBackpressure}"]
    else []
  let watch := stageReasons (stageWatch requestTimeoutMs) pressureDomains ++
    codes.flatMap warningWatch
  return {
    toMetricCollections := pressureDomains.foldl (addDomain durationMs) mutableMetrics
    workloadDurationMs
    rating := rate constrained watch disclosures
    pressureDomains }

end Extract

end Guidance

end Pressure

end FitzDestroyer
