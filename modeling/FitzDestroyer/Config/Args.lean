import FitzDestroyer.Pressure.Evidence
import FitzDestroyer.Scenario.Names

/-!
# The command line

`parseArgs` (`config.ts`) reads the options of a run: the defaults come from a preset, and every
number is checked against its range.

* `parseArgs` : the configuration of a run, but for the directories of the installation;
* `RunConfig.InRange` : the ranges;
* `parseArgs_inRange` : every configuration that is admitted is in range.
-/

namespace FitzDestroyer

namespace Config

open Js Pressure Scenario

/-! ### Configurations -/

inductive ScaleName where
  | smoke
  | standard
  | large
  deriving DecidableEq, Repr

inductive ClientProfile where
  | endToEnd
  | brokerIsolation
  deriving DecidableEq, Repr

/-- What a preset decides. -/
structure Scale where
  resources : ℕ
  entriesPerResource : ℕ
  payloadBytes : ℕ
  liveConcurrency : ℕ
  handlerDelayMs : ℕ
  rpcStreamCalls : ℕ
  rpcStreamFrames : ℕ
  rpcStreamFrameBytes : ℕ
  rpcStreamReaderDelayMs : ℕ
  scheduleLeadMs : ℕ
  iterations : ℕ
  deriving DecidableEq

structure RunConfig extends Scale where
  scenario : ScenarioName
  scale : ScaleName
  seed : ℕ
  port : ℕ
  startupTimeoutMs : ℕ
  requestTimeoutMs : ℕ
  clientReplicas : ℕ
  phaseMs : ℕ
  durationMs : ℕ
  sampleMs : ℕ
  keep : Bool
  bombardDomains : List Domain
  clientProfile : ClientProfile
  fitzImage : Option String
  upgradeFromImage : Option String
  destroyerImage : Option String

def rpcStreamMaxFrameBytes : ℕ := 65506

def defaultRequestTimeoutMs : ℕ := 10000

/-- `SCALE_PRESETS`. -/
def scalePresets : ScaleName → Scale
  | .smoke => {
      resources := 2
      entriesPerResource := 20
      payloadBytes := 256
      liveConcurrency := 8
      handlerDelayMs := 1
      rpcStreamCalls := 2
      rpcStreamFrames := 100
      rpcStreamFrameBytes := 1024
      rpcStreamReaderDelayMs := 1
      scheduleLeadMs := 45000
      iterations := 8 }
  | .standard => {
      resources := 10
      entriesPerResource := 1000
      payloadBytes := 1024
      liveConcurrency := 64
      handlerDelayMs := 2
      rpcStreamCalls := 25
      rpcStreamFrames := 1000
      rpcStreamFrameBytes := rpcStreamMaxFrameBytes
      rpcStreamReaderDelayMs := 1
      scheduleLeadMs := 120000
      iterations := 32 }
  | .large => {
      resources := 10
      entriesPerResource := 5000
      payloadBytes := 1024
      liveConcurrency := 128
      handlerDelayMs := 2
      rpcStreamCalls := 100
      rpcStreamFrames := 5000
      rpcStreamFrameBytes := rpcStreamMaxFrameBytes
      rpcStreamReaderDelayMs := 2
      scheduleLeadMs := 300000
      iterations := 100 }

/-- `USAGE`. -/
def usage : String := "\n".intercalate [
  "fitz-destroyer <clean-restart|cache-loss|chaos|durability-crash-cuts|" ++
    "queue-overload-recovery|response-loss|active-graceful-shutdown|half-open-session|" ++
    "authorization-isolation|stream-global-recovery|queue-dead-letter-fencing|" ++
    "cold-boot-provider-outage|hostile-rpc-worker|upgrade-recovery|cross-transport-recovery|" ++
    "outbound-blackhole|broker-pause|route-cardinality-churn|cache-and-disk-exhaustion|" ++
    "hot-route-canary|lease-contention|notice-fanout|protocol-abuse|queue-redelivery|" ++
    "schedule-delivery|schedule-due-storm-isolation|session-boundaries|rpc-pressure|" ++
    "rpc-stream-hose|connection-storm|domain-pressure|soak|storage-faults|queue-lifecycle|" ++
    "schedule-outage|transaction-contention|stream-replay|live-churn|lease-route-aliasing|" ++
    "tcp-preauth-framing-slowloris|connect-pipeline-family-rebind|" ++
    "ephemeral-reply-loss-cleanup|saturated-slow-recipient-isolation|" ++
    "shutdown-reconnect-cleanup-storm|control-lane-cleanup-under-saturation|" ++
    "route-family-isolation-matrix|rpc-response-state-conformance|" ++
    "response-envelope-boundaries|lease-waiter-disconnect-races|" ++
    "wildcard-registration-quota-reclamation|stream-selector-cursor-conformance|" ++
    "same-shard-family-fairness|actor-supervision-failpoint|" ++
    "family-actor-partial-failure-isolation|same-shard-family-failure-isolation|" ++
    "family-actor-exhaustion-readiness|family-actor-degradation-observability|" ++
    "family-actor-inflight-concurrent-failure|all> [options]",
  "",
  "  --scale <smoke|standard|large>  Workload preset (default: smoke)",
  "  --resources <n>                 Families per durable domain",
  "  --entries <n>                   Entries per family",
  "  --payload-bytes <n>             Value/body size",
  "  --seed <n>                      Deterministic unsigned 32-bit seed",
  "  --port <n>                      Loopback Fitz HTTP port (default: 4390)",
  "  --startup-timeout-ms <n>        Readiness deadline (default: 180000)",
  "  --clients <n>                   Bombard client replicas (default: 4)",
  "  --phase-ms <n>                  Healthy traffic time around faults (default: 5000)",
  "  --duration-ms <n>               Soak duration (default: 900000)",
  "  --sample-ms <n>                 Soak/broker sampling interval (default: 1000)",
  "  --iterations <n>                Deterministic fault iterations (scale default)",
  "  --concurrency <n>               Live operations per producer/caller (scale default)",
  "  --handler-delay-ms <n>          Live consumer/worker delay (scale default)",
  "  --schedule-lead-ms <n>          Minimum lead before the due minute (scale default)",
  "  --domains <list>                Bombard domains (default: all seven)",
  "  --client-profile <name>         end-to-end or broker-isolation (default: end-to-end)",
  "  --rpc-stream-calls <n>          Streaming RPC calls per caller (scale default)",
  "  --rpc-stream-frames <n>         Response frames per streaming call (scale default)",
  "  --rpc-stream-frame-bytes <n>    Bytes per streaming response frame (scale default)",
  "  --rpc-stream-reader-delay-ms <n> Delay after each received frame (scale default)",
  "  --keep                          Preserve a successful Compose stack"]

/-! ### Options -/

/-- `text.startsWith("--")`. -/
def isOption (text : String) : Bool := "--".toList.isPrefixOf text.toList

/-- The loop over the arguments after the scenario. -/
def readOptions (values : JsMap String String) (keep : Bool) :
    List String → Except Thrown (JsMap String String × Bool)
  | [] => .ok (values, keep)
  | [arg] =>
    if arg = "--keep" then .ok (values, true)
    else if arg = "--help" ∨ arg = "-h" then .error (newError usage)
    else if isOption arg then .error (newError s!"Missing value for {arg}")
    else .error (newError s!"Unexpected argument: {arg}")
  | arg :: next :: args =>
    if arg = "--keep" then readOptions values true (next :: args)
    else if arg = "--help" ∨ arg = "-h" then .error (newError usage)
    else if isOption arg then
      if isOption next then .error (newError s!"Missing value for {arg}")
      else readOptions (values.set arg next) keep args
    else .error (newError s!"Unexpected argument: {arg}")

def known : List String := [
  "--scale", "--resources", "--entries", "--payload-bytes", "--seed", "--port",
  "--startup-timeout-ms", "--clients", "--phase-ms", "--duration-ms", "--sample-ms",
  "--iterations", "--concurrency", "--handler-delay-ms", "--schedule-lead-ms", "--domains",
  "--client-profile", "--rpc-stream-calls", "--rpc-stream-frames", "--rpc-stream-frame-bytes",
  "--rpc-stream-reader-delay-ms"]

/-- An integer between two bounds, if it is given. -/
def boundedInteger (raw : Option String) (name : String) (fallback minimum maximum : ℕ) :
    Except Thrown ℕ :=
  match raw with
  | none => .ok fallback
  | some text =>
    match (Number.ofText text.toList).sequence?.filter fun n => minimum ≤ n ∧ n ≤ maximum with
    | some n => .ok n
    | none => .error (newError s!"{name} must be an integer between {minimum} and {maximum}")

def integerOption (values : JsMap String String) (name : String)
    (fallback minimum maximum : ℕ) : Except Thrown ℕ :=
  boundedInteger (values.get? name) name fallback minimum maximum

def environmentInteger (env : String → Option String) (name : String)
    (fallback minimum maximum : ℕ) : Except Thrown ℕ :=
  boundedInteger (env name) name fallback minimum maximum

def scenarioName? (value : String) : Option ScenarioName :=
  if value = "all" then some .all
  else (allScenarios.find? fun scenario => scenario.name = value).map .concrete

def scaleName? (value : String) : Option ScaleName :=
  if value = "smoke" then some .smoke
  else if value = "standard" then some .standard
  else if value = "large" then some .large
  else none

def clientProfile? (value : String) : Option ClientProfile :=
  if value = "end-to-end" then some .endToEnd
  else if value = "broker-isolation" then some .brokerIsolation
  else none

/-- A value that must be one of some. -/
def required {α : Type} (value : Option α) (failure : String) : Except Thrown α :=
  match value with
  | some a => .ok a
  | none => .error (newError failure)

def parseDomain (raw : List Char) : Except Thrown Domain :=
  let text := String.ofList (trim raw)
  let shown := if text = "" then "<empty>" else text
  let all := ",".intercalate (allDomains.map Domain.name)
  required (allDomains.find? fun domain => domain.name = text) (
    s!"Domain selection contains '{shown}'; " ++ s!"expected a comma-separated subset of {all}")

def parseDomainSelection (value : Option String) : Except Thrown (List Domain) :=
  match value.filter fun text => trim text.toList ≠ [] with
  | none => .ok allDomains
  | some text => do
    let selected ← (text.toList.splitOn ',').mapM parseDomain
    return allDomains.filter fun domain => domain ∈ selected

/-- `env.X?.trim() || undefined`. -/
def imageName (value : Option String) : Option String :=
  (value.map fun text => String.ofList (trim text.toList)).filter fun text => text ≠ ""

def parseArgs (argv : List String) (env : String → Option String) : Except Thrown RunConfig := do
  let scenario ← required (argv.head?.bind scenarioName?)
    s!"Missing or invalid scenario.\n\n{usage}"
  let (values, keep) ← readOptions .empty false argv.tail
  Check.forEach (values.entries.map Prod.fst) fun key =>
    Check.failIf (key ∉ known) (newError s!"Unknown option: {key}")
  let scaleValue := (values.get? "--scale").getD "smoke"
  let scale ← required (scaleName? scaleValue) s!"Invalid scale: {scaleValue}"
  let preset := scalePresets scale
  let profile := (values.get? "--client-profile").getD "end-to-end"
  let clientProfile ← required (clientProfile? profile) s!"Invalid client profile: {profile}"
  let durationMs ← integerOption values "--duration-ms" 900000 1000 86400000
  let sampleMs ← integerOption values "--sample-ms" 1000 100 60000
  Check.failIf (durationMs < sampleMs) (newError "--sample-ms must not exceed --duration-ms")
  let resources ← integerOption values "--resources" preset.resources 1 10000
  let entriesPerResource ← integerOption values "--entries" preset.entriesPerResource 1 10000000
  let payloadBytes ← integerOption values "--payload-bytes" preset.payloadBytes 32 8000000
  let seed ← integerOption values "--seed" 424242 0 0xFFFFFFFF
  let port ← integerOption values "--port" 4390 1 65535
  let startupTimeoutMs ← integerOption values "--startup-timeout-ms" 180000 1000 3600000
  let requestTimeoutMs ← environmentInteger env "DESTROYER_REQUEST_TIMEOUT_MS"
    defaultRequestTimeoutMs 100 600000
  let clientReplicas ← integerOption values "--clients" 4 1 100
  let phaseMs ← integerOption values "--phase-ms" 5000 1000 600000
  let iterations ← integerOption values "--iterations" preset.iterations 1 10000
  let liveConcurrency ← integerOption values "--concurrency" preset.liveConcurrency 1 1024
  let handlerDelayMs ← integerOption values "--handler-delay-ms" preset.handlerDelayMs 0 60000
  let scheduleLeadMs ← integerOption values "--schedule-lead-ms" preset.scheduleLeadMs
    10000 3600000
  let rpcStreamCalls ← integerOption values "--rpc-stream-calls" preset.rpcStreamCalls 1 1000000
  let rpcStreamFrames ← integerOption values "--rpc-stream-frames" preset.rpcStreamFrames
    2 10000000
  let rpcStreamFrameBytes ← integerOption values "--rpc-stream-frame-bytes"
    preset.rpcStreamFrameBytes 64 rpcStreamMaxFrameBytes
  let rpcStreamReaderDelayMs ← integerOption values "--rpc-stream-reader-delay-ms"
    preset.rpcStreamReaderDelayMs 0 60000
  let bombardDomains ← parseDomainSelection (values.get? "--domains")
  return {
    scenario, scale, resources, entriesPerResource, payloadBytes, seed, port, startupTimeoutMs
    requestTimeoutMs, clientReplicas, phaseMs, durationMs, sampleMs, iterations, liveConcurrency
    handlerDelayMs, scheduleLeadMs, rpcStreamCalls, rpcStreamFrames, rpcStreamFrameBytes
    rpcStreamReaderDelayMs, keep, bombardDomains, clientProfile
    fitzImage := imageName (env "FITZ_IMAGE")
    upgradeFromImage := imageName (env "FITZ_UPGRADE_FROM_IMAGE")
    destroyerImage := imageName (env "DESTROYER_IMAGE") }

/-! ### Ranges -/

/-- `minimum ≤ value ∧ value ≤ maximum`. -/
def Within (minimum maximum value : ℕ) : Prop := minimum ≤ value ∧ value ≤ maximum

instance (minimum maximum value : ℕ) : Decidable (Within minimum maximum value) :=
  inferInstanceAs (Decidable (_ ∧ _))

/-- The ranges of what a preset decides. -/
structure Scale.InRange (c : Scale) : Prop where
  resources : Within 1 10000 c.resources
  entriesPerResource : Within 1 10000000 c.entriesPerResource
  payloadBytes : Within 32 8000000 c.payloadBytes
  liveConcurrency : Within 1 1024 c.liveConcurrency
  handlerDelayMs : Within 0 60000 c.handlerDelayMs
  rpcStreamCalls : Within 1 1000000 c.rpcStreamCalls
  rpcStreamFrames : Within 2 10000000 c.rpcStreamFrames
  rpcStreamFrameBytes : Within 64 rpcStreamMaxFrameBytes c.rpcStreamFrameBytes
  rpcStreamReaderDelayMs : Within 0 60000 c.rpcStreamReaderDelayMs
  scheduleLeadMs : Within 10000 3600000 c.scheduleLeadMs
  iterations : Within 1 10000 c.iterations

structure RunConfig.InRange (c : RunConfig) : Prop where
  scale : c.toScale.InRange
  seed : Within 0 0xFFFFFFFF c.seed
  port : Within 1 65535 c.port
  startupTimeoutMs : Within 1000 3600000 c.startupTimeoutMs
  requestTimeoutMs : Within 100 600000 c.requestTimeoutMs
  clientReplicas : Within 1 100 c.clientReplicas
  phaseMs : Within 1000 600000 c.phaseMs
  durationMs : Within 1000 86400000 c.durationMs
  sampleMs : Within 100 60000 c.sampleMs
  sampleMs_le : c.sampleMs ≤ c.durationMs

/-- Every default of a preset passes its own check. -/
theorem scalePresets_inRange (scale : ScaleName) : (scalePresets scale).InRange := by
  cases scale <;> constructor <;> decide

theorem within_of_boundedInteger {raw : Option String} {name : String}
    {fallback minimum maximum n : ℕ} (hfallback : Within minimum maximum fallback)
    (h : boundedInteger raw name fallback minimum maximum = .ok n) : Within minimum maximum n := by
  unfold boundedInteger at h
  cases raw with
  | none => exact Except.ok.inj h ▸ hfallback
  | some text =>
    dsimp only at h
    cases hread : (Number.ofText text.toList).sequence?.filter fun n =>
        minimum ≤ n ∧ n ≤ maximum with
    | none =>
      rw [hread] at h
      cases h
    | some m =>
      rw [hread] at h
      obtain rfl := Except.ok.inj h
      have hwithin := (Option.filter_eq_some_iff.mp hread).2
      exact of_decide_eq_true hwithin

theorem within_of_integerOption {values : JsMap String String} {name : String}
    {fallback minimum maximum n : ℕ} (hfallback : Within minimum maximum fallback)
    (h : integerOption values name fallback minimum maximum = .ok n) : Within minimum maximum n :=
  within_of_boundedInteger hfallback h

/-- **Every configuration that is admitted** is in range. -/
theorem parseArgs_inRange {argv : List String} {env : String → Option String} {c : RunConfig}
    (h : parseArgs argv env = .ok c) : c.InRange := by
  unfold parseArgs at h
  simp only [Check.bind_eq, Check.bind_eq_ok, Check.exists_unit, Check.failIf_eq_ok,
    Check.pure_eq, Except.ok.injEq, Prod.exists] at h
  obtain ⟨scenario, -, values, keep, -, -, scale, -, profile, -, durationMs, hduration, sampleMs,
    hsample, hsampleLe, resources, hresources, entries, hentries, payloadBytes, hpayload, seed,
    hseed, port, hport, startup, hstartup, request, hrequest, clients, hclients, phase, hphase,
    iterations, hiterations, concurrency, hconcurrency, handlerDelay, hhandlerDelay, lead, hlead,
    calls, hcalls, frames, hframes, frameBytes, hframeBytes, readerDelay, hreaderDelay, domains, -,
    rfl⟩ := h
  have hpreset := scalePresets_inRange scale
  exact {
    scale := {
      resources := within_of_integerOption hpreset.resources hresources
      entriesPerResource := within_of_integerOption hpreset.entriesPerResource hentries
      payloadBytes := within_of_integerOption hpreset.payloadBytes hpayload
      liveConcurrency := within_of_integerOption hpreset.liveConcurrency hconcurrency
      handlerDelayMs := within_of_integerOption hpreset.handlerDelayMs hhandlerDelay
      rpcStreamCalls := within_of_integerOption hpreset.rpcStreamCalls hcalls
      rpcStreamFrames := within_of_integerOption hpreset.rpcStreamFrames hframes
      rpcStreamFrameBytes := within_of_integerOption hpreset.rpcStreamFrameBytes hframeBytes
      rpcStreamReaderDelayMs := within_of_integerOption hpreset.rpcStreamReaderDelayMs hreaderDelay
      scheduleLeadMs := within_of_integerOption hpreset.scheduleLeadMs hlead
      iterations := within_of_integerOption hpreset.iterations hiterations }
    seed := within_of_integerOption (by decide) hseed
    port := within_of_integerOption (by decide) hport
    startupTimeoutMs := within_of_integerOption (by decide) hstartup
    requestTimeoutMs := within_of_boundedInteger (by decide) hrequest
    clientReplicas := within_of_integerOption (by decide) hclients
    phaseMs := within_of_integerOption (by decide) hphase
    durationMs := within_of_integerOption (by decide) hduration
    sampleMs := within_of_integerOption (by decide) hsample
    sampleMs_le := Nat.not_lt.mp hsampleLe }

end Config

end FitzDestroyer
