import FitzDestroyer.Js.Regex

/-!
# Scenarios and the identity of a run

The concrete scenarios of the suite, and the names `runScenario` derives for one run: the run id,
the namespace and the Compose project.
-/

namespace FitzDestroyer

namespace Scenario

/-- The scenarios of the suite. -/
inductive ConcreteScenario where
  | cleanRestart
  | cacheLoss
  | durabilityCrashCuts
  | queueOverloadRecovery
  | responseLoss
  | activeGracefulShutdown
  | halfOpenSession
  | authorizationIsolation
  | streamGlobalRecovery
  | queueDeadLetterFencing
  | coldBootProviderOutage
  | hostileRpcWorker
  | upgradeRecovery
  | crossTransportRecovery
  | outboundBlackhole
  | brokerPause
  | routeCardinalityChurn
  | cacheAndDiskExhaustion
  | queueRedelivery
  | leaseContention
  | hotRouteCanary
  | protocolAbuse
  | noticeFanout
  | scheduleDelivery
  | sessionBoundaries
  | rpcPressure
  | rpcStreamHose
  | connectionStorm
  | domainPressure
  | chaos
  | soak
  | storageFaults
  | queueLifecycle
  | scheduleOutage
  | transactionContention
  | streamReplay
  | liveChurn
  | leaseRouteAliasing
  | tcpPreauthFramingSlowloris
  | connectPipelineFamilyRebind
  | ephemeralReplyLossCleanup
  | saturatedSlowRecipientIsolation
  | shutdownReconnectCleanupStorm
  | controlLaneCleanupUnderSaturation
  | routeFamilyIsolationMatrix
  | rpcResponseStateConformance
  | responseEnvelopeBoundaries
  | leaseWaiterDisconnectRaces
  | wildcardRegistrationQuotaReclamation
  | streamSelectorCursorConformance
  | scheduleDueStormIsolation
  | sameShardFamilyFairness
  | actorSupervisionFailpoint
  | familyActorPartialFailureIsolation
  | sameShardFamilyFailureIsolation
  | familyActorExhaustionReadiness
  | familyActorDegradationObservability
  | familyActorInflightConcurrentFailure
  deriving DecidableEq, Repr

/-- The name of a scenario on the command line. -/
def ConcreteScenario.name : ConcreteScenario → String
  | .cleanRestart => "clean-restart"
  | .cacheLoss => "cache-loss"
  | .durabilityCrashCuts => "durability-crash-cuts"
  | .queueOverloadRecovery => "queue-overload-recovery"
  | .responseLoss => "response-loss"
  | .activeGracefulShutdown => "active-graceful-shutdown"
  | .halfOpenSession => "half-open-session"
  | .authorizationIsolation => "authorization-isolation"
  | .streamGlobalRecovery => "stream-global-recovery"
  | .queueDeadLetterFencing => "queue-dead-letter-fencing"
  | .coldBootProviderOutage => "cold-boot-provider-outage"
  | .hostileRpcWorker => "hostile-rpc-worker"
  | .upgradeRecovery => "upgrade-recovery"
  | .crossTransportRecovery => "cross-transport-recovery"
  | .outboundBlackhole => "outbound-blackhole"
  | .brokerPause => "broker-pause"
  | .routeCardinalityChurn => "route-cardinality-churn"
  | .cacheAndDiskExhaustion => "cache-and-disk-exhaustion"
  | .queueRedelivery => "queue-redelivery"
  | .leaseContention => "lease-contention"
  | .hotRouteCanary => "hot-route-canary"
  | .protocolAbuse => "protocol-abuse"
  | .noticeFanout => "notice-fanout"
  | .scheduleDelivery => "schedule-delivery"
  | .sessionBoundaries => "session-boundaries"
  | .rpcPressure => "rpc-pressure"
  | .rpcStreamHose => "rpc-stream-hose"
  | .connectionStorm => "connection-storm"
  | .domainPressure => "domain-pressure"
  | .chaos => "chaos"
  | .soak => "soak"
  | .storageFaults => "storage-faults"
  | .queueLifecycle => "queue-lifecycle"
  | .scheduleOutage => "schedule-outage"
  | .transactionContention => "transaction-contention"
  | .streamReplay => "stream-replay"
  | .liveChurn => "live-churn"
  | .leaseRouteAliasing => "lease-route-aliasing"
  | .tcpPreauthFramingSlowloris => "tcp-preauth-framing-slowloris"
  | .connectPipelineFamilyRebind => "connect-pipeline-family-rebind"
  | .ephemeralReplyLossCleanup => "ephemeral-reply-loss-cleanup"
  | .saturatedSlowRecipientIsolation => "saturated-slow-recipient-isolation"
  | .shutdownReconnectCleanupStorm => "shutdown-reconnect-cleanup-storm"
  | .controlLaneCleanupUnderSaturation => "control-lane-cleanup-under-saturation"
  | .routeFamilyIsolationMatrix => "route-family-isolation-matrix"
  | .rpcResponseStateConformance => "rpc-response-state-conformance"
  | .responseEnvelopeBoundaries => "response-envelope-boundaries"
  | .leaseWaiterDisconnectRaces => "lease-waiter-disconnect-races"
  | .wildcardRegistrationQuotaReclamation => "wildcard-registration-quota-reclamation"
  | .streamSelectorCursorConformance => "stream-selector-cursor-conformance"
  | .scheduleDueStormIsolation => "schedule-due-storm-isolation"
  | .sameShardFamilyFairness => "same-shard-family-fairness"
  | .actorSupervisionFailpoint => "actor-supervision-failpoint"
  | .familyActorPartialFailureIsolation => "family-actor-partial-failure-isolation"
  | .sameShardFamilyFailureIsolation => "same-shard-family-failure-isolation"
  | .familyActorExhaustionReadiness => "family-actor-exhaustion-readiness"
  | .familyActorDegradationObservability => "family-actor-degradation-observability"
  | .familyActorInflightConcurrentFailure => "family-actor-inflight-concurrent-failure"

/-- `ALL_SCENARIOS`, in suite order. -/
def allScenarios : List ConcreteScenario := [
  .cleanRestart, .cacheLoss, .durabilityCrashCuts, .queueOverloadRecovery, .responseLoss,
  .activeGracefulShutdown, .halfOpenSession, .authorizationIsolation, .streamGlobalRecovery,
  .queueDeadLetterFencing, .coldBootProviderOutage, .hostileRpcWorker, .upgradeRecovery,
  .crossTransportRecovery, .outboundBlackhole, .brokerPause, .routeCardinalityChurn,
  .cacheAndDiskExhaustion, .queueRedelivery, .leaseContention, .hotRouteCanary, .protocolAbuse,
  .noticeFanout, .scheduleDelivery, .sessionBoundaries, .rpcPressure, .rpcStreamHose,
  .connectionStorm, .domainPressure, .chaos, .soak, .storageFaults, .queueLifecycle,
  .scheduleOutage, .transactionContention, .streamReplay, .liveChurn, .leaseRouteAliasing,
  .tcpPreauthFramingSlowloris, .connectPipelineFamilyRebind, .ephemeralReplyLossCleanup,
  .saturatedSlowRecipientIsolation, .shutdownReconnectCleanupStorm,
  .controlLaneCleanupUnderSaturation, .routeFamilyIsolationMatrix, .rpcResponseStateConformance,
  .responseEnvelopeBoundaries, .leaseWaiterDisconnectRaces,
  .wildcardRegistrationQuotaReclamation, .streamSelectorCursorConformance,
  .scheduleDueStormIsolation, .sameShardFamilyFairness, .actorSupervisionFailpoint,
  .familyActorPartialFailureIsolation, .sameShardFamilyFailureIsolation,
  .familyActorExhaustionReadiness, .familyActorDegradationObservability,
  .familyActorInflightConcurrentFailure]

/-- A scenario on the command line: a concrete one, or the whole suite. -/
inductive ScenarioName where
  | concrete (scenario : ConcreteScenario)
  | all
  deriving DecidableEq, Repr

/-! ### The identity of a run -/

/-- `.replace(/[-:]/g, "").replace(/\.\d{3}Z$/, "z")` on an ISO timestamp. -/
def compactTimestamp (iso : String) : String :=
  let digits := iso.toList.filter fun c => c != '-' && c != ':'
  match digits.reverse with
  | 'Z' :: a :: b :: c :: '.' :: rest =>
    if a.isDigit && b.isDigit && c.isDigit then String.ofList (rest.reverse ++ ['z'])
    else String.ofList digits
  | _ => String.ofList digits

/-- `createRunId`, from the clock and three random bytes in hexadecimal. -/
def createRunId (scenario : ConcreteScenario) (iso random : String) : String :=
  s!"{compactTimestamp iso}-{scenario.name}-{random}"

/-- `.toLowerCase().replace(/[^a-z0-9-]/g, "-")` on one character.  Besides the ASCII letters,
only `K` (U+212A) and `İ` (U+0130) have a lower case with an ASCII letter in it; every UTF-16
unit of another character becomes a dash. -/
def segmentChar (c : Char) : List Char :=
  if c.isUpper then [c.toLower]
  else if c.isLower || c.isDigit || c == '-' then [c]
  else if c == '\u212A' then ['k']
  else if c == '\u0130' then ['i', '-']
  else if c.toNat < 0x10000 then ['-'] else ['-', '-']

/-- Every run of dashes becomes one dash. -/
def collapseDashes : List Char → List Char
  | '-' :: '-' :: cs => collapseDashes ('-' :: cs)
  | c :: cs => c :: collapseDashes cs
  | [] => []

/-- A leading dash removed. -/
def dropDash : List Char → List Char
  | '-' :: cs => cs
  | cs => cs

/-- `routeSegment` of the host: dashes are collapsed, then dropped at both ends. -/
def routeSegment (value : String) : String :=
  String.ofList (dropDash (dropDash (collapseDashes
    (value.toList.flatMap segmentChar))).reverse).reverse

/-- The Compose project of a run: cut at 63 characters, without a dash at the end. -/
def projectName (namespaceName : String) : String :=
  String.ofList (dropDash (s!"fitz-destroyer-{namespaceName}".toList.take 63).reverse).reverse

example : routeSegment (createRunId .cacheLoss "2026-08-25T12:00:05.000Z" "00ff10") =
    "20260825t120005z-cache-loss-00ff10" := by decide

end Scenario

end FitzDestroyer
