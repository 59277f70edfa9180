import FitzDestroyer.Family.Scripts

/-!
# The isolation matrix

The host starts a holder for each of the two families, kills the first one, and probes both families
(`src/orchestration/route-family-isolation-matrix.ts`).

* `runHolder`, `finishHolder`, `runProbe` : the roles;
* `assertRouteFamilyHolderEvidence` and so on : the checks of the host;
* `runRouteFamilyIsolationMatrixScenario` : the scenario;
* `runHolder_returns`, `runProbe_survivor_returns`, `runProbe_closed_returns` : when a role gets
  through, and what the world is then.
-/

namespace FitzDestroyer

namespace Family

open Js Workload Pressure

/-! ### Roles -/

namespace Options

section Roles

variable {σ : Type} (b : Broker σ) (o : Options)

def awaitInitialNotice : Script σ Unit := do
  let w ← Proc.get
  o.awaited (if (w.holders o.identity).initialNotice then some () else none)

def log (line : LogLine) : Script σ Unit :=
  Proc.modify fun w => w.updateHolder o.identity (·.onLog line)

def routeFields : Record := allDomains.map fun domain => (domain.name, .str (o.route domain))

def armedFields : Record :=
  [("identity", .str o.identity.name), ("verifiedDomains", .count allDomains.length),
    ("routes", .obj o.routeFields)]

/-- A holder, up to where it waits for its end.  If it throws, then so does the scenario. -/
def runHolder : Script σ Unit := do
  Proc.modify fun w => w.updateHolder o.identity fun _ => .started
  request (b.subscribe (.holder o.identity) (o.route .notice))
  request (b.registerWorker (.holder o.identity) (o.route .rpc))
  request (b.acquire (.holder o.identity) (o.route .lease))
  o.seedKv b
  o.seedQueue b
  o.seedStream b
  o.seedSchedule b
  o.publish b "holder"
  o.awaitInitialNotice
  let _ ← o.verifyLeaseState b true
  -- The worker of the role itself is to answer.
  let responses ← o.verifyRpc b
  Proc.modify fun w => w.updateHolder o.identity (·.onResponses responses)
  o.log (logLine "route_family_isolation_holder_armed" o.armedFields)

def completeFields (h : Holder) : Record :=
  [("identity", .str o.identity.name), ("verifiedDomains", .count allDomains.length),
    ("ownNotices", .count h.ownNotices), ("foreignNotices", .count h.foreignNotices),
    ("rpcResponses", .count h.rpcResponses), ("rpcRequestsHandled", .count h.rpcRequestsHandled)]

/-- The end of a holder that was told to stop. -/
def finishHolder : Script σ Unit := do
  Proc.modify (settle (b.unregisterWorker (.holder o.identity) (o.route .rpc)))
  Proc.modify (settle (b.unsubscribe (.holder o.identity) (o.route .notice)))
  Proc.modify (settle (b.release (.holder o.identity) (o.route .lease)))
  let w ← Proc.get
  o.log (logLine "route_family_isolation_holder_complete"
    (o.completeFields (w.holders o.identity)))
  if (w.holders o.identity).foreignNotices ≠ 0 then
    o.fail s!"received {(w.holders o.identity).foreignNotices} cross-family Notice deliveries"
  else return ()

end Roles

end Options

inductive ProbeAction where
  | verifySurvivor
  | verifyClosed
  deriving DecidableEq, Repr

def ProbeAction.name : ProbeAction → String
  | .verifySurvivor => "verify-survivor"
  | .verifyClosed => "verify-closed"

namespace Options

variable (o : Options)

def probeFields (action : ProbeAction) (leaseHeldBeforeProbe rpcUnavailableBeforeProbe : Bool) :
    Record :=
  [("identity", .str o.identity.name), ("action", .str action.name),
    ("verifiedDomains", .count allDomains.length),
    ("leaseHeldBeforeProbe", .bool leaseHeldBeforeProbe),
    ("rpcUnavailableBeforeProbe", .bool rpcUnavailableBeforeProbe)]

variable {σ : Type} (b : Broker σ)

/-- The last part of a probe, before what it logs. -/
def verifyLive (action : ProbeAction) : Script σ Unit :=
  match action with
  | .verifySurvivor => do
    let _ ← o.verifyRpc b
    return ()
  | .verifyClosed => do
    request (b.acquire (.probe o.identity) (o.route .lease))
    request (b.release (.probe o.identity) (o.route .lease))
    request (b.registerWorker (.probe o.identity) (o.route .rpc))
    Proc.tryFinally (do let _ ← o.verifyRpc b; return ())
      (settle (b.unregisterWorker (.probe o.identity) (o.route .rpc)))

def leaseHeldBeforeProbe (action : ProbeAction) : Script σ Bool :=
  if action = .verifySurvivor then o.verifyLeaseState b true else o.waitForLeaseRelease b

def rpcUnavailableBeforeProbe (action : ProbeAction) : Script σ Bool :=
  if action = .verifyClosed then o.verifyRpcUnavailable b else pure false

def runProbe (action : ProbeAction) : Script σ Log := do
  let leaseHeld ← o.leaseHeldBeforeProbe b action
  let rpcUnavailable ← o.rpcUnavailableBeforeProbe b action
  o.verifyKv b
  o.verifyQueue b
  o.verifyStream b
  o.verifySchedule b
  o.verifyNotice b
  o.verifyLive b action
  return [logLine "route_family_isolation_probe_complete"
    (o.probeFields action leaseHeld rpcUnavailable)]

end Options

/-! ### The host -/

def assertVerifiedDomains (record : Record) (what : String) : Except Thrown Unit := do
  let verifiedDomains ← numericField record "verifiedDomains"
  Check.failIf (verifiedDomains ≠ allDomains.length)
    (newError s!"{what} verified {verifiedDomains}/{allDomains.length} domains")

def assertHolderIdentity (record : Record) (identity : RouteFamilyIdentity) :
    Except Thrown Unit :=
  let actual := fieldText record "identity"
  Check.failIf ((field record "identity").bind Json.text? ≠ some identity.name)
    (newError s!"RouteFamily holder identity {actual} != {identity.name}")

def assertRouteFamilyArmedEvidence (record : Record) (identity : RouteFamilyIdentity) :
    Except Thrown Record := do
  assertHolderIdentity record identity
  assertVerifiedDomains record identity.name
  return record

def assertRouteFamilyHolderEvidence (record : Record) (identity : RouteFamilyIdentity)
    (minimumOwnLiveOperations : ℕ) : Except Thrown Record := do
  assertHolderIdentity record identity
  assertVerifiedDomains record identity.name
  let foreignNotices ← numericField record "foreignNotices"
  Check.failIf (foreignNotices ≠ 0)
    (newError s!"{identity.name} observed {foreignNotices} cross-family Notice deliveries")
  let ownNotices ← numericField record "ownNotices"
  Check.failIf (ownNotices < minimumOwnLiveOperations) (newError
    s!"{identity.name} received {ownNotices}/{minimumOwnLiveOperations} own Notices")
  let rpcResponses ← numericField record "rpcResponses"
  Check.failIf (rpcResponses ≠ 1)
    (newError s!"{identity.name} received {rpcResponses}/1 self RPC responses")
  let rpcRequestsHandled ← numericField record "rpcRequestsHandled"
  Check.failIf (rpcRequestsHandled < minimumOwnLiveOperations) (newError (
    s!"{identity.name} handled {rpcRequestsHandled}/{minimumOwnLiveOperations} " ++
      "same-family RPC requests"))
  return record

def assertNoCrossFamilyNotice (log : Log) (identity : RouteFamilyIdentity) :
    Except Thrown Unit :=
  let foreign := (parseJsonRecords log).filter fun record =>
    IsEvent record "route_family_isolation_foreign_notice"
  Check.failIf (foreign.length ≠ 0)
    (newError s!"{identity.name} observed {foreign.length} cross-family Notice deliveries")

def flag? : Json → Option Bool
  | .bool value => some value
  | _ => none

/-- `record[name] === value` -/
def IsFlag (record : Record) (name : String) (value : Bool) : Prop :=
  (field record name).bind flag? = some value

instance (record : Record) (name : String) (value : Bool) : Decidable (IsFlag record name value) :=
  inferInstanceAs (Decidable (_ = _))

def assertRouteFamilyProbeEvidence (record : Record) (identity : RouteFamilyIdentity)
    (action : ProbeAction) : Except Thrown Record := do
  let actualIdentity := fieldText record "identity"
  let actualAction := fieldText record "action"
  Check.failIf ((field record "identity").bind Json.text? ≠ some identity.name ∨
      (field record "action").bind Json.text? ≠ some action.name)
    (newError (s!"RouteFamily probe identity/action {actualIdentity}/{actualAction} != " ++
      s!"{identity.name}/{action.name}"))
  assertVerifiedDomains record s!"{identity.name} probe"
  match action with
  | .verifySurvivor => do
    Check.failIf (¬IsFlag record "leaseHeldBeforeProbe" true)
      (newError "surviving family lost Lease ownership")
    Check.failIf (¬IsFlag record "rpcUnavailableBeforeProbe" false)
      (newError "surviving family lost its RPC worker")
  | .verifyClosed => do
    Check.failIf (¬IsFlag record "leaseHeldBeforeProbe" false)
      (newError "closed family retained Lease ownership")
    Check.failIf (¬IsFlag record "rpcUnavailableBeforeProbe" true)
      (newError "closed family retained its RPC worker")
  return record

/-- A role that is waited for, and the check of its record. -/
def probed {σ : Type} (b : Broker σ) (o : Options) (action : ProbeAction) : Script σ Record := do
  let log ← o.runProbe b action
  let record ← Proc.lift (requiredEvent log "route_family_isolation_probe_complete")
  Proc.lift (assertRouteFamilyProbeEvidence record o.identity action)

/-- The evidence that the scenario writes. -/
structure Evidence where
  holderA : Record
  holderB : Record
  survivor : Record
  closed : Record

def familyA (common : LiveCommonOptions) : Options := ⟨common, .a⟩

def familyB (common : LiveCommonOptions) : Options := ⟨common, .b⟩

def runRouteFamilyIsolationMatrixScenario {σ : Type} (b : Broker σ) (common : LiveCommonOptions) :
    Script σ Evidence := do
  (familyA common).runHolder b
  (familyB common).runHolder b
  let armed ← Proc.get
  let recordA ← Proc.lift
    (requiredEvent (armed.holders .a).log "route_family_isolation_holder_armed")
  let holderA ← Proc.lift (assertRouteFamilyArmedEvidence recordA .a)
  Proc.lift (assertNoCrossFamilyNotice (armed.holders .a).log .a)
  -- The first holder is killed.
  Proc.modify fun w => w.withBroker (b.leave (.holder .a) w.broker)
  let survivor ← probed b (familyB common) .verifySurvivor
  let closed ← probed b (familyA common) .verifyClosed
  (familyB common).finishHolder b
  let stopped ← Proc.get
  let recordB ← Proc.lift
    (requiredEvent (stopped.holders .b).log "route_family_isolation_holder_complete")
  let holderB ← Proc.lift (assertRouteFamilyHolderEvidence recordB .b 2)
  return ⟨holderA, holderB, survivor, closed⟩

/-! ### What the roles do -/

namespace Options

variable {p : Rules} {o : Options} {w w' : World Contents} {u : Unit}

theorem awaitInitialNotice_returns : (o.awaitInitialNotice : Script Contents Unit).Returns w u w' ↔
    (w.holders o.identity).initialNotice = true ∧ w' = w := by
  rw [awaitInitialNotice, Proc.returns_get_bind]
  rcases (w.holders o.identity).initialNotice with _ | _ <;> simp [awaited]

/-- The world when a holder has its subscription, its worker and its lease, and has written. -/
def seeded (o : Options) (p : Rules) (w : World Contents) (ready : List Bytes)
    (entries : List ScheduleEntry) : World Contents :=
  (w.updateHolder o.identity fun _ => .started).withBroker
    (((((((w.broker.setSubscribers (o.key p .notice)
      (w.broker.subscribers (o.key p .notice) ++ [.holder o.identity])).setWorkers (o.key p .rpc)
      (w.broker.workers (o.key p .rpc) ++ [.holder o.identity])).setLease (o.key p .lease)
      (some (.holder o.identity))).setKv (o.key p .kv) kvKey (o.payload "kv")).setQueue
      (o.key p .queue) ⟨ready ++ [o.payload "queue-survivor"],
        (w.broker.queue (o.key p .queue)).reserved⟩).setStream (o.key p .stream)
      [o.payload "stream"]).setSchedules (p.space .schedule o.identity) entries)

/-- The world when every subscription has heard the holder. -/
def heard (o : Options) (p : Rules) (w : World Contents) : World Contents :=
  w.deliver (o.payload "holder") (w.broker.subscribers (o.key p .notice))

/-- The world when a holder has found its lease, has had its response, and has logged that it is
armed. -/
def armed (o : Options) (p : Rules) (w : World Contents) (owner : Owner) : World Contents :=
  ((answered (o.asked p w) owner).updateHolder o.identity (·.onResponses 1)).updateHolder o.identity
    (·.onLog (logLine "route_family_isolation_holder_armed" o.armedFields))

@[simp] theorem chosen_setLingering {c : Contents} {key key' : Key} {queries : ℕ} :
    p.chosen (c.setLingering key queries) key' = p.chosen c key' := rfl

theorem runHolder_returns : (o.runHolder p.broker).Returns w u w' ↔
    w.broker.isHeld (o.key p .lease) = false ∧
    ∃ ready, (w.broker.queue (o.key p .queue)).ready ++ [o.payload "queue-seed"] =
      o.payload "queue-seed" :: ready ∧
    w.broker.stream (o.key p .stream) = [] ∧
    ∃ entries, p.created o.scheduleEntry (w.broker.schedules (p.space .schedule o.identity)) =
        some entries ∧
      Rules.selected (selectorOf (o.route .schedule)) entries = [o.scheduleEntry] ∧
    ∃ heard owner, heard = o.heard p (o.seeded p w ready entries) ∧
      (heard.holders o.identity).initialNotice = true ∧
      p.chosen heard.broker (o.key p .rpc) = some owner ∧ owner.identity = o.identity ∧
      w' = o.armed p heard owner := by
  -- The holder finds the lease that it has just acquired.
  simp [runHolder, returns_request, Rules.subscribe, Rules.registerWorker, Rules.acquire,
    seedKv_returns, seedQueue_returns, seedStream_returns, seedSchedule_returns, publish_returns,
    awaitInitialNotice_returns, log, verifyLeaseState_returns, verifyRpc_returns, seeded, heard,
    armed, asked, answered, isHeld_of_leases, and_assoc]

/-- What a probe finds, whatever its action. -/
structure Found (o : Options) (p : Rules) (w : World Contents) (ready : List Bytes) : Prop where
  kv : w.broker.kv (o.key p .kv, kvKey) = some (o.payload "kv")
  queue : (w.broker.queue (o.key p .queue)).ready = o.payload "queue-survivor" :: ready
  stream : w.broker.stream (o.key p .stream) = [o.payload "stream"]
  schedule : Rules.selected (selectorOf (o.route .schedule))
    (w.broker.schedules (p.space .schedule o.identity)) = [o.scheduleEntry]

theorem found_iff {ready : List Bytes} : o.Found p w ready ↔
    w.broker.kv (o.key p .kv, kvKey) = some (o.payload "kv") ∧
    (w.broker.queue (o.key p .queue)).ready = o.payload "queue-survivor" :: ready ∧
    w.broker.stream (o.key p .stream) = [o.payload "stream"] ∧
    Rules.selected (selectorOf (o.route .schedule))
      (w.broker.schedules (p.space .schedule o.identity)) = [o.scheduleEntry] :=
  ⟨fun h => ⟨h.kv, h.queue, h.stream, h.schedule⟩, fun ⟨hkv, hqueue, hstream, hschedule⟩ =>
    ⟨hkv, hqueue, hstream, hschedule⟩⟩

/-- The world when a probe has completed the item that the holder has left. -/
def drained (o : Options) (p : Rules) (w : World Contents) (ready : List Bytes) :
    World Contents :=
  w.withBroker (w.broker.setQueue (o.key p .queue)
    ⟨ready, (w.broker.queue (o.key p .queue)).reserved⟩)

/-- The log of a probe that has found what it expects. -/
def probeLog (o : Options) (action : ProbeAction) : Log :=
  [logLine "route_family_isolation_probe_complete"
    (o.probeFields action (action = .verifySurvivor) (action = .verifyClosed))]

theorem runProbe_survivor_returns {lines : Log} :
    (o.runProbe p.broker .verifySurvivor).Returns w lines w' ↔
      w.broker.isHeld (o.key p .lease) = true ∧
      ∃ ready, o.Found p w ready ∧
      (∃ owner noticed, noticed = o.noticed p (o.drained p (o.asked p w) ready) ∧
        p.chosen noticed.broker (o.key p .rpc) = some owner ∧ owner.identity = o.identity ∧
        w' = answered noticed owner) ∧
      lines = o.probeLog .verifySurvivor := by
  simp [runProbe, leaseHeldBeforeProbe, rpcUnavailableBeforeProbe, verifyLeaseState_returns,
    verifyKv_returns, verifyQueue_returns, verifyStream_returns, verifySchedule_returns,
    verifyNotice_returns, verifyLive, verifyRpc_returns, found_iff, probeLog, drained, and_assoc]

/-- The world when a probe has a lease and a worker for a family that has none, and has given them
up again. -/
def reopened (o : Options) (p : Rules) (w : World Contents) : World Contents :=
  (w.handle (some (.probe o.identity))).withBroker
    ((w.broker.setLease (o.key p .lease) none).setWorkers (o.key p .rpc) []).called

theorem verifyLive_closed_returns (hlease : w.broker.isHeld (o.key p .lease) = false)
    (hworkers : w.broker.workers (o.key p .rpc) = []) :
    (o.verifyLive p.broker .verifyClosed).Returns w u w' ↔ w' = o.reopened p w := by
  have hchosen : p.chosen ((w.broker.setLease (o.key p .lease) none).setWorkers (o.key p .rpc)
      [.probe o.identity]) (o.key p .rpc) = some (.probe o.identity) :=
    chosen_of_workers (by simp)
  simp [verifyLive, returns_request, Rules.acquire, Rules.release, Rules.registerWorker,
    Rules.unregisterWorker, verifyRpc_returns, hlease, hworkers, hchosen, answered, reopened]

theorem runProbe_closed_returns {lines : Log} :
    (o.runProbe p.broker .verifyClosed).Returns w lines w' ↔
      w.broker.leases (o.key p .lease) = none ∧ w.broker.lingering (o.key p .lease) ≤ o.polls ∧
      w.broker.workers (o.key p .rpc) = [] ∧
      ∃ ready, o.Found p w ready ∧
      w' = o.reopened p (o.noticed p (o.drained p (o.freed p w) ready)) ∧
      lines = o.probeLog .verifyClosed := by
  unfold runProbe leaseHeldBeforeProbe rpcUnavailableBeforeProbe
  -- The first two steps fail if there is still a lease or a worker.
  by_cases hlease : w.broker.leases (o.key p .lease) = none
  · by_cases hworkers : w.broker.workers (o.key p .rpc) = []
    · have hlive : ∀ ready u w'', (o.verifyLive p.broker .verifyClosed).Returns
          (o.noticed p (o.drained p (o.freed p w) ready)) u w'' ↔
            w'' = o.reopened p (o.noticed p (o.drained p (o.freed p w) ready)) :=
        fun ready _ _ => verifyLive_closed_returns
          (isHeld_eq_false.mpr ⟨by simpa [drained] using hlease, by simp [drained]⟩)
          (by simpa [drained] using hworkers)
      simp only [drained, freed_broker_queue] at hlive
      simp [waitForLeaseRelease_returns, verifyRpcUnavailable_returns, hlease, hworkers,
        verifyKv_returns, verifyQueue_returns, verifyStream_returns, verifySchedule_returns,
        verifyNotice_returns, hlive, found_iff, probeLog, drained, and_assoc]
    · simp [waitForLeaseRelease_returns, verifyRpcUnavailable_returns, hworkers]
  · simp [waitForLeaseRelease_returns, hlease]

end Options

end Family

end FitzDestroyer
