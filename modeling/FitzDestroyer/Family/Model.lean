import FitzDestroyer.Js.ProcRules
import FitzDestroyer.Pressure.Analysis
import FitzDestroyer.ResponseState.Request
import FitzDestroyer.Workload.Model

/-!
# Families that use the same routes

`route-family-isolation-matrix` runs clients of two families against the same routes, in every
domain.  The broker is to keep the families apart.  This file has the scripts of the clients
(`src/workloads/route-family-isolation-matrix.ts`), over any broker.

* `routeFamilyPayload`, `decodeRouteFamilyPayload` : a payload tells who has written it;
* `Broker` : the requests that the scripts make, which are up to the broker;
* `World` : the state of the broker, and the variables of the clients;
* `Options.seedKv`, `Options.verifyKv` and so on : the scripts.
-/

namespace FitzDestroyer

namespace Family

open Js Workload Pressure

/-! ### Payloads -/

inductive RouteFamilyIdentity where
  | a
  | b
  deriving DecidableEq, Repr

def RouteFamilyIdentity.name : RouteFamilyIdentity → String
  | .a => "identity-a"
  | .b => "identity-b"

abbrev Bytes := List UInt8

def payloadText (identity : RouteFamilyIdentity) (marker : String) : String :=
  s!"route-family:{identity.name}:{marker}"

def routeFamilyPayload (identity : RouteFamilyIdentity) (marker : String) : Bytes :=
  encode (payloadText identity marker)

/-- `/^(identity-[ab])$/` -/
def identity? (name : List Char) : Option RouteFamilyIdentity :=
  if name = "identity-a".toList then some .a
  else if name = "identity-b".toList then some .b
  else none

/-- The groups of `/^route-family:(identity-[ab]):([^:]+)$/`. -/
def matchPayload (text : List Char) : Option (RouteFamilyIdentity × String) :=
  match text.splitOn ':' with
  | [start, name, marker] =>
    if start = "route-family".toList ∧ marker ≠ [] then
      (identity? name).map (·, String.ofList marker)
    else none
  | _ => none

def decodeRouteFamilyPayload (payload : Bytes) : Except Thrown (RouteFamilyIdentity × String) :=
  match matchPayload (decode payload) with
  | some p => .ok p
  | none => .error (newError "invalid route-family payload")

theorem payloadText_toList (identity : RouteFamilyIdentity) (marker : String) :
    (payloadText identity marker).toList =
      "route-family:".toList ++ (identity.name.toList ++ ':' :: marker.toList) := by
  simp [payloadText]
  rfl

/-- **A payload is read back.** -/
theorem decodeRouteFamilyPayload_payload (identity : RouteFamilyIdentity) {marker : String}
    (hne : marker ≠ "") (hcolon : ':' ∉ marker.toList) :
    decodeRouteFamilyPayload (routeFamilyPayload identity marker) = .ok (identity, marker) := by
  have htext : (payloadText identity marker).toList =
      "route-family".toList ++ ':' :: (identity.name.toList ++ ':' :: marker.toList) := by
    rw [payloadText_toList]
    rfl
  have hname : ':' ∉ identity.name.toList := by cases identity <;> decide
  have hidentity : identity? identity.name.toList = some identity := by
    cases identity <;> decide
  have hsplit : (payloadText identity marker).toList.splitOn ':' =
      ["route-family".toList, identity.name.toList, marker.toList] := by
    rw [htext, List.splitOn_append_cons_self_of_not_mem (by decide),
      List.splitOn_append_cons_self_of_not_mem hname, List.splitOn_eq_singleton hcolon]
  have hmark : (payloadText identity marker).toList.head? ≠ some '\uFEFF' := by
    rw [htext]
    simp
  have hmarker : marker.toList ≠ [] := fun h => hne (String.toList_eq_nil_iff.mp h)
  rw [decodeRouteFamilyPayload, routeFamilyPayload, ResponseState.decode_encode_of_no_mark hmark,
    matchPayload, hsplit]
  simp [hidentity, hmarker]

/-- Payloads with other writers, or other markers, are other payloads. -/
theorem routeFamilyPayload_inj {identity identity' : RouteFamilyIdentity}
    {marker marker' : String} :
    routeFamilyPayload identity marker = routeFamilyPayload identity' marker' ↔
      identity = identity' ∧ marker = marker' := by
  constructor
  · intro h
    have htext : (payloadText identity marker).toList = (payloadText identity' marker').toList := by
      have hmark : ∀ identity marker, (payloadText identity marker).toList.head? ≠ some '\uFEFF' :=
        fun identity marker => by simp [payloadText_toList]
      rw [← ResponseState.decode_encode_of_no_mark (hmark _ _),
        ← ResponseState.decode_encode_of_no_mark (hmark identity' marker')]
      exact congrArg decode h
    rw [payloadText_toList, payloadText_toList] at htext
    have hlength : identity.name.toList.length = identity'.name.toList.length := by
      cases identity <;> cases identity' <;> decide
    obtain ⟨hname, hmarker⟩ := List.append_inj (List.append_cancel_left htext) hlength
    have hidentity : identity = identity' := by
      revert hname
      cases identity <;> cases identity' <;> decide
    exact ⟨hidentity, String.toList_inj.mp (List.cons.inj hmarker).2⟩
  · rintro ⟨rfl, rfl⟩
    rfl

/-! ### The broker -/

/-- Who has subscribed, has registered a worker, or holds a lease. -/
inductive Owner where
  | holder (identity : RouteFamilyIdentity)
  | probe (identity : RouteFamilyIdentity)
  deriving DecidableEq, Repr

def Owner.identity : Owner → RouteFamilyIdentity
  | .holder identity => identity
  | .probe identity => identity

def Owner.isProbe : Owner → Bool
  | .holder _ => false
  | .probe _ => true

@[ext]
structure ScheduleEntry where
  route : String
  cron : String
  deliveryMode : String
  payload : Bytes
  deriving DecidableEq, Repr

/-- What a caller gets: the worker that has handled its request, the bodies of the responses, and
whether the call has failed after them. -/
@[ext]
structure Answers where
  worker : Option Owner
  bodies : List Bytes
  failed : Bool

/-- A broker, behind its client library: what a request of a family does to the state `σ` of the
broker, and what it returns or throws. -/
structure Broker (σ : Type) where
  /-- A transaction that puts a value and is committed. -/
  putKv (identity : RouteFamilyIdentity) (route : String) (key value : Bytes) : Proc σ Thrown Unit
  /-- A transaction that gets a value and is rolled back. -/
  getKv (identity : RouteFamilyIdentity) (route : String) (key : Bytes) :
    Proc σ Thrown (Option Bytes)
  enqueue (identity : RouteFamilyIdentity) (route : String) (body : Bytes) : Proc σ Thrown Unit
  /-- A batch of at most one item. -/
  reserve (identity : RouteFamilyIdentity) (route : String) : Proc σ Thrown (List Bytes)
  complete (identity : RouteFamilyIdentity) (route : String) (item : Bytes) : Proc σ Thrown Unit
  /-- A session that appends a record and is committed. -/
  append (identity : RouteFamilyIdentity) (route : String) (expectedOffset : ℕ) (body : Bytes) :
    Proc σ Thrown Unit
  /-- The newest record, with its offset. -/
  peek (identity : RouteFamilyIdentity) (route : String) : Proc σ Thrown (Option (ℕ × Bytes))
  create (identity : RouteFamilyIdentity) (entry : ScheduleEntry) : Proc σ Thrown Unit
  /-- The pages of a listing, put together. -/
  entries (identity : RouteFamilyIdentity) (selector : String) : Proc σ Thrown (List ScheduleEntry)
  subscribe (owner : Owner) (route : String) : Proc σ Thrown Unit
  unsubscribe (owner : Owner) (route : String) : Proc σ Thrown Unit
  /-- The subscriptions that get the notice before somebody gives up waiting for it. -/
  publish (identity : RouteFamilyIdentity) (route : String) (body : Bytes) :
    Proc σ Thrown (List Owner)
  acquire (owner : Owner) (route : String) : Proc σ Thrown Unit
  release (owner : Owner) (route : String) : Proc σ Thrown Unit
  /-- Whether the lease is held. -/
  query (identity : RouteFamilyIdentity) (route : String) : Proc σ Thrown Bool
  registerWorker (owner : Owner) (route : String) : Proc σ Thrown Unit
  unregisterWorker (owner : Owner) (route : String) : Proc σ Thrown Unit
  /-- A call, where `response` is what a worker that gets it responds. -/
  call (identity : RouteFamilyIdentity) (route : String) (response : Owner → Bytes) :
    σ → Answers × σ
  /-- The session of an owner ends. -/
  leave (owner : Owner) : σ → σ

/-! ### The clients -/

/-- The variables of `runHolder`, and its log. -/
structure Holder where
  ownNotices : ℕ
  foreignNotices : ℕ
  rpcRequestsHandled : ℕ
  rpcResponses : ℕ
  initialNotice : Bool
  log : Log

def Holder.started : Holder where
  ownNotices := 0
  foreignNotices := 0
  rpcRequestsHandled := 0
  rpcResponses := 0
  initialNotice := false
  log := []

/-- The callback of a holder's subscription. -/
def Holder.onNotice (identity : RouteFamilyIdentity) (body : Bytes) (h : Holder) : Holder :=
  match decodeRouteFamilyPayload body with
  | .error _ => { h with foreignNotices := h.foreignNotices + 1 }
  | .ok (publisher, marker) =>
    if publisher ≠ identity then
      { h with
        foreignNotices := h.foreignNotices + 1
        log := h.log ++ [logLine "route_family_isolation_foreign_notice"
          [("identity", .str identity.name), ("publisherIdentity", .str publisher.name),
            ("marker", .str marker)]] }
    else
      { h with
        ownNotices := h.ownNotices + 1
        initialNotice := h.initialNotice || marker = "holder" }

/-- The callback of a holder's worker. -/
def Holder.onRequest (h : Holder) : Holder :=
  { h with rpcRequestsHandled := h.rpcRequestsHandled + 1 }

def Holder.onResponses (responses : ℕ) (h : Holder) : Holder :=
  { h with rpcResponses := responses }

def Holder.onLog (line : LogLine) (h : Holder) : Holder := { h with log := h.log ++ [line] }

/-- The state of the broker, the holders, and what the subscription of a probe has got. -/
structure World (σ : Type) where
  broker : σ
  holders : RouteFamilyIdentity → Holder
  delivered : Option Bytes

namespace World

variable {σ : Type}

/-- No client has been started. -/
@[simps] def start (s : σ) : World σ where
  broker := s
  holders := fun _ => Holder.started
  delivered := none

@[simps] def withBroker (w : World σ) (s : σ) : World σ := { w with broker := s }

@[simp] theorem withBroker_withBroker (w : World σ) (s s' : σ) :
    (w.withBroker s).withBroker s' = w.withBroker s' := rfl

@[simp] theorem withBroker_self (w : World σ) : w.withBroker w.broker = w := rfl

@[simps] def updateHolder (w : World σ) (identity : RouteFamilyIdentity) (f : Holder → Holder) :
    World σ :=
  { w with holders := Function.update w.holders identity (f (w.holders identity)) }

/-- The callbacks of some subscriptions are called. -/
@[simps] def deliver (w : World σ) (body : Bytes) (owners : List Owner) : World σ :=
  { w with
    holders := fun identity =>
      (owners.filter (· = .holder identity)).foldl (fun h _ => h.onNotice identity body)
        (w.holders identity)
    -- The promise of `verifyNotice` is resolved by the first notice.
    delivered := if owners.any Owner.isProbe then some (w.delivered.getD body) else w.delivered }

/-- The worker handles a request. -/
@[simps] def handle (w : World σ) (owner : Option Owner) : World σ :=
  { w with
    holders := fun identity =>
      if owner = some (.holder identity) then (w.holders identity).onRequest
      else w.holders identity }

/-- The promise of `verifyNotice` is made. -/
@[simps] def awaitDelivery (w : World σ) : World σ := { w with delivered := none }

/-! The clients' part of the world is changed apart from the broker's. -/

@[simp] theorem withBroker_deliver (w : World σ) (s : σ) (body : Bytes) (owners : List Owner) :
    (w.withBroker s).deliver body owners = (w.deliver body owners).withBroker s := rfl

@[simp] theorem withBroker_handle (w : World σ) (s : σ) (owner : Option Owner) :
    (w.withBroker s).handle owner = (w.handle owner).withBroker s := rfl

end World

/-! ### Scripts -/

abbrev Script (σ : Type) := Proc (World σ) Thrown

/-- A request to the broker. -/
def request {σ α : Type} (x : Proc σ Thrown α) : Script σ α := fun w =>
  ((x w.broker).1, w.withBroker (x w.broker).2)

/-- `await request.catch(() => undefined)` -/
def settle {σ : Type} (x : Proc σ Thrown Unit) (w : World σ) : World σ :=
  w.withBroker (x w.broker).2

def routeFamilyIsolationRoutes (namespaceName : String) (domain : Domain) : String :=
  let base := s!"{domain.name}://{namespaceName}/isolation/shared"
  if domain = .schedule then base ++ "/job" else base

/-- The options of every role, and what time and the client library decide for it. -/
structure LiveCommonOptions where
  namespaceName : String
  /-- How often `waitForLeaseRelease` asks before its deadline, after the first time. -/
  polls : ℕ
  /-- The reason that an operation is aborted with. -/
  abortReason : Thrown
  /-- What a call that fails throws. -/
  callFailure : Thrown

/-- The options of a role. -/
structure Options extends LiveCommonOptions where
  identity : RouteFamilyIdentity

namespace Options

variable {σ : Type} (b : Broker σ) (o : Options)

def route (domain : Domain) : String := routeFamilyIsolationRoutes o.namespaceName domain

def payload (marker : String) : Bytes := routeFamilyPayload o.identity marker

def fail {α : Type} (message : String) : Script σ α :=
  Proc.throw (newError s!"{o.identity.name} {message}")

def assertPayload (actual : Bytes) (marker what : String) : Script σ Unit :=
  Proc.lift (assertBytesEqual actual (o.payload marker) s!"{o.identity.name} {what}")

/-! #### KV -/

def kvKey : Bytes := encode "route-family-shared-key"

def verifyKv : Script σ Unit := do
  match ← request (b.getKv o.identity (o.route .kv) kvKey) with
  | none => o.fail "KV value was missing"
  | some value => o.assertPayload value "kv" "KV value"

def seedKv : Script σ Unit := do
  request (b.putKv o.identity (o.route .kv) kvKey (o.payload "kv"))
  o.verifyKv b

/-! #### Queue -/

def enqueue (marker : String) : Script σ Unit :=
  request (b.enqueue o.identity (o.route .queue) (o.payload marker))

def reserveOne : Script σ Bytes := do
  match ← request (b.reserve o.identity (o.route .queue)) with
  | [] => o.fail "Queue item was missing"
  | item :: _ => return item

def seedQueue : Script σ Unit := do
  o.enqueue b "queue-seed"
  let seed ← o.reserveOne b
  o.assertPayload seed "queue-seed" "Queue seed"
  request (b.complete o.identity (o.route .queue) seed)
  o.enqueue b "queue-survivor"

def verifyQueue : Script σ Unit := do
  let item ← o.reserveOne b
  o.assertPayload item "queue-survivor" "Queue survivor"
  request (b.complete o.identity (o.route .queue) item)

/-! #### Stream -/

def verifyStream : Script σ Unit := do
  match ← request (b.peek o.identity (o.route .stream)) with
  | none => o.fail "Stream record was missing"
  | some (offset, body) => do
    if offset ≠ 0 then o.fail s!"Stream offset {offset} != 0"
    else o.assertPayload body "stream" "Stream value"

def seedStream : Script σ Unit := do
  request (b.append o.identity (o.route .stream) 0 (o.payload "stream"))
  o.verifyStream b

/-! #### Schedule -/

def scheduleCron : String := "0 0 1 1 *"

def scheduleEntry : ScheduleEntry where
  route := o.route .schedule
  cron := scheduleCron
  deliveryMode := "Single"
  payload := o.payload "schedule"

/-- `route.slice(0, route.lastIndexOf("/"))` -/
def selectorOf (route : String) : String :=
  String.ofList (route.toList.rdropWhile (· ≠ '/')).dropLast

def verifySchedule : Script σ Unit := do
  let entries ← request (b.entries o.identity (selectorOf (o.route .schedule)))
  match entries with
  | [entry] =>
    if entry.route ≠ o.route .schedule then o.fail "Schedule listing returned 1/1 entries"
    else if entry.cron ≠ scheduleCron ∨ entry.deliveryMode ≠ "Single" then
      o.fail "Schedule metadata did not match"
    else o.assertPayload entry.payload "schedule" "Schedule payload"
  | _ => o.fail s!"Schedule listing returned {entries.length}/1 entries"

def seedSchedule : Script σ Unit := do
  request (b.create o.identity o.scheduleEntry)
  o.verifySchedule b

/-! #### Notice -/

def publish (marker : String) : Script σ Unit := do
  let owners ← request (b.publish o.identity (o.route .notice) (o.payload marker))
  Proc.modify (·.deliver (o.payload marker) owners)

/-- The race of a promise and the abort of its operation. -/
def awaited {α : Type} : Option α → Script σ α
  | none => Proc.throw o.abortReason
  | some a => return a

def verifyNotice : Script σ Unit := do
  Proc.modify World.awaitDelivery
  request (b.subscribe (.probe o.identity) (o.route .notice))
  Proc.tryFinally (do
      o.publish b "probe"
      let w ← Proc.get
      -- No notice at all leaves only the abort to wait for.
      let body ← o.awaited w.delivered
      o.assertPayload body "probe" "Notice payload")
    (settle (b.unsubscribe (.probe o.identity) (o.route .notice)))

/-! #### Lease -/

def verifyLeaseState (expectedHeld : Bool) : Script σ Bool := do
  let isHeld ← request (b.query o.identity (o.route .lease))
  if isHeld ≠ expectedHeld then
    o.fail s!"Lease isHeld={isHeld}, expected {expectedHeld}"
  else return isHeld

/-- The loop of `waitForLeaseRelease`. -/
def pollLease : ℕ → Script σ Bool
  -- The deadline has passed.
  | 0 => o.fail "Lease remained held after its session was killed"
  | polls + 1 => do
    let isHeld ← request (b.query o.identity (o.route .lease))
    if isHeld then pollLease polls else return false

def waitForLeaseRelease : Script σ Bool := o.pollLease b (o.polls + 1)

/-! #### RPC -/

/-- What a worker responds. -/
def response (owner : Owner) : Bytes := routeFamilyPayload owner.identity "rpc-response"

/-- A call, and the callback of the worker that gets it. -/
def call : Script σ Answers := fun w =>
  let (answers, s) := b.call o.identity (o.route .rpc) response w.broker
  (.ok answers, (w.withBroker s).handle answers.worker)

def verifyRpc : Script σ ℕ := do
  let answers ← o.call b
  -- The responses come before what the call throws.
  Proc.lift (Check.forEach answers.bodies fun body =>
    assertBytesEqual body (o.payload "rpc-response") s!"{o.identity.name} RPC response")
  if answers.failed then Proc.throw o.callFailure
  else if answers.bodies.length ≠ 1 then
    o.fail s!"RPC returned {answers.bodies.length}/1 responses"
  else return answers.bodies.length

def verifyRpcUnavailable : Script σ Bool := do
  let answers ← o.call b
  let responses := answers.bodies.length
  if answers.failed = false ∨ responses ≠ 0 then
    o.fail (s!"closed family retained an RPC worker: rejected={answers.failed}, " ++
      s!"responses={responses}")
  else return true

end Options

end Family

end FitzDestroyer
