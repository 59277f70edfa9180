import FitzDestroyer.RawProtocol.Message
import FitzDestroyer.Schedule.Subscriber

/-!
# RPC response states

`runRpcResponseStateConformance` (`workloads/rpc-response-state-conformance.ts`) serves calls
through a raw worker that answers some of them wrongly, and the host
(`orchestration/rpc-response-state-conformance.ts`) checks the counters that it reports.

* `decodeRpcWorkerRequest`, `encodeRpcResponsePayload` : the messages of the raw worker;
* `Broker` : what the broker and the connections do in a run;
* `collectCall` : the loop over the responses of a call;
* `runRpcResponseStateConformance`, `assertRpcResponseStateEvidence` : the run and its verdict.
-/

namespace FitzDestroyer

namespace ResponseState

open Js Workload RawProtocol

open Schedule (OtherLine)

/-! ### Messages of the raw worker -/

structure RpcWorkerRequest where
  correlation : List UInt8
  route : String
  body : List UInt8

/-- `RPC_SUBSCRIBE_WORKER`. -/
def rpcSubscribeWorker : ℕ := 300

/-- `RPC_REQUEST`. -/
def rpcRequest : ℕ := 302

/-- `RPC_RESPONSE`. -/
def rpcResponse : ℕ := 303

def encodeRpcResponsePayload (correlation : List UInt8) (sequence : ℕ) (terminal : Bool)
    (body : List UInt8) : Except Thrown (List UInt8) := do
  Check.failIf (correlation.length ≠ 16)
    (newError s!"RPC correlation is {correlation.length}/16 bytes")
  return concatBytes [correlation, encodeU64 sequence, [if terminal then 1 else 0],
    encodeBytes body]

def decodeRpcWorkerRequest (payload : List UInt8) : Except Thrown RpcWorkerRequest := do
  Check.failIf (payload.length < 24) (newError "RPC worker request is truncated")
  let routeLength ← readU32 payload 16
  let routeEnd := 20 + routeLength
  Check.failIf (payload.length < routeEnd + 4) (newError "RPC worker request route is truncated")
  let bodyLength ← readU32 payload routeEnd
  let bodyStart := routeEnd + 4
  Check.failIf (bodyStart + bodyLength ≠ payload.length)
    (newError "RPC worker request body is malformed")
  let route := String.ofList (decode ((payload.take routeEnd).drop 20))
  return ⟨payload.take 16, route, payload.drop bodyStart⟩

/-! ### The broker -/

/-- The calls of a run, by the case they are for. -/
inductive Case where
  | wrongCorrelation
  | duplicateTerminal
  | cancelled
  | callerDisconnect
  | healthy (sequence : ℕ)
  deriving DecidableEq, Repr

def Case.marker : Case → String
  | wrongCorrelation => "wrong-correlation"
  | duplicateTerminal => "duplicate-terminal"
  | cancelled => "cancelled"
  | callerDisconnect => "caller-disconnect"
  | healthy sequence => s!"healthy-{sequence}"

def markerBody (marker : String) : List UInt8 := encode s!"rpc-state:{marker}"

/-- The body of a call, which its responses should have. -/
def Case.body (c : Case) : List UInt8 := markerBody c.marker

/-- A frame that the broker delivers to a caller. -/
structure Response where
  correlation : List UInt8
  terminal : Bool
  body : List UInt8
  deriving DecidableEq, Repr

/-- What the caller of a call observes. -/
structure Call where
  /-- The correlation of the call. -/
  correlation : List UInt8
  responses : List Response
  /-- The error that ends the stream of responses, which completes otherwise. -/
  error : Option Thrown

/-- What the broker and the connections do in a run. -/
structure Broker where
  /-- What opening the raw connection throws. -/
  openError : Option Thrown
  /-- The frames that the raw worker receives. -/
  inbox : List (List UInt8)
  /-- What `receive` throws after these frames.  Otherwise the deadline of the wait passes. -/
  receiveError : Option Thrown
  /-- What sending a frame throws, by the number of frames before it. -/
  sendError : ℕ → Option Thrown
  /-- What connecting the second client throws. -/
  connectError : Option Thrown
  /-- What closing the second client throws. -/
  closeError : Option Thrown
  calls : Case → Call

/-! ### Calls -/

/-- The loop over the responses of a call: the frames it counts, and what it throws. -/
def readResponses (route : String) (expectedBody : List UInt8) :
    ℕ → List Response → ℕ × Option Thrown
  | frames, [] => (frames, none)
  | frames, response :: responses =>
    match assertBytesEqual response.body expectedBody s!"{route} response {frames}" with
    | .error error => (frames, some error)
    | .ok () => readResponses route expectedBody (frames + 1) responses

structure CallOutcome where
  frames : ℕ
  terminated : ℕ
  duplicateTerminals : ℕ
  failed : Bool

def collectCall (route : String) (expectedBody : List UInt8) (call : Call) : CallOutcome :=
  let (frames, thrown) := readResponses route expectedBody 0 call.responses
  let failed := (thrown.orElse fun _ => call.error).isSome
  -- The `finally` block runs once.
  let terminations := 0 + 1
  { frames
    terminated := terminations
    duplicateTerminals := terminations - 1
    failed }

/-! ### The run -/

structure RpcResponseStateEvidence where
  cases : ℕ
  callersTerminated : ℕ
  duplicateCallerTerminals : ℕ
  unknownCorrelationRejected : ℕ
  duplicateTerminalRejected : ℕ
  postCancelResponsesObserved : ℕ
  postDisconnectRejected : ℕ
  healthyCalls : ℕ
  healthyFailures : ℕ
  deriving DecidableEq, Repr

namespace RpcResponseStateEvidence

/-- `Object.entries(evidence)`. -/
def entries (e : RpcResponseStateEvidence) : List (String × ℕ) :=
  [("cases", e.cases), ("callersTerminated", e.callersTerminated),
    ("duplicateCallerTerminals", e.duplicateCallerTerminals),
    ("unknownCorrelationRejected", e.unknownCorrelationRejected),
    ("duplicateTerminalRejected", e.duplicateTerminalRejected),
    ("postCancelResponsesObserved", e.postCancelResponsesObserved),
    ("postDisconnectRejected", e.postDisconnectRejected), ("healthyCalls", e.healthyCalls),
    ("healthyFailures", e.healthyFailures)]

/-- The counters before the first case, and the number of cases. -/
def start : RpcResponseStateEvidence := ⟨5, 0, 0, 0, 0, 0, 0, 0, 0⟩

def addOutcome (e : RpcResponseStateEvidence) (outcome : CallOutcome) :
    RpcResponseStateEvidence :=
  { e with
    callersTerminated := e.callersTerminated + outcome.terminated
    duplicateCallerTerminals := e.duplicateCallerTerminals + outcome.duplicateTerminals }

end RpcResponseStateEvidence

/-- The frames that the raw worker has not read and the ones it has sent, and the counters. -/
structure RunState where
  inbox : List (List UInt8)
  sent : List (List UInt8)
  evidence : RpcResponseStateEvidence

section Run

variable (b : Broker) (route : String)

/-- `receiveRecord`: the payload of the first record of the type, and the frames after it. -/
def receiveRecord (type : ℕ) : List (List UInt8) → Except Thrown (List UInt8 × List (List UInt8))
  | [] => .error (b.receiveError.getD (newError s!"timed out waiting for RPC message {type}"))
  | frame :: inbox => do
    let records ← decodeTlvs frame
    match records.find? fun candidate => candidate.type = type with
    | some record => return (record.payload, inbox)
    | none => receiveRecord type inbox

def receiveWorkerRequest (inbox : List (List UInt8)) :
    Except Thrown (RpcWorkerRequest × List (List UInt8)) := do
  let (payload, inbox) ← receiveRecord b rpcRequest inbox
  let request ← decodeRpcWorkerRequest payload
  return (request, inbox)

def send (s : RunState) (frame : List UInt8) : Except Thrown RunState := do
  Check.attempt (b.sendError s.sent.length)
  return { s with sent := s.sent ++ [frame] }

def sendRpcResponse (s : RunState) (correlation : List UInt8) (sequence : ℕ) (terminal : Bool)
    (body : List UInt8) : Except Thrown RunState := do
  let payload ← encodeRpcResponsePayload correlation sequence terminal body
  let frame ← encodeTlv rpcResponse payload
  send b s frame

def sendSuccessfulTerminal (s : RunState) (request : RpcWorkerRequest) : Except Thrown RunState :=
  sendRpcResponse b s request.correlation 0 true request.body

def connectRawWorker (s : RunState) : Except Thrown RunState := do
  let hello ← encodeTlv (1 : ℕ) []
  let s ← send b s hello
  let credit ← encodeU32 (1 : ℕ)
  let subscribe ← encodeTlv rpcSubscribeWorker (concatBytes [encodeString route, credit])
  let s ← send b s subscribe
  let (payload, inbox) ← receiveRecord b rpcSubscribeWorker s.inbox
  let result ← decodeStandardResponse payload
  let message := result.errorMessage.getD s!"{result.errorCode.getD 0}"
  Check.failIf (result.ok = false) (newError s!"raw RPC worker registration failed: {message}")
  return { s with inbox }

/-- The outcome of the call of a case. -/
def outcome (c : Case) : CallOutcome := collectCall route c.body (b.calls c)

/-- The worker answers with another correlation, and then with the right one. -/
def wrongCorrelation (s : RunState) : Except Thrown RunState := do
  let (request, inbox) ← receiveWorkerRequest b s.inbox
  let wrong := request.correlation.set 15 (request.correlation.getD 15 0 + 1)
  let s ← sendRpcResponse b { s with inbox } wrong 0 true []
  let evidence :=
    { s.evidence with unknownCorrelationRejected := s.evidence.unknownCorrelationRejected + 1 }
  let s ← sendSuccessfulTerminal b { s with evidence } request
  return { s with evidence := s.evidence.addOutcome (outcome b route .wrongCorrelation) }

/-- The worker answers twice. -/
def duplicateTerminal (s : RunState) : Except Thrown RunState := do
  let (request, inbox) ← receiveWorkerRequest b s.inbox
  let s ← sendSuccessfulTerminal b { s with inbox } request
  let evidence := s.evidence.addOutcome (outcome b route .duplicateTerminal)
  let s ← sendRpcResponse b { s with evidence } request.correlation 1 true request.body
  return { s with evidence :=
    { s.evidence with duplicateTerminalRejected := s.evidence.duplicateTerminalRejected + 1 } }

/-- The worker answers after the caller has cancelled. -/
def cancelled (s : RunState) : Except Thrown RunState := do
  let (request, inbox) ← receiveWorkerRequest b s.inbox
  let evidence := s.evidence.addOutcome (outcome b route .cancelled)
  let s ← sendRpcResponse b { s with inbox, evidence } request.correlation 0 true request.body
  return { s with evidence :=
    { s.evidence with postCancelResponsesObserved := s.evidence.postCancelResponsesObserved + 1 } }

/-- The worker answers after the caller has disconnected. -/
def callerDisconnect (s : RunState) : Except Thrown RunState := do
  Check.attempt b.connectError
  let (request, inbox) ← receiveWorkerRequest b s.inbox
  Check.attempt b.closeError
  let evidence := s.evidence.addOutcome (outcome b route .callerDisconnect)
  let s ← sendRpcResponse b { s with inbox, evidence } request.correlation 0 true request.body
  return { s with evidence :=
    { s.evidence with postDisconnectRejected := s.evidence.postDisconnectRejected + 1 } }

/-- A call that should complete.  The run throws what it throws, so its failures are not
reported. -/
def healthy (s : RunState) (sequence : ℕ) : Except Thrown RunState := do
  let (request, inbox) ← receiveWorkerRequest b s.inbox
  let s ← sendSuccessfulTerminal b { s with inbox } request
  let outcome := outcome b route (.healthy sequence)
  Check.failIf (outcome.frames ≠ 1 ∨ outcome.failed = true)
    (newError s!"healthy RPC {sequence} did not complete once")
  return { s with evidence := { s.evidence with healthyCalls := s.evidence.healthyCalls + 1 } }

end Run

/-- The counters that the workload reports. -/
def runRpcResponseStateConformance (namespaceName : String) (b : Broker) :
    Except Thrown RpcResponseStateEvidence := do
  let route := s!"rpc://destroyer/{namespaceName}/response-state"
  Check.attempt b.openError
  let s ← connectRawWorker b route ⟨b.inbox, [], .start⟩
  let s ← wrongCorrelation b route s
  let s ← duplicateTerminal b route s
  let s ← cancelled b route s
  let s ← callerDisconnect b route s
  let s ← (List.range 4).foldlM (healthy b route) s
  return s.evidence

/-! ### The host -/

/-- The counters of a run that is as it should be. -/
def expectedEvidence : RpcResponseStateEvidence := ⟨5, 4, 0, 1, 1, 1, 1, 4, 0⟩

def assertRpcResponseStateEvidence (record : Record) :
    Except Thrown RpcResponseStateEvidence := do
  let cases ← numericField record "cases"
  let callersTerminated ← numericField record "callersTerminated"
  let duplicateCallerTerminals ← numericField record "duplicateCallerTerminals"
  let unknownCorrelationRejected ← numericField record "unknownCorrelationRejected"
  let duplicateTerminalRejected ← numericField record "duplicateTerminalRejected"
  let postCancelResponsesObserved ← numericField record "postCancelResponsesObserved"
  let postDisconnectRejected ← numericField record "postDisconnectRejected"
  let healthyCalls ← numericField record "healthyCalls"
  let healthyFailures ← numericField record "healthyFailures"
  let evidence : RpcResponseStateEvidence := ⟨cases, callersTerminated, duplicateCallerTerminals,
    unknownCorrelationRejected, duplicateTerminalRejected, postCancelResponsesObserved,
    postDisconnectRejected, healthyCalls, healthyFailures⟩
  Check.forEach (evidence.entries.zip expectedEvidence.entries) fun (actual, expected) =>
    Check.failIf (actual.2 ≠ expected.2) (newError s!"{actual.1}={actual.2}/{expected.2}")
  return evidence

/-- The verdict on a run: what the workload throws fails the run, and the host reads what it
reports, among the given lines. -/
def responseStateVerdict (namespaceName : String) (b : Broker) (before after : List OtherLine) :
    Except Thrown RpcResponseStateEvidence := do
  let evidence ← runRpcResponseStateConformance namespaceName b
  let fields := evidence.entries.map fun p => (p.1, .count p.2)
  let log := before.map OtherLine.line ++
    logLine "rpc_response_state_conformance_worker_complete" fields :: after.map OtherLine.line
  let complete ← requiredEvent log "rpc_response_state_conformance_worker_complete"
  assertRpcResponseStateEvidence complete

end ResponseState

end FitzDestroyer
