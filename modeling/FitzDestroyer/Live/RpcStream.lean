import FitzDestroyer.Js.Collections
import FitzDestroyer.Js.NumberText
import FitzDestroyer.Workload.Log
import FitzDestroyer.Workload.Model

/-!
# RPC stream callers

`runRpcStreamCaller` (`workloads/live.ts`) reads the response streams of its calls and checks
every frame.  A call that is expected to be interrupted by a fault counts the error that ends it;
the host (`orchestration/rpc-stream-hose.ts`, `orchestration/active-graceful-shutdown.ts`) reads
the count from the log of the caller.

* `checkResponse` : the checks of a frame;
* `CallState.onEvent` : the loop over the responses, and the handler around it;
* `CallerRun` : a run of the caller, with its `result` and its `log`;
* `assertObservedFault`, `assertInterruptedCaller` : the checks of the host.
-/

namespace FitzDestroyer

namespace Live

open Js Workload

/-! ### Payloads -/

def livePayloadHeader (tag : String) (fields : List String) : List UInt8 :=
  let joined := "|".intercalate fields
  encode s!"{tag}|{joined}|"

def livePayload (tag : String) (fields : List String) (size : ℕ) : Except Thrown (List UInt8) :=
  let header := livePayloadHeader tag fields
  if size < header.length then .error (newError
    s!"live payload header requires {header.length} bytes but payload is {size}")
  else .ok (header ++ List.replicate (size - header.length) 0x78)

/-- `(callerId * 17 + call * 31 + frame * 43 + index) & 0xff`, where every operation rounds. -/
def frameByte (callerId call frame index : ℕ) : UInt8 :=
  let sum := double (double (callerId * 17) + double (call * 31))
  UInt8.ofNat (double (double (sum + double (frame * 43)) + index))

def rpcStreamFramePayload (workerId : String) (callerId call frame size : ℕ) :
    Except Thrown (List UInt8) := do
  let fields := [workerId, s!"{callerId}", s!"{call}", s!"{frame}"]
  let result ← livePayload "s" fields size
  let headerLength := (livePayloadHeader "s" fields).length
  return result.take headerLength ++ (List.range (result.length - headerLength)).map fun i =>
    frameByte callerId call frame (headerLength + i)

def parseLivePayload (body : List UInt8) (tag : String) (fields : ℕ) :
    Except Thrown (List String) :=
  let parts := ((decode body).splitOn '|').map String.ofList
  if parts.head? ≠ some tag ∨ parts.length < fields + 2 then
    .error (newError s!"invalid {tag} live payload header")
  else .ok ((parts.drop 1).take fields)

def integerField (value : Option String) (name : String) : Except Thrown ℕ :=
  match value.bind fun text => (Number.ofText text.toList).sequence? with
  | some n => .ok n
  | none =>
    let text := value.getD ""
    .error (newError s!"{name} '{text}' is not a non-negative integer")

def assertPayload (actual expected : List UInt8) (context : String) : Except Thrown Unit :=
  if actual.length ≠ expected.length then
    .error (newError s!"{context}: length {actual.length} != {expected.length}")
  else
    match firstMismatch actual expected with
    | some index => .error (newError s!"{context}: byte mismatch at {index}")
    | none => .ok ()

/-! ### A call -/

inductive ExpectedOutcome where
  | complete
  | cancel
  | failure
  deriving DecidableEq, Repr

def ExpectedOutcome.name : ExpectedOutcome → String
  | complete => "complete"
  | cancel => "cancel"
  | failure => "failure"

/-- The options of a caller that decide what it counts: the delay of the reader and the timeouts
only decide when its events happen. -/
structure RpcStreamCallerOptions where
  workerId : String
  operations : ℕ
  framesPerCall : ℕ
  frameBytes : ℕ
  expectedOutcome : ExpectedOutcome
  cancelAfterFrames : ℕ

structure Response where
  sequence : ℤ
  body : List UInt8

/-- What the response stream of a call does next. -/
inductive StreamEvent where
  | frame (response : Response)
  /-- The stream completes. -/
  | done
  /-- The stream raises an error. -/
  | error (error : Thrown)
  /-- The signal of the role, or the timeout of the call, aborts.  The stream may end because of
  it, with an error or not, or go on. -/
  | abort

/-- The variables of a call. -/
structure CallState where
  selectedWorker : Option String
  frames : ℕ
  responseBytes : ℕ
  /-- `callController.signal.aborted`. -/
  aborted : Bool

def CallState.start : CallState := ⟨none, 0, 0, false⟩

/-- How a call ends. -/
inductive CallEnd where
  | completed
  /-- The error is counted as the interruption. -/
  | interrupted (error : Thrown)
  | thrown (error : Thrown)

section Call

variable (o : RpcStreamCallerOptions) (call : ℕ)

/-- The checks of a frame: the worker that sent it. -/
def checkResponse (s : CallState) (response : Response) : Except Thrown String := do
  Check.failIf (response.sequence ≠ s.frames) (newError
    s!"RPC stream response sequence {response.sequence} != {s.frames}")
  let identity ← parseLivePayload response.body "s" 4
  let responseWorker := identity[0]?.getD ""
  let callerId ← integerField identity[1]? "RPC stream response caller"
  let responseCall ← integerField identity[2]? "RPC stream response call"
  let responseFrame ← integerField identity[3]? "RPC stream response frame"
  Check.failIf (responseWorker = "") (newError "RPC stream response omitted its worker identity")
  let selectedWorker := s.selectedWorker.getD responseWorker
  Check.failIf (selectedWorker ≠ responseWorker) (newError
    s!"RPC stream response switched workers from {selectedWorker} to {responseWorker}")
  Check.failIf ((callerId : Number) ≠ Number.ofText o.workerId.toList ∨ responseCall ≠ call ∨
    responseFrame ≠ s.frames) (newError
      s!"RPC stream response identity mismatch for {o.workerId}/{call}")
  let expected ← rpcStreamFramePayload responseWorker callerId call s.frames o.frameBytes
  assertPayload response.body expected s!"RPC stream response {o.workerId}/{call}/{s.frames}"
  return responseWorker

/-- A frame that passes the checks. -/
def CallState.accept (s : CallState) (response : Response) (worker : String) : CallState where
  selectedWorker := some worker
  frames := s.frames + 1
  responseBytes := s.responseBytes + response.body.length
  aborted := s.aborted ||
    decide (o.expectedOutcome = .cancel ∧ s.frames + 1 = o.cancelAfterFrames)

/-- The statements after the loop. -/
def afterLoop (s : CallState) : Except Thrown Unit := do
  Check.failIf (o.expectedOutcome ≠ .complete) (newError
    s!"RPC stream unexpectedly completed during {o.expectedOutcome.name} phase")
  Check.failIf (s.frames ≠ o.framesPerCall ∨ s.selectedWorker = none) (newError
    s!"RPC stream call {o.workerId}/{call} returned {s.frames}/{o.framesPerCall} frames")

/-- The handler around the loop. -/
def caught (s : CallState) (error : Thrown) : CallEnd :=
  if o.expectedOutcome = .complete then .thrown error
  else if o.expectedOutcome = .cancel ∧ s.aborted = false then .thrown error
  else .interrupted error

/-- One event of the stream: the call goes on, or it ends. -/
def CallState.onEvent (s : CallState) : StreamEvent → CallState ⊕ CallEnd
  | .frame response =>
    match checkResponse o call s response with
    | .ok worker => .inl (s.accept o response worker)
    | .error error => .inr (caught o s error)
  | .done =>
    match afterLoop o call s with
    | .ok () => .inr .completed
    | .error error => .inr (caught o s error)
  | .error error => .inr (caught o s error)
  | .abort => .inl s

/-- A call from a state on: `none` while it has not ended. -/
def runCall (s : CallState) : List StreamEvent → Option (CallState × CallEnd)
  | [] => none
  | e :: es =>
    match s.onEvent o call e with
    | .inl s' => runCall s' es
    | .inr callEnd => some (s, callEnd)

end Call

/-! ### The caller -/

/-- A call that a lane takes.  Its request has fewer than 128 bytes, so that it can be built. -/
structure Call where
  number : ℕ
  /-- The reason, if the signal of the role is aborted when the lane takes the call. -/
  abortReason : Option Thrown
  events : List StreamEvent

/-- The counters of a caller, and what its calls have logged. -/
structure Counters where
  completed : ℕ
  interrupted : ℕ
  responseFrames : ℕ
  responseBytes : ℕ
  log : Log

def Counters.zero : Counters := ⟨0, 0, 0, 0, []⟩

section Caller

variable (o : RpcStreamCallerOptions)

/-- A call has ended. -/
def Counters.settle (t : Counters) (call : Call) (s : CallState) :
    CallEnd → Except Thrown Counters
  | .completed => .ok { t with
      completed := t.completed + 1
      responseFrames := t.responseFrames + s.frames
      responseBytes := t.responseBytes + s.responseBytes }
  | .interrupted error => .ok { t with
      interrupted := t.interrupted + 1
      responseFrames := t.responseFrames + s.frames
      responseBytes := t.responseBytes + s.responseBytes
      log := t.log ++ [logLine "rpc_stream_fault_observed" [("workerId", .str o.workerId),
        ("call", .count call.number), ("expectedOutcome", .str o.expectedOutcome.name),
        ("frames", .count s.frames), ("error", .str error.errorMessage)]] }
  | .thrown error => .error error

/-- `runConcurrent`, for the calls in the order in which they end: `none` while one has not
ended. -/
def runConcurrent (t : Counters) : List Call → Option (Except Thrown Counters)
  | [] => some (.ok t)
  | call :: calls =>
    match call.abortReason with
    | some reason => some (.error reason)
    | none =>
      match runCall o call.number .start call.events with
      | none => none
      | some (s, callEnd) =>
        match t.settle o call s callEnd with
        | .error error => some (.error error)
        | .ok t' => runConcurrent t' calls

/-- The last record of a caller. -/
def completeFields (t : Counters) (elapsedMs : ℤ) : Record :=
  [("workerId", .str o.workerId), ("expectedOutcome", .str o.expectedOutcome.name),
    ("completed", .count t.completed), ("interrupted", .count t.interrupted),
    ("responseFrames", .count t.responseFrames), ("responseBytes", .count t.responseBytes),
    ("elapsedMs", .int elapsedMs)]

/-- The statements after the calls: the lines of the caller. -/
def afterCalls (t : Counters) (elapsedMs : ℤ) : Except Thrown Log := do
  Check.failIf (o.expectedOutcome = .complete ∧ t.completed ≠ o.operations) (newError
    s!"RPC stream completed {t.completed}/{o.operations} calls")
  Check.failIf (o.expectedOutcome ≠ .complete ∧ t.interrupted ≠ o.operations) (newError
    s!"RPC stream observed {t.interrupted}/{o.operations} interruptions")
  return t.log ++ [logLine "rpc_stream_caller_complete" (completeFields o t elapsedMs)]

/-- A line that is not printed by the caller when it ends: a line of its client or of the timer
that reports its progress. -/
def OtherLine (line : LogLine) : Prop :=
  ∀ record, line.record? = some record → ¬IsEvent record "rpc_stream_caller_complete"

/-- A run of a caller: its calls, in the order in which they end, and the other lines of its
log. -/
structure CallerRun where
  calls : List Call
  nodup : (calls.map Call.number).Nodup
  lt_operations : ∀ call ∈ calls, call.number < o.operations
  elapsedMs : ℤ
  before : Log
  after : Log
  before_other : ∀ line ∈ before, OtherLine line
  after_other : ∀ line ∈ after, OtherLine line

variable {o}

/-- The counters when the calls have ended. -/
def CallerRun.counters (r : CallerRun o) : Option (Except Thrown Counters) :=
  if o.expectedOutcome ≠ .complete ∧ o.operations ≠ 1 then
    some (.error (newError "RPC stream fault callers must make exactly one call"))
  else
    match runConcurrent o .zero r.calls with
    | some (.ok t) => if r.calls.length < o.operations then none else some (.ok t)
    | result => result

/-- `runRpcStreamCaller`: the lines the caller prints, or the error it fails with; `none` while
it runs. -/
def CallerRun.result (r : CallerRun o) : Option (Except Thrown Log) :=
  r.counters.map fun counters => counters.bind fun t => afterCalls o t r.elapsedMs

/-- The log of the caller. -/
def CallerRun.log (r : CallerRun o) : Log :=
  match r.result with
  | some (.ok lines) => r.before ++ lines ++ r.after
  | _ => r.before ++ r.after

end Caller

/-! ### The host -/

/-- A record of a caller that made one call, which was interrupted. -/
def expectInterruption (complete : Record) (expectedOutcome failure : String) :
    Except Thrown Unit := do
  let thrown := newError s!"{failure}: {(Json.obj complete).stringify}"
  Check.failIf ((field complete "expectedOutcome").bind Json.text? ≠ some expectedOutcome) thrown
  let completed ← numericField complete "completed"
  Check.failIf (completed ≠ 0) thrown
  let interrupted ← numericField complete "interrupted"
  Check.failIf (interrupted ≠ 1) thrown

def assertObservedFault (logs : JsMap String Log) (expectedOutcome : ExpectedOutcome) :
    Except Thrown Unit :=
  match logs.entries with
  | [(_, log)] => do
    let complete ← requiredEvent log "rpc_stream_caller_complete"
    expectInterruption complete expectedOutcome.name
      s!"RPC stream did not observe {expectedOutcome.name}"
  | entries => .error (newError
      s!"Expected one RPC stream fault caller, found {entries.length}")

def onlyCompletion (logs : JsMap String Log) : Except Thrown Record :=
  match logs.entries with
  | [(_, log)] => requiredEvent log "rpc_stream_caller_complete"
  | _ => .error (newError "Expected exactly one RPC caller log")

def assertInterruptedCaller (logs : JsMap String Log) : Except Thrown Unit := do
  let complete ← onlyCompletion logs
  expectInterruption complete "failure" "Active RPC call did not terminate during shutdown"

end Live

end FitzDestroyer
