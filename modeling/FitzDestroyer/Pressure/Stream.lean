import FitzDestroyer.Pressure.Errors
import FitzDestroyer.Pressure.Values
import FitzDestroyer.Run.Basic

/-!
# A stream under pressure

A bombard worker (`src/worker.ts`) appends to its own stream, at the offset it expects to be next.
When an operation fails it replaces its client and reads the last committed offset
(`replaceAndReconcilePressureStreamClient`), since a commit may have been applied although it
failed.

* `StreamClient` : the loop of the worker, with what its `append` stage counts;
* `StreamBroker` : a broker with one writer for the stream;
* `StreamHistory` : what neither of them stores, but a statement about a run needs;
* `streamSystem` : the three of them, with `StreamEvent` for what can happen next.
-/

namespace FitzDestroyer

namespace Pressure

open Js

/-! ### The worker -/

/-- An error of an attempt. -/
structure StreamFailure where
  error : Thrown
  /-- The broker has rejected the expected offset of the attempt. -/
  stale : Bool
  deriving DecidableEq

/-- What the stage `append` of the domain `stream` counts: an attempt that succeeded with its
expected offset, the others with their errors. -/
structure StreamStage where
  succeeded : List (ℕ × ℕ)
  failed : List StreamFailure
  ambiguous : List StreamFailure

/-- `recordStageError`, as `observeStage` calls it. -/
def StreamStage.recordError (stage : StreamStage) (failure : StreamFailure) : StreamStage :=
  if isAmbiguousDurableError failure.error then
    { stage with ambiguous := stage.ambiguous ++ [failure] }
  else { stage with failed := stage.failed ++ [failure] }

/-- Where the loop of a worker is.  An attempt keeps the offset it has read at its start. -/
inductive StreamPhase where
  /-- Between two attempts. -/
  | idle
  /-- `stream.begin` is not answered. -/
  | beginning (expectedOffset : ℕ)
  /-- `session.append` is not answered. -/
  | appending (expectedOffset : ℕ)
  /-- `session.commit` is not answered. -/
  | committing (expectedOffset : ℕ)
  /-- `session.rollback` is not answered. -/
  | rollingBack (expectedOffset : ℕ) (failure : StreamFailure)
  /-- The client is being replaced. -/
  | reconciling (expectedOffset : ℕ) (failure : StreamFailure)
  /-- The worker has shut down. -/
  | stopped
  deriving DecidableEq

namespace StreamPhase

/-- The offset the attempt has read at its start. -/
def expectedOffset? : StreamPhase → Option ℕ
  | idle => none
  | beginning x => some x
  | appending x => some x
  | committing x => some x
  | rollingBack x _ => some x
  | reconciling x _ => some x
  | stopped => none

/-- The error of the attempt. -/
def failure? : StreamPhase → Option StreamFailure
  | rollingBack _ failure => some failure
  | reconciling _ failure => some failure
  | _ => none

end StreamPhase

structure StreamClient where
  counter : ℕ
  nextStreamOffset : ℕ
  /-- `shutdown.signal.aborted`. -/
  aborted : Bool
  /-- `streamClient` has been closed, but not replaced. -/
  closed : Bool
  phase : StreamPhase
  stage : StreamStage

/-- An answer to an append or a commit. -/
inductive StreamAnswer where
  | ok
  /-- The expected offset is not the next offset. -/
  | conflict (error : Thrown)
  | error (error : Thrown)

/-- `pressureStreamReconciliationError()`. -/
def pressureStreamReconciliationError : Thrown :=
  .error "PressureStreamReconciliationError" "stream durable outcome could not be reconciled" none

namespace StreamClient

def start : StreamClient := ⟨0, 0, false, false, .idle, ⟨[], [], []⟩⟩

/-- The head of the loop, and the start of the attempt. -/
def loop (namespaceName worker : RouteSegment) (c : StreamClient) : StreamClient :=
  let expectedOffset := (pressureStreamWrite namespaceName worker c.nextStreamOffset).2
  { c with phase := if c.aborted then .stopped else .beginning expectedOffset }

/-- The attempt throws: its stage counts the error, and the loop goes on unless it is aborted. -/
def throw (c : StreamClient) (failure : StreamFailure) : StreamClient :=
  let c := { c with stage := c.stage.recordError failure }
  if c.aborted then { c with phase := .stopped }
  else { c with counter := c.counter + 1, phase := .idle }

def onBegin (c : StreamClient) (x : ℕ) : Except Thrown Unit → StreamClient
  | .ok () => { c with phase := .appending x }
  | .error error => { c with phase := .rollingBack x ⟨error, false⟩ }

def onAppend (c : StreamClient) (x : ℕ) : StreamAnswer → StreamClient
  | .ok => { c with phase := .committing x }
  | .conflict error => { c with phase := .rollingBack x ⟨error, true⟩ }
  | .error error => { c with phase := .rollingBack x ⟨error, false⟩ }

def onCommit (c : StreamClient) (x : ℕ) : StreamAnswer → StreamClient
  | .ok => { c with
      counter := c.counter + 1
      nextStreamOffset := c.nextStreamOffset + 1
      phase := .idle
      stage := { c.stage with succeeded := c.stage.succeeded ++ [(c.counter, x)] } }
  | .conflict error => { c with phase := .rollingBack x ⟨error, true⟩ }
  | .error error => { c with phase := .rollingBack x ⟨error, false⟩ }

/-- The rollback has ended, however it did. -/
def onRollback (c : StreamClient) (x : ℕ) (failure : StreamFailure) : StreamClient :=
  if c.aborted then c.throw failure else { c with phase := .reconciling x failure }

/-- The client has been replaced, and the replacement has read the latest offset. -/
def onReconcile (c : StreamClient) (x : ℕ) (failure : StreamFailure)
    (latestOffset : Except Thrown (Option ℕ)) : StreamClient :=
  match latestOffset with
  | .ok latestOffset =>
    let c := { c with closed := false, nextStreamOffset := nextPressureStreamOffset latestOffset }
    -- A retry keeps the offset of the attempt.
    if isPressureStreamCleanupPending failure.error then { c with phase := .beginning x }
    else c.throw failure
  | .error _ => { c with closed := true }.throw ⟨pressureStreamReconciliationError, failure.stale⟩

/-- The answer to a begin is possible. -/
def AnswersBegin (c : StreamClient) : Except Thrown Unit → Prop
  | .ok () => c.closed = false
  | .error _ => True

instance (c : StreamClient) : (answer : Except Thrown Unit) → Decidable (c.AnswersBegin answer)
  | .ok () => inferInstanceAs (Decidable (_ = _))
  | .error _ => inferInstanceAs (Decidable True)

end StreamClient

/-! ### The broker -/

/-- A broker with one writer for the stream. -/
structure StreamBroker where
  /-- The records of the stream, at the offsets `0, 1, 2, …`. -/
  log : List Body
  /-- Commits that failed ambiguously, and have not been applied. -/
  pending : List (ℕ × Body)

namespace StreamBroker

def start : StreamBroker := ⟨[], []⟩

/-- The last committed offset. -/
def peek (b : StreamBroker) : Option ℕ := if b.log = [] then none else some (b.log.length - 1)

/-- The error tells that the expected offset is stale. -/
def IsConflict (error : Thrown) : Prop :=
  normalizeErrorClass error = .conflict ∧ isPressureStreamCleanupPending error = false

instance (error : Thrown) : Decidable (IsConflict error) := inferInstanceAs (Decidable (_ ∧ _))

/-- The answer to an append is possible. -/
def AnswersAppend (b : StreamBroker) (x : ℕ) : StreamAnswer → Prop
  | .ok => True
  | .conflict error => x ≠ b.log.length ∧ IsConflict error
  | .error _ => True

/-- The answer to a commit is possible. -/
def AnswersCommit (b : StreamBroker) (x : ℕ) : StreamAnswer → Prop
  | .ok => x = b.log.length
  | .conflict error => x ≠ b.log.length ∧ IsConflict error
  | .error _ => True

instance (b : StreamBroker) (x : ℕ) : (answer : StreamAnswer) → Decidable (b.AnswersAppend x answer)
  | .ok => inferInstanceAs (Decidable True)
  | .conflict _ => inferInstanceAs (Decidable (_ ∧ _))
  | .error _ => inferInstanceAs (Decidable True)

instance (b : StreamBroker) (x : ℕ) : (answer : StreamAnswer) → Decidable (b.AnswersCommit x answer)
  | .ok => inferInstanceAs (Decidable (_ = _))
  | .conflict _ => inferInstanceAs (Decidable (_ ∧ _))
  | .error _ => inferInstanceAs (Decidable True)

/-- A commit that is answered: one that succeeds is applied, one that fails ambiguously may be
applied later. -/
def commit (b : StreamBroker) (x : ℕ) (body : Body) : StreamAnswer → StreamBroker
  | .ok => { b with log := b.log ++ [body] }
  | .conflict _ => b
  | .error error =>
    if isPressureStreamCleanupPending error = false ∧ isAmbiguousDurableError error = true then
      { b with pending := b.pending ++ [(x, body)] }
    else b

/-- A commit that failed ambiguously is applied. -/
def commitLate (b : StreamBroker) (commit : ℕ × Body) : StreamBroker :=
  { b with log := b.log ++ [commit.2], pending := b.pending.erase commit }

end StreamBroker

/-! ### The system -/

/-- The history of a stream. -/
structure StreamHistory where
  /-- The appends, each with the offset it used and the offset that was established then. -/
  appends : List (ℕ × ℕ)
  /-- The offset that the last success or reconciliation established. -/
  established : ℕ
  /-- How many commits have been applied after they failed. -/
  late : ℕ
  /-- How many of them the established offset takes into account. -/
  lateSeen : ℕ
  /-- How many of them the offset of the attempt takes into account. -/
  lateCaptured : ℕ

namespace StreamHistory

def start : StreamHistory := ⟨[], 0, 0, 0, 0⟩

/-- An offset has been established. -/
def establish (h : StreamHistory) (offset : ℕ) : StreamHistory :=
  { h with established := offset, lateSeen := h.late }

end StreamHistory

structure StreamSystem where
  client : StreamClient
  broker : StreamBroker
  history : StreamHistory

def StreamSystem.start : StreamSystem := ⟨.start, .start, .start⟩

/-- What can happen next. -/
inductive StreamEvent where
  /-- The worker is told to shut down. -/
  | shutdown
  /-- The loop of the worker starts its next attempt, or ends. -/
  | loop
  | begun (answer : Except Thrown Unit)
  | appended (answer : StreamAnswer)
  | committed (answer : StreamAnswer)
  | rolledBack
  /-- The client has been replaced, or an error has prevented it. -/
  | reconciled (result : Except Thrown Unit)
  | commitLate (commit : ℕ × Body)

section System

variable (namespaceName worker : RouteSegment)

namespace StreamSystem

variable (s : StreamSystem)

def shutdown : StreamSystem := { s with client := { s.client with aborted := true } }

/-- The loop of the worker reads its next offset, or ends. -/
def loop : StreamSystem where
  client := s.client.loop namespaceName worker
  broker := s.broker
  history := { s.history with lateCaptured := s.history.lateSeen }

def begun (x : ℕ) (answer : Except Thrown Unit) : StreamSystem where
  client := s.client.onBegin x answer
  broker := s.broker
  history := match answer with
    | .ok () => { s.history with appends := s.history.appends ++ [(x, s.history.established)] }
    | .error _ => s.history

def appended (x : ℕ) (answer : StreamAnswer) : StreamSystem :=
  { s with client := s.client.onAppend x answer }

def committed (x : ℕ) (answer : StreamAnswer) : StreamSystem where
  client := s.client.onCommit x answer
  broker := s.broker.commit x (pressureValue namespaceName worker .stream s.client.counter) answer
  history := match answer with
    | .ok => s.history.establish (x + 1)
    | _ => s.history

def rolledBack (x : ℕ) (failure : StreamFailure) : StreamSystem :=
  { s with client := s.client.onRollback x failure }

def reconciled (x : ℕ) (failure : StreamFailure) (result : Except Thrown Unit) : StreamSystem where
  client := s.client.onReconcile x failure (result.map fun () => s.broker.peek)
  broker := s.broker
  history := match result with
    | .ok () => s.history.establish (nextPressureStreamOffset s.broker.peek)
    | .error _ => s.history

def commitLate (commit : ℕ × Body) : StreamSystem where
  client := s.client
  broker := s.broker.commitLate commit
  history := { s.history with late := s.history.late + 1 }

/-- The state after an event, if it can happen. -/
def step (e : StreamEvent) : Option StreamSystem :=
  match e, s.client.phase with
  | .shutdown, _ => some s.shutdown
  | .loop, .idle => some (s.loop namespaceName worker)
  | .begun answer, .beginning x =>
    if s.client.AnswersBegin answer then some (s.begun x answer) else none
  | .appended answer, .appending x =>
    if s.broker.AnswersAppend x answer then some (s.appended x answer) else none
  | .committed answer, .committing x =>
    if s.broker.AnswersCommit x answer then some (s.committed namespaceName worker x answer)
    else none
  | .rolledBack, .rollingBack x failure => some (s.rolledBack x failure)
  | .reconciled result, .reconciling x failure => some (s.reconciled x failure result)
  | .commitLate commit, _ =>
    -- The broker does not apply a commit whose offset is stale.
    if commit ∈ s.broker.pending ∧ commit.1 = s.broker.log.length then some (s.commitLate commit)
    else none
  | _, _ => none

end StreamSystem

/-- The stream of one worker. -/
def streamSystem : EventSys StreamSystem StreamEvent := ⟨StreamSystem.step namespaceName worker⟩

end System

end Pressure

end FitzDestroyer
