import FitzDestroyer.Pressure.Analysis
import FitzDestroyer.Pressure.Queue
import FitzDestroyer.Pressure.Stream

/-!
# The loops of a bombard worker

A bombard worker (`bombard` of `src/worker.ts`) runs a loop for each selected domain, which starts
one operation after another.  An operation is a row of stages: it rejects when a stage throws, and
an operation of the queue also when the body of a reserved item fails its check, which is made
between two stages.

* `BombardStage` : the stages of the operations;
* `BombardAnswer` : the answers in a stage, with what the stage makes of them;
* `Bombard` : the worker, with what it counts;
* `bombardSystem` : its loops, with `BombardEvent` for what can happen next;
* `Evidences` : what the host reads of the worker;
* `Reports` : the verdict reports every definite error.
-/

namespace FitzDestroyer

namespace Pressure

open Js Workload

/-! ### Stages -/

/-- The stages that a worker observes. -/
inductive BombardStage where
  | enqueue
  | reserve
  | complete
  | transaction
  | append
  | create
  | publish
  | acquireRelease
  | call
  deriving DecidableEq

namespace BombardStage

def domain : BombardStage → Domain
  | enqueue => .queue
  | reserve => .queue
  | complete => .queue
  | transaction => .kv
  | append => .stream
  | create => .schedule
  | publish => .notice
  | acquireRelease => .lease
  | call => .rpc

def name : BombardStage → String
  | enqueue => "enqueue"
  | reserve => "reserve"
  | complete => "complete"
  | transaction => "transaction"
  | append => "append"
  | create => "create"
  | publish => "publish"
  | acquireRelease => "acquire-release"
  | call => "call"

/-- `durableOutcomeCanBeAmbiguous`. -/
def durableOutcomeCanBeAmbiguous : BombardStage → Bool
  | publish => false
  | acquireRelease => false
  | call => false
  | _ => true

end BombardStage

/-- The stage that an operation starts with. -/
def firstStage : Domain → BombardStage
  | .queue => .enqueue
  | .kv => .transaction
  | .stream => .append
  | .schedule => .create
  | .notice => .publish
  | .lease => .acquireRelease
  | .rpc => .call

theorem domain_firstStage (domain : Domain) : (firstStage domain).domain = domain := by
  cases domain <;> rfl

/-! ### Answers -/

/-- The answers in a stage. -/
inductive BombardAnswer where
  | enqueue (answer : Except Thrown Unit)
  /-- The body of the item, if there is one. -/
  | reserve (answer : Except Thrown (Option Body))
  | complete (answer : Except Thrown Unit)
  | transaction (began put committed : Except Thrown Unit)
  /-- The last attempt.  The client is replaced after an error, unless the worker shuts down. -/
  | append (attempt : Except Thrown Unit) (recovery : Option (Except Thrown Unit))
  | create (answer : Except Thrown Unit)
  | publish (answer : Except Thrown Unit)
  | acquireRelease (acquired released : Except Thrown Unit)
  | call (responses : List Body) (failure : Option Thrown)

namespace BombardAnswer

def stage : BombardAnswer → BombardStage
  | enqueue _ => .enqueue
  | reserve _ => .reserve
  | complete _ => .complete
  | transaction _ _ _ => .transaction
  | append _ _ => .append
  | create _ => .create
  | publish _ => .publish
  | acquireRelease _ _ => .acquireRelease
  | call _ _ => .call

/-- What the stage returns or throws. -/
def outcome : BombardAnswer → Except Thrown Unit
  | enqueue answer => answer
  | reserve answer => answer.map fun _ => ()
  | complete answer => answer
  -- The rollback after an error throws nothing.
  | transaction began put committed => do began; put; committed
  | append (.error _) (some (.error _)) => .error pressureStreamReconciliationError
  | append attempt _ => attempt
  | create answer => answer
  | publish answer => answer
  | acquireRelease acquired released => do acquired; released
  | call _ (some error) => .error error
  | call responses none =>
    let received := responses.countP fun body => 0 < body.length
    if received = 1 then .ok ()
    else .error (newError s!"expected one RPC response, received {received}")

/-- The stage ends with these answers: otherwise it sends its request again. -/
def Ends (aborted : Bool) : BombardAnswer → Bool
  | enqueue (.error error) => !isQueueBackpressure error
  | reserve (.error error) => !isQueueBackpressure error
  | append (.error _) none => aborted
  | append (.error error) (some (.ok ())) => !isPressureStreamCleanupPending error
  | append (.ok ()) (some _) => false
  | _ => true

/-- The error of the check that is made after the stage. -/
def payloadError? (namespaceName worker : RouteSegment) : BombardAnswer → Option Thrown
  | reserve (.ok (some item)) =>
    match decodePressureQueueSequence namespaceName worker item with
    | .ok _ => none
    | .error error => some error
  | _ => none

end BombardAnswer

/-! ### The worker -/

/-- Where a loop is. -/
inductive LoopPhase where
  /-- Between two operations. -/
  | idle
  /-- A stage has not ended. -/
  | observing (stage : BombardStage)
  /-- The worker has shut down. -/
  | stopped
  deriving DecidableEq

structure DomainLoop where
  counter : ℕ
  phase : LoopPhase

structure Bombard where
  totals : Counters
  stages : PressureStages
  queueOutcome : QueueOutcome
  /-- The sequence of the last item that was reserved. -/
  sequence : ℕ
  loops : Domain → DomainLoop
  /-- `shutdown.signal.aborted`. -/
  aborted : Bool
  /-- The operations that have rejected before the shutdown, with their errors. -/
  rejected : List (Domain × Thrown)

namespace Bombard

def start : Bombard where
  totals := emptyCounters
  stages := fun _ => []
  queueOutcome := ⟨[], [], [], [], []⟩
  sequence := 0
  loops := fun _ => ⟨0, .idle⟩
  aborted := false
  rejected := []

/-- The loop of a domain goes to another phase. -/
def goTo (s : Bombard) (domain : Domain) (phase : LoopPhase) : Bombard :=
  { s with loops := Function.update s.loops domain { s.loops domain with phase } }

/-- The loop of a domain ends its operation. -/
def next (s : Bombard) (domain : Domain) : Bombard :=
  { s with loops := Function.update s.loops domain ⟨(s.loops domain).counter + 1, .idle⟩ }

/-- A stage starts. -/
def observe (s : Bombard) (stage : BombardStage) : Bombard :=
  { s with stages := s.stages.update stage.domain stage.name observeStart }.goTo stage.domain
    (.observing stage)

/-- The head of the loop. -/
def loop (s : Bombard) (domain : Domain) : Bombard :=
  if s.aborted then s.goTo domain .stopped else s.observe (firstStage domain)

/-- The operation has succeeded. -/
def succeed (s : Bombard) (domain : Domain) : Bombard :=
  let counter := s.totals domain
  let totals := Function.update s.totals domain { counter with success := counter.success + 1 }
  { s with totals }.next domain

/-- The operation has rejected. -/
def reject (s : Bombard) (domain : Domain) (error : Thrown) : Bombard :=
  if s.aborted then s.goTo domain .stopped
  else
    let counter := s.totals domain
    { s with
      totals := Function.update s.totals domain { counter with error := counter.error + 1 }
      rejected := s.rejected ++ [(domain, error)] }.next domain

/-- The end of a stage, in its counters. -/
def settle (s : Bombard) (answer : BombardAnswer) (elapsedMs : ℚ) : Bombard :=
  let settle metrics := observeEnd metrics answer.stage.durableOutcomeCanBeAmbiguous s.aborted
    answer.outcome (.fin elapsedMs)
  { s with stages := s.stages.update answer.stage.domain answer.stage.name settle }

/-- The end of a stage, in `queueOutcome`. -/
def record (s : Bombard) : BombardAnswer → Bombard
  | .enqueue answer => { s with
      queueOutcome := s.queueOutcome.recordEnqueue (s.loops .queue).counter answer }
  | .complete answer => { s with queueOutcome := s.queueOutcome.recordComplete s.sequence answer }
  | _ => s

/-- The operation after a stage that has returned. -/
def proceed (namespaceName worker : RouteSegment) (s : Bombard) : BombardAnswer → Bombard
  | .enqueue _ => s.observe .reserve
  | .reserve (.ok (some item)) =>
    match decodePressureQueueSequence namespaceName worker item with
    | .ok sequence => { s with sequence }.observe .complete
    -- No stage counts this error.
    | .error error => s.reject .queue error
  | answer => s.succeed answer.stage.domain

/-- The operation after a stage. -/
def onEnd (namespaceName worker : RouteSegment) (s : Bombard) (answer : BombardAnswer)
    (elapsedMs : ℚ) : Bombard :=
  let s := (s.settle answer elapsedMs).record answer
  match answer.outcome with
  | .ok () => s.proceed namespaceName worker answer
  | .error error => s.reject answer.stage.domain error

end Bombard

/-! ### The system -/

/-- What can happen next. -/
inductive BombardEvent where
  /-- A loop starts its next operation, or ends. -/
  | loop (domain : Domain)
  | ended (answer : BombardAnswer) (elapsedMs : ℚ)
  /-- The queue is full: the request is sent again. -/
  | backpressure (stage : BombardStage)
  /-- The worker is told to shut down. -/
  | shutdown

section System

variable (selected : List Domain) (namespaceName worker : RouteSegment)

namespace Bombard

/-- The event can happen. -/
def Allows (s : Bombard) : BombardEvent → Prop
  | .loop domain => domain ∈ selected ∧ (s.loops domain).phase = .idle
  | .ended answer _ =>
    (s.loops answer.stage.domain).phase = .observing answer.stage ∧ answer.Ends s.aborted = true
  | .backpressure stage => (stage = .enqueue ∨ stage = .reserve) ∧
      (s.loops .queue).phase = .observing stage
  | .shutdown => True

instance (s : Bombard) : (e : BombardEvent) → Decidable (s.Allows selected e)
  | .loop _ => inferInstanceAs (Decidable (_ ∧ _))
  | .ended _ _ => inferInstanceAs (Decidable (_ ∧ _))
  | .backpressure _ => inferInstanceAs (Decidable (_ ∧ _))
  | .shutdown => inferInstanceAs (Decidable True)

/-- The state after an event. -/
def apply (s : Bombard) : BombardEvent → Bombard
  | .loop domain => s.loop domain
  | .ended answer elapsedMs => s.onEnd namespaceName worker answer elapsedMs
  | .backpressure stage =>
    { s with stages := s.stages.update .queue stage.name recordBackpressure }
  | .shutdown => { s with aborted := true }

end Bombard

/-- The loops of the selected domains. -/
def bombardSystem : EventSys Bombard BombardEvent :=
  (EventSys.ofTotal (Bombard.apply namespaceName worker)).restrict fun s e => s.Allows selected e

/-! ### What the host reads -/

/-- The evidence is what the worker has counted. -/
def Evidences (s : Bombard) (client : PressureClientEvidence) : Prop :=
  client.worker = worker.text ∧
    ∀ domain ∈ selected, client.domains domain = some (readDomain s.totals s.stages domain)

/-- The errors of the domain are reported for the worker. -/
def Reported (clients : List PressureClientEvidence) (domain : Domain) : Prop :=
  ∃ count ≠ 0, s!"{worker.text}/{domain.name}={count}" ∈ pressureUnexpectedErrors clients selected

/-- **Every definite error is reported** in the domain of the operation that has rejected with it,
whatever the other clients have logged. -/
def Reports (s : Bombard) : Prop :=
  ∀ p ∈ s.rejected, isAmbiguousDurableError p.2 = false →
    ∀ clients, (∃ client ∈ clients, Evidences selected worker s client) →
      Reported selected worker clients p.1

/-- The host reads evidence of the worker from its log. -/
theorem evidences_of_analyzeLog {s : Bombard} {container : String} {log : Log}
    {client : PressureClientEvidence}
    (hlog : LogsStopped log worker s.totals s.stages s.queueOutcome)
    (h : analyzeLog selected container log = .ok client) : Evidences selected worker s client := by
  obtain ⟨hworker, hdomains⟩ := analyzeLog_spec hlog h
  exact ⟨hworker, fun domain hdomain => ((hdomains domain).1 hdomain).1⟩

end System

end Pressure

end FitzDestroyer
