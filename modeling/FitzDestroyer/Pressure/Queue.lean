import FitzDestroyer.Pressure.Errors
import FitzDestroyer.Pressure.Reconcile
import FitzDestroyer.Pressure.Values
import FitzDestroyer.Run.Product

/-!
# A queue under pressure

A bombard worker (`src/worker.ts`) enqueues, reserves and completes on its own queue, and records
what became of each operation; then a reconciler (`workloads/pressure.ts`) drains the queue.

* `QueueClient` : the loop of the worker, with what it records;
* `Reconciler` : the loop of the reconciler;
* `QueueBroker` : a broker that delivers at least once;
* `queueSystem` : the three of them, with `QueueEvent` for what can happen next;
* `QueueFleet` : the queues of all workers, and the verdict of the host on them.
-/

namespace FitzDestroyer

namespace Pressure

open Js

/-! ### The worker -/

/-- `queueOutcome`. -/
structure QueueOutcome where
  acknowledged : List ℕ
  ambiguousEnqueues : List ℕ
  failedEnqueues : List ℕ
  completed : List ℕ
  ambiguousCompletions : List ℕ

namespace QueueOutcome

/-- What an answer to the enqueue of a sequence adds: nothing, if the enqueue is sent again. -/
def recordEnqueue (o : QueueOutcome) (sequence : ℕ) : Except Thrown Unit → QueueOutcome
  | .ok () => { o with acknowledged := o.acknowledged ++ [sequence] }
  | .error error =>
    if isQueueBackpressure error then o
    else if isAmbiguousDurableError error then
      { o with ambiguousEnqueues := o.ambiguousEnqueues ++ [sequence] }
    else { o with failedEnqueues := o.failedEnqueues ++ [sequence] }

/-- What an answer to the completion of a sequence adds. -/
def recordComplete (o : QueueOutcome) (sequence : ℕ) : Except Thrown Unit → QueueOutcome
  | .ok () => { o with completed := o.completed ++ [sequence] }
  | .error error =>
    if isAmbiguousDurableError error then
      { o with ambiguousCompletions := o.ambiguousCompletions ++ [sequence] }
    else o

end QueueOutcome

/-- Where the loop of a worker is. -/
inductive QueuePhase where
  /-- Between two operations. -/
  | idle
  /-- An enqueue is not answered. -/
  | enqueue
  /-- A reserve is not answered. -/
  | reserve
  /-- The completion of an item is not answered. -/
  | complete (item : Body) (sequence : ℕ)
  /-- The worker has shut down. -/
  | stopped
  deriving DecidableEq

/-- The item whose completion is not answered, with its sequence. -/
def QueuePhase.held? : QueuePhase → Option (Body × ℕ)
  | .complete item sequence => some (item, sequence)
  | _ => none

structure QueueClient where
  counter : ℕ
  phase : QueuePhase
  outcome : QueueOutcome
  /-- `shutdown.signal.aborted`. -/
  aborted : Bool

namespace QueueClient

def start : QueueClient := ⟨0, .idle, ⟨[], [], [], [], []⟩, false⟩

/-- The head of the loop. -/
def loop (c : QueueClient) : QueueClient :=
  { c with phase := if c.aborted then .stopped else .enqueue }

/-- The operation has succeeded. -/
def succeed (c : QueueClient) : QueueClient := { c with counter := c.counter + 1, phase := .idle }

/-- The operation has thrown. -/
def fail (c : QueueClient) : QueueClient :=
  if c.aborted then { c with phase := .stopped } else c.succeed

/-- The answer to an enqueue; it is sent again if the queue is full. -/
def onEnqueue (c : QueueClient) (answer : Except Thrown Unit) : QueueClient :=
  let c := { c with outcome := c.outcome.recordEnqueue c.counter answer }
  match answer with
  | .ok () => { c with phase := .reserve }
  | .error error => if isQueueBackpressure error then c else c.fail

/-- The answer to a reserve; it is sent again if the queue is full. -/
def onReserve (namespaceName worker : RouteSegment) (c : QueueClient) :
    Except Thrown (Option Body) → QueueClient
  | .ok none => c.succeed
  | .ok (some item) =>
    match decodePressureQueueSequence namespaceName worker item with
    | .ok sequence => { c with phase := .complete item sequence }
    | .error _ => c.fail
  | .error error => if isQueueBackpressure error then c else c.fail

/-- The answer to a completion. -/
def onComplete (c : QueueClient) (sequence : ℕ) (answer : Except Thrown Unit) : QueueClient :=
  let c := { c with outcome := c.outcome.recordComplete sequence answer }
  match answer with
  | .ok () => c.succeed
  | .error _ => c.fail

end QueueClient

/-! ### The reconciler -/

/-- `RECONCILIATION_BATCH_SIZE`. -/
def reconciliationBatchSize : ℕ := 32

/-- The loop of `runPressureQueueReconciler` on one queue. -/
structure Reconciler where
  emptyPolls : ℕ
  /-- The items of the last reserve that are not completed. -/
  batch : List Body
  /-- The sequences that were seen. -/
  sequences : List ℕ
  failure : Option Thrown

namespace Reconciler

def start : Reconciler := ⟨0, [], [], none⟩

/-- The answer to a reserve. -/
def onReserve (r : Reconciler) (items : List Body) : Reconciler :=
  if items = [] then { r with emptyPolls := r.emptyPolls + 1 }
  else { r with emptyPolls := 0, batch := items }

/-- The first item of the batch, up to its completion. -/
def onItem (namespaceName worker : RouteSegment) (r : Reconciler) : Reconciler :=
  match r.batch with
  | [] => r
  | item :: items =>
    match decodePressureQueueSequence namespaceName worker item with
    | .error error => { r with failure := some error }
    | .ok sequence =>
      if sequence ∈ r.sequences then { r with
        failure := some (newError
          s!"{worker.text} queue reconciler observed duplicate sequence {sequence}") }
      else { r with batch := items, sequences := r.sequences ++ [sequence] }

/-- `while (emptyPolls < 3)`. -/
def Running (r : Reconciler) : Prop := r.emptyPolls < 3 ∧ r.failure = none

instance (r : Reconciler) : Decidable r.Running := inferInstanceAs (Decidable (_ ∧ _))

end Reconciler

/-! ### The broker -/

/-- A queue of a broker that delivers at least once.  The bodies of its items are different. -/
structure QueueBroker where
  stored : List Body
  leased : List Body
  /-- Enqueues that failed ambiguously, and have not been stored. -/
  enqueuing : List Body
  /-- Completions that failed ambiguously, and have not been applied. -/
  completing : List Body

namespace QueueBroker

def start : QueueBroker := ⟨[], [], [], []⟩

/-- The item can be reserved. -/
def Offers (b : QueueBroker) (item : Body) : Prop := item ∈ b.stored ∧ item ∉ b.leased

instance (b : QueueBroker) (item : Body) : Decidable (b.Offers item) :=
  inferInstanceAs (Decidable (_ ∧ _))

/-- The answer to a reserve is possible. -/
def Answers (b : QueueBroker) : Except Thrown (Option Body) → Prop
  | .ok (some item) => b.Offers item
  | .ok none => True
  | .error _ => True

instance (b : QueueBroker) : (answer : Except Thrown (Option Body)) → Decidable (b.Answers answer)
  | .ok (some item) => inferInstanceAs (Decidable (b.Offers item))
  | .ok none => inferInstanceAs (Decidable True)
  | .error _ => inferInstanceAs (Decidable True)

/-- An enqueue that is answered: one that succeeds is stored, one that fails ambiguously may be
stored later. -/
def enqueue (b : QueueBroker) (item : Body) : Except Thrown Unit → QueueBroker
  | .ok () => { b with stored := b.stored ++ [item] }
  | .error error =>
    if isQueueBackpressure error = false ∧ isAmbiguousDurableError error = true then
      { b with enqueuing := b.enqueuing ++ [item] }
    else b

def lease (b : QueueBroker) (items : List Body) : QueueBroker :=
  { b with leased := b.leased ++ items }

def expire (b : QueueBroker) (item : Body) : QueueBroker :=
  { b with leased := b.leased.filter (· ≠ item) }

/-- A completion is applied. -/
def remove (b : QueueBroker) (item : Body) : QueueBroker :=
  { b.expire item with stored := b.stored.erase item }

/-- A completion that is answered: one that succeeds is applied, one that fails ambiguously may be
applied later. -/
def complete (b : QueueBroker) (item : Body) : Except Thrown Unit → QueueBroker
  | .ok () => b.remove item
  | .error error =>
    if isAmbiguousDurableError error then { b with completing := b.completing ++ [item] } else b

/-- An enqueue that failed ambiguously is stored. -/
def storeLate (b : QueueBroker) (item : Body) : QueueBroker :=
  { b with stored := b.stored ++ [item], enqueuing := b.enqueuing.erase item }

/-- A completion that failed ambiguously is applied. -/
def completeLate (b : QueueBroker) (item : Body) : QueueBroker :=
  { b.remove item with completing := b.completing.erase item }

end QueueBroker

/-! ### The system -/

/-- The queue of one worker. -/
structure QueueSystem where
  client : QueueClient
  broker : QueueBroker
  reconciler : Reconciler

def QueueSystem.start : QueueSystem := ⟨.start, .start, .start⟩

/-- What can happen next. -/
inductive QueueEvent where
  /-- The worker is told to shut down. -/
  | shutdown
  /-- The loop of the worker starts its next operation, or ends. -/
  | loop
  | enqueued (answer : Except Thrown Unit)
  | reserved (answer : Except Thrown (Option Body))
  | completed (answer : Except Thrown Unit)
  /-- A reserve that failed leases an item. -/
  | leaseLate (item : Body)
  | leaseExpired (item : Body)
  | storeLate (item : Body)
  | completeLate (item : Body)
  /-- A reserve of the reconciler is answered. -/
  | polled (items : List Body)
  /-- The reconciler completes the first item of its batch. -/
  | drained

section System

variable (namespaceName worker : RouteSegment)

namespace QueueSystem

/-- The queue is drained, or the reconciler has failed. -/
def Ended (s : QueueSystem) : Prop := ¬s.reconciler.Running

/-- The event can happen. -/
def Allows (s : QueueSystem) : QueueEvent → Prop
  | .shutdown => True
  | .loop => s.client.phase = .idle
  | .enqueued _ => s.client.phase = .enqueue
  | .reserved answer => s.client.phase = .reserve ∧ s.broker.Answers answer
  | .completed _ => s.client.phase.held? ≠ none
  | .leaseLate item => s.broker.Offers item
  | .leaseExpired _ => True
  | .storeLate item => item ∈ s.broker.enqueuing
  | .completeLate item => item ∈ s.broker.completing
  | .polled items => s.client.phase = .stopped ∧ s.reconciler.batch = [] ∧
      items.length ≤ reconciliationBatchSize ∧ items.Nodup ∧
      (∀ item ∈ items, s.broker.Offers item) ∧
      -- The reconciler drains the queue until it is empty.
      (items = [] → s.reconciler.emptyPolls = 2 → s.broker.stored = [])
  | .drained => s.reconciler.batch ≠ []

/-- The state after an event. -/
def apply (s : QueueSystem) : QueueEvent → QueueSystem
  | .shutdown => { s with client := { s.client with aborted := true } }
  | .loop => { s with client := s.client.loop }
  | .enqueued answer => { s with
      client := s.client.onEnqueue answer
      broker := s.broker.enqueue
        (pressureValue namespaceName worker .queue s.client.counter) answer }
  | .reserved answer => { s with
      client := s.client.onReserve namespaceName worker answer
      broker := match answer with
        | .ok (some item) => s.broker.lease [item]
        | _ => s.broker }
  | .completed answer =>
    match s.client.phase.held? with
    | some (item, sequence) => { s with
        client := s.client.onComplete sequence answer
        broker := s.broker.complete item answer }
    | none => s
  | .leaseLate item => { s with broker := s.broker.lease [item] }
  | .leaseExpired item => { s with broker := s.broker.expire item }
  | .storeLate item => { s with broker := s.broker.storeLate item }
  | .completeLate item => { s with broker := s.broker.completeLate item }
  | .polled items => { s with
      reconciler := s.reconciler.onReserve items
      broker := s.broker.lease items }
  | .drained => { s with
      reconciler := s.reconciler.onItem namespaceName worker
      broker := match s.reconciler.batch with
        | item :: _ =>
          -- An item is completed unless its checks fail.
          if (s.reconciler.onItem namespaceName worker).failure = none then s.broker.remove item
          else s.broker
        | [] => s.broker }

instance (s : QueueSystem) : (e : QueueEvent) → Decidable (s.Allows e)
  | .shutdown => inferInstanceAs (Decidable True)
  | .loop => inferInstanceAs (Decidable (_ = _))
  | .enqueued _ => inferInstanceAs (Decidable (_ = _))
  | .reserved _ => inferInstanceAs (Decidable (_ ∧ _))
  | .completed _ => inferInstanceAs (Decidable (_ ≠ _))
  | .leaseLate item => inferInstanceAs (Decidable (s.broker.Offers item))
  | .leaseExpired _ => inferInstanceAs (Decidable True)
  | .storeLate _ => inferInstanceAs (Decidable (_ ∈ _))
  | .completeLate _ => inferInstanceAs (Decidable (_ ∈ _))
  | .polled _ => inferInstanceAs (Decidable (_ ∧ _ ∧ _ ∧ _ ∧ _ ∧ (_ → _ → _)))
  | .drained => inferInstanceAs (Decidable (_ ≠ _))

end QueueSystem

/-- The queue of one worker: nothing happens once it is drained. -/
def queueSystem : EventSys QueueSystem QueueEvent :=
  (EventSys.ofTotal (QueueSystem.apply namespaceName worker)).restrict fun s e =>
    s.reconciler.Running ∧ s.Allows e

end System

/-! ### All workers -/

/-- A list of sequences, as a list of numbers. -/
def numbers (sequences : List ℕ) : List Number := sequences.map fun n : ℕ => Number.fin n

/-- The workers of a pressure run.  Each has its own route. -/
structure QueueFleet (n : ℕ) where
  namespaceName : RouteSegment
  workers : Fin n → RouteSegment
  distinct : Function.Injective fun i => (workers i).text

namespace QueueFleet

variable {n : ℕ} (p : QueueFleet n)

/-- The queues of all workers. -/
def system : EventSys (Fin n → QueueSystem) (Fin n × QueueEvent) :=
  EventSys.pi fun i => queueSystem p.namespaceName (p.workers i)

/-- The outcome a worker logs. -/
def outcome (s : Fin n → QueueSystem) (i : Fin n) : QueueClientOutcome :=
  let outcome := (s i).client.outcome
  { worker := (p.workers i).text
    acknowledged := numbers outcome.acknowledged
    ambiguousEnqueues := numbers outcome.ambiguousEnqueues
    failedEnqueues := numbers outcome.failedEnqueues
    completed := numbers outcome.completed
    ambiguousCompletions := numbers outcome.ambiguousCompletions }

/-- What the reconciler logs. -/
def observed (s : Fin n → QueueSystem) : ObservedByWorker :=
  List.ofFn fun i => ((p.workers i).text,
    numbers ((s i).reconciler.sequences.mergeSort (· ≤ ·)))

/-- The reconciler drains every queue, and the host accepts the outcomes. -/
def Accepted (s : Fin n → QueueSystem) : Prop :=
  (∀ i, (s i).reconciler.failure = none) ∧
    Check.Passes (reconcileQueueOutcomes (List.ofFn (p.outcome s)) (p.observed s))

end QueueFleet

end Pressure

end FitzDestroyer
