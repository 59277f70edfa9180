import FitzDestroyer.Config.Args
import FitzDestroyer.Queue.Leases
import FitzDestroyer.Workload.Identity

/-!
# The lifecycle of queue items

In `queue-lifecycle` a producer completes four items, two of them after their leases have ended, an
abandoner reserves one item and leaves, and consumers complete the others
(`workloads/queue-lifecycle.ts`).  The host compares what they report
(`orchestration/queue-lifecycle.ts`).

* `produce`, `abandon`, `consume` : the workers, as functions of the items that they get;
* `analyzeQueueLifecycle`, `assertQueueLifecycle` : the verdict of the host;
* `Exact` : what it decides, and `assertQueueLifecycle_eq_ok`;
* `Run`, `Run.Correct` : a run of the scenario against a queue that loses nothing.

Time is left out: no request takes too long, and a lease can end at any time.
-/

namespace FitzDestroyer

namespace Queue

namespace Lifecycle

open Js Check Workload

abbrev Body := List UInt8

inductive Role where
  | producer
  | abandoner
  | consumer (workerId : ℕ)
  deriving DecidableEq

/-! ### The workers -/

/-- `items.map((item) => identify(options, item.body)).sort(numericSort)` -/
def identifySorted (o : QueueOptions) (items : List Body) : Except Thrown (List ℕ) := do
  let sequences ← items.mapM (QueueLifecycle.identify o)
  return sequences.mergeSort (· ≤ ·)

/-- The record of the producer, which reserves twice. -/
def produce (o : QueueOptions) (batch redelivered : List Body) : Except Thrown Record := do
  failIf (o.operations < 8) (newError "Queue lifecycle requires at least 8 operations")
  failIf (batch.length ≠ 4)
    (newError s!"Expected partial Queue batch of 4, received {batch.length}")
  let initiallyReserved ← identifySorted o batch
  let initiallyCompleted ← identifySorted o (batch.take 2)
  let redeliveredSequences ← identifySorted o redelivered
  let expectedRedelivery ← identifySorted o (batch.drop 2)
  failIf (redeliveredSequences ≠ expectedRedelivery)
    (newError ("Queue lease expiry redelivery " ++ sequencesText redeliveredSequences ++ " != " ++
      sequencesText expectedRedelivery))
  return [("operations", .count o.operations),
    ("initiallyReserved", .arr (initiallyReserved.map .count)),
    ("initiallyCompleted", .arr (initiallyCompleted.map .count)),
    ("redelivered", .arr (redeliveredSequences.map .count)),
    ("completed", .arr
      (((initiallyCompleted ++ redeliveredSequences).mergeSort (· ≤ ·)).map .count))]

/-- The requests of the producer, if it does not throw. -/
def produceEvents (o : QueueOptions) (batch redelivered : List Body) : List (Event Role Body) :=
  ((List.range 4).map (queuePayload o)).map (.enqueue .producer) ++
    .reserve .producer 4 batch :: (batch.take 2).map (.complete .producer) ++
    .reserve .producer 4 redelivered :: redelivered.map (.complete .producer) ++
    ((List.range' 4 (o.operations - 4)).map (queuePayload o)).map (.enqueue .producer)

/-- The record of the abandoner, which reserves once. -/
def abandon (o : QueueOptions) (items : List Body) : Except Thrown Record :=
  match items with
  | [] => .error (newError "Queue abandoner did not reserve an item")
  | item :: _ => do
    let sequence ← QueueLifecycle.identify o item
    return [("sequence", .count sequence)]

/-- The worker is stopped. -/
def stopped : Thrown := .error "TimeoutError" "The operation was aborted due to timeout" none

/-- The requests of a consumer and its sequences, for what its requests to reserve get. -/
def consume (o : QueueOptions) (workerId emptyPolls : ℕ) (sequences : List ℕ) :
    List (List Body) → List (Event Role Body) × Except Thrown (List ℕ)
  | [] => ([], if 2 ≤ emptyPolls then .ok sequences else .error stopped)
  | items :: polls =>
    let reserved := .reserve (.consumer workerId) 1 items
    if 2 ≤ emptyPolls then ([], .ok sequences)
    else
      match items with
      | [] =>
        let rest := consume o workerId (emptyPolls + 1) sequences polls
        (reserved :: rest.1, rest.2)
      | item :: _ =>
        match QueueLifecycle.identify o item with
        | .error failure => ([reserved], .error failure)
        | .ok sequence =>
          let rest := consume o workerId 0 (sequences ++ [sequence]) polls
          (reserved :: .complete (.consumer workerId) item :: rest.1, rest.2)

/-! ### The host -/

structure QueueLifecycleLedger where
  operations : ℕ
  producerCompleted : List ℕ
  abandoned : ℕ
  consumers : Dict (List ℕ)

def onlyLog (logs : List Log) (label : String) : Except Thrown Log :=
  match logs with
  | [log] => .ok log
  | _ => .error (newError s!"{label} log count {logs.length}/1")

def addConsumer (consumers : Dict (List ℕ)) (p : String × Log) :
    Except Thrown (Dict (List ℕ)) := do
  let complete ← requiredEvent p.2 "queue_lifecycle_consumer_complete"
  let sequences ← numericArray (field complete "sequences") (p.1 ++ " sequences")
  return consumers.set p.1 sequences

def analyzeQueueLifecycle (producerLogs abandonerLogs : List Log)
    (consumerLogs : List (String × Log)) (operations : ℕ) :
    Except Thrown QueueLifecycleLedger := do
  let producerLog ← onlyLog producerLogs "Queue lifecycle producer"
  let abandonerLog ← onlyLog abandonerLogs "Queue lifecycle abandoner"
  let producer ← requiredEvent producerLog "queue_lifecycle_producer_complete"
  let abandoner ← requiredEvent abandonerLog "queue_lifecycle_abandoned"
  let consumers ← consumerLogs.foldlM addConsumer []
  let producerCompleted ← numericArray (field producer "completed") "producer completed"
  let abandoned ← numericValue (field abandoner "sequence") "abandoned sequence"
  return ⟨operations, producerCompleted, abandoned, consumers⟩

/-- A value that occurs twice is thrown. -/
def failIfDuplicate (values : List ℕ) (failure : ℕ → Thrown) : Except Thrown Unit :=
  match findDuplicate [] values with
  | some duplicate => .error (failure duplicate)
  | none => .ok ()

/-- Two lists of sequences print alike iff they are the same. -/
def assertQueueLifecycle (ledger : QueueLifecycleLedger) (replicas : ℕ) : Except Thrown Unit := do
  let consumers := ledger.consumers.entries
  failIf (consumers.length ≠ replicas)
    (newError s!"Queue lifecycle consumer count {consumers.length}/{replicas}")
  let all := ledger.producerCompleted ++ consumers.flatMap Prod.snd
  failIfDuplicate all fun duplicate =>
    newError s!"Queue lifecycle sequence {duplicate} completed twice"
  let actual := all.mergeSort (· ≤ ·)
  failIf (actual ≠ List.range ledger.operations)
    (newError ("Queue lifecycle did not drain exact backlog: " ++ sequencesText actual))
  failIf (¬(consumers.any fun p => ledger.abandoned ∈ p.2))
    (newError s!"Abandoned Queue sequence {ledger.abandoned} was not redelivered")
  let unfair := consumers.filter fun p => p.2 = []
  failIf (0 < unfair.length)
    (newError ("Queue consumer fairness failed for " ++ ", ".intercalate (unfair.map Prod.fst)))

/-! ### What is accepted -/

/-- **The ledger is exact.** -/
structure Exact (ledger : QueueLifecycleLedger) (replicas : ℕ) : Prop where
  backlog : (ledger.producerCompleted ++ ledger.consumers.flatMap Prod.snd).Perm
    (List.range ledger.operations)
  redelivered : ∃ p ∈ ledger.consumers, ledger.abandoned ∈ p.2
  consumers : ledger.consumers.length = replicas
  fair : ∀ p ∈ ledger.consumers, p.2 ≠ []

theorem failIfDuplicate_eq_ok {values : List ℕ} {failure : ℕ → Thrown} :
    failIfDuplicate values failure = .ok () ↔ values.Nodup := by
  rw [← findDuplicate_nil, failIfDuplicate]
  cases findDuplicate [] values <;> simp

/-- **The verdict on a ledger is exact.** -/
theorem assertQueueLifecycle_eq_ok {ledger : QueueLifecycleLedger} {replicas : ℕ} :
    assertQueueLifecycle ledger replicas = .ok () ↔ Exact ledger replicas := by
  have hentries := ledger.consumers.entries_perm
  have hall : (ledger.producerCompleted ++ ledger.consumers.entries.flatMap Prod.snd).Perm
      (ledger.producerCompleted ++ ledger.consumers.flatMap Prod.snd) :=
    (hentries.flatMap_right _).append_left _
  have hfair : ¬0 < (ledger.consumers.entries.filter fun p => p.2 = []).length ↔
      ∀ p ∈ ledger.consumers, p.2 ≠ [] := by
    rw [List.length_pos_iff, not_not, List.filter_eq_nil_iff]
    simp only [hentries.mem_iff, decide_eq_true_eq, ne_eq]
  simp only [assertQueueLifecycle, bind_eq, seq_eq_ok, failIf_eq_ok, failIfDuplicate_eq_ok,
    mergeSort_eq_range_iff, hentries.length_eq, hfair, not_not, List.any_eq_true,
    decide_eq_true_eq, hentries.mem_iff]
  constructor
  · rintro ⟨hcount, -, hbacklog, hredelivered, hfair⟩
    exact ⟨hall.symm.trans hbacklog, hredelivered, hcount, hfair⟩
  · intro h
    have hbacklog := hall.trans h.backlog
    exact ⟨h.consumers, hbacklog.nodup_iff.mpr List.nodup_range, hbacklog, h.redelivered, h.fair⟩

/-! ### Runs -/

/-- What the workers of a run get, and what happens to the queue meanwhile. -/
structure Run (o : QueueOptions) (replicas : ℕ) where
  batch : List Body
  redelivered : List Body
  reserved : List Body
  polls : Fin replicas → List (List Body)
  producing : List (Event Role Body)
  abandoning : List (Event Role Body)
  consuming : List (Event Role Body)

namespace Run

variable {o : QueueOptions} {replicas : ℕ}

def consumed (r : Run o replicas) (i : Fin replicas) :
    List (Event Role Body) × Except Thrown (List ℕ) :=
  consume o i 0 [] (r.polls i)

/-- The producer, the abandoner and the consumers come one after the other, and the consumers run at
the same time. -/
structure Correct (r : Run o replicas) : Prop where
  producing : (r.producing.filter fun e => e.client?.isSome) =
    produceEvents o r.batch r.redelivered
  abandoning : (r.abandoning.filter fun e => e.client?.isSome) =
    [.reserve .abandoner 1 r.reserved]
  consuming : ∀ e ∈ r.consuming, ∀ client ∈ e.client?, ∃ i : Fin replicas, client = .consumer i
  consumer : ∀ i : Fin replicas,
    (r.consuming.filter fun e => e.client? = some (.consumer i)) = (r.consumed i).1
  queue : ∃ q, Leases.Run ⟨[], []⟩ (r.producing ++ r.abandoning ++ r.consuming) q

/-- The log of a consumer, by its worker. -/
def consumerLog (r : Run o replicas) (i : Fin replicas) : Except Thrown (String × Log) := do
  let sequences ← (r.consumed i).2
  return (toString i.val, [logLine "queue_lifecycle_consumer_complete"
    [("workerId", .str (toString i.val)), ("sequences", .arr (sequences.map .count))]])

/-- The scenario fails if a worker throws. -/
def verdict (r : Run o replicas) : Except Thrown Unit := do
  let produced ← produce o r.batch r.redelivered
  let abandoned ← abandon o r.reserved
  let consumerLogs ← (List.finRange replicas).mapM r.consumerLog
  let ledger ← analyzeQueueLifecycle [[logLine "queue_lifecycle_producer_complete" produced]]
    [[logLine "queue_lifecycle_abandoned" abandoned]] consumerLogs o.operations
  assertQueueLifecycle ledger replicas

end Run

/-- The options of the workers: every worker gets the number of operations of the scenario. -/
def options (c : Config.RunConfig) : QueueOptions where
  seed := c.seed
  payloadBytes := c.payloadBytes
  operations := max 8 (c.resources * c.entriesPerResource)

end Lifecycle

end Queue

end FitzDestroyer
