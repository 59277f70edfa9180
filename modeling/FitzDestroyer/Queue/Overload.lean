import FitzDestroyer.Durability.Ledger
import FitzDestroyer.Pressure.QueueIdentity
import FitzDestroyer.Queue.Redelivery
import FitzDestroyer.Workload.Lanes

/-!
# The overload of a queue

In `queue-overload-recovery` producers enqueue while the storage is cut off, and a drainer reads
what is left in their routes (`workloads/queue-overload.ts`).  The host compares what they report
(`orchestration/queue-overload.ts`).

* `produce` : a producer, as an event system over its lanes;
* `drainItems`, `drainRoute`, `drain` : the drainer, for what the broker answers;
* `producerEvidence`, `drainQueue`, `assertQueueOverloadReconciled` : the host;
* `Recorded` : a producer records every enqueue that has settled, once;
* `drain_cases` : a drain that ends is clean, or it throws;
* `reconciliation_exact` : the host passes iff no sequence is lost, repeated, unknown or unstarted.
-/

namespace FitzDestroyer

namespace Queue

namespace Overload

open Js Check Workload
open Pressure (Body RouteSegment)
open Pressure.QueueOverload (payload sequenceFromPayload)

/-- The options that a producer runs with, as the worker has checked them. -/
structure Options where
  operations : ℕ
  concurrency : ℕ
  operations_le : operations ≤ maxSafeInteger
  concurrency_pos : 1 ≤ concurrency

/-! ### The producers -/

/-- A producer: its lanes, what it has recorded and what it has logged. -/
structure Producer where
  lanes : Lanes.State
  acknowledged : List ℕ
  failed : List ℕ
  failureReported : Bool
  log : Log

inductive Event where
  /-- The next lane is called. -/
  | call
  /-- The enqueue of a sequence is acknowledged, or throws. -/
  | enqueued (sequence : ℕ) (failure : Option Thrown)
  /-- A lane resumes after its enqueue. -/
  | resume (lane : ℕ)
  | abort

/-- What an event is for the lanes: a failure is caught within the operation. -/
def Event.lane : Event → Lanes.Event
  | .call => .call
  | .enqueued sequence _ => .settle sequence true
  | .resume lane => .resume lane
  | .abort => .abort

section Producer

variable (o : Options) (workerId : String)

def Producer.init : Producer where
  lanes := Lanes.init
  acknowledged := []
  failed := []
  failureReported := false
  log := [logLine "queue_overload_dispatched" [("workerId", .str workerId),
    ("operations", .count o.operations), ("concurrency", .count o.concurrency)]]

/-- What a producer records of an event. -/
def Producer.record (p : Producer) : Event → Producer
  | .enqueued sequence none => { p with acknowledged := p.acknowledged ++ [sequence] }
  | .enqueued sequence (some failure) =>
    let p := { p with failed := p.failed ++ [sequence] }
    if p.failureReported then p
    else { p with
      failureReported := true
      log := p.log ++ [logLine "queue_overload_failure_observed" [("workerId", .str workerId),
        ("sequence", .count sequence), ("error", .str failure.errorMessage)]] }
  | _ => p

def Producer.step (p : Producer) (e : Event) : Option Producer :=
  (Lanes.step o.operations o.concurrency p.lanes e.lane).map fun lanes =>
    { p.record workerId e with lanes := lanes }

def produce : EventSys Producer Event := ⟨Producer.step o workerId⟩

/-- The log of a producer whose lanes are all done. -/
def Producer.finished (p : Producer) : Log :=
  p.log ++ [logLine "queue_overload_producer_complete" [("workerId", .str workerId),
    ("started", .count o.operations),
    ("acknowledged", .arr ((p.acknowledged.mergeSort (· ≤ ·)).map .count)),
    ("failed", .arr ((p.failed.mergeSort (· ≤ ·)).map .count))]]

end Producer

/-! ### The drainer -/

/-- What the broker answers to a drainer that reserves. -/
abbrev Answer := Except Thrown (List Redelivery.Delivery)

section Drainer

variable (namespaceName worker : RouteSegment)

/-- The items of an answer: the sequences that were seen after them. -/
def drainItems (seen : List ℕ) : List Redelivery.Delivery → Except Thrown (List ℕ)
  | [] => .ok seen
  | item :: items => do
    let sequence ← sequenceFromPayload namespaceName worker item.body
    failIf (sequence ∈ seen)
      (newError s!"{worker.text} observed duplicate Queue sequence {sequence}")
    attempt item.failure
    drainItems (seen ++ [sequence]) items

/-- The loop over a route, for the answers that the drainer gets: `none` while it waits. -/
def drainRoute (emptyPolls : ℕ) (seen : List ℕ) :
    List Answer → Option (Except Thrown (List ℕ))
  | [] => if emptyPolls < 3 then none else some (.ok seen)
  | answer :: answers =>
    if emptyPolls < 3 then
      match answer with
      | .error failure => some (.error failure)
      | .ok [] => drainRoute (emptyPolls + 1) seen answers
      | .ok (item :: items) =>
        match drainItems namespaceName worker seen (item :: items) with
        | .error failure => some (.error failure)
        | .ok seen => drainRoute 0 seen answers
    else some (.ok seen)

/-- The log of a drainer that has drained its routes. -/
def drainLog (observed : Dict (List ℕ)) : Log :=
  [logLine "queue_overload_drain_complete"
    [("observed", .obj (observed.entries.map fun p => (p.1, .arr (p.2.map .count))))]]

/-- What becomes of a drainer, for the routes that it has drained and those that are left. -/
def drain (observed : Dict (List ℕ)) :
    List (RouteSegment × List Answer) → Option (Except Thrown Log)
  | [] => some (.ok (drainLog observed))
  | route :: routes =>
    match drainRoute namespaceName route.1 0 [] route.2 with
    | none => none
    | some (.error failure) => some (.error failure)
    | some (.ok seen) =>
      drain (observed.set route.1.text (seen.mergeSort (· ≤ ·))) routes

end Drainer

/-! ### The host -/

structure QueueOverloadProducerEvidence where
  started : ℕ
  acknowledged : List ℕ
  failed : List ℕ

/-- `values.map` with the check of every value. -/
def sequences (values : List Json) (message : String) : Except Thrown (List ℕ) :=
  values.mapM fun value =>
    match value.sequence? with
    | some sequence => .ok sequence
    | none => .error (newError message)

def integerArray (value : Option Json) (label : String) : Except Thrown (List ℕ) :=
  match value with
  | some (.arr values) => sequences values s!"{label} contained an invalid sequence"
  | _ => .error (newError s!"{label} was not an array")

/-- The evidence of one producer. -/
def evidenceOf (worker : String) (log : Log) :
    Except Thrown (String × QueueOverloadProducerEvidence) := do
  let complete ← requiredEvent log "queue_overload_producer_complete"
  let started ← numericField complete "started"
  let acknowledged ← integerArray (field complete "acknowledged") s!"{worker} acknowledged"
  let failed ← integerArray (field complete "failed") s!"{worker} failed"
  return (worker, ⟨started, acknowledged, failed⟩)

def producerEvidence (logs : List (String × Log)) :
    Except Thrown (Dict QueueOverloadProducerEvidence) := do
  let entries ← logs.mapM fun p => evidenceOf p.1 p.2
  return Dict.fromEntries entries

/-- What the drainer observed of one producer. -/
def observedOf (observed : Record) (label worker : String) :
    Except Thrown (String × List ℕ) :=
  match field observed worker with
  | some (.arr values) => do
    let values ← sequences values s!"{label} contained an invalid Queue sequence"
    return (worker, values)
  | _ => .error (newError s!"{label} omitted worker {worker}")

/-- What the host reads in the log of a drainer that has exited. -/
def drainQueue (log : Log) (workers : List String) (label : String) :
    Except Thrown (Dict (List ℕ)) := do
  let record ← requiredEvent log "queue_overload_drain_complete"
  let observed ← Durability.recordField record "observed"
  let entries ← workers.mapM (observedOf observed label)
  return Dict.fromEntries entries

def assertQueueOverloadReconciled (producers : Dict QueueOverloadProducerEvidence)
    (observed : Dict (List ℕ)) : Except Thrown Unit :=
  forEach producers.entries fun p => do
    let values := (observed.get? p.1).getD []
    forEach p.2.acknowledged fun sequence => failIf (sequence ∉ values)
      (newError s!"Acknowledged Queue sequence {p.1}/{sequence} disappeared")
    forEach values fun sequence => failIf (p.2.started ≤ sequence)
      (newError s!"Queue exposed unstarted sequence {p.1}/{sequence}")

/-- The host, for the logs of the producers and for what became of the drainer: a worker that
throws fails its container, and with it the scenario. -/
def reconcile (producerLogs : List (String × Log)) (drained : Except Thrown Log)
    (workers : List String) (label : String) : Except Thrown Unit := do
  let evidence ← producerEvidence producerLogs
  let log ← drained
  let observed ← drainQueue log workers label
  assertQueueOverloadReconciled evidence observed

/-! ### What the producers record -/

section

variable {o : Options} {workerId : String} {p p' : Producer}

variable (o) in
/-- A producer records each enqueue that has settled, and records it once. -/
structure Recorded (p : Producer) : Prop where
  lanes : Lanes.Invariant o.operations o.concurrency p.lanes
  nodup : (p.acknowledged ++ p.failed).Nodup
  mem_iff : ∀ s, s ∈ p.acknowledged ++ p.failed ↔ p.lanes.outcome s ≠ none

theorem Recorded.init : Recorded o (Producer.init o workerId) where
  lanes := .init
  nodup := List.nodup_nil
  mem_iff _ := iff_of_false List.not_mem_nil (not_not.mpr rfl)

/-- What a step records: nothing, or the sequence of an enqueue that settles. -/
theorem step_cases {e : Event} (h : p.step o workerId e = some p') :
    (p'.acknowledged = p.acknowledged ∧ p'.failed = p.failed ∧
      p'.lanes.outcome = p.lanes.outcome ∧ ∀ s failure, e ≠ .enqueued s failure) ∨
    ∃ s failure, e = .enqueued s failure ∧ p.lanes.outcome s = none ∧
      p'.lanes.outcome = Function.update p.lanes.outcome s (some true) ∧
      p'.acknowledged = p.acknowledged ++ (if failure = none then [s] else []) ∧
      p'.failed = p.failed ++ if failure = none then [] else [s] := by
  obtain ⟨lanes, hlanes, rfl⟩ := Option.map_eq_some_iff.mp h
  have hsame : ∀ {e : Event}, (∀ s fulfilled, e.lane ≠ .settle s fulfilled) →
      Lanes.step o.operations o.concurrency p.lanes e.lane = some lanes →
        lanes.outcome = p.lanes.outcome := by
    intro e he hstep
    rcases Lanes.step_cases hstep with ⟨place, -, -, -, rfl⟩ | ⟨i, s, -, -, -, rfl⟩ |
      ⟨s, fulfilled, heq, -⟩ | ⟨-, rfl⟩
    · exact Lanes.outcome_loop _ _
    · rfl
    · exact absurd heq (he s fulfilled)
    · rfl
  cases e with
  | call => exact .inl ⟨rfl, rfl, hsame (by simp [Event.lane]) hlanes, by simp⟩
  | resume lane => exact .inl ⟨rfl, rfl, hsame (by simp [Event.lane]) hlanes, by simp⟩
  | abort => exact .inl ⟨rfl, rfl, hsame (by simp [Event.lane]) hlanes, by simp⟩
  | enqueued s failure =>
    simp only [Event.lane, Lanes.step] at hlanes
    split_ifs at hlanes with hsettle
    obtain rfl := Option.some.inj hlanes
    refine .inr ⟨s, failure, rfl, hsettle.2, rfl, ?_⟩
    cases failure with
    | none => exact ⟨rfl, (List.append_nil _).symm⟩
    | some failure =>
      have hne : some failure ≠ none := by simp
      rw [if_neg hne, if_neg hne, List.append_nil]
      simp only [Producer.record]
      split_ifs <;> exact ⟨rfl, rfl⟩

/-- **The step lemma.** -/
theorem Recorded.step (h : Recorded o p) {e : Event} (hstep : p.step o workerId e = some p') :
    Recorded o p' := by
  have hlanes : Lanes.Invariant o.operations o.concurrency p'.lanes := by
    obtain ⟨lanes, hlanes, rfl⟩ := Option.map_eq_some_iff.mp hstep
    exact h.lanes.step hlanes
  rcases step_cases hstep with ⟨hack, hfail, hout, -⟩ | ⟨s, failure, -, hnone, hout, hack, hfail⟩
  · exact ⟨hlanes, by rw [hack, hfail]; exact h.nodup, by rw [hack, hfail, hout]; exact h.mem_iff⟩
  · have hperm : (p'.acknowledged ++ p'.failed).Perm (s :: (p.acknowledged ++ p.failed)) := by
      rw [hack, hfail]
      split_ifs with hfailure
      · rw [List.append_nil, List.append_assoc, List.singleton_append]
        exact List.perm_middle
      · rw [List.append_nil, ← List.append_assoc]
        exact List.perm_append_singleton s _
    refine ⟨hlanes, ?_, fun t => ?_⟩
    · rw [hperm.nodup_iff, List.nodup_cons]
      exact ⟨fun hmem => (h.mem_iff s).mp hmem hnone, h.nodup⟩
    · rw [hperm.mem_iff, List.mem_cons, h.mem_iff, hout]
      by_cases hsame : t = s
      · subst hsame
        simp
      · rw [Function.update_of_ne hsame, or_iff_right hsame]

theorem Recorded.reached {events : List Event}
    (hrun : (produce o workerId).run (Producer.init o workerId) events = some p) : Recorded o p :=
  EventSys.invariant (fun _ _ _ h hstep => h.step hstep) Recorded.init hrun

/-- When its lanes are done, a producer has recorded every sequence. -/
theorem Recorded.perm_range (h : Recorded o p)
    (hdone : Lanes.Resolved o.operations o.concurrency p.lanes) :
    p.lanes.invoked = List.range o.operations ∧
      (p.acknowledged ++ p.failed).Perm (List.range o.operations) := by
  obtain ⟨hinvoked, hsettled⟩ := h.lanes.settled_of_resolved o.concurrency_pos hdone
  refine ⟨hinvoked, (List.perm_ext_iff_of_nodup h.nodup List.nodup_range).mpr fun s => ?_⟩
  rw [h.mem_iff, List.mem_range]
  refine ⟨fun hsome => ?_, hsettled s⟩
  have hmem := h.lanes.settled s hsome
  rwa [hinvoked, List.mem_range] at hmem

/-- What a producer records is what its enqueues came to. -/
theorem recorded_iff_event {events : List Event}
    (hrun : (produce o workerId).run (Producer.init o workerId) events = some p) (s : ℕ) :
    (s ∈ p.acknowledged ↔ .enqueued s none ∈ events) ∧
      (s ∈ p.failed ↔ ∃ failure, .enqueued s (some failure) ∈ events) := by
  have hall : ∀ (events : List Event) (q : Producer),
      (produce o workerId).run q events = some p →
        (s ∈ p.acknowledged ↔ s ∈ q.acknowledged ∨ .enqueued s none ∈ events) ∧
          (s ∈ p.failed ↔ s ∈ q.failed ∨ ∃ failure, .enqueued s (some failure) ∈ events) := by
    intro events
    induction events with
    | nil =>
      intro q hq
      obtain rfl := Option.some.inj hq
      simp
    | cons e events ih =>
      intro q hq
      obtain ⟨r, hstep, hrest⟩ := EventSys.run_cons_eq_some.mp hq
      obtain ⟨hack, hfail⟩ := ih r hrest
      rcases step_cases hstep with ⟨hack', hfail', -, hother⟩ |
        ⟨t, failure, rfl, -, -, hack', hfail'⟩
      · simp [hack, hfail, hack', hfail', (hother s _).symm]
      · rw [hack, hfail, hack', hfail']
        cases failure <;> simp [or_assoc, exists_or, eq_comm]
  simpa [Producer.init] using hall events _ hrun

/-- What a producer does is a run of its lanes. -/
theorem run_lanes {events : List Event}
    (hrun : (produce o workerId).run p events = some p') :
    (Lanes.runConcurrent o.operations o.concurrency).run p.lanes (events.map Event.lane) =
      some p'.lanes := by
  induction events generalizing p with
  | nil =>
    obtain rfl := Option.some.inj hrun
    rfl
  | cons e events ih =>
    obtain ⟨q, hstep, hrest⟩ := EventSys.run_cons_eq_some.mp hrun
    obtain ⟨lanes, hlanes, rfl⟩ := Option.map_eq_some_iff.mp hstep
    exact EventSys.run_cons_eq_some.mpr ⟨lanes, hlanes, ih hrest⟩

/-- **A producer ends**: unless it is aborted, it is not stuck before its lanes are done, and it
takes no more steps than its lanes do. -/
theorem produce_ends {events : List Event}
    (hrun : (produce o workerId).run (Producer.init o workerId) events = some p)
    (habort : .abort ∉ events) :
    (¬Lanes.Resolved o.operations o.concurrency p.lanes →
      ∃ e, (p.step o workerId e).isSome ∧ e.lane.Peaceful) ∧
    events.length ≤ 2 * o.operations + min o.operations o.concurrency := by
  have hlanes := run_lanes hrun
  have hpeaceful : ∀ e ∈ events.map Event.lane, e.Peaceful := by
    rw [List.forall_mem_map]
    intro e he
    cases e with
    | call => trivial
    | enqueued s failure => rfl
    | resume lane => trivial
    | abort => exact habort he
  have hlength := Lanes.length_le_of_peaceful hpeaceful hlanes
  rw [List.length_map] at hlength
  refine ⟨fun hresolved => ?_, hlength⟩
  obtain ⟨e, he, hstep⟩ := Lanes.progress (Lanes.Invariant.reached hlanes)
    (Lanes.Unharmed.reached hpeaceful hlanes) hresolved
  -- Each step of the lanes is one of the producer.
  have hevent : ∃ e' : Event, e'.lane = e := by
    cases e with
    | call => exact ⟨.call, rfl⟩
    | settle s fulfilled =>
      obtain rfl : fulfilled = true := he
      exact ⟨.enqueued s none, rfl⟩
    | resume lane => exact ⟨.resume lane, rfl⟩
    | abort => exact ⟨.abort, rfl⟩
  obtain ⟨e', rfl⟩ := hevent
  exact ⟨e', by rwa [Producer.step, Option.isSome_map], he⟩

end

/-! ### What the drainer observes -/

/-- The answer of a request that succeeds, whose items can be completed. -/
def answer (bodies : List Body) : Answer := .ok (bodies.map fun body => ⟨body, none⟩)

/-- The records that the broker returns from a route, until the drainer leaves it. -/
def returned (emptyPolls : ℕ) : List (List Body) → List Body
  | [] => []
  | bodies :: polls =>
    if emptyPolls < 3 then
      bodies ++ returned (if bodies = [] then emptyPolls + 1 else 0) polls
    else []

section

variable (namespaceName worker : RouteSegment)

/-- The sequences that the records decode to. -/
def decoded (bodies : List Body) : List ℕ :=
  bodies.filterMap fun body => (sequenceFromPayload namespaceName worker body).toOption

/-- The records decode to sequences that have not been seen. -/
def Clean (seen : List ℕ) (bodies : List Body) : Prop :=
  (∀ body ∈ bodies, Passes (sequenceFromPayload namespaceName worker body)) ∧
    (seen ++ decoded namespaceName worker bodies).Nodup

variable {namespaceName worker} {seen : List ℕ} {bodies : List Body}

theorem Clean.nodup (h : Clean namespaceName worker seen bodies) :
    (seen ++ decoded namespaceName worker bodies).Nodup := h.2

theorem clean_nil (h : seen.Nodup) : Clean namespaceName worker seen [] := by
  refine ⟨List.forall_mem_nil _, ?_⟩
  rwa [decoded, List.filterMap_nil, List.append_nil]

theorem mem_decoded {s : ℕ} : s ∈ decoded namespaceName worker bodies ↔
    ∃ body ∈ bodies, sequenceFromPayload namespaceName worker body = .ok s := by
  have hok : ∀ body, (sequenceFromPayload namespaceName worker body).toOption = some s ↔
      sequenceFromPayload namespaceName worker body = .ok s := by
    intro body
    cases sequenceFromPayload namespaceName worker body <;> simp [Except.toOption]
  simp only [decoded, List.mem_filterMap, hok]

/-- A sequence that is decoded is a safe integer. -/
theorem le_of_mem_decoded {s : ℕ} (h : s ∈ decoded namespaceName worker bodies) :
    s ≤ maxSafeInteger := by
  obtain ⟨body, -, hbody⟩ := mem_decoded.mp h
  obtain ⟨rest, -, hsequence⟩ := Pressure.QueueOverload.sequenceFromPayload_eq_ok.mp hbody
  have heq := Number.eq_of_sequence? hsequence
  rw [heq] at hsequence
  exact (Number.sequence?_natCast_eq_some.mp hsequence).1

theorem decoded_append (xs ys : List Body) : decoded namespaceName worker (xs ++ ys) =
    decoded namespaceName worker xs ++ decoded namespaceName worker ys := List.filterMap_append

theorem clean_append {xs ys : List Body} : Clean namespaceName worker seen (xs ++ ys) ↔
    Clean namespaceName worker seen xs ∧
      Clean namespaceName worker (seen ++ decoded namespaceName worker xs) ys := by
  simp only [Clean, List.forall_mem_append, decoded_append, ← List.append_assoc]
  constructor
  · rintro ⟨⟨hxs, hys⟩, hnodup⟩
    exact ⟨⟨hxs, (List.nodup_append.mp hnodup).1⟩, hys, hnodup⟩
  · rintro ⟨⟨hxs, -⟩, hys, hnodup⟩
    exact ⟨⟨hxs, hys⟩, hnodup⟩

/-- What becomes of a route: it is clean and the sequences are seen, or the drainer throws. -/
def Ends (namespaceName worker : RouteSegment) (seen : List ℕ) (bodies : List Body)
    (result : Except Thrown (List ℕ)) : Prop :=
  Clean namespaceName worker seen bodies ∧
      result = .ok (seen ++ decoded namespaceName worker bodies) ∨
    ¬Clean namespaceName worker seen bodies ∧ ¬Passes result

theorem drainItems_ends (h : seen.Nodup) : Ends namespaceName worker seen bodies
    (drainItems namespaceName worker seen (bodies.map fun body => ⟨body, none⟩)) := by
  induction bodies generalizing seen with
  | nil =>
    refine .inl ⟨clean_nil h, ?_⟩
    rw [decoded, List.filterMap_nil, List.append_nil]
    rfl
  | cons body bodies ih =>
    rw [← List.singleton_append]
    simp only [Ends, clean_append, decoded_append, ← List.append_assoc]
    rw [List.singleton_append, List.map_cons, drainItems, bind_eq]
    cases hbody : sequenceFromPayload namespaceName worker body with
    | error failure =>
      refine .inr ⟨fun hclean => ?_, not_passes_error failure⟩
      obtain ⟨s, hs⟩ := hclean.1.1 body (List.mem_singleton_self body)
      cases hbody.symm.trans hs
    | ok s =>
      have hdecoded : decoded namespaceName worker [body] = [s] := by
        simp [decoded, hbody, Except.toOption]
      have hnodup : (seen ++ [s]).Nodup ↔ s ∉ seen := by
        rw [List.nodup_append_comm, List.singleton_append, List.nodup_cons, and_iff_left h]
      have hclean : Clean namespaceName worker seen [body] ↔ s ∉ seen := by
        rw [Clean, hdecoded, List.forall_mem_singleton, hbody, hnodup]
        exact and_iff_right (passes_ok s)
      rw [hclean, hdecoded]
      by_cases hs : s ∈ seen
      · refine .inr ⟨fun hnot => hnot.1 hs, ?_⟩
        simp [failIf, hs, Except.bind]
      · -- The sequence is seen with the rest of the items.
        rcases ih (hnodup.mpr hs) with ⟨hrest, hok⟩ | ⟨hrest, herror⟩
        · refine .inl ⟨⟨hs, hrest⟩, ?_⟩
          simpa [failIf, hs, Except.bind, attempt] using hok
        · refine .inr ⟨fun hboth => hrest hboth.2, ?_⟩
          simpa [failIf, hs, Except.bind, attempt] using herror

theorem Ends.append {xs ys : List Body} {result : Except Thrown (List ℕ)}
    (hxs : Clean namespaceName worker seen xs)
    (h : Ends namespaceName worker (seen ++ decoded namespaceName worker xs) ys result) :
    Ends namespaceName worker seen (xs ++ ys) result := by
  simp only [Ends, clean_append, decoded_append, ← List.append_assoc] at h ⊢
  rcases h with ⟨hys, hresult⟩ | ⟨hys, hresult⟩
  · exact .inl ⟨⟨hxs, hys⟩, hresult⟩
  · exact .inr ⟨fun hboth => hys hboth.2, hresult⟩

theorem ends_nil (h : seen.Nodup) : Ends namespaceName worker seen [] (.ok seen) :=
  .inl ⟨clean_nil h, congrArg Except.ok (List.append_nil seen).symm⟩

/-- **How a route ends.** -/
theorem drainRoute_ends {emptyPolls : ℕ} {polls : List (List Body)}
    {result : Except Thrown (List ℕ)} (h : seen.Nodup)
    (hended : drainRoute namespaceName worker emptyPolls seen (polls.map answer) = some result) :
    Ends namespaceName worker seen (returned emptyPolls polls) result := by
  induction polls generalizing emptyPolls seen with
  | nil =>
    rw [List.map_nil, drainRoute] at hended
    split_ifs at hended
    obtain rfl := Option.some.inj hended
    exact ends_nil h
  | cons bodies polls ih =>
    rw [List.map_cons, drainRoute.eq_def] at hended
    dsimp only at hended
    rw [returned]
    by_cases hpolls : emptyPolls < 3
    · rw [if_pos hpolls] at hended ⊢
      rcases bodies with _ | ⟨body, bodies⟩
      · rw [if_pos rfl]
        exact ih h hended
      · rw [if_neg (List.cons_ne_nil _ _)]
        have hitems := @drainItems_ends namespaceName worker seen (body :: bodies) h
        simp only [answer, List.map_cons] at hended
        rw [List.map_cons] at hitems
        rcases hitems with ⟨hclean, hok⟩ | ⟨hclean, herror⟩
        · rw [hok] at hended
          exact Ends.append hclean (ih hclean.nodup hended)
        · obtain ⟨failure, hfailure⟩ := not_passes_iff.mp herror
          rw [hfailure] at hended
          obtain rfl := Option.some.inj hended
          exact .inr ⟨fun hboth => hclean (clean_append.mp hboth).1, not_passes_error _⟩
    · rw [if_neg hpolls] at hended ⊢
      obtain rfl := Option.some.inj hended
      exact ends_nil h

/-- The sequences that are observed on a route, as the drainer logs them. -/
def observedOn (namespaceName : RouteSegment) (route : RouteSegment × List (List Body)) :
    String × List ℕ :=
  (route.1.text, (decoded namespaceName route.1 (returned 0 route.2)).mergeSort (· ≤ ·))

/-- **How a drain ends**: every route is clean, or the drainer throws. -/
theorem drain_cases {routes : List (RouteSegment × List (List Body))} {before : Dict (List ℕ)}
    {result : Except Thrown Log} (h : drain namespaceName before
      (routes.map fun route => (route.1, route.2.map answer)) = some result) :
    (∀ route ∈ routes, Clean namespaceName route.1 [] (returned 0 route.2)) ∧
        result = .ok (drainLog ((routes.map (observedOn namespaceName)).foldl
          (fun d p => d.set p.1 p.2) before)) ∨
      (∃ route ∈ routes, ¬Clean namespaceName route.1 [] (returned 0 route.2)) ∧
        ¬Passes result := by
  induction routes generalizing before with
  | nil => exact .inl ⟨List.forall_mem_nil _, (Option.some.inj h).symm⟩
  | cons route routes ih =>
    rw [List.map_cons, drain] at h
    dsimp only at h
    rcases hroute : drainRoute namespaceName route.1 0 [] (route.2.map answer) with _ | ended
    · rw [hroute] at h
      cases h
    rcases drainRoute_ends List.nodup_nil hroute with ⟨hclean, rfl⟩ | ⟨hclean, herror⟩
    · rw [hroute] at h
      rcases ih h with ⟨hrest, hok⟩ | ⟨⟨other, hmem, hother⟩, herror⟩
      · exact .inl ⟨List.forall_mem_cons.mpr ⟨hclean, hrest⟩, hok⟩
      · exact .inr ⟨⟨other, List.mem_cons_of_mem _ hmem, hother⟩, herror⟩
    · obtain ⟨failure, rfl⟩ := not_passes_iff.mp herror
      rw [hroute] at h
      obtain rfl := Option.some.inj h
      exact .inr ⟨⟨route, List.mem_cons_self, hclean⟩, not_passes_error failure⟩

end

/-! ### What the host reads -/

theorem sequences_count {xs : List ℕ} (h : ∀ x ∈ xs, x ≤ maxSafeInteger) (message : String) :
    sequences (xs.map .count) message = .ok xs := by
  rw [sequences, List.mapM_map, mapM_eq_ok, List.forall₂_same]
  intro x hx
  have hsequence : (Json.count x).sequence? = some x := Number.sequence?_natCast (h x hx)
  simp only [Function.comp_apply, hsequence]

/-- The host reads what a producer logs. -/
theorem evidenceOf_finished {o : Options} {worker : String} {p : Producer}
    (hack : ∀ s ∈ p.acknowledged, s ≤ maxSafeInteger)
    (hfail : ∀ s ∈ p.failed, s ≤ maxSafeInteger) :
    evidenceOf worker (p.finished o worker) = .ok (worker, ⟨o.operations,
      p.acknowledged.mergeSort (· ≤ ·), p.failed.mergeSort (· ≤ ·)⟩) := by
  have hsorted : ∀ {xs : List ℕ}, (∀ s ∈ xs, s ≤ maxSafeInteger) →
      ∀ s ∈ xs.mergeSort (· ≤ ·), s ≤ maxSafeInteger :=
    fun h s hs => h s (List.mem_mergeSort.mp hs)
  have hstarted : ∀ {record : Record}, field record "started" = some (.count o.operations) →
      numericField record "started" = .ok o.operations :=
    fun h => (numericField_eq_ok h).mpr ⟨o.operations_le, rfl⟩
  rw [evidenceOf, Producer.finished, requiredEvent_append_logLine]
  simp only [bind_eq, Except.bind, pure_eq]
  rw [hstarted (by simp [field])]
  simp [field, integerArray, sequences_count (hsorted hack), sequences_count (hsorted hfail)]

/-- The host reads what a drainer logs. -/
theorem drainQueue_drainLog {observed : Dict (List ℕ)} (hkeys : (observed.map Prod.fst).Nodup)
    (hle : ∀ p ∈ observed, ∀ s ∈ p.2, s ≤ maxSafeInteger) (label : String) :
    drainQueue (drainLog observed) (observed.map Prod.fst) label = .ok observed := by
  have hread : ∀ p ∈ observed, observedOf
      (observed.entries.map fun p => (p.1, .arr (p.2.map .count))) label p.1 = .ok p := by
    intro p hp
    have hfield : field (observed.entries.map fun p => (p.1, .arr (p.2.map .count))) p.1 =
        some (.arr (p.2.map .count)) := by
      have hget := Dict.get?_map (fun xs : List ℕ => Json.arr (xs.map .count)) observed.entries p.1
      rw [Dict.get?_entries hkeys, (Dict.get?_eq_some hkeys).mpr hp] at hget
      exact hget
    rw [observedOf, hfield]
    simp only [sequences_count (hle p hp), bind_eq, Except.bind, pure_eq]
  have hentries : (observed.map Prod.fst).mapM (observedOf
      (observed.entries.map fun p => (p.1, .arr (p.2.map .count))) label) = .ok observed := by
    rw [mapM_eq_ok, List.forall₂_map_left_iff, List.forall₂_same]
    exact hread
  rw [drainQueue, drainLog, requiredEvent_logLine]
  simp only [bind_eq, Except.bind, pure_eq]
  have hfield : Durability.recordField [("event", .str "queue_overload_drain_complete"),
      ("observed", .obj (observed.entries.map fun p => (p.1, .arr (p.2.map .count))))] "observed" =
        .ok (observed.entries.map fun p => (p.1, .arr (p.2.map .count))) := by
    simp [Durability.recordField, field]
  rw [hfield]
  simp only [hentries, Dict.fromEntries_of_nodup hkeys]

theorem assertQueueOverloadReconciled_eq_ok {producers : Dict QueueOverloadProducerEvidence}
    {observed : Dict (List ℕ)} :
    assertQueueOverloadReconciled producers observed = .ok () ↔ ∀ p ∈ producers,
      (∀ s ∈ p.2.acknowledged, s ∈ (observed.get? p.1).getD []) ∧
        ∀ s ∈ (observed.get? p.1).getD [], s < p.2.started := by
  simp only [assertQueueOverloadReconciled, bind_eq, seq_eq_ok, forEach_eq_ok, failIf_eq_ok,
    not_not, not_le, (Dict.entries_perm producers).mem_iff]

/-! ### The whole pipeline -/

section Pipeline

variable {producers : ℕ}

/-- `String(index)`. -/
def workerId (i : Fin producers) : RouteSegment where
  text := toString i.val
  chars c hc := by
    rw [Nat.toString_eq_ofList_toDigits, String.toList_ofList] at hc
    exact .inl (isDigit_of_mem_toDigits hc)

/-- A table with an entry for each producer. -/
def table {V : Type*} (value : Fin producers → V) : List (String × V) :=
  (List.finRange producers).map fun i => ((workerId i).text, value i)

/-- The logs of the producers. -/
def producerLogs (o : Options) (p : Fin producers → Producer) : List (String × Log) :=
  table fun i => (p i).finished o (workerId i).text

/-- The drainer, for the records that the broker returns from the routes of the producers. -/
def drainRoutes (namespaceName : RouteSegment) (polls : Fin producers → List (List Body)) :
    Option (Except Thrown Log) :=
  drain namespaceName [] ((List.finRange producers).map fun i =>
    (workerId i, (polls i).map answer))

/-- The sequences that are observed on the route of a producer. -/
def observed (namespaceName : RouteSegment) (polls : Fin producers → List (List Body))
    (i : Fin producers) : List ℕ :=
  decoded namespaceName (workerId i) (returned 0 (polls i))

theorem nodup_keys {V : Type*} (value : Fin producers → V) :
    ((table value).map Prod.fst).Nodup := by
  rw [table, List.map_map]
  exact (List.nodup_finRange producers).map fun i j h => Fin.ext (toString_injective h)

theorem forall_mem_table {V : Type*} {value : Fin producers → V} {P : String × V → Prop} :
    (∀ q ∈ table value, P q) ↔ ∀ i, P ((workerId i).text, value i) := by
  simp only [table, List.forall_mem_map, List.mem_finRange, forall_const]

theorem get?_table {V : Type*} (value : Fin producers → V) (i : Fin producers) :
    Dict.get? (table value) (workerId i).text = some (value i) :=
  (Dict.get?_eq_some (nodup_keys value)).mpr (List.mem_map.mpr ⟨i, List.mem_finRange i, rfl⟩)

variable {o : Options} {namespaceName : RouteSegment} {label : String}
  {events : Fin producers → List Event} {p : Fin producers → Producer}
  {polls : Fin producers → List (List Body)} {drained : Except Thrown Log}

theorem producerEvidence_producerLogs (hrec : ∀ i, Recorded o (p i))
    (hdone : ∀ i, Lanes.Resolved o.operations o.concurrency (p i).lanes) :
    producerEvidence (producerLogs o p) = .ok (table fun i => ⟨o.operations,
      (p i).acknowledged.mergeSort (· ≤ ·), (p i).failed.mergeSort (· ≤ ·)⟩) := by
  have hle : ∀ i, ∀ s ∈ (p i).acknowledged ++ (p i).failed, s ≤ maxSafeInteger := by
    intro i s hs
    have hlt := List.mem_range.mp (((hrec i).perm_range (hdone i)).2.mem_iff.mp hs)
    exact hlt.le.trans o.operations_le
  have hentries : (producerLogs o p).mapM (fun q => evidenceOf q.1 q.2) =
      .ok (table fun i => ⟨o.operations, (p i).acknowledged.mergeSort (· ≤ ·),
        (p i).failed.mergeSort (· ≤ ·)⟩) := by
    rw [producerLogs, table, table, mapM_eq_ok, List.forall₂_map_left_iff,
      List.forall₂_map_right_iff, List.forall₂_same]
    exact fun i _ => evidenceOf_finished (fun s hs => hle i s (List.mem_append_left _ hs))
      fun s hs => hle i s (List.mem_append_right _ hs)
  rw [producerEvidence, hentries]
  exact congrArg Except.ok (Dict.fromEntries_of_nodup (nodup_keys _))

/-- How the drainer ends, and what the host reads of it. -/
theorem drainRoutes_cases (h : drainRoutes namespaceName polls = some drained) :
    (∀ i : Fin producers, Clean namespaceName (workerId i) [] (returned 0 (polls i))) ∧
      (∃ log, drained = .ok log ∧
        drainQueue log ((List.finRange producers).map fun i => (workerId i).text) label =
          .ok (table fun i => (observed namespaceName polls i).mergeSort (· ≤ ·))) ∨
    (∃ i : Fin producers, ¬Clean namespaceName (workerId i) [] (returned 0 (polls i))) ∧
      ¬Passes drained := by
  have hroutes := @drain_cases namespaceName
    ((List.finRange producers).map fun i => (workerId i, polls i)) [] drained
    (by rw [List.map_map]; exact h)
  have hobserved : ((List.finRange producers).map fun i => (workerId i, polls i)).map
      (observedOn namespaceName) =
        table fun i => (observed namespaceName polls i).mergeSort (· ≤ ·) := List.map_map
  rcases hroutes with ⟨hclean, rfl⟩ | ⟨⟨route, hmem, hroute⟩, herror⟩
  · refine .inl ⟨fun i => hclean _ (List.mem_map.mpr ⟨i, List.mem_finRange i, rfl⟩), _, rfl, ?_⟩
    have hentries := Dict.fromEntries_of_nodup
      (nodup_keys fun i => (observed namespaceName polls i).mergeSort (· ≤ ·))
    rw [Dict.fromEntries] at hentries
    rw [hobserved, hentries]
    have hread := @drainQueue_drainLog _
      (nodup_keys fun i => (observed namespaceName polls i).mergeSort (· ≤ ·))
      (forall_mem_table.mpr fun i s hs => le_of_mem_decoded (List.mem_mergeSort.mp hs)) label
    rwa [table, List.map_map] at hread
  · obtain ⟨i, -, rfl⟩ := List.mem_map.mp hmem
    exact .inr ⟨⟨i, hroute⟩, herror⟩

/-- **What the host accepts**: every route is clean, and it has the acknowledged sequences of its
producer and none that was not started. -/
theorem reconcile_eq_ok (hrec : ∀ i, Recorded o (p i))
    (hdone : ∀ i, Lanes.Resolved o.operations o.concurrency (p i).lanes)
    (hdrain : drainRoutes namespaceName polls = some drained) :
    reconcile (producerLogs o p) drained
        ((List.finRange producers).map fun i => (workerId i).text) label = .ok () ↔
      ∀ i, Clean namespaceName (workerId i) [] (returned 0 (polls i)) ∧
        (∀ s ∈ (p i).acknowledged, s ∈ observed namespaceName polls i) ∧
        ∀ s ∈ observed namespaceName polls i, s < o.operations := by
  rw [reconcile, producerEvidence_producerLogs hrec hdone]
  rcases @drainRoutes_cases _ namespaceName label polls drained hdrain with
    ⟨hclean, log, rfl, hread⟩ | ⟨⟨i, hroute⟩, herror⟩
  · simp only [bind_eq, Except.bind, hread, assertQueueOverloadReconciled_eq_ok, forall_mem_table,
      get?_table, Option.getD_some, List.mem_mergeSort, hclean, true_and]
  · obtain ⟨failure, rfl⟩ := not_passes_iff.mp herror
    refine iff_of_false ?_ fun hall => hroute (hall i).1
    simp [bind_eq, Except.bind]

/-- **The reconciliation is exact.**  Each producer records every sequence that it started once, as
acknowledged or as failed.  The host fails iff an enqueue that was acknowledged is not observed on
the route of its producer, a route has a sequence twice, a record does not decode to a sequence, or
a sequence is observed that was not started. -/
theorem reconciliation_exact
    (hrun : ∀ i : Fin producers, (produce o (workerId i).text).run
      (Producer.init o (workerId i).text) (events i) = some (p i))
    (hdone : ∀ i, Lanes.Resolved o.operations o.concurrency (p i).lanes)
    (hdrain : drainRoutes namespaceName polls = some drained) :
    (∀ i, (p i).lanes.invoked.Nodup ∧
      ((p i).acknowledged ++ (p i).failed).Perm (p i).lanes.invoked ∧
        ∀ s, (s ∈ (p i).acknowledged ↔ .enqueued s none ∈ events i) ∧
          (s ∈ (p i).failed ↔ ∃ failure, .enqueued s (some failure) ∈ events i)) ∧
    (¬Passes (reconcile (producerLogs o p) drained
        ((List.finRange producers).map fun i => (workerId i).text) label) ↔
      (∃ i s, .enqueued s none ∈ events i ∧ s ∉ observed namespaceName polls i) ∨
      (∃ i, ¬(observed namespaceName polls i).Nodup) ∨
      (∃ i, ∃ body ∈ returned 0 (polls i),
        ¬Passes (sequenceFromPayload namespaceName (workerId i) body)) ∨
      ∃ i, ∃ s ∈ observed namespaceName polls i, s ∉ (p i).lanes.invoked) := by
  have hrec : ∀ i, Recorded o (p i) := fun i => .reached (hrun i)
  have hall : ∀ i, (p i).lanes.invoked = List.range o.operations ∧
      ((p i).acknowledged ++ (p i).failed).Perm (List.range o.operations) :=
    fun i => (hrec i).perm_range (hdone i)
  constructor
  · intro i
    rw [(hall i).1]
    exact ⟨List.nodup_range, (hall i).2, recorded_iff_event (hrun i)⟩
  · rw [passes_unit, reconcile_eq_ok hrec hdone hdrain, not_forall, ← exists_or, ← exists_or,
      ← exists_or]
    refine exists_congr fun i => ?_
    have hclean : Clean namespaceName (workerId i) [] (returned 0 (polls i)) ↔
        (∀ body ∈ returned 0 (polls i),
          Passes (sequenceFromPayload namespaceName (workerId i) body)) ∧
          (observed namespaceName polls i).Nodup := Iff.rfl
    simp only [(hall i).1, List.mem_range, ← (recorded_iff_event (hrun i) _).1, hclean,
      not_and_or, not_forall, exists_prop]
    constructor
    · rintro ((hbody | hnodup) | hlost | hunstarted)
      · exact .inr (.inr (.inl hbody))
      · exact .inr (.inl hnodup)
      · exact .inl hlost
      · exact .inr (.inr (.inr hunstarted))
    · rintro (hlost | hnodup | hbody | hunstarted)
      · exact .inr (.inl hlost)
      · exact .inl (.inr hnodup)
      · exact .inl (.inl hbody)
      · exact .inr (.inr hunstarted)

end Pipeline

/-- Three sequences, in two lanes. -/
def threeSequences : Options := ⟨3, 2, by decide, by decide⟩

/-- Two producers: an enqueue of the first one fails. -/
def twoProducers : Fin 2 → List Event
  | 0 => [.call, .call, .enqueued 1 (some (newError "queue is full")), .enqueued 0 none,
    .resume 1, .resume 0, .enqueued 2 none, .resume 1]
  | 1 => [.call, .call, .enqueued 0 none, .resume 0, .enqueued 1 none, .enqueued 2 none,
    .resume 1, .resume 0]

def fault : RouteSegment := ⟨"fault", by decide⟩

/-- The routes return all that was acknowledged, but for the last sequence of the first producer. -/
def lostPolls (i : Fin 2) : List (List Body) :=
  let body := payload fault (workerId i) 32
  if i.val = 0 then [[body 0], [], [], []] else [[body 1, body 0], [body 2], [], [], []]

theorem observed_lostPolls : observed fault lostPolls 0 = [0] ∧
    observed fault lostPolls 1 = [1, 0, 2] := by decide +kernel

theorem reconciliation_exact_lost : ∃ (p : Fin 2 → Producer) (drained : Except Thrown Log),
    drainRoutes fault lostPolls = some drained ∧
      ¬Passes (reconcile (producerLogs threeSequences p) drained ["0", "1"] "drain") := by
  have hlanes : ∀ i : Fin 2, ((produce threeSequences (workerId i).text).run
      (Producer.init threeSequences (workerId i).text) (twoProducers i)).map
        (fun p => p.lanes.lanes) = some [.done, .done] := by decide
  choose p hrun hdone using fun i => Option.map_eq_some_iff.mp (hlanes i)
  have hresolved : ∀ i,
      Lanes.Resolved threeSequences.operations threeSequences.concurrency (p i).lanes := by
    intro i
    rw [Lanes.Resolved, hdone i]
    decide
  obtain ⟨drained, hdrained⟩ := Option.isSome_iff_exists.mp
    (show (drainRoutes fault lostPolls).isSome = true by decide +kernel)
  have hexact := @reconciliation_exact 2 threeSequences fault "drain" twoProducers p lostPolls _
    hrun hresolved hdrained
  refine ⟨p, drained, hdrained, hexact.2.mpr (.inl ⟨0, 2, by simp [twoProducers], ?_⟩)⟩
  rw [observed_lostPolls.1]
  decide

end Overload

end Queue

end FitzDestroyer
