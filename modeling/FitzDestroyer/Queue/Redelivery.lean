import FitzDestroyer.Js.Collections
import FitzDestroyer.Workload.Identity
import Mathlib.Algebra.BigOperators.Fin
import Mathlib.Data.Multiset.Bind

/-!
# The redelivery of queue items

In `queue-redelivery` a victim reserves items and is killed, and drainers complete all items
(`workloads/queue-redelivery.ts`).  The host compares what they report
(`orchestration/queue-redelivery.ts`).

* `drainItems`, `drain`, `victim` : the workers, for what the broker answers;
* `redelivery`, `assertQueueRedelivery` : the host;
* `Backed` : a sequence that was verified and completed;
* `reported_backed` : what a drainer reports is backed, without duplicates, and what it got;
* `redelivery_exact` : the scenario accepts iff the drainers together report every sequence once.
-/

namespace FitzDestroyer

namespace Queue

namespace Redelivery

open Js Check Workload

/-! ### The drainers -/

/-- An item that a drainer gets. -/
structure Delivery where
  body : List UInt8
  /-- What its completion throws. -/
  failure : Option Thrown

/-- A turn of the loop of a drainer. -/
structure Turn where
  /-- The time at the head of the loop. -/
  now : ℚ
  /-- The items that are reserved, or what the request throws. -/
  items : Except Thrown (List Delivery)
  /-- The time after no item was reserved. -/
  emptyAt : ℚ

/-- What a drainer does with its items, and what it logs. -/
inductive Action where
  | verified (sequence : ℕ) (body : List UInt8)
  | completed (body : List UInt8)
  | progress (completed : ℕ)
  | reported (sequences : List ℕ)

def drainIdleDeadlineMs : ℚ := 20000

section Drainer

variable (o : QueueOptions)

/-- The items of a turn: the sequences that the drainer has seen after them. -/
def drainItems (seen : List ℕ) : List Delivery → List Action × Except Thrown (List ℕ)
  | [] => ([], .ok seen)
  | item :: items =>
    match QueueRedelivery.verifyQueueItem o item.body with
    | .error failure => ([], .error failure)
    | .ok sequence =>
      if sequence ∈ seen then ([.verified sequence item.body],
        .error (newError s!"Queue drainer received duplicate sequence {sequence}"))
      else
        match item.failure with
        | some failure => ([.verified sequence item.body], .error failure)
        | none =>
          let rest := drainItems (seen ++ [sequence]) items
          (.verified sequence item.body :: .completed item.body :: rest.1, rest.2)

/-- The loop of a drainer, for the answers that it gets: `none` while it runs. -/
def drain (seen : List ℕ) (idleSinceMs : Option ℚ) :
    List Turn → List Action × Option (Except Thrown Unit)
  | [] => ([], none)
  | turn :: turns =>
    if idleSinceMs.all fun since => turn.now - since < drainIdleDeadlineMs then
      match turn.items with
      | .error failure => ([], some (.error failure))
      | .ok [] => drain seen (some (idleSinceMs.getD turn.emptyAt)) turns
      | .ok (item :: items) =>
        let drained := drainItems o seen (item :: items)
        match drained.2 with
        | .error failure => (drained.1, some (.error failure))
        | .ok seen =>
          let rest := drain seen none turns
          (drained.1 ++ .progress seen.length :: rest.1, rest.2)
    else ([.reported (seen.mergeSort (· ≤ ·))], some (.ok ()))

/-- The items that a drainer gets in some turns. -/
def deliveries (turns : List Turn) : List Delivery :=
  turns.flatMap fun turn => turn.items.toOption.getD []

/-- The line that an action logs. -/
def Action.line? (workerId : String) : Action → Option LogLine
  | .progress count => some (logLine "queue_drainer_progress"
      [("workerId", .str workerId), ("completed", .count count)])
  | .reported sequences => some (logLine "queue_drainer_complete"
      [("workerId", .str workerId), ("sequences", .arr (sequences.map .count))])
  | _ => none

/-- The log of a drainer. -/
def drainerLog (workerId : String) (turns : List Turn) : Log :=
  (drain o [] none turns).1.filterMap (Action.line? workerId)

/-! ### The victim -/

/-- How many items the victim asks for. -/
def requested : ℕ := min 1024 (max 1 ((o.operations + 1) / 2))

/-- The sequences that the victim reports for the items that it gets. -/
def victim (items : List (List UInt8)) : Except Thrown (List ℕ) := do
  let sequences ← items.mapM (QueueRedelivery.verifyQueueItem o)
  failIf (items.length ≠ requested o)
    (newError s!"Queue victim reserved {items.length}/{requested o} messages")
  return sequences

/-- The log of the victim, which is killed after its report. -/
def victimLog (route : String) (items : List (List UInt8)) : Log :=
  match victim o items with
  | .ok sequences => [logLine "queue_victim_reserved"
      [("route", .str route), ("sequences", .arr (sequences.map .count))]]
  | .error _ => []

end Drainer

/-! ### The host -/

/-- The integer of a value. -/
def safeInteger? : Json → Option ℤ
  | .num (.fin q) => if (Number.fin q).isSafeInteger then some q.num else none
  | _ => none

def numericArray (record : Record) (name : String) : Except Thrown (List ℤ) :=
  match field record name with
  | some (.arr items) => items.mapM fun item =>
    match safeInteger? item with
    | some n => .ok n
    | none => .error (newError s!"{name} contained a non-integer value")
  | _ => .error (newError s!"{name} is not an array")

def onlyLog (logs : List Log) : Except Thrown Log :=
  match logs with
  | [log] => .ok log
  | _ => .error (newError s!"Expected one log, found {logs.length}")

def assertQueueRedelivery (expected : ℕ) (victimSequences recovered : List ℤ) :
    Except Thrown Unit := do
  let recoveredSet := recovered.eraseDups
  failIf (recoveredSet.length ≠ recovered.length) (newError
    s!"Queue recovery contained {recovered.length - recoveredSet.length} duplicates")
  failIf (recovered.length ≠ expected)
    (newError s!"Queue recovery completed {recovered.length}/{expected} messages")
  forEach (List.range expected) fun sequence =>
    failIf ((sequence : ℤ) ∉ recoveredSet) (newError s!"Queue recovery lost sequence {sequence}")
  forEach victimSequences fun sequence =>
    failIf (sequence ∉ recoveredSet)
      (newError s!"Queue reservation {sequence} disappeared with its killed consumer")

/-- The sequences that a drainer reports. -/
def recoveredOf (log : Log) : Except Thrown (List ℤ) := do
  let record ← requiredEvent log "queue_drainer_complete"
  numericArray record "sequences"

/-- The scenario, from the death of the victim on. -/
def redelivery (expected : ℕ) (victimLogs drainerLogs : List Log) : Except Thrown Unit := do
  let victimLog ← onlyLog victimLogs
  let record ← requiredEvent victimLog "queue_victim_reserved"
  let victimSequences ← numericArray record "sequences"
  let recovered ← drainerLogs.mapM recoveredOf
  assertQueueRedelivery expected victimSequences recovered.flatten

/-! ### What a drainer reports -/

/-- The body of a sequence was verified and, after that, completed. -/
def Backed (o : QueueOptions) (actions : List Action) (s : ℕ) : Prop :=
  s < o.operations ∧
    [Action.verified s (queuePayload o s), .completed (queuePayload o s)].Sublist actions

section

variable {o : QueueOptions} {before seen seen' : List ℕ} {actions : List Action}
  {got : List Delivery}

/-- The drainer has seen the sequences of the items that it got, which were all completed; they are
backed, each once. -/
structure Seen (o : QueueOptions) (actions : List Action) (got : List Delivery)
    (seen : List ℕ) : Prop where
  nodup : seen.Nodup
  backed : ∀ s ∈ seen, Backed o actions s
  lt : ∀ s ∈ seen, s < 10 ^ 8
  bodies : (got.map Delivery.body).Perm (seen.map (queuePayload o))
  completed : ∀ item ∈ got, item.failure = none

theorem Backed.append {s : ℕ} (h : Backed o actions s) (later : List Action) :
    Backed o (actions ++ later) s :=
  ⟨h.1, h.2.trans (List.sublist_append_left _ _)⟩

theorem Seen.append (h : Seen o actions got seen) (later : List Action) :
    Seen o (actions ++ later) got seen :=
  ⟨h.nodup, fun s hs => (h.backed s hs).append later, h.lt, h.bodies, h.completed⟩

/-- An item that is completed is seen. -/
theorem Seen.item (h : Seen o actions got seen) {item : Delivery} {s : ℕ}
    (hbody : QueueRedelivery.verifyQueueItem o item.body = .ok s) (hs : s ∉ seen)
    (hfailure : item.failure = none) :
    Seen o (actions ++ [.verified s item.body, .completed item.body]) (got ++ [item])
      (seen ++ [s]) := by
  obtain ⟨hsmall, hlt, heq⟩ := QueueRedelivery.of_verifyQueueItem hbody
  refine ⟨?_, fun t ht => ?_, fun t ht => ?_, ?_, fun other hother => ?_⟩
  · rw [List.nodup_append]
    refine ⟨h.nodup, List.nodup_singleton s, fun t ht u hu hsame => ?_⟩
    obtain rfl := List.mem_singleton.mp hu
    exact hs (hsame ▸ ht)
  · rcases List.mem_append.mp ht with ht | ht
    · exact (h.backed t ht).append _
    · obtain rfl := List.mem_singleton.mp ht
      rw [heq]
      exact ⟨hlt, List.sublist_append_right _ _⟩
  · rcases List.mem_append.mp ht with ht | ht
    · exact h.lt t ht
    · obtain rfl := List.mem_singleton.mp ht
      exact hsmall
  · rw [List.map_append, List.map_append, List.map_singleton, List.map_singleton, heq]
    exact h.bodies.append_right _
  · rcases List.mem_append.mp hother with hother | hother
    · exact h.completed other hother
    · obtain rfl := List.mem_singleton.mp hother
      exact hfailure

/-- The items of a turn keep what was seen. -/
theorem Seen.drainItems {items : List Delivery} (h : Seen o actions got seen)
    (hok : (drainItems o seen items).2 = .ok seen') :
    Seen o (actions ++ (drainItems o seen items).1) (got ++ items) seen' := by
  induction items generalizing seen actions got with
  | nil =>
    obtain rfl := Except.ok.inj hok
    rw [Redelivery.drainItems, List.append_nil, List.append_nil]
    exact h
  | cons item items ih =>
    simp only [Redelivery.drainItems] at hok ⊢
    cases hbody : QueueRedelivery.verifyQueueItem o item.body with
    | error failure =>
      rw [hbody] at hok
      cases hok
    | ok s =>
      rw [hbody] at hok
      dsimp only at hok ⊢
      by_cases hs : s ∈ seen
      · rw [if_pos hs] at hok
        cases hok
      · rw [if_neg hs] at hok ⊢
        cases hfailure : item.failure with
        | some failure =>
          rw [hfailure] at hok
          cases hok
        | none =>
          rw [hfailure] at hok
          have hrest := ih (h.item hbody hs hfailure) hok
          rwa [List.append_assoc, List.append_assoc] at hrest

/-- A drainer does not report while it has items. -/
theorem not_reported_drainItems {items : List Delivery} {sequences : List ℕ} :
    .reported sequences ∉ (drainItems o seen items).1 := by
  induction items generalizing seen with
  | nil => exact List.not_mem_nil
  | cons item items ih =>
    rw [Redelivery.drainItems]
    cases QueueRedelivery.verifyQueueItem o item.body with
    | error failure => exact List.not_mem_nil
    | ok s =>
      dsimp only
      split_ifs
      · simp
      · cases item.failure with
        | some failure => simp
        | none => simp [ih]

variable {idleSinceMs : Option ℚ} {turns : List Turn}

/-- How a drainer ends: with its only report, or without one. -/
theorem Seen.drain (h : Seen o actions got seen) :
    (∃ before sequences, (drain o seen idleSinceMs turns).1 = before ++ [.reported sequences] ∧
      (drain o seen idleSinceMs turns).2 = some (.ok ()) ∧
        (∀ other, .reported other ∉ before) ∧ ∃ taken, taken <+: turns ∧
          Seen o (actions ++ before) (got ++ deliveries taken) sequences) ∨
    (drain o seen idleSinceMs turns).2 ≠ some (.ok ()) ∧
      ∀ other, .reported other ∉ (drain o seen idleSinceMs turns).1 := by
  induction turns generalizing seen idleSinceMs actions got with
  | nil => exact .inr ⟨by simp [Redelivery.drain], fun _ => List.not_mem_nil⟩
  | cons turn turns ih =>
    rw [Redelivery.drain]
    split_ifs with hidle
    · cases hitems : turn.items with
      | error failure => exact .inr ⟨by simp, fun _ => List.not_mem_nil⟩
      | ok items =>
        have hdeliveries : ∀ taken, deliveries (turn :: taken) = items ++ deliveries taken :=
          fun taken => by rw [deliveries, List.flatMap_cons, hitems]; rfl
        cases items with
        | nil =>
          rcases ih h with ⟨before, sequences, hactions, hok, hnone, taken, htaken, hseen⟩ | hnot
          · refine .inl ⟨before, sequences, hactions, hok, hnone, turn :: taken,
              List.cons_prefix_cons.mpr ⟨rfl, htaken⟩, ?_⟩
            rwa [hdeliveries]
          · exact .inr hnot
        | cons item items =>
          dsimp only
          cases hdrained : (Redelivery.drainItems o seen (item :: items)).2 with
          | error failure => exact .inr ⟨by simp, fun _ => not_reported_drainItems⟩
          | ok seen' =>
            dsimp only
            have hseen := (h.drainItems hdrained).append [.progress seen'.length]
            rcases @ih seen' _ _ none hseen with
              ⟨before, sequences, hactions, hok, hnone, taken, htaken, hreported⟩ | ⟨hok, hnone⟩
            · refine .inl ⟨(Redelivery.drainItems o seen (item :: items)).1 ++
                .progress seen'.length :: before, sequences, ?_, hok, ?_, turn :: taken,
                List.cons_prefix_cons.mpr ⟨rfl, htaken⟩, ?_⟩
              · rw [hactions, List.append_assoc, List.cons_append]
              · intro other
                simp [not_reported_drainItems, hnone other]
              · rw [hdeliveries]
                simpa using hreported
            · refine .inr ⟨hok, fun other => ?_⟩
              simp [not_reported_drainItems, hnone other]
    · refine .inl ⟨[], seen.mergeSort (· ≤ ·), rfl, rfl, fun _ => List.not_mem_nil, [],
        List.nil_prefix, ?_⟩
      have hsorted := List.mergeSort_perm seen (· ≤ ·)
      rw [List.append_nil, deliveries, List.flatMap_nil, List.append_nil]
      exact ⟨hsorted.nodup_iff.mpr h.nodup, fun s hs => h.backed s (hsorted.mem_iff.mp hs),
        fun s hs => h.lt s (hsorted.mem_iff.mp hs), h.bodies.trans (hsorted.symm.map _),
        h.completed⟩

theorem Seen.nil : Seen o [] [] [] :=
  ⟨List.nodup_nil, List.forall_mem_nil _, List.forall_mem_nil _, .nil, List.forall_mem_nil _⟩

/-- **What a drainer reports** was verified and completed before, and has no duplicates. -/
theorem reported_backed {before after : List Action} {sequences : List ℕ}
    (h : (drain o [] none turns).1 = before ++ .reported sequences :: after) :
    ∃ taken, taken <+: turns ∧ Seen o before (deliveries taken) sequences := by
  rcases @Seen.drain o [] [] [] none turns .nil with
    ⟨start, found, hactions, -, hnone, taken, htaken, hseen⟩ | ⟨-, hnone⟩
  · rw [hactions, List.append_eq_append_iff] at h
    rcases h with ⟨rest, rfl, hrest⟩ | ⟨rest, rfl, hrest⟩
    · cases rest with
      | nil =>
        obtain ⟨heq, -⟩ := List.cons.inj hrest
        obtain rfl := Action.reported.inj heq
        rw [List.append_nil]
        exact ⟨taken, htaken, hseen⟩
      | cons action rest =>
        have hlength := congrArg List.length hrest
        simp at hlength
    · cases rest with
      | nil =>
        obtain ⟨heq, -⟩ := List.cons.inj hrest
        obtain rfl := Action.reported.inj heq
        rw [List.nil_append, List.append_nil] at hseen
        exact ⟨taken, htaken, hseen⟩
      | cons action rest =>
        -- The drainer has not reported before its report.
        obtain ⟨rfl, -⟩ := List.cons.inj hrest
        exact absurd (List.mem_append_right _ List.mem_cons_self) (hnone sequences)
  · exact absurd (h ▸ List.mem_append_right _ List.mem_cons_self) (hnone sequences)

/-! ### What the host reads -/

theorem numericArray_count {record : Record} {name : String} {sequences : List ℕ}
    (hfield : field record name = some (.arr (sequences.map .count)))
    (hlt : ∀ s ∈ sequences, s < 10 ^ 8) :
    numericArray record name = .ok (sequences.map Nat.cast) := by
  have hinteger : ∀ s < 10 ^ 8, safeInteger? (.count s) = some (s : ℤ) := by
    intro s hs
    have hsafe : (s : Number).isSafeInteger = true :=
      (Number.isSequence_natCast.mpr (hs.le.trans (by decide))).1
    change (if (s : Number).isSafeInteger then some ((s : ℚ)).num else none) = _
    rw [if_pos hsafe, Rat.num_natCast]
  rw [numericArray, hfield]
  dsimp only
  rw [mapM_eq_ok, List.forall₂_map_left_iff, List.forall₂_map_right_iff, List.forall₂_same]
  intro s hs
  rw [hinteger s (hlt s hs)]

/-- The host reads what a drainer reports. -/
theorem recoveredOf_eq_ok {workerId : String} {recovered : List ℤ} :
    recoveredOf (drainerLog o workerId turns) = .ok recovered ↔ ∃ sequences,
      .reported sequences ∈ (drain o [] none turns).1 ∧ recovered = sequences.map Nat.cast := by
  -- Only the report has the event that the host looks for.
  have hother : ∀ actions : List Action, (∀ other, .reported other ∉ actions) →
      ∀ record ∈ parseJsonRecords (actions.filterMap (Action.line? workerId)),
        ¬IsEvent record "queue_drainer_complete" := by
    intro actions hnone record hrecord
    obtain ⟨line, hline, hparse⟩ := List.mem_filterMap.mp hrecord
    obtain ⟨action, haction, hlogs⟩ := List.mem_filterMap.mp hline
    cases action with
    | verified _ _ => cases hlogs
    | completed _ => cases hlogs
    | progress count =>
      obtain rfl := Option.some.inj hlogs
      obtain rfl := Option.some.inj hparse
      exact fun hevent => absurd (isEvent_logLine.mp hevent) (by decide)
    | reported sequences => exact absurd haction (hnone sequences)
  rcases @Seen.drain o [] [] [] none turns .nil with
    ⟨start, found, hactions, -, hnone, taken, -, hseen⟩ | ⟨-, hnone⟩
  · -- The report is the last line of the log.
    have hread : recoveredOf (drainerLog o workerId turns) = .ok (found.map Nat.cast) := by
      have hlast : [Action.reported found].filterMap (Action.line? workerId) =
          [logLine "queue_drainer_complete"
            [("workerId", .str workerId), ("sequences", .arr (found.map .count))]] := rfl
      rw [recoveredOf, drainerLog, hactions, List.filterMap_append, hlast,
        requiredEvent_append_logLine]
      have hfield : field [("event", .str "queue_drainer_complete"), ("workerId", .str workerId),
          ("sequences", .arr (found.map .count))] "sequences" =
            some (.arr (found.map .count)) := by simp [field]
      exact numericArray_count hfield hseen.lt
    rw [hread, hactions]
    constructor
    · intro heq
      exact ⟨found, List.mem_append_right _ List.mem_cons_self, (Except.ok.inj heq).symm⟩
    · rintro ⟨sequences, hmem, rfl⟩
      rcases List.mem_append.mp hmem with hmem | hmem
      · exact absurd hmem (hnone sequences)
      · obtain rfl := Action.reported.inj (List.mem_singleton.mp hmem)
        rfl
  · -- A drainer that does not report fails the host.
    have hmissing : requiredEvent (drainerLog o workerId turns) "queue_drainer_complete" =
        .error (newError "Missing queue_drainer_complete workload record") := by
      have hfind : (parseJsonRecords (drainerLog o workerId turns)).reverse.find?
          (fun record => IsEvent record "queue_drainer_complete") = none := by
        rw [List.find?_eq_none]
        intro record hrecord
        simpa using hother _ hnone record (List.mem_reverse.mp hrecord)
      rw [requiredEvent, hfind]
      rfl
    rw [recoveredOf, hmissing]
    constructor
    · intro heq
      cases heq
    · rintro ⟨sequences, hmem, -⟩
      exact absurd hmem (hnone sequences)

end

/-- **The verdict of the host**: each sequence once and nothing else, and what the victim had is
among it. -/
theorem assertQueueRedelivery_eq_ok {expected : ℕ} {victimSequences recovered : List ℤ} :
    assertQueueRedelivery expected victimSequences recovered = .ok () ↔
      recovered.Perm ((List.range expected).map Nat.cast) ∧
        ∀ s ∈ victimSequences, s ∈ recovered := by
  have hnodup : ((List.range expected).map (Nat.cast : ℕ → ℤ)).Nodup :=
    List.nodup_range.map Nat.cast_injective
  simp only [assertQueueRedelivery, bind_eq, seq_eq_ok, failIf_eq_ok, not_not, forEach_eq_ok,
    length_eraseDups_eq_iff, mem_eraseDups, List.mem_range]
  constructor
  · rintro ⟨-, hlength, hall, hvictim⟩
    have hsubset : (List.range expected).map (Nat.cast : ℕ → ℤ) ⊆ recovered := by
      intro s hs
      obtain ⟨n, hn, rfl⟩ := List.mem_map.mp hs
      exact hall n (List.mem_range.mp hn)
    refine ⟨((hnodup.subperm hsubset).perm_of_length_le ?_).symm, hvictim⟩
    rw [List.length_map, List.length_range, hlength]
  · rintro ⟨hperm, hvictim⟩
    refine ⟨hperm.nodup_iff.mpr hnodup, ?_, fun n hn => ?_, hvictim⟩
    · rw [hperm.length_eq, List.length_map, List.length_range]
    · exact hperm.mem_iff.mpr (List.mem_map.mpr ⟨n, List.mem_range.mpr hn, rfl⟩)

/-- The host reads what the victim reports. -/
theorem reservedOf_eq_ok {o : QueueOptions} {route : String} {items : List (List UInt8)}
    {reserved : List ℤ} :
    (do
      let record ← requiredEvent (victimLog o route items) "queue_victim_reserved"
      numericArray record "sequences") = .ok reserved ↔
    ∃ sequences, victim o items = .ok sequences ∧ reserved = sequences.map Nat.cast := by
  rw [victimLog]
  cases hvictim : victim o items with
  | error failure =>
    constructor
    · intro h
      cases h
    · rintro ⟨_, h, -⟩
      cases h
  | ok sequences =>
    have hlt : ∀ s ∈ sequences, s < 10 ^ 8 := by
      obtain ⟨found, hfound, hrest⟩ := bind_eq_ok.mp hvictim
      obtain ⟨-, -, hsame⟩ := bind_eq_ok.mp hrest
      obtain rfl := Except.ok.inj hsame
      intro s hs
      obtain ⟨body, -, hbody⟩ := exists_of_mapM hfound hs
      exact (QueueRedelivery.of_verifyQueueItem hbody).1
    have hread : numericArray [("event", .str "queue_victim_reserved"), ("route", .str route),
        ("sequences", .arr (sequences.map .count))] "sequences" = .ok (sequences.map Nat.cast) :=
      numericArray_count (by simp [field]) hlt
    change (requiredEvent [logLine _ _] _).bind _ = _ ↔ _
    rw [requiredEvent_logLine]
    dsimp only [Except.bind]
    rw [hread]
    constructor
    · intro h
      exact ⟨sequences, rfl, (Except.ok.inj h).symm⟩
    · rintro ⟨_, h, rfl⟩
      rw [Except.ok.inj h]

theorem sum_map_ofList {α : Type*} (lists : List (List α)) :
    (lists.map Multiset.ofList).sum = (lists.flatten : Multiset α) := by
  rw [← Multiset.coe_join, Multiset.join, Multiset.sum_coe]

/-- The host passes iff every worker reports and the reports pass. -/
theorem redelivery_eq_ok {o : QueueOptions} {drainers expected : ℕ} {route : String}
    {items : List (List UInt8)} {workerId : Fin drainers → String}
    {turns : Fin drainers → List Turn} :
    redelivery expected [victimLog o route items]
        ((List.finRange drainers).map fun i => drainerLog o (workerId i) (turns i)) = .ok () ↔
      ∃ reserved, victim o items = .ok reserved ∧ ∃ reports : Fin drainers → List ℕ,
        (∀ i, .reported (reports i) ∈ (drain o [] none (turns i)).1) ∧
          assertQueueRedelivery expected (reserved.map Nat.cast)
            (((List.finRange drainers).map fun i => (reports i).map Nat.cast).flatten) =
              .ok () := by
  have hread : ∀ reports : Fin drainers → List ℕ,
      (∀ i, .reported (reports i) ∈ (drain o [] none (turns i)).1) →
        ((List.finRange drainers).map fun i =>
          drainerLog o (workerId i) (turns i)).mapM recoveredOf =
            .ok ((List.finRange drainers).map fun i => (reports i).map Nat.cast) := by
    intro reports hreports
    rw [mapM_eq_ok, List.forall₂_map_left_iff, List.forall₂_map_right_iff, List.forall₂_same]
    exact fun i _ => recoveredOf_eq_ok.mpr ⟨_, hreports i, rfl⟩
  rw [redelivery]
  constructor
  · intro h
    obtain ⟨log, hlog, h⟩ := bind_eq_ok.mp h
    obtain rfl := Except.ok.inj hlog
    obtain ⟨record, hrecord, h⟩ := bind_eq_ok.mp h
    obtain ⟨reserved, hreserved, h⟩ := bind_eq_ok.mp h
    obtain ⟨recovered, hrecovered, h⟩ := bind_eq_ok.mp h
    obtain ⟨sequences, hvictim, rfl⟩ :=
      reservedOf_eq_ok.mp (bind_eq_ok.mpr ⟨record, hrecord, hreserved⟩)
    have hreports : ∀ i, ∃ report, .reported report ∈ (drain o [] none (turns i)).1 := by
      intro i
      obtain ⟨found, hfound⟩ := passes_mapM.mp ⟨recovered, hrecovered⟩ _
        (List.mem_map.mpr ⟨i, List.mem_finRange i, rfl⟩)
      obtain ⟨report, hreport, -⟩ := recoveredOf_eq_ok.mp hfound
      exact ⟨report, hreport⟩
    choose reports hreports using hreports
    obtain rfl := Except.ok.inj (hrecovered.symm.trans (hread reports hreports))
    exact ⟨sequences, hvictim, reports, hreports, h⟩
  · rintro ⟨sequences, hvictim, reports, hreports, h⟩
    obtain ⟨record, hrecord, hreserved⟩ :=
      bind_eq_ok.mp (reservedOf_eq_ok.mpr ⟨sequences, hvictim, rfl⟩)
    exact bind_eq_ok.mpr ⟨_, rfl, bind_eq_ok.mpr ⟨record, hrecord, bind_eq_ok.mpr
      ⟨_, hreserved, bind_eq_ok.mpr ⟨_, hread reports hreports, h⟩⟩⟩⟩

/-- The reports together, as lists of integers and as multisets of sequences. -/
theorem flatten_perm_iff {drainers expected : ℕ} (reports : Fin drainers → List ℕ) :
    (((List.finRange drainers).map fun i => (reports i).map (Nat.cast : ℕ → ℤ)).flatten).Perm
        ((List.range expected).map Nat.cast) ↔
      ∑ i, (reports i : Multiset ℕ) = Multiset.range expected := by
  have hsum : ∑ i, (reports i : Multiset ℕ) =
      (((List.finRange drainers).map reports).flatten : Multiset ℕ) := by
    rw [← sum_map_ofList, List.map_map, Fin.sum_univ_def]
    rfl
  have hflatten : ((List.finRange drainers).map fun i => (reports i).map (Nat.cast : ℕ → ℤ)) =
      ((List.finRange drainers).map reports).map (List.map Nat.cast) := by
    rw [List.map_map]
    rfl
  rw [hsum, hflatten, ← List.map_flatten, Multiset.range, Multiset.coe_eq_coe]
  exact List.map_perm_map_iff Nat.cast_injective

/-- **The redelivery is exact.**  A drainer reports exactly the sequences of the items that it got
until then, each once, and it verified and completed each of these items before; the verdict accepts
iff the reports together have every sequence once and nothing else, and every sequence that the
victim reserved is among them. -/
theorem redelivery_exact (o : QueueOptions) {drainers : ℕ} (route : String)
    (items : List (List UInt8)) (workerId : Fin drainers → String)
    (turns : Fin drainers → List Turn) :
    (∀ i before sequences after,
      (drain o [] none (turns i)).1 = before ++ .reported sequences :: after →
        sequences.Nodup ∧ (∀ s ∈ sequences, Backed o before s) ∧
          ∃ taken, taken <+: turns i ∧ (∀ item ∈ deliveries taken, item.failure = none) ∧
            (∀ s ∈ sequences, ∃ item ∈ deliveries taken,
              item.body = queuePayload o s ∧ item.failure = none) ∧
            ((deliveries taken).map Delivery.body).Perm (sequences.map (queuePayload o))) ∧
    (∀ expected victimSequences (recovered : List (List ℤ)),
      assertQueueRedelivery expected victimSequences recovered.flatten = .ok () ↔
        (recovered.map Multiset.ofList).sum = (Multiset.range expected).map Nat.cast ∧
          ∀ s ∈ victimSequences, ∃ sequences ∈ recovered, s ∈ sequences) ∧
    (redelivery o.operations [victimLog o route items]
        ((List.finRange drainers).map fun i => drainerLog o (workerId i) (turns i)) = .ok () ↔
      ∃ reserved, victim o items = .ok reserved ∧ ∃ reports : Fin drainers → List ℕ,
        (∀ i, .reported (reports i) ∈ (drain o [] none (turns i)).1) ∧
          ∑ i, (reports i : Multiset ℕ) = Multiset.range o.operations ∧
            ∀ s ∈ reserved, ∃ i, s ∈ reports i) := by
  refine ⟨fun i before sequences after h => ?_, fun expected victimSequences recovered => ?_, ?_⟩
  · obtain ⟨taken, htaken, hseen⟩ := reported_backed h
    refine ⟨hseen.nodup, hseen.backed, taken, htaken, hseen.completed, fun s hs => ?_,
      hseen.bodies⟩
    obtain ⟨item, hitem, hbody⟩ :=
      List.mem_map.mp (hseen.bodies.mem_iff.mpr (List.mem_map_of_mem hs))
    exact ⟨item, hitem, hbody, hseen.completed item hitem⟩
  · rw [assertQueueRedelivery_eq_ok, sum_map_ofList, Multiset.range, Multiset.map_coe,
      Multiset.coe_eq_coe]
    simp only [List.mem_flatten]
  · rw [redelivery_eq_ok]
    have hkept : ∀ (reserved : List ℕ) (reports : Fin drainers → List ℕ),
        (∀ s ∈ reserved.map (Nat.cast : ℕ → ℤ),
          s ∈ ((List.finRange drainers).map fun i => (reports i).map Nat.cast).flatten) ↔
            ∀ s ∈ reserved, ∃ i, s ∈ reports i := by
      intro reserved reports
      rw [List.forall_mem_map]
      simp
    simp only [assertQueueRedelivery_eq_ok, flatten_perm_iff, hkept]

end Redelivery

end Queue

end FitzDestroyer
