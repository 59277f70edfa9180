import FitzDestroyer.Js.IntegerText
import FitzDestroyer.Queue.Lifecycle

/-!
# Runs of the lifecycle of queue items

What the workers of a run report, and for which configurations some run is accepted.

* `Run.Reports`, `Run.verdict_iff` : a run is accepted iff what its workers report is exact;
* `Run.accepted_bounds` : what an accepted run asks of the configuration;
* `Run.exists_accepted` : a run that is accepted;
* `verdict_exact_and_passable_iff` : the verdict is exact, and which configurations can be passed.
-/

namespace FitzDestroyer

namespace Queue

namespace Lifecycle

open Js Check Workload

variable {o : QueueOptions}

/-! ### What the workers report -/

theorem identifySorted_eq_ok {items : List Body} {sequences : List ℕ}
    (h : identifySorted o items = .ok sequences) :
    sequences.length = items.length ∧ ∀ s ∈ sequences, s < 10 ^ 8 := by
  obtain ⟨found, hfound, hsorted⟩ := bind_eq_ok.mp h
  obtain rfl := Except.ok.inj hsorted
  refine ⟨?_, fun s hs => ?_⟩
  · rw [List.length_mergeSort, (mapM_eq_ok.mp hfound).length_eq]
  · obtain ⟨body, -, hbody⟩ := exists_of_mapM hfound (List.mem_mergeSort.mp hs)
    exact (QueueLifecycle.of_identify hbody).1

/-- What the producer reports: the first two items of its batch, and the other two. -/
theorem completed_of_produce {batch redelivered : List Body} {record : Record}
    (h : produce o batch redelivered = .ok record) : batch.length = 4 ∧ ∃ first last,
      identifySorted o (batch.take 2) = .ok first ∧ identifySorted o (batch.drop 2) = .ok last ∧
        field record "completed" =
          some (.arr (((first ++ last).mergeSort (· ≤ ·)).map .count)) := by
  simp only [produce, bind_eq, bind_eq_ok, exists_unit, failIf_eq_ok, not_not, pure_eq,
    Except.ok.injEq] at h
  obtain ⟨-, hbatch, reserved, -, first, hfirst, sequences, -, last, hlast, rfl, rfl⟩ := h
  exact ⟨hbatch, first, sequences, hfirst, hlast, by simp [field]⟩

/-- A consumer reports sequences that it has identified. -/
theorem lt_of_consume {workerId emptyPolls : ℕ} {before sequences : List ℕ}
    {polls : List (List Body)}
    (h : (consume o workerId emptyPolls before polls).2 = .ok sequences)
    (hbefore : ∀ s ∈ before, s < 10 ^ 8) : ∀ s ∈ sequences, s < 10 ^ 8 := by
  induction polls generalizing emptyPolls before with
  | nil =>
    simp only [consume] at h
    split_ifs at h
    obtain rfl := Except.ok.inj h
    exact hbefore
  | cons items polls ih =>
    cases items with
    | nil =>
      simp only [consume] at h
      split_ifs at h
      · obtain rfl := Except.ok.inj h
        exact hbefore
      · exact ih h hbefore
    | cons item items =>
      simp only [consume] at h
      split_ifs at h
      · obtain rfl := Except.ok.inj h
        exact hbefore
      · cases hidentify : QueueLifecycle.identify o item with
        | error failure =>
          rw [hidentify] at h
          cases h
        | ok sequence =>
          rw [hidentify] at h
          refine ih h fun s hs => ?_
          rcases List.mem_append.mp hs with hs | hs
          · exact hbefore s hs
          · obtain rfl := List.mem_singleton.mp hs
            exact (QueueLifecycle.of_identify hidentify).1

namespace Run

variable {replicas : ℕ} {r : Run o replicas} {completed : List ℕ} {abandoned : ℕ}
  {sequences : Fin replicas → List ℕ}

/-- What the workers of a run report, if none of them throws. -/
structure Reports (r : Run o replicas) (completed : List ℕ) (abandoned : ℕ)
    (sequences : Fin replicas → List ℕ) : Prop where
  produced : ∃ record, produce o r.batch r.redelivered = .ok record ∧
    field record "completed" = some (.arr (completed.map .count))
  four : completed.length = 4
  completed_lt : ∀ s ∈ completed, s < 10 ^ 8
  left : abandon o r.reserved = .ok [("sequence", .count abandoned)]
  abandoned_lt : abandoned < 10 ^ 8
  consumed : ∀ i, (r.consumed i).2 = .ok (sequences i)

/-- The ledger of the reports. -/
def ledgerOf (o : QueueOptions) (completed : List ℕ) (abandoned : ℕ)
    (sequences : Fin replicas → List ℕ) : QueueLifecycleLedger where
  operations := o.operations
  producerCompleted := completed
  abandoned := abandoned
  consumers := (List.finRange replicas).map fun i => (toString i.val, sequences i)

/-- The log of a consumer that reports its sequences. -/
def reportLog (p : String × List ℕ) : String × Log :=
  (p.1, [logLine "queue_lifecycle_consumer_complete"
    [("workerId", .str p.1), ("sequences", .arr (p.2.map .count))]])

theorem addConsumer_reportLog {consumers : Dict (List ℕ)} {p : String × List ℕ}
    (hlt : ∀ s ∈ p.2, s ≤ maxSafeInteger) (hkey : p.1 ∉ consumers.map Prod.fst) :
    addConsumer consumers (reportLog p) = .ok (consumers ++ [p]) := by
  have hfield : ∀ record, record = [("event", Json.str "queue_lifecycle_consumer_complete"),
      ("workerId", .str p.1), ("sequences", .arr (p.2.map .count))] →
        field record "sequences" = some (.arr (p.2.map .count)) := by
    rintro _ rfl
    simp [field]
  have hsequences : numericArray (some (.arr (p.2.map .count))) (p.1 ++ " sequences") = .ok p.2 :=
    numericArray_eq_ok.mpr ⟨hlt, rfl⟩
  rw [addConsumer, reportLog, requiredEvent_logLine]
  change (numericArray (field _ "sequences") _).bind _ = _
  rw [hfield _ rfl, hsequences]
  change Except.ok (consumers.set p.1 p.2) = _
  rw [Dict.set_of_not_mem hkey]

/-- The consumers are added in their order. -/
theorem foldlM_addConsumer {ps : List (String × List ℕ)} {consumers : Dict (List ℕ)}
    (hlt : ∀ p ∈ ps, ∀ s ∈ p.2, s ≤ maxSafeInteger)
    (hkeys : (consumers.map Prod.fst ++ ps.map Prod.fst).Nodup) :
    (ps.map reportLog).foldlM addConsumer consumers = .ok (consumers ++ ps) := by
  induction ps generalizing consumers with
  | nil =>
    rw [List.append_nil]
    rfl
  | cons p ps ih =>
    obtain ⟨hp, hps⟩ := List.forall_mem_cons.mp hlt
    have hkey : p.1 ∉ consumers.map Prod.fst := fun hmem =>
      (List.nodup_append.mp hkeys).2.2 _ hmem _ List.mem_cons_self rfl
    rw [List.map_cons, List.foldlM_cons, addConsumer_reportLog hp hkey]
    change (ps.map reportLog).foldlM addConsumer (consumers ++ [p]) = _
    rw [ih hps (by simpa using hkeys), List.append_assoc, List.singleton_append]

/-- The ledger that the host builds is the one of the reports. -/
theorem analyzeQueueLifecycle_eq_ok {produced : Record}
    (hproduced : field produced "completed" = some (.arr (completed.map .count)))
    (hcompleted : ∀ s ∈ completed, s ≤ maxSafeInteger) (habandoned : abandoned ≤ maxSafeInteger)
    (hsequences : ∀ i, ∀ s ∈ sequences i, s ≤ maxSafeInteger) :
    analyzeQueueLifecycle [[logLine "queue_lifecycle_producer_complete" produced]]
      [[logLine "queue_lifecycle_abandoned" [("sequence", .count abandoned)]]]
      (((List.finRange replicas).map fun i => (toString i.val, sequences i)).map reportLog)
      o.operations = .ok (ledgerOf o completed abandoned sequences) := by
  have hkeys : (((List.finRange replicas).map fun i =>
      (toString i.val, sequences i)).map Prod.fst).Nodup := by
    rw [List.map_map]
    exact (List.nodup_finRange replicas).map fun i j h => Fin.ext (toString_injective h)
  have hlt : ∀ p ∈ (List.finRange replicas).map fun i => (toString i.val, sequences i),
      ∀ s ∈ p.2, s ≤ maxSafeInteger := by
    intro p hp
    obtain ⟨i, -, rfl⟩ := List.mem_map.mp hp
    exact hsequences i
  have hconsumers := @foldlM_addConsumer _ [] hlt hkeys
  have hproducer : field (("event", .str "queue_lifecycle_producer_complete") :: produced)
      "completed" = some (.arr (completed.map .count)) := by
    rw [← hproduced]
    simp [field]
  have habandoner : field [("event", .str "queue_lifecycle_abandoned"),
      ("sequence", .count abandoned)] "sequence" = some (.count abandoned) := by
    simp [field]
  simp only [analyzeQueueLifecycle, onlyLog, requiredEvent_logLine, hproducer, habandoner,
    hconsumers, numericArray_eq_ok.mpr ⟨hcompleted, rfl⟩,
    numericValue_count.mpr ⟨habandoned, rfl⟩, bind_eq, Except.bind, pure_eq, ledgerOf,
    List.nil_append]

/-- A run in which no worker throws is accepted iff what the workers report is exact. -/
theorem verdict_iff (h : r.Reports completed abandoned sequences) :
    r.verdict = .ok () ↔ Exact (ledgerOf o completed abandoned sequences) replicas := by
  obtain ⟨produced, hproduced, hfield⟩ := h.produced
  have hsafe : ∀ {s : ℕ}, s < 10 ^ 8 → s ≤ maxSafeInteger := fun hs => hs.le.trans (by decide)
  have hlogs : (List.finRange replicas).mapM r.consumerLog = .ok
      (((List.finRange replicas).map fun i => (toString i.val, sequences i)).map reportLog) := by
    rw [mapM_eq_ok, List.map_map, List.forall₂_map_right_iff, List.forall₂_same]
    intro i _
    rw [consumerLog, h.consumed i]
    rfl
  have hledger := @analyzeQueueLifecycle_eq_ok o _ completed abandoned sequences produced hfield
    (fun s hs => hsafe (h.completed_lt s hs)) (hsafe h.abandoned_lt)
    (fun i s hs => hsafe (lt_of_consume (h.consumed i) (List.forall_mem_nil _) s hs))
  rw [verdict, hproduced, h.left, hlogs]
  change (analyzeQueueLifecycle _ _ _ _).bind _ = _ ↔ _
  rw [hledger]
  exact assertQueueLifecycle_eq_ok

/-- In an accepted run no worker throws. -/
theorem reports_of_verdict (h : r.verdict = .ok ()) :
    ∃ completed abandoned sequences, r.Reports completed abandoned sequences := by
  simp only [verdict, bind_eq, bind_eq_ok] at h
  obtain ⟨produced, hproduced, left, hleft, logs, hlogs, -⟩ := h
  obtain ⟨hbatch, first, last, hfirst, hlast, hfield⟩ := completed_of_produce hproduced
  obtain ⟨hlength, hlt⟩ := identifySorted_eq_ok hfirst
  obtain ⟨hlength', hlt'⟩ := identifySorted_eq_ok hlast
  have hfour : ((first ++ last).mergeSort (· ≤ ·)).length = 4 := by
    rw [List.length_mergeSort, List.length_append, hlength, hlength', List.length_take,
      List.length_drop, hbatch]
    rfl
  have hcompleted : ∀ s ∈ (first ++ last).mergeSort (· ≤ ·), s < 10 ^ 8 := fun s hs =>
    (List.mem_append.mp (List.mem_mergeSort.mp hs)).elim (hlt s) (hlt' s)
  obtain ⟨abandoned, habandoned, rfl⟩ : ∃ s, s < 10 ^ 8 ∧ left = [("sequence", .count s)] := by
    rcases hitems : r.reserved with _ | ⟨item, items⟩
    · rw [hitems] at hleft
      cases hleft
    · rw [hitems] at hleft
      obtain ⟨s, hs, hleft⟩ := bind_eq_ok.mp hleft
      exact ⟨s, (QueueLifecycle.of_identify hs).1, (Except.ok.inj hleft).symm⟩
  have hconsumed : ∀ i, ∃ sequences, (r.consumed i).2 = .ok sequences := by
    intro i
    obtain ⟨log, hlog⟩ := passes_mapM.mp ⟨logs, hlogs⟩ i (List.mem_finRange i)
    obtain ⟨sequences, hsequences, -⟩ := bind_eq_ok.mp hlog
    exact ⟨sequences, hsequences⟩
  choose sequences hsequences using hconsumed
  exact ⟨_, abandoned, sequences,
    ⟨⟨produced, hproduced, hfield⟩, hfour, hcompleted, hleft, habandoned, hsequences⟩⟩

/-- **An accepted run** leaves each consumer an item besides the four of the producer, and no
sequence has more than eight digits. -/
theorem accepted_bounds (h : r.verdict = .ok ()) :
    replicas + 4 ≤ o.operations ∧ o.operations ≤ 10 ^ 8 := by
  obtain ⟨completed, abandoned, sequences, hreports⟩ := reports_of_verdict h
  have hexact := (verdict_iff hreports).mp h
  have hbacklog : (completed ++ (List.finRange replicas).flatMap sequences).Perm
      (List.range o.operations) := by
    have := hexact.backlog
    rwa [ledgerOf, List.flatMap_map] at this
  constructor
  · have hfair : ∀ i, 1 ≤ (sequences i).length := fun i =>
      List.length_pos_iff.mpr (hexact.fair _ (List.mem_map.mpr ⟨i, List.mem_finRange i, rfl⟩))
    have hlength : completed.length + ((List.finRange replicas).map fun i =>
        (sequences i).length).sum = o.operations := by
      simpa using hbacklog.length_eq
    have hsum : replicas ≤ ((List.finRange replicas).map fun i => (sequences i).length).sum := by
      have := List.card_nsmul_le_sum ((List.finRange replicas).map fun i => (sequences i).length) 1
        (by simpa using hfair)
      simpa using this
    rw [hreports.four] at hlength
    omega
  · by_contra hlarge
    have hmem : 10 ^ 8 ∈ completed ++ (List.finRange replicas).flatMap sequences :=
      hbacklog.mem_iff.mpr (List.mem_range.mpr (not_le.mp hlarge))
    rcases List.mem_append.mp hmem with hmem | hmem
    · exact absurd (hreports.completed_lt _ hmem) (lt_irrefl _)
    · obtain ⟨i, -, hi⟩ := List.mem_flatMap.mp hmem
      exact absurd (lt_of_consume (hreports.consumed i) (List.forall_mem_nil _) _ hi)
        (lt_irrefl _)

/-! ### A run that is accepted -/

/-- The consumer that gets an item: each gets one, and the last one gets the rest. -/
def owner (replicas s : ℕ) : ℕ := min (s - 4) (replicas - 1)

/-- The items that the producer leaves to the consumers. -/
def remaining (o : QueueOptions) : List ℕ := List.range' 4 (o.operations - 4)

/-- The items of a consumer. -/
def share (o : QueueOptions) (replicas i : ℕ) : List ℕ :=
  (remaining o).filter fun s => owner replicas s = i

/-- A consumer reserves an item and completes it. -/
def take (o : QueueOptions) (workerId s : ℕ) : List (Event Role Body) :=
  [.reserve (.consumer workerId) 1 [queuePayload o s],
    .complete (.consumer workerId) (queuePayload o s)]

/-- A consumer finds no item. -/
def poll (workerId : ℕ) : Event Role Body := .reserve (.consumer workerId) 1 []

/-- The items come in their order, but for the one of the abandoner, which is ready again as the
last. -/
def orderly (o : QueueOptions) (replicas : ℕ) : Run o replicas where
  batch := (List.range 4).map (queuePayload o)
  redelivered := [2, 3].map (queuePayload o)
  reserved := [queuePayload o 4]
  polls i := ((share o replicas i).map fun s => [queuePayload o s]) ++ [[], []]
  producing := ((List.range 4).map (queuePayload o)).map (.enqueue .producer) ++
    .reserve .producer 4 ((List.range 4).map (queuePayload o)) ::
    ([0, 1].map (queuePayload o)).map (.complete .producer) ++
    ([2, 3].map (queuePayload o)).map (.release .producer) ++
    .reserve .producer 4 ([2, 3].map (queuePayload o)) ::
    ([2, 3].map (queuePayload o)).map (.complete .producer) ++
    ((remaining o).map (queuePayload o)).map (.enqueue .producer)
  abandoning := [.reserve .abandoner 1 [queuePayload o 4], .release .abandoner (queuePayload o 4)]
  consuming := (remaining o).flatMap (fun s => take o (owner replicas s) s) ++
    (List.finRange replicas).flatMap fun i : Fin replicas => [poll i, poll i]

/-- A consumer that gets some items and then none. -/
theorem consume_eq {workerId : ℕ} {before items : List ℕ}
    (h : ∀ s ∈ items, QueueLifecycle.identify o (queuePayload o s) = .ok s) :
    consume o workerId 0 before ((items.map fun s => [queuePayload o s]) ++ [[], []]) =
      (items.flatMap (take o workerId) ++ [poll workerId, poll workerId],
        .ok (before ++ items)) := by
  induction items generalizing before with
  | nil => simp [consume, poll]
  | cons s items ih =>
    obtain ⟨hs, hitems⟩ := List.forall_mem_cons.mp h
    have hrest := @ih (before ++ [s]) hitems
    simp only [List.map_cons, List.cons_append, consume, hs, hrest, List.flatMap_cons, take,
      List.append_assoc, List.nil_append]
    rfl

/-- The producer leaves the items from 4 on in the queue. -/
theorem run_producing (o : QueueOptions) (replicas : ℕ) :
    Leases.Run ⟨[], []⟩ (orderly o replicas).producing
      ⟨(remaining o).map (queuePayload o), []⟩ := by
  have hreserve : Leases.Step ⟨(List.range 4).map (queuePayload o), []⟩
      (.reserve Role.producer 4 ((List.range 4).map (queuePayload o)))
      ⟨[], ([0, 1].map (queuePayload o)).map (Role.producer, ·) ++
        ([2, 3].map (queuePayload o)).map (Role.producer, ·)⟩ :=
    .reserve (by simp) (by simp)
  have hagain : Leases.Step ⟨[2, 3].map (queuePayload o), []⟩
      (.reserve Role.producer 4 ([2, 3].map (queuePayload o)))
      ⟨[], ([2, 3].map (queuePayload o)).map (Role.producer, ·) ++ []⟩ :=
    .reserve (by simp) (by simp)
  have henqueue := Leases.run_enqueue Role.producer ((List.range 4).map (queuePayload o)) ⟨[], []⟩
  have hcomplete := Leases.run_complete Role.producer ([0, 1].map (queuePayload o)) []
    (([2, 3].map (queuePayload o)).map (Role.producer, ·))
  have hrelease := Leases.run_release Role.producer ([2, 3].map (queuePayload o)) [] []
  have hcomplete' := Leases.run_complete Role.producer ([2, 3].map (queuePayload o)) [] []
  have hrest :=
    Leases.run_enqueue Role.producer ((remaining o).map (queuePayload o)) ⟨[], []⟩
  exact (((henqueue.append (.cons hreserve hcomplete)).append hrelease).append
    (.cons hagain hcomplete')).append hrest

/-- The item of the abandoner is ready again as the last one. -/
theorem run_abandoning {rest : List ℕ} (h : remaining o = 4 :: rest) (replicas : ℕ) :
    Leases.Run ⟨(remaining o).map (queuePayload o), []⟩ (orderly o replicas).abandoning
      ⟨(rest ++ [4]).map (queuePayload o), []⟩ := by
  have hreserve : Leases.Step ⟨(remaining o).map (queuePayload o), []⟩
      (.reserve Role.abandoner 1 [queuePayload o 4])
      ⟨rest.map (queuePayload o), [(Role.abandoner, queuePayload o 4)]⟩ :=
    .reserve (by rw [h]; exact List.Perm.refl _) (by rw [h]; simp)
  have hrelease := Leases.run_release Role.abandoner [queuePayload o 4]
    (rest.map (queuePayload o)) []
  rw [List.map_append]
  exact .cons hreserve hrelease

/-- The consumers complete the items that are ready. -/
theorem run_take {items : List ℕ} {ready : List Body} (replicas : ℕ)
    (h : (items.map (queuePayload o)).Perm ready) :
    Leases.Run ⟨ready, []⟩ (items.flatMap fun s => take o (owner replicas s) s) ⟨[], []⟩ := by
  induction items generalizing ready with
  | nil =>
    obtain rfl := List.nil_perm.mp h
    exact .nil _
  | cons s items ih =>
    have hreserve : Leases.Step ⟨ready, []⟩
        (.reserve (Role.consumer (owner replicas s)) 1 [queuePayload o s])
        ⟨items.map (queuePayload o), [(Role.consumer (owner replicas s), queuePayload o s)]⟩ :=
      .reserve h (by rw [← h.length_eq]; simp)
    exact .cons hreserve (.cons (.complete (List.Perm.refl _)) (ih (List.Perm.refl _)))

theorem run_poll (workers : List ℕ) : Leases.Run (H := Role) (B := Body) ⟨[], []⟩
    (workers.flatMap fun i => [poll i, poll i]) ⟨[], []⟩ := by
  have hpoll : ∀ i, Leases.Step (⟨[], []⟩ : Leases Role Body) (poll i) ⟨[], []⟩ :=
    fun i => .reserve (List.Perm.refl _) rfl
  induction workers with
  | nil => exact .nil _
  | cons i workers ih => exact .cons (hpoll i) (.cons (hpoll i) ih)

/-- The parts of those elements that pass. -/
theorem filter_flatMap_ite {α β : Type*} {p : β → Bool} {q : α → Bool} {f g : α → List β}
    {l : List α} (h : ∀ a ∈ l, (f a).filter p = if q a then g a else []) :
    (l.flatMap f).filter p = (l.filter q).flatMap g := by
  induction l with
  | nil => rfl
  | cons a l ih =>
    obtain ⟨ha, hl⟩ := List.forall_mem_cons.mp h
    rw [List.flatMap_cons, List.filter_append, ha, ih hl, List.filter_cons]
    split_ifs <;> rfl

theorem filter_finRange (i : Fin replicas) :
    (List.finRange replicas).filter (fun j => j = i) = [i] := by
  have hcount : (List.finRange replicas).count i = 1 :=
    List.count_eq_one_of_mem (List.nodup_finRange replicas) (List.mem_finRange i)
  rw [List.filter_eq, hcount, List.replicate_one]

/-- The items that are left are shared among the consumers. -/
theorem flatMap_share_perm (hreplicas : 1 ≤ replicas) :
    ((List.finRange replicas).flatMap fun i : Fin replicas => share o replicas i).Perm
      (remaining o) := by
  have hnodup : (remaining o).Nodup := List.nodup_range'
  refine (List.perm_ext_iff_of_nodup (List.nodup_flatMap.mpr ⟨fun i _ => hnodup.filter _, ?_⟩)
    hnodup).mpr fun s => ?_
  · refine (List.nodup_finRange replicas).imp fun {i j} hne => ?_
    intro s hi hj
    have hi := of_decide_eq_true (List.mem_filter.mp hi).2
    have hj := of_decide_eq_true (List.mem_filter.mp hj).2
    exact hne (Fin.ext (hi.symm.trans hj))
  · rw [List.mem_flatMap]
    constructor
    · rintro ⟨i, -, hs⟩
      exact List.mem_of_mem_filter hs
    · intro hs
      exact ⟨⟨owner replicas s, by rw [owner]; omega⟩, List.mem_finRange _,
        List.mem_filter.mpr ⟨hs, decide_eq_true rfl⟩⟩

section

variable (hbytes : 32 ≤ o.payloadBytes) (hoperations : o.operations ≤ 10 ^ 8)

include hbytes hoperations

theorem identify_queuePayload {s : ℕ} (hs : s < o.operations) :
    QueueLifecycle.identify o (queuePayload o s) = .ok s :=
  (QueueLifecycle.identify_eq_ok hbytes hoperations).mpr ⟨hs, rfl⟩

theorem consumed_orderly (i : Fin replicas) : (orderly o replicas).consumed i =
    ((share o replicas i).flatMap (take o i) ++ [poll i, poll i], .ok (share o replicas i)) := by
  refine consume_eq fun s hs => identify_queuePayload hbytes hoperations ?_
  have hmem := List.mem_range'_1.mp (List.mem_of_mem_filter hs)
  omega

theorem orderly_correct (hreplicas : 1 ≤ replicas) (hfive : 5 ≤ o.operations) :
    (orderly o replicas).Correct where
  producing := by
    have hrest : ∀ bodies : List Body,
        (bodies.map (Event.enqueue Role.producer)).filter (fun e => e.client?.isSome) =
          bodies.map (Event.enqueue Role.producer) :=
      fun bodies => List.filter_eq_self.mpr (by simp [Event.client?])
    rw [orderly, List.filter_append, hrest]
    rfl
  abandoning := rfl
  consuming e he client hclient := by
    rcases List.mem_append.mp he with he | he
    · obtain ⟨s, hs, hmem⟩ := List.mem_flatMap.mp he
      have hclient' : client = .consumer (owner replicas s) := by
        rcases List.mem_pair.mp hmem with rfl | rfl <;> exact (Option.some.inj hclient).symm
      exact ⟨⟨owner replicas s, by rw [owner]; omega⟩, hclient'⟩
    · obtain ⟨i, -, hmem⟩ := List.mem_flatMap.mp he
      have hclient' : client = .consumer i := by
        rcases List.mem_pair.mp hmem with rfl | rfl <;> exact (Option.some.inj hclient).symm
      exact ⟨i, hclient'⟩
  consumer i := by
    rw [consumed_orderly hbytes hoperations]
    -- A consumer takes the items that it owns, and polls for itself.
    have htake : ∀ s ∈ remaining o,
        (take o (owner replicas s) s).filter (fun e => e.client? = some (.consumer i)) =
          if decide (owner replicas s = i) then take o i s else [] := by
      intro s _
      by_cases hs : owner replicas s = i <;> simp [take, Event.client?, hs]
    have hpoll : ∀ j ∈ List.finRange replicas,
        [poll j, poll j].filter (fun e => e.client? = some (.consumer i)) =
          if decide (j = i) then [poll j, poll j] else [] := by
      intro j _
      by_cases hj : j = i <;> simp [poll, Event.client?, hj, Fin.val_inj]
    rw [orderly, List.filter_append, filter_flatMap_ite htake, filter_flatMap_ite hpoll,
      filter_finRange]
    rfl
  queue := by
    obtain ⟨rest, hrest⟩ : ∃ rest, remaining o = 4 :: rest :=
      ⟨List.range' 5 (o.operations - 5), by
        rw [remaining, show o.operations - 4 = (o.operations - 5) + 1 by omega, List.range'_succ]⟩
    -- The item of the abandoner comes back after the rest.
    have hitems : ((remaining o).map (queuePayload o)).Perm
        ((rest ++ [4]).map (queuePayload o)) := by
      rw [hrest]
      exact (List.perm_append_singleton 4 rest).symm.map _
    have hpoll := run_poll ((List.finRange replicas).map Fin.val)
    rw [List.flatMap_map] at hpoll
    exact ⟨_, ((run_producing o replicas).append (run_abandoning hrest replicas)).append
      ((run_take replicas hitems).append hpoll)⟩

/-- The producer reports the first four sequences. -/
theorem produce_orderly (height : 8 ≤ o.operations) : ∃ (completed : List ℕ) (record : Record),
    produce o (orderly o replicas).batch (orderly o replicas).redelivered = .ok record ∧
      field record "completed" = some (.arr (completed.map .count)) ∧
        completed.Perm (List.range 4) := by
  have hsorted : ∀ items : List ℕ, (∀ s ∈ items, s < 8) →
      identifySorted o (items.map (queuePayload o)) = .ok (items.mergeSort (· ≤ ·)) := by
    intro items hitems
    have hfound : (items.map (queuePayload o)).mapM (QueueLifecycle.identify o) = .ok items := by
      rw [mapM_eq_ok, List.forall₂_map_left_iff, List.forall₂_same]
      exact fun s hs => identify_queuePayload hbytes hoperations ((hitems s hs).trans_le height)
    rw [identifySorted, hfound]
    rfl
  have hfirst : identifySorted o (((List.range 4).map (queuePayload o)).take 2) =
      .ok ([0, 1].mergeSort (· ≤ ·)) := hsorted [0, 1] (by decide)
  have hlast : identifySorted o (((List.range 4).map (queuePayload o)).drop 2) =
      .ok ([2, 3].mergeSort (· ≤ ·)) := hsorted [2, 3] (by decide)
  obtain ⟨record, hrecord⟩ : ∃ record,
      produce o (orderly o replicas).batch (orderly o replicas).redelivered = .ok record := by
    simp only [produce, bind_eq, bind_eq_ok, exists_unit, failIf_eq_ok, not_not, pure_eq,
      Except.ok.injEq]
    exact ⟨_, not_lt.mpr height, rfl, _, hsorted (List.range 4) (by decide), _, hfirst, _,
      hsorted [2, 3] (by decide), _, hlast, rfl, rfl⟩
  obtain ⟨-, first, last, hfirst', hlast', hfield⟩ := completed_of_produce hrecord
  obtain rfl := Except.ok.inj (hfirst.symm.trans hfirst')
  obtain rfl := Except.ok.inj (hlast.symm.trans hlast')
  refine ⟨_, record, hrecord, hfield, (List.mergeSort_perm _ _).trans ?_⟩
  exact (List.mergeSort_perm [0, 1] _).append (List.mergeSort_perm [2, 3] _)

/-- **The orderly run is accepted.** -/
theorem exists_accepted (hreplicas : 1 ≤ replicas) (height : 8 ≤ o.operations)
    (hfit : replicas + 4 ≤ o.operations) :
    ∃ r : Run o replicas, r.Correct ∧ r.verdict = .ok () := by
  refine ⟨orderly o replicas,
    orderly_correct hbytes hoperations hreplicas (by omega), ?_⟩
  obtain ⟨completed, record, hrecord, hfield, hperm⟩ :=
    @produce_orderly o replicas hbytes hoperations height
  have hleft : abandon o (orderly o replicas).reserved = .ok [("sequence", .count 4)] := by
    rw [orderly, abandon, identify_queuePayload hbytes hoperations (by omega)]
    rfl
  have hreports : (orderly o replicas).Reports completed 4 fun i => share o replicas i :=
    { produced := ⟨record, hrecord, hfield⟩
      four := hperm.length_eq
      completed_lt := fun s hs =>
        (List.mem_range.mp (hperm.mem_iff.mp hs)).trans (by decide)
      left := hleft
      abandoned_lt := by decide
      consumed := fun i => by rw [consumed_orderly hbytes hoperations] }
  have hmem : ∀ i : Fin replicas, 4 + i.val ∈ share o replicas i := fun i =>
    List.mem_filter.mpr ⟨List.mem_range'_1.mpr (by omega), decide_eq_true (by rw [owner]; omega)⟩
  refine (verdict_iff hreports).mpr
    { backlog := ?_
      redelivered := ⟨_, List.mem_map.mpr ⟨⟨0, hreplicas⟩, List.mem_finRange _, rfl⟩,
        hmem ⟨0, hreplicas⟩⟩
      consumers := by rw [ledgerOf, List.length_map, List.length_finRange]
      fair := fun p hp => ?_ }
  · have hrange : List.range o.operations = List.range 4 ++ remaining o := by
      rw [remaining, List.range_eq_range', List.range_eq_range', List.range'_append_1]
      congr 1
      omega
    rw [ledgerOf, List.flatMap_map, hrange]
    exact hperm.append (flatMap_share_perm hreplicas)
  · obtain ⟨i, -, rfl⟩ := List.mem_map.mp hp
    exact List.ne_nil_of_mem (hmem i)

end

end Run

open Config in
/-- **The verdict is exact, and the scenario can be passed** with a configuration iff each consumer
can get an item besides the four of the producer, and eight digits are enough for the sequences. -/
theorem verdict_exact_and_passable_iff {argv : List String} {env : String → Option String}
    {c : RunConfig} (h : parseArgs argv env = .ok c) :
    ((∀ ledger replicas, assertQueueLifecycle ledger replicas = .ok () ↔ Exact ledger replicas) ∧
      ∃ r : Run (options c) c.clientReplicas, r.Correct ∧ r.verdict = .ok ()) ↔
    c.clientReplicas + 4 ≤ (options c).operations ∧ (options c).operations ≤ 10 ^ 8 := by
  have hrange := parseArgs_inRange h
  constructor
  · rintro ⟨-, r, -, hr⟩
    exact Run.accepted_bounds hr
  · rintro ⟨hfit, hoperations⟩
    exact ⟨fun _ _ => assertQueueLifecycle_eq_ok, Run.exists_accepted
      hrange.scale.payloadBytes.1 hoperations hrange.clientReplicas.1 (le_max_left _ _) hfit⟩

/-- What the command line decides of a scenario. -/
def decided (argv : List String) : Option (ℕ × ℕ) :=
  (Config.parseArgs argv fun _ => none).toOption.map fun c =>
    (c.clientReplicas, (options c).operations)

theorem exists_parseArgs {argv : List String} {clients operations : ℕ}
    (h : decided argv = some (clients, operations)) :
    ∃ c, Config.parseArgs argv (fun _ => none) = .ok c ∧ c.clientReplicas = clients ∧
      (options c).operations = operations := by
  obtain ⟨c, hc, hdecided⟩ := Option.map_eq_some_iff.mp h
  obtain ⟨hclients, hoperations⟩ := Prod.mk.inj hdecided
  refine ⟨c, ?_, hclients, hoperations⟩
  cases hparse : Config.parseArgs argv fun _ => none with
  | error failure =>
    rw [hparse] at hc
    cases hc
  | ok c' =>
    rw [hparse] at hc
    rw [Option.some.inj hc]

/-- The default configuration can be passed. -/
theorem verdict_exact_and_passable_default : ∃ c,
    Config.parseArgs ["queue-lifecycle"] (fun _ => none) = .ok c ∧
      ∃ r : Run (options c) c.clientReplicas, r.Correct ∧ r.verdict = .ok () := by
  obtain ⟨c, hc, hclients, hoperations⟩ :=
    @exists_parseArgs ["queue-lifecycle"] 4 40 (by decide +kernel)
  exact ⟨c, hc, ((verdict_exact_and_passable_iff hc).mpr
    ⟨by rw [hclients, hoperations]; decide, by rw [hoperations]; decide⟩).2⟩

/-- Five consumers for the four items that the producer leaves. -/
def fiveClients : List String :=
  ["queue-lifecycle", "--resources", "1", "--entries", "1", "--clients", "5"]

/-- **Not every configuration can be passed**: a fifth consumer gets no item. -/
theorem not_passable : ¬((∀ ledger replicas,
    assertQueueLifecycle ledger replicas = .ok () ↔ Exact ledger replicas) ∧
      ∀ argv env c, Config.parseArgs argv env = .ok c →
        ∃ r : Run (options c) c.clientReplicas, r.Correct ∧ r.verdict = .ok ()) := by
  rintro ⟨-, hpassable⟩
  obtain ⟨c, hc, hclients, hoperations⟩ := @exists_parseArgs fiveClients 5 8 (by decide +kernel)
  obtain ⟨r, -, hr⟩ := hpassable _ _ c hc
  have hbounds := (Run.accepted_bounds hr).1
  rw [hclients, hoperations] at hbounds
  omega

end Lifecycle

end Queue

end FitzDestroyer
