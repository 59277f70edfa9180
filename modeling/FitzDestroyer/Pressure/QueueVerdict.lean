import FitzDestroyer.Pressure.Queue
import Mathlib.Data.List.Count
import Mathlib.Data.List.FinRange

/-!
# The verdict on queues raises no false alarm

Every item of a queue is accounted for: it stands for one enqueue that was acknowledged or left
open, and it is stored, still to be stored, completed, or observed, but no two of these.

* `Accounted` : this invariant, with `accounted_apply` for one event;
* `OnceAmbiguous` : no completion of an item fails ambiguously twice;
* `accepted_iff` : the verdict raises no alarm iff the runs of all workers meet this condition.
-/

namespace FitzDestroyer

namespace Pressure

open Js

/-! ### Counting -/

section Count

variable {α : Type*} [BEq α] [LawfulBEq α]

/-- A list without duplicates is counted by a list with its elements. -/
theorem count_le_of_subset {l l' : List α} (h : l.Nodup) (hsub : ∀ a ∈ l, a ∈ l') (a : α) :
    l.count a ≤ l'.count a := by
  rw [h.count]
  split_ifs with ha
  · exact List.count_pos_iff.mpr (hsub a ha)
  · exact Nat.zero_le _

variable [DecidableEq α]

theorem count_concat (l : List α) (a b : α) :
    (l ++ [b]).count a = l.count a + if b = a then 1 else 0 := by
  rw [List.count_append, List.count_singleton]
  simp only [beq_iff_eq]

theorem count_erase_eq (l : List α) (a b : α) :
    (l.erase b).count a = l.count a - if b = a then 1 else 0 := by
  rw [List.count_erase]
  simp only [beq_iff_eq]

end Count

/-! ### What a worker has recorded -/

/-- The first counter that the worker has not enqueued. -/
def QueueClient.bound (c : QueueClient) : ℕ :=
  match c.phase with
  | .idle => c.counter
  | .enqueue => c.counter
  | .reserve => c.counter + 1
  | .complete _ _ => c.counter + 1
  | .stopped => c.counter + 1

/-- The enqueues of a sequence that succeeded or failed ambiguously. -/
def QueueOutcome.known (o : QueueOutcome) (sequence : ℕ) : ℕ :=
  o.acknowledged.count sequence + o.ambiguousEnqueues.count sequence

/-- The enqueues of a sequence, however they ended. -/
def QueueOutcome.enqueued (o : QueueOutcome) (sequence : ℕ) : ℕ :=
  o.known sequence + o.failedEnqueues.count sequence

/-- The sequences are safe integers, and no completion failed ambiguously twice. -/
structure QueueOutcome.Fit (o : QueueOutcome) : Prop where
  safe : ∀ i, 0 < o.enqueued i → i ≤ maxSafeInteger
  once : o.ambiguousCompletions.Nodup

/-- The enqueue is sent again. -/
def IsRetried : Except Thrown Unit → Prop
  | .ok _ => False
  | .error error => isQueueBackpressure error = true

instance : (answer : Except Thrown Unit) → Decidable (IsRetried answer)
  | .ok _ => inferInstanceAs (Decidable False)
  | .error _ => inferInstanceAs (Decidable (_ = _))

/-- Whether the operation was applied is open. -/
def IsOpen : Except Thrown Unit → Prop
  | .ok _ => False
  | .error error => isAmbiguousDurableError error = true

instance : (answer : Except Thrown Unit) → Decidable (IsOpen answer)
  | .ok _ => inferInstanceAs (Decidable False)
  | .error _ => inferInstanceAs (Decidable (_ = _))

namespace QueueOutcome

variable {o : QueueOutcome} {sequence : ℕ} {answer : Except Thrown Unit}

theorem enqueued_recordEnqueue (i : ℕ) : (o.recordEnqueue sequence answer).enqueued i =
    o.enqueued i + if ¬IsRetried answer ∧ sequence = i then 1 else 0 := by
  unfold recordEnqueue enqueued known IsRetried
  rcases answer with error | _
  · by_cases hretry : isQueueBackpressure error = true
    · simp [hretry]
    · by_cases hopen : isAmbiguousDurableError error = true <;>
        simp only [hretry, hopen, if_true, if_false, count_concat, not_false_eq_true, true_and,
          Bool.false_eq_true] <;> omega
  · simp only [count_concat, not_false_eq_true, true_and]
    omega

@[simp] theorem ambiguousCompletions_recordEnqueue :
    (o.recordEnqueue sequence answer).ambiguousCompletions = o.ambiguousCompletions := by
  unfold recordEnqueue
  split
  · rfl
  · split_ifs <;> rfl

@[simp] theorem enqueued_recordComplete (i : ℕ) :
    (o.recordComplete sequence answer).enqueued i = o.enqueued i := by
  unfold recordComplete
  split
  · rfl
  · split_ifs <;> rfl

theorem ambiguousCompletions_recordComplete :
    (o.recordComplete sequence answer).ambiguousCompletions =
      if IsOpen answer then o.ambiguousCompletions ++ [sequence] else o.ambiguousCompletions := by
  unfold recordComplete IsOpen
  rcases answer with error | _
  · by_cases hopen : isAmbiguousDurableError error = true <;> simp [hopen]
  · simp

theorem fit_recordEnqueue : (o.recordEnqueue sequence answer).Fit ↔
    o.Fit ∧ (¬IsRetried answer → sequence ≤ maxSafeInteger) := by
  constructor
  · intro h
    refine ⟨⟨fun i hi => h.safe i ?_, by simpa using h.once⟩, fun hretry => h.safe sequence ?_⟩
    · rw [enqueued_recordEnqueue]
      omega
    · rw [enqueued_recordEnqueue, if_pos ⟨hretry, rfl⟩]
      omega
  · rintro ⟨h, hsafe⟩
    refine ⟨fun i hi => ?_, by simpa using h.once⟩
    rw [enqueued_recordEnqueue] at hi
    by_cases hnew : ¬IsRetried answer ∧ sequence = i
    · exact hnew.2 ▸ hsafe hnew.1
    · rw [if_neg hnew] at hi
      exact h.safe i hi

theorem fit_recordComplete : (o.recordComplete sequence answer).Fit ↔
    o.Fit ∧ (IsOpen answer → sequence ∉ o.ambiguousCompletions) := by
  by_cases hopen : IsOpen answer
  · have hlist := @ambiguousCompletions_recordComplete o sequence answer
    rw [if_pos hopen] at hlist
    constructor
    · intro h
      have honce := h.once
      rw [hlist, List.nodup_append] at honce
      refine ⟨⟨fun i hi => h.safe i (by simpa using hi), honce.1⟩, fun _ hmem => ?_⟩
      exact honce.2.2 sequence hmem sequence (List.mem_singleton_self _) rfl
    · rintro ⟨h, hnew⟩
      refine ⟨fun i hi => h.safe i (by simpa using hi), ?_⟩
      rw [hlist]
      exact h.once.append (List.nodup_singleton _)
        (List.disjoint_singleton.mpr (hnew hopen))
  · have hlist := @ambiguousCompletions_recordComplete o sequence answer
    rw [if_neg hopen] at hlist
    constructor
    · intro h
      exact ⟨⟨fun i hi => h.safe i (by simpa using hi), hlist ▸ h.once⟩, fun ho => absurd ho hopen⟩
    · rintro ⟨h, -⟩
      exact ⟨fun i hi => h.safe i (by simpa using hi), hlist ▸ h.once⟩

end QueueOutcome

namespace QueueClient

variable {c : QueueClient} {answer : Except Thrown Unit}

@[simp] theorem outcome_succeed : c.succeed.outcome = c.outcome := rfl

@[simp] theorem outcome_fail : c.fail.outcome = c.outcome := by
  unfold fail
  split_ifs <;> rfl

@[simp] theorem bound_succeed : c.succeed.bound = c.counter + 1 := rfl

@[simp] theorem bound_fail : c.fail.bound = c.counter + 1 := by
  unfold fail
  split_ifs <;> rfl

@[simp] theorem held_succeed : c.succeed.phase.held? = none := rfl

@[simp] theorem held_fail : c.fail.phase.held? = none := by
  unfold fail
  split_ifs <;> rfl

theorem outcome_onEnqueue : (c.onEnqueue answer).outcome =
    c.outcome.recordEnqueue c.counter answer := by
  unfold onEnqueue
  split
  · rfl
  · split_ifs
    · rfl
    · simp

theorem outcome_onComplete (sequence : ℕ) : (c.onComplete sequence answer).outcome =
    c.outcome.recordComplete sequence answer := by
  unfold onComplete
  split <;> simp

theorem outcome_onReserve {namespaceName worker : RouteSegment}
    (answer : Except Thrown (Option Body)) :
    (c.onReserve namespaceName worker answer).outcome = c.outcome := by
  unfold onReserve
  split
  · rfl
  · split <;> simp
  · split_ifs <;> simp

end QueueClient

/-! ### Which verdicts are clean -/

/-- No completion of an item fails ambiguously that did so before, and the counter is a safe
integer. -/
def QueueSystem.OnceAmbiguous (s : QueueSystem) : QueueEvent → Prop
  | .enqueued answer => ¬IsRetried answer → s.client.counter ≤ maxSafeInteger
  | .completed answer => IsOpen answer → ∀ held ∈ s.client.phase.held?,
      held.2 ∉ s.client.outcome.ambiguousCompletions
  | _ => True

instance (s : QueueSystem) : (e : QueueEvent) → Decidable (s.OnceAmbiguous e)
  | .enqueued _ => inferInstanceAs (Decidable (_ → _))
  | .completed _ => inferInstanceAs (Decidable (_ → ∀ held ∈ s.client.phase.held?, _))
  | .shutdown => inferInstanceAs (Decidable True)
  | .loop => inferInstanceAs (Decidable True)
  | .reserved _ => inferInstanceAs (Decidable True)
  | .leaseLate _ => inferInstanceAs (Decidable True)
  | .leaseExpired _ => inferInstanceAs (Decidable True)
  | .storeLate _ => inferInstanceAs (Decidable True)
  | .completeLate _ => inferInstanceAs (Decidable True)
  | .polled _ => inferInstanceAs (Decidable True)
  | .drained => inferInstanceAs (Decidable True)

section System

variable {namespaceName worker : RouteSegment} {s s' : QueueSystem} {e : QueueEvent}

theorem queueSystem_step_eq_some : (queueSystem namespaceName worker).step s e = some s' ↔
    (s.reconciler.Running ∧ s.Allows e) ∧ s.apply namespaceName worker e = s' := by
  rw [queueSystem, EventSys.restrict_step_eq_some, EventSys.ofTotal_step, Option.some.injEq]

theorem held_eq_some {phase : QueuePhase} {item : Body} {sequence : ℕ} :
    phase.held? = some (item, sequence) ↔ phase = .complete item sequence := by
  cases phase <;> simp [QueuePhase.held?]

/-- The records stay fit iff the event meets the condition. -/
theorem fit_apply (h : s.Allows e) : (s.apply namespaceName worker e).client.outcome.Fit ↔
    s.client.outcome.Fit ∧ s.OnceAmbiguous e := by
  cases e with
  | enqueued answer =>
    change (s.client.onEnqueue answer).outcome.Fit ↔ _
    rw [QueueClient.outcome_onEnqueue, QueueOutcome.fit_recordEnqueue]
    rfl
  | reserved answer =>
    change (s.client.onReserve namespaceName worker answer).outcome.Fit ↔ _ ∧ True
    rw [QueueClient.outcome_onReserve, and_true]
  | completed answer =>
    obtain ⟨⟨item, sequence⟩, hheld⟩ := Option.ne_none_iff_exists'.mp h
    have happly : (s.apply namespaceName worker (.completed answer)).client =
        s.client.onComplete sequence answer := by
      simp only [QueueSystem.apply, hheld]
    rw [happly, QueueClient.outcome_onComplete, QueueOutcome.fit_recordComplete]
    refine and_congr_right fun _ => ⟨fun hnew ho held hmem => ?_, fun hnew ho =>
      hnew ho _ hheld⟩
    obtain rfl := Option.some.inj (hheld.symm.trans hmem)
    exact hnew ho
  | shutdown => exact (and_iff_left trivial).symm
  | loop => exact (and_iff_left trivial).symm
  | leaseLate item => exact (and_iff_left trivial).symm
  | leaseExpired item => exact (and_iff_left trivial).symm
  | storeLate item => exact (and_iff_left trivial).symm
  | completeLate item => exact (and_iff_left trivial).symm
  | polled items => exact (and_iff_left trivial).symm
  | drained => exact (and_iff_left trivial).symm

/-- **The records are fit** iff every event of the run meets the condition. -/
theorem fit_iff_guarded {es : List QueueEvent}
    (h : (queueSystem namespaceName worker).run .start es = some s) :
    s.client.outcome.Fit ↔
      (queueSystem namespaceName worker).Guarded QueueSystem.OnceAmbiguous .start es := by
  refine EventSys.iff_guarded (I := fun _ => True) (P := fun s => s.client.outcome.Fit)
    (fun _ _ _ _ _ => trivial) ?_ ?_ ?_ trivial
    ⟨by simp [QueueSystem.start, QueueClient.start, QueueOutcome.enqueued, QueueOutcome.known],
      List.nodup_nil⟩ h
  · intro s e s' _ hfit hg hstep
    obtain ⟨⟨-, hallows⟩, rfl⟩ := queueSystem_step_eq_some.mp hstep
    exact (fit_apply hallows).mpr ⟨hfit, hg⟩
  · intro s e s' _ hg hstep hfit
    obtain ⟨⟨-, hallows⟩, rfl⟩ := queueSystem_step_eq_some.mp hstep
    exact hg ((fit_apply hallows).mp hfit).2
  · intro s e s' _ hunfit hstep hfit
    obtain ⟨⟨-, hallows⟩, rfl⟩ := queueSystem_step_eq_some.mp hstep
    exact hunfit ((fit_apply hallows).mp hfit).1

/-! ### Every item is accounted for -/

/-- What the enqueue of a sequence has become, unless its item is stored. -/
def QueueSystem.spent (namespaceName worker : RouteSegment) (s : QueueSystem) (sequence : ℕ) : ℕ :=
  s.broker.enqueuing.count (pressureValue namespaceName worker .queue sequence) +
    s.client.outcome.completed.count sequence + s.reconciler.sequences.count sequence

/-- Every item is accounted for. -/
structure Accounted (namespaceName worker : RouteSegment) (s : QueueSystem) : Prop where
  fit : s.client.outcome.Fit
  fresh : ∀ i, s.client.bound ≤ i → s.client.outcome.enqueued i = 0
  single : ∀ i, s.client.outcome.enqueued i ≤ 1
  bodies : ∀ item, item ∈ s.broker.stored ∨ item ∈ s.broker.enqueuing ∨
    item ∈ s.broker.completing ∨ item ∈ s.reconciler.batch →
      ∃ i, item = pressureValue namespaceName worker .queue i
  stored : ∀ i, s.broker.stored.count (pressureValue namespaceName worker .queue i) +
    s.spent namespaceName worker i ≤ s.client.outcome.known i
  held : ∀ item sequence, s.client.phase = .complete item sequence →
    item = pressureValue namespaceName worker .queue sequence ∧
      1 + s.spent namespaceName worker sequence ≤ s.client.outcome.known sequence
  batch : ∀ i, s.reconciler.batch.count (pressureValue namespaceName worker .queue i) +
    s.spent namespaceName worker i ≤ s.client.outcome.known i
  completions : ∀ i ∈ s.client.outcome.ambiguousCompletions, 0 < s.client.outcome.known i
  completing : ∀ i, pressureValue namespaceName worker .queue i ∈ s.broker.completing →
    i ∈ s.client.outcome.ambiguousCompletions
  resolved : ∀ i ∈ s.client.outcome.acknowledged,
    pressureValue namespaceName worker .queue i ∈ s.broker.stored ∨
      i ∈ s.client.outcome.completed ∨ i ∈ s.reconciler.sequences ∨
      i ∈ s.client.outcome.ambiguousCompletions
  /-- The reconciler starts when the worker has shut down. -/
  working : s.client.phase ≠ .stopped → s.reconciler.batch = []
  emptied : 3 ≤ s.reconciler.emptyPolls → s.broker.stored = []
  sound : s.reconciler.failure = none

theorem count_value_concat (items : List Body) (i j : ℕ) :
    (items ++ [pressureValue namespaceName worker .queue j]).count
        (pressureValue namespaceName worker .queue i) =
      items.count (pressureValue namespaceName worker .queue i) + if j = i then 1 else 0 := by
  rw [count_concat]
  simp only [(pressureValue_injective .queue).eq_iff]

theorem count_value_erase (items : List Body) (i j : ℕ) :
    (items.erase (pressureValue namespaceName worker .queue j)).count
        (pressureValue namespaceName worker .queue i) =
      items.count (pressureValue namespaceName worker .queue i) - if j = i then 1 else 0 := by
  rw [count_erase_eq]
  simp only [(pressureValue_injective .queue).eq_iff]

namespace Accounted

variable (h : Accounted namespaceName worker s)

include h

theorem known_le_one (i : ℕ) : s.client.outcome.known i ≤ 1 :=
  (Nat.le_add_right _ _).trans (h.single i)

theorem safe_of_known {i : ℕ} (hi : 0 < s.client.outcome.known i) : i ≤ maxSafeInteger :=
  h.fit.safe i (hi.trans_le (Nat.le_add_right _ _))

/-- The item of a sequence that is known can be decoded. -/
theorem decode_of_known {i : ℕ} (hi : 0 < s.client.outcome.known i) :
    decodePressureQueueSequence namespaceName worker
      (pressureValue namespaceName worker .queue i) = .ok i :=
  decodePressureQueueSequence_pressureValue (h.safe_of_known hi)

/-- A stored item is known, and has not been spent. -/
theorem of_mem_stored {item : Body} (hitem : item ∈ s.broker.stored) :
    ∃ i, item = pressureValue namespaceName worker .queue i ∧
      1 + s.spent namespaceName worker i ≤ s.client.outcome.known i := by
  obtain ⟨i, rfl⟩ := h.bodies item (.inl hitem)
  have hpos := List.count_pos_iff.mpr hitem
  have hstored := h.stored i
  exact ⟨i, rfl, by omega⟩

omit h in
/-- The worker has not enqueued anything. -/
theorem start : Accounted namespaceName worker .start := by
  refine ⟨⟨?_, List.nodup_nil⟩, ?_, ?_, ?_, ?_, ?_, ?_, ?_, ?_, ?_,
    fun _ => rfl, fun _ => rfl, rfl⟩ <;>
    simp [QueueSystem.start, QueueClient.start, QueueBroker.start, Reconciler.start,
      QueueSystem.spent, QueueOutcome.known, QueueOutcome.enqueued]

theorem shutdown : Accounted namespaceName worker (s.apply namespaceName worker .shutdown) :=
  ⟨h.fit, h.fresh, h.single, h.bodies, h.stored, h.held, h.batch, h.completions, h.completing,
    h.resolved, h.working, h.emptied, h.sound⟩

theorem loop (hphase : s.client.phase = .idle) :
    Accounted namespaceName worker (s.apply namespaceName worker .loop) := by
  have hbound : s.client.bound ≤ s.client.loop.bound := by
    unfold QueueClient.bound QueueClient.loop
    rw [hphase]
    split_ifs <;> simp
  have hheld : ∀ item sequence, s.client.loop.phase ≠ .complete item sequence := by
    intro item sequence
    unfold QueueClient.loop
    split_ifs <;> simp
  exact ⟨h.fit, fun i hi => h.fresh i (hbound.trans hi), h.single, h.bodies, h.stored,
    fun item sequence hc => absurd hc (hheld item sequence), h.batch, h.completions, h.completing,
    h.resolved, fun _ => h.working (by simp [hphase]), h.emptied, h.sound⟩

/-- What the worker does when its operation has ended. -/
theorem of_client {c : QueueClient} (houtcome : c.outcome = s.client.outcome)
    (hbound : s.client.bound ≤ c.bound) (hheld : c.phase.held? = none)
    (hworking : s.client.phase ≠ .stopped) :
    Accounted namespaceName worker { s with client := c } := by
  refine ⟨?_, ?_, ?_, h.bodies, ?_, ?_, ?_, ?_, ?_, ?_, fun _ => h.working hworking, h.emptied,
    h.sound⟩
  all_goals simp only [QueueSystem.spent, houtcome]
  · exact h.fit
  · exact fun i hi => h.fresh i (hbound.trans hi)
  · exact h.single
  · exact h.stored
  · intro item sequence hc
    rw [held_eq_some.mpr hc] at hheld
    cases hheld
  · exact h.batch
  · exact h.completions
  · exact h.completing
  · exact h.resolved

/-- An enqueue whose counter has not been used ends. -/
theorem enqueue_records {answer : Except Thrown Unit} (hphase : s.client.phase = .enqueue)
    (hretry : ¬IsRetried answer) :
    (s.client.onEnqueue answer).bound = s.client.counter + 1 ∧
      (∀ i, s.client.counter + 1 ≤ i → (s.client.onEnqueue answer).outcome.enqueued i = 0) ∧
      (∀ i, (s.client.onEnqueue answer).outcome.enqueued i ≤ 1) ∧
      s.client.outcome.known s.client.counter = 0 := by
  have hbound : s.client.bound = s.client.counter := by
    unfold QueueClient.bound
    rw [hphase]
  have hnew : s.client.outcome.enqueued s.client.counter = 0 := h.fresh _ hbound.le
  simp only [QueueClient.outcome_onEnqueue, QueueOutcome.enqueued_recordEnqueue, hretry,
    not_false_eq_true, true_and]
  refine ⟨?_, fun i hi => ?_, fun i => ?_, ?_⟩
  · rcases answer with error | _
    · have hretry' : ¬isQueueBackpressure error = true := hretry
      simp [QueueClient.onEnqueue, hretry']
    · rfl
  · have := h.fresh i (by omega)
    rw [if_neg (by omega)]
    omega
  · by_cases hi : s.client.counter = i
    · rw [if_pos hi, ← hi]
      omega
    · rw [if_neg hi]
      exact h.single i
  · exact Nat.eq_zero_of_le_zero ((Nat.le_add_right _ _).trans hnew.le)

/-- An enqueue that succeeds. -/
theorem enqueued_ok (hrun : s.reconciler.Running) (hphase : s.client.phase = .enqueue)
    (hfit : (s.client.onEnqueue (.ok ())).outcome.Fit) :
    Accounted namespaceName worker (s.apply namespaceName worker (.enqueued (.ok ()))) := by
  obtain ⟨hbound, hfresh, hsingle, -⟩ := 
    h.enqueue_records hphase (show ¬IsRetried (.ok () : Except Thrown Unit) from id)
  have hknown : ∀ i, (s.apply namespaceName worker (.enqueued (.ok ()))).client.outcome.known i =
      s.client.outcome.known i + if s.client.counter = i then 1 else 0 := by
    intro i
    simp only [QueueSystem.apply, QueueClient.onEnqueue, QueueOutcome.recordEnqueue,
      QueueOutcome.known, count_concat]
    omega
  refine ⟨hfit, hbound ▸ hfresh, hsingle, ?_, fun i => ?_, ?_, fun i => ?_, fun i hi => ?_,
    h.completing, ?_, fun _ => h.working (by simp [hphase]),
    fun hempty => absurd hrun.1 (not_lt.mpr hempty), h.sound⟩
  · rintro item (hitem | hitem)
    · rcases List.mem_append.mp hitem with hitem | hitem
      · exact h.bodies item (.inl hitem)
      · exact ⟨_, List.mem_singleton.mp hitem⟩
    · exact h.bodies item (.inr hitem)
  · have hstored := h.stored i
    rw [hknown]
    change (s.broker.stored ++ [_]).count _ + s.spent namespaceName worker i ≤ _
    rw [count_value_concat]
    omega
  · rintro item sequence ⟨⟩
  · rw [hknown]
    exact (h.batch i).trans (Nat.le_add_right _ _)
  · rw [hknown]
    exact (h.completions i hi).trans_le (Nat.le_add_right _ _)
  · intro i hi
    rcases List.mem_append.mp hi with hi | hi
    · exact (h.resolved i hi).imp_left fun hstored => List.mem_append_left _ hstored
    · rw [List.mem_singleton.mp hi]
      exact .inl (List.mem_append_right _ (List.mem_singleton_self _))

/-- An enqueue that fails and is not sent again: if it may be applied yet, the broker keeps it. -/
theorem enqueued_error {error : Thrown} (hphase : s.client.phase = .enqueue)
    (hretry : isQueueBackpressure error = false)
    (hfit : (s.client.onEnqueue (.error error)).outcome.Fit) :
    Accounted namespaceName worker
      (s.apply namespaceName worker (.enqueued (.error error))) := by
  have hsent : ¬IsRetried (.error error) := by simp [IsRetried, hretry]
  obtain ⟨hbound, hfresh, hsingle, -⟩ := h.enqueue_records hphase hsent
  -- The enqueue is pending or has failed for good.
  obtain ⟨pending, failed, houtcome, hbroker⟩ : ∃ pending failed : List ℕ,
      (s.apply namespaceName worker (.enqueued (.error error))).client.outcome =
        { s.client.outcome with
          ambiguousEnqueues := s.client.outcome.ambiguousEnqueues ++ pending
          failedEnqueues := s.client.outcome.failedEnqueues ++ failed } ∧
      (s.apply namespaceName worker (.enqueued (.error error))).broker =
        { s.broker with
          enqueuing := s.broker.enqueuing ++
            pending.map (pressureValue namespaceName worker .queue) } := by
    have hrecord : (s.apply namespaceName worker (.enqueued (.error error))).client.outcome =
        s.client.outcome.recordEnqueue s.client.counter (.error error) :=
      QueueClient.outcome_onEnqueue
    rw [hrecord]
    cases hopen : isAmbiguousDurableError error
    · refine ⟨[], [s.client.counter], ?_, ?_⟩
      · simp [QueueOutcome.recordEnqueue, hretry, hopen]
      · simp [QueueSystem.apply, QueueBroker.enqueue, hretry, hopen]
    · refine ⟨[s.client.counter], [], ?_, ?_⟩
      · simp [QueueOutcome.recordEnqueue, hretry, hopen]
      · simp [QueueSystem.apply, QueueBroker.enqueue, hretry, hopen]
  have hknown : ∀ i, (s.apply namespaceName worker
      (.enqueued (.error error))).client.outcome.known i =
        s.client.outcome.known i + pending.count i := by
    intro i
    rw [houtcome]
    simp only [QueueOutcome.known, List.count_append]
    omega
  have hspent : ∀ i, (s.apply namespaceName worker (.enqueued (.error error))).spent
      namespaceName worker i = s.spent namespaceName worker i + pending.count i := by
    intro i
    simp only [QueueSystem.spent, houtcome, hbroker, List.count_append,
      List.count_map_of_injective _ _ (pressureValue_injective .queue)]
    change _ + _ + s.reconciler.sequences.count i = _
    omega
  refine ⟨hfit, hbound ▸ hfresh, hsingle, ?_, fun i => ?_, fun item sequence hc => ?_, fun i => ?_,
    fun i hi => ?_, ?_, ?_, fun _ => h.working (by simp [hphase]), ?_, h.sound⟩
  · rw [hbroker]
    rintro item (hitem | hitem | hitem)
    · exact h.bodies item (.inl hitem)
    · rcases List.mem_append.mp hitem with hitem | hitem
      · exact h.bodies item (.inr (.inl hitem))
      · obtain ⟨i, -, rfl⟩ := List.mem_map.mp hitem
        exact ⟨i, rfl⟩
    · exact h.bodies item (.inr (.inr hitem))
  · rw [hspent, hknown, hbroker, ← Nat.add_assoc]
    exact Nat.add_le_add_right (h.stored i) _
  · have hheld : (s.client.onEnqueue (.error error)).phase.held? = none := by
      simp [QueueClient.onEnqueue, hretry]
    rw [show (s.client.onEnqueue (.error error)).phase.held? = some (item, sequence)
      from held_eq_some.mpr hc] at hheld
    cases hheld
  · rw [hspent, hknown, ← Nat.add_assoc]
    exact Nat.add_le_add_right (h.batch i) _
  · rw [houtcome] at hi
    rw [hknown]
    exact (h.completions i hi).trans_le (Nat.le_add_right _ _)
  · rw [hbroker, houtcome]
    exact h.completing
  · rw [hbroker, houtcome]
    exact h.resolved
  · rw [hbroker]
    exact h.emptied

/-- An answer to an enqueue. -/
theorem enqueued (answer : Except Thrown Unit) (hrun : s.reconciler.Running)
    (hphase : s.client.phase = .enqueue) (hg : s.OnceAmbiguous (.enqueued answer)) :
    Accounted namespaceName worker (s.apply namespaceName worker (.enqueued answer)) := by
  have hfit : (s.client.onEnqueue answer).outcome.Fit := by
    rw [QueueClient.outcome_onEnqueue, QueueOutcome.fit_recordEnqueue]
    exact ⟨h.fit, hg⟩
  rcases answer with error | _
  · rcases hretry : isQueueBackpressure error
    · exact h.enqueued_error hphase hretry hfit
    · -- The enqueue is sent again.
      have hsame : s.apply namespaceName worker (.enqueued (.error error)) = s := by
        simp [QueueSystem.apply, QueueClient.onEnqueue, QueueOutcome.recordEnqueue,
          QueueBroker.enqueue, hretry]
      rw [hsame]
      exact h
  · exact h.enqueued_ok hrun hphase hfit

/-- A change of the leases. -/
theorem of_leased (leased : List Body) :
    Accounted namespaceName worker { s with broker := { s.broker with leased := leased } } :=
  ⟨h.fit, h.fresh, h.single, h.bodies, h.stored, h.held, h.batch, h.completions, h.completing,
    h.resolved, h.working, h.emptied, h.sound⟩

/-- An answer to a reserve. -/
theorem reserved (answer : Except Thrown (Option Body)) (hphase : s.client.phase = .reserve)
    (hanswer : s.broker.Answers answer) :
    Accounted namespaceName worker (s.apply namespaceName worker (.reserved answer)) := by
  have hworking : s.client.phase ≠ .stopped := by simp [hphase]
  have hbound : s.client.bound = s.client.counter + 1 := by
    unfold QueueClient.bound
    rw [hphase]
  rcases answer with error | _ | item
  · by_cases hretry : isQueueBackpressure error = true
    · have hsame : s.apply namespaceName worker (.reserved (.error error)) = s := by
        simp [QueueSystem.apply, QueueClient.onReserve, hretry]
      rw [hsame]
      exact h
    · have hclient : s.client.onReserve namespaceName worker (.error error) = s.client.fail := by
        simp [QueueClient.onReserve, hretry]
      exact h.of_client ((congrArg _ hclient).trans QueueClient.outcome_fail)
        (by rw [hclient, QueueClient.bound_fail, hbound]) (by rw [hclient]; simp) hworking
  · exact h.of_client (c := s.client.succeed) rfl hbound.le rfl hworking
  · -- The item is stored, so that it can be decoded.
    obtain ⟨i, rfl, hspent⟩ := h.of_mem_stored hanswer.1
    have hclient : s.client.onReserve namespaceName worker
        (.ok (some (pressureValue namespaceName worker .queue i))) =
          { s.client with phase := .complete (pressureValue namespaceName worker .queue i) i } := by
      rw [QueueClient.onReserve, h.decode_of_known (by omega)]
    have happly : s.apply namespaceName worker
        (.reserved (.ok (some (pressureValue namespaceName worker .queue i)))) =
          { s with
            client :=
              { s.client with phase := .complete (pressureValue namespaceName worker .queue i) i }
            broker := s.broker.lease [pressureValue namespaceName worker .queue i] } := by
      rw [QueueSystem.apply, hclient]
    rw [happly]
    refine ⟨h.fit, fun j hj => h.fresh j (hbound.le.trans hj), h.single, h.bodies, h.stored, ?_,
      h.batch, h.completions, h.completing, h.resolved, fun _ => h.working hworking, h.emptied,
      h.sound⟩
    rintro item sequence ⟨⟩
    exact ⟨rfl, hspent⟩

/-- A completion that succeeds. -/
theorem completed_ok {item : Body} {sequence : ℕ}
    (hphase : s.client.phase = .complete item sequence) :
    Accounted namespaceName worker (s.apply namespaceName worker (.completed (.ok ()))) := by
  obtain ⟨rfl, hheld⟩ := h.held item sequence hphase
  have hworking : s.reconciler.batch = [] := h.working (by simp [hphase])
  have happly : s.apply namespaceName worker (.completed (.ok ())) =
      { s with
        client := s.client.onComplete sequence (.ok ())
        broker := s.broker.remove (pressureValue namespaceName worker .queue sequence) } := by
    simp only [QueueSystem.apply, held_eq_some.mpr hphase]
    rfl
  have hspent : ∀ i, (s.apply namespaceName worker (.completed (.ok ()))).spent
      namespaceName worker i =
        s.spent namespaceName worker i + if sequence = i then 1 else 0 := by
    intro i
    rw [happly]
    change s.broker.enqueuing.count _ + (s.client.outcome.completed ++ [sequence]).count i +
      s.reconciler.sequences.count i = _
    rw [count_concat, QueueSystem.spent]
    omega
  have hstored : ∀ i, (s.apply namespaceName worker (.completed (.ok ()))).broker.stored.count
      (pressureValue namespaceName worker .queue i) =
        s.broker.stored.count (pressureValue namespaceName worker .queue i) -
          if sequence = i then 1 else 0 := by
    intro i
    rw [happly]
    exact count_value_erase s.broker.stored i sequence
  have hknown : ∀ i, (s.apply namespaceName worker (.completed (.ok ()))).client.outcome.known i =
      s.client.outcome.known i := by
    intro i
    rw [happly]
    rfl
  have hbound : s.client.bound = s.client.counter + 1 := by
    unfold QueueClient.bound
    rw [hphase]
  refine ⟨?_, ?_, ?_, ?_, fun i => ?_, fun item' sequence' hc => ?_, fun i => ?_, fun i hi => ?_,
    ?_, ?_, ?_, ?_, ?_⟩
  · rw [happly]
    exact ⟨h.fit.safe, h.fit.once⟩
  · rw [happly]
    exact fun i hi => h.fresh i (hbound.le.trans hi)
  · rw [happly]
    exact h.single
  · rw [happly]
    exact fun item hitem => h.bodies item (hitem.imp_left List.mem_of_mem_erase)
  · -- The item of the sequence was not spent before, so that it is not stored any more.
    have hs := h.stored i
    have hone := h.known_le_one i
    rw [hspent, hstored, hknown]
    by_cases hi : sequence = i
    · subst hi
      simp only [if_true]
      omega
    · simp only [hi, if_false]
      omega
  · rw [happly] at hc
    cases hc
  · have hbatch : (s.apply namespaceName worker (.completed (.ok ()))).reconciler.batch = [] := by
      rw [happly]
      exact hworking
    have hb := h.batch i
    rw [hspent, hknown, hbatch, List.count_nil]
    by_cases hi : sequence = i
    · subst hi
      simp only [if_true]
      omega
    · simp only [hi, if_false]
      omega
  · rw [hknown]
    rw [happly] at hi
    exact h.completions i hi
  · rw [happly]
    exact h.completing
  · rw [happly]
    intro i hi
    by_cases hseq : sequence = i
    · exact .inr (.inl (hseq ▸ List.mem_append_right _ (List.mem_singleton_self _)))
    · rcases h.resolved i hi with hr | hr | hr
      · refine .inl ((List.mem_erase_of_ne fun heq => hseq ?_).mpr hr)
        exact (pressureValue_injective .queue heq).symm
      · exact .inr (.inl (List.mem_append_left _ hr))
      · exact .inr (.inr hr)
  · rw [happly]
    exact fun _ => hworking
  · rw [happly]
    intro hempty
    have hnil := h.emptied hempty
    change s.broker.stored.erase _ = []
    rw [hnil]
    rfl
  · rw [happly]
    exact h.sound

/-- A completion that fails. -/
theorem completed_error {item : Body} {sequence : ℕ} {error : Thrown}
    (hphase : s.client.phase = .complete item sequence)
    (hfit : (s.client.onComplete sequence (.error error)).outcome.Fit) :
    Accounted namespaceName worker
      (s.apply namespaceName worker (.completed (.error error))) := by
  obtain ⟨rfl, hheld⟩ := h.held item sequence hphase
  have happly : s.apply namespaceName worker (.completed (.error error)) =
      { s with
        client := s.client.onComplete sequence (.error error)
        broker := s.broker.complete (pressureValue namespaceName worker .queue sequence)
          (.error error) } := by
    simp only [QueueSystem.apply, held_eq_some.mpr hphase]
  have hbound : s.client.bound = s.client.counter + 1 := by
    unfold QueueClient.bound
    rw [hphase]
  by_cases hopen : isAmbiguousDurableError error = true
  · have houtcome : (s.client.onComplete sequence (.error error)).outcome =
        { s.client.outcome with
          ambiguousCompletions := s.client.outcome.ambiguousCompletions ++ [sequence] } := by
      rw [QueueClient.outcome_onComplete]
      simp [QueueOutcome.recordComplete, hopen]
    have hbroker : s.broker.complete (pressureValue namespaceName worker .queue sequence)
        (.error error) = { s.broker with completing := s.broker.completing ++
          [pressureValue namespaceName worker .queue sequence] } := by
      simp [QueueBroker.complete, hopen]
    have hphase' : (s.client.onComplete sequence (.error error)).phase.held? = none :=
      QueueClient.held_fail
    have hbound' : (s.client.onComplete sequence (.error error)).bound = s.client.counter + 1 :=
      QueueClient.bound_fail
    rw [happly, hbroker]
    refine ⟨hfit, fun i hi => ?_, ?_, ?_, ?_, fun item' sequence' hc => ?_, ?_, ?_, ?_, ?_,
      fun _ => h.working (by simp [hphase]), h.emptied, h.sound⟩
    all_goals simp only [QueueSystem.spent, houtcome]
    · have hle : (s.client.onComplete sequence (.error error)).bound ≤ i := hi
      exact h.fresh i (by omega)
    · exact h.single
    · rintro item (hitem | hitem | hitem | hitem)
      · exact h.bodies item (.inl hitem)
      · exact h.bodies item (.inr (.inl hitem))
      · rcases List.mem_append.mp hitem with hitem | hitem
        · exact h.bodies item (.inr (.inr (.inl hitem)))
        · exact ⟨_, List.mem_singleton.mp hitem⟩
      · exact h.bodies item (.inr (.inr (.inr hitem)))
    · exact h.stored
    · rw [held_eq_some.mpr hc] at hphase'
      cases hphase'
    · exact h.batch
    · intro i hi
      rcases List.mem_append.mp hi with hi | hi
      · exact h.completions i hi
      · rw [List.mem_singleton.mp hi]
        exact (Nat.lt_add_right _ Nat.one_pos).trans_le hheld
    · intro i hi
      rcases List.mem_append.mp hi with hi | hi
      · exact List.mem_append_left _ (h.completing i hi)
      · have heq := pressureValue_injective .queue (List.mem_singleton.mp hi)
        exact heq ▸ List.mem_append_right _ (List.mem_singleton_self _)
    · intro i hi
      exact (h.resolved i hi).imp_right fun hr => hr.imp_right fun hr => hr.imp_right
        fun hr => List.mem_append_left _ hr
  · have hclient : s.client.onComplete sequence (.error error) = s.client.fail := by
      simp [QueueClient.onComplete, QueueOutcome.recordComplete, hopen]
    have hbroker : s.broker.complete (pressureValue namespaceName worker .queue sequence)
        (.error error) = s.broker := by
      simp [QueueBroker.complete, hopen]
    rw [happly, hclient, hbroker]
    exact h.of_client QueueClient.outcome_fail (by rw [QueueClient.bound_fail, hbound])
      QueueClient.held_fail (by simp [hphase])

/-- An answer to a completion. -/
theorem completed (answer : Except Thrown Unit) (hheld : s.client.phase.held? ≠ none)
    (hg : s.OnceAmbiguous (.completed answer)) :
    Accounted namespaceName worker (s.apply namespaceName worker (.completed answer)) := by
  obtain ⟨⟨item, sequence⟩, hsome⟩ := Option.ne_none_iff_exists'.mp hheld
  have hphase := held_eq_some.mp hsome
  rcases answer with error | _
  · refine h.completed_error hphase ?_
    rw [QueueClient.outcome_onComplete, QueueOutcome.fit_recordComplete]
    exact ⟨h.fit, fun ho => hg ho _ hsome⟩
  · exact h.completed_ok hphase

/-- An enqueue that failed ambiguously is stored. -/
theorem storeLate {item : Body} (hrun : s.reconciler.Running)
    (hitem : item ∈ s.broker.enqueuing) :
    Accounted namespaceName worker (s.apply namespaceName worker (.storeLate item)) := by
  obtain ⟨j, rfl⟩ := h.bodies item (.inr (.inl hitem))
  have hpos := List.count_pos_iff.mpr hitem
  have hspent : ∀ i, (s.apply namespaceName worker (.storeLate
      (pressureValue namespaceName worker .queue j))).spent namespaceName worker i =
        s.spent namespaceName worker i - if j = i then 1 else 0 := by
    intro i
    change (s.broker.enqueuing.erase _).count _ + s.client.outcome.completed.count i +
      s.reconciler.sequences.count i = _
    rw [count_value_erase, QueueSystem.spent]
    by_cases hi : j = i
    · subst hi
      simp only [if_true]
      omega
    · simp only [hi, if_false]
      omega
  have hle : ∀ i, (s.apply namespaceName worker (.storeLate
      (pressureValue namespaceName worker .queue j))).spent namespaceName worker i ≤
        s.spent namespaceName worker i := fun i => (hspent i).trans_le (Nat.sub_le _ _)
  refine ⟨h.fit, h.fresh, h.single, ?_, fun i => ?_, fun item sequence hc => ?_, fun i => ?_,
    h.completions, h.completing, fun i hi => ?_, h.working,
    fun hempty => absurd hrun.1 (not_lt.mpr hempty), h.sound⟩
  · rintro item (hstored | henqueuing | hrest)
    · rcases List.mem_append.mp hstored with hstored | hnew
      · exact h.bodies item (.inl hstored)
      · exact ⟨_, List.mem_singleton.mp hnew⟩
    · exact h.bodies item (.inr (.inl (List.mem_of_mem_erase henqueuing)))
    · exact h.bodies item (.inr (.inr hrest))
  · have hs := h.stored i
    have hmem : 1 ≤ s.spent namespaceName worker j := by
      unfold QueueSystem.spent
      omega
    rw [hspent]
    change (s.broker.stored ++ [_]).count _ + _ ≤ s.client.outcome.known i
    rw [count_value_concat]
    by_cases hi : j = i
    · subst hi
      simp only [if_true]
      omega
    · simp only [hi, if_false]
      omega
  · obtain ⟨heq, hheld⟩ := h.held item sequence hc
    exact ⟨heq, (Nat.add_le_add_left (hle sequence) 1).trans hheld⟩
  · exact (Nat.add_le_add_left (hle i) _).trans (h.batch i)
  · exact (h.resolved i hi).imp_left fun hstored => List.mem_append_left _ hstored

/-- A completion that failed ambiguously is applied. -/
theorem completeLate {item : Body} (hitem : item ∈ s.broker.completing) :
    Accounted namespaceName worker (s.apply namespaceName worker (.completeLate item)) := by
  obtain ⟨j, rfl⟩ := h.bodies item (.inr (.inr (.inl hitem)))
  have hambiguous := h.completing j hitem
  refine ⟨h.fit, h.fresh, h.single, ?_, fun i => ?_, h.held, h.batch, h.completions,
    fun i hi => h.completing i (List.mem_of_mem_erase hi), fun i hi => ?_, h.working,
    fun hempty => ?_, h.sound⟩
  · rintro item (hstored | henqueuing | hcompleting | hbatch)
    · exact h.bodies item (.inl (List.mem_of_mem_erase hstored))
    · exact h.bodies item (.inr (.inl henqueuing))
    · exact h.bodies item (.inr (.inr (.inl (List.mem_of_mem_erase hcompleting))))
    · exact h.bodies item (.inr (.inr (.inr hbatch)))
  · have hs := h.stored i
    change (s.broker.stored.erase _).count _ + s.spent namespaceName worker i ≤ _
    rw [count_value_erase]
    exact (Nat.add_le_add_right (Nat.sub_le _ _) _).trans hs
  · by_cases hseq : i = j
    · exact .inr (.inr (.inr (hseq ▸ hambiguous)))
    · refine (h.resolved i hi).imp_left fun hstored => ?_
      exact (List.mem_erase_of_ne fun heq => hseq (pressureValue_injective .queue heq)).mpr hstored
  · have hnil := h.emptied hempty
    change s.broker.stored.erase _ = []
    rw [hnil]
    rfl

/-- A reserve of the reconciler. -/
theorem polled {items : List Body} (hrun : s.reconciler.Running)
    (hallows : s.Allows (.polled items)) :
    Accounted namespaceName worker (s.apply namespaceName worker (.polled items)) := by
  obtain ⟨hphase, hbatch, -, hnodup, hoffers, hempty⟩ := hallows
  by_cases hitems : items = []
  · have hreconciler : s.reconciler.onReserve items =
        { s.reconciler with emptyPolls := s.reconciler.emptyPolls + 1 } := if_pos hitems
    have happly : s.apply namespaceName worker (.polled items) =
        { s with
          reconciler := { s.reconciler with emptyPolls := s.reconciler.emptyPolls + 1 }
          broker := s.broker.lease items } := by
      rw [QueueSystem.apply, hreconciler]
    rw [happly]
    refine ⟨h.fit, h.fresh, h.single, h.bodies, h.stored, h.held, h.batch, h.completions,
      h.completing, h.resolved, h.working, fun hpolls => ?_, h.sound⟩
    have hlt := hrun.1
    change 3 ≤ s.reconciler.emptyPolls + 1 at hpolls
    exact hempty hitems (by omega)
  · have hreconciler : s.reconciler.onReserve items =
        { s.reconciler with emptyPolls := 0, batch := items } := if_neg hitems
    have happly : s.apply namespaceName worker (.polled items) =
        { s with
          reconciler := { s.reconciler with emptyPolls := 0, batch := items }
          broker := s.broker.lease items } := by
      rw [QueueSystem.apply, hreconciler]
    rw [happly]
    refine ⟨h.fit, h.fresh, h.single, ?_, h.stored, h.held, fun i => ?_, h.completions,
      h.completing, h.resolved, fun hne => absurd hphase hne, fun hpolls => ?_, h.sound⟩
    · rintro item (hstored | henqueuing | hcompleting | hitem)
      · exact h.bodies item (.inl hstored)
      · exact h.bodies item (.inr (.inl henqueuing))
      · exact h.bodies item (.inr (.inr (.inl hcompleting)))
      · exact h.bodies item (.inl (hoffers item hitem).1)
    · have hcount := count_le_of_subset hnodup (fun item hitem => (hoffers item hitem).1)
        (pressureValue namespaceName worker .queue i)
      exact (Nat.add_le_add_right hcount _).trans (h.stored i)
    · exact absurd hpolls (by simp)

/-- The reconciler completes an item. -/
theorem drained (hbatch : s.reconciler.batch ≠ []) :
    Accounted namespaceName worker (s.apply namespaceName worker .drained) := by
  obtain ⟨item, items, hcons⟩ := List.exists_cons_of_ne_nil hbatch
  obtain ⟨j, rfl⟩ := h.bodies item (.inr (.inr (.inr (by simp [hcons]))))
  have hphase : s.client.phase = .stopped := by
    by_contra hne
    exact hbatch (h.working hne)
  have hj := h.batch j
  rw [hcons, List.count_cons_self] at hj
  have hone := h.known_le_one j
  have hseen : j ∉ s.reconciler.sequences := by
    rw [← List.count_eq_zero]
    unfold QueueSystem.spent at hj
    omega
  have hreconciler : s.reconciler.onItem namespaceName worker =
      { s.reconciler with batch := items, sequences := s.reconciler.sequences ++ [j] } := by
    unfold Reconciler.onItem
    rw [hcons]
    dsimp only
    rw [h.decode_of_known (by omega)]
    exact if_neg hseen
  have happly : s.apply namespaceName worker .drained =
      { s with
        reconciler :=
          { s.reconciler with batch := items, sequences := s.reconciler.sequences ++ [j] }
        broker := s.broker.remove (pressureValue namespaceName worker .queue j) } := by
    rw [QueueSystem.apply, hreconciler, hcons]
    simp only [h.sound, if_true]
  have hspent : ∀ i, (s.apply namespaceName worker .drained).spent namespaceName worker i =
      s.spent namespaceName worker i + if j = i then 1 else 0 := by
    intro i
    rw [happly]
    change _ + _ + (s.reconciler.sequences ++ [j]).count i = _
    rw [count_concat, ← Nat.add_assoc]
    rfl
  refine ⟨?_, ?_, ?_, ?_, fun i => ?_, fun item' sequence' hc => ?_, fun i => ?_, ?_, ?_, ?_, ?_,
    ?_, ?_⟩
  · rw [happly]
    exact h.fit
  · rw [happly]
    exact h.fresh
  · rw [happly]
    exact h.single
  · rw [happly]
    rintro item (hstored | henqueuing | hcompleting | hitem)
    · exact h.bodies item (.inl (List.mem_of_mem_erase hstored))
    · exact h.bodies item (.inr (.inl henqueuing))
    · exact h.bodies item (.inr (.inr (.inl hcompleting)))
    · exact h.bodies item (.inr (.inr (.inr (hcons ▸ List.mem_cons_of_mem _ hitem))))
  · have hs := h.stored i
    have hone' := h.known_le_one i
    rw [hspent, happly]
    change (s.broker.stored.erase _).count _ + _ ≤ s.client.outcome.known i
    rw [count_value_erase]
    by_cases hi : j = i
    · subst hi
      simp only [if_true]
      omega
    · simp only [hi, if_false]
      omega
  · rw [happly] at hc
    rw [hphase] at hc
    cases hc
  · have hb := h.batch i
    rw [hcons, List.count_cons] at hb
    simp only [beq_iff_eq, (pressureValue_injective .queue).eq_iff] at hb
    rw [hspent, happly]
    change items.count _ + _ ≤ s.client.outcome.known i
    omega
  · rw [happly]
    exact h.completions
  · rw [happly]
    exact h.completing
  · rw [happly]
    intro i hi
    by_cases hseq : i = j
    · exact .inr (.inr (.inl (hseq ▸ List.mem_append_right _ (List.mem_singleton_self _))))
    · rcases h.resolved i hi with hr | hr | hr | hr
      · refine .inl ((List.mem_erase_of_ne fun heq => hseq ?_).mpr hr)
        exact pressureValue_injective .queue heq
      · exact .inr (.inl hr)
      · exact .inr (.inr (.inl (List.mem_append_left _ hr)))
      · exact .inr (.inr (.inr hr))
  · rw [happly]
    exact fun hne => absurd hphase hne
  · rw [happly]
    intro hempty
    have hnil := h.emptied hempty
    change s.broker.stored.erase _ = []
    rw [hnil]
    rfl
  · rw [happly]
    exact h.sound

/-- Every item stays accounted for, whatever happens next. -/
theorem apply (hrun : s.reconciler.Running) (hallows : s.Allows e) (hg : s.OnceAmbiguous e) :
    Accounted namespaceName worker (s.apply namespaceName worker e) := by
  cases e with
  | shutdown => exact h.shutdown
  | loop => exact h.loop hallows
  | enqueued answer => exact h.enqueued answer hrun hallows hg
  | reserved answer => exact h.reserved answer hallows.1 hallows.2
  | completed answer => exact h.completed answer hallows hg
  | leaseLate item => exact h.of_leased _
  | leaseExpired item => exact h.of_leased _
  | storeLate item => exact h.storeLate hrun hallows
  | completeLate item => exact h.completeLate hallows
  | polled items => exact h.polled hrun hallows
  | drained => exact h.drained hallows

end Accounted

/-- **Every item is accounted for** in a run whose events meet the condition. -/
theorem accounted_of_guarded {es : List QueueEvent}
    (hg : (queueSystem namespaceName worker).Guarded QueueSystem.OnceAmbiguous .start es)
    (hr : (queueSystem namespaceName worker).run .start es = some s) :
    Accounted namespaceName worker s := by
  refine EventSys.invariant_of_guarded (fun s e s' h hge hstep => ?_) Accounted.start hg hr
  obtain ⟨⟨hrun, hallows⟩, rfl⟩ := queueSystem_step_eq_some.mp hstep
  exact h.apply hrun hallows hge

end System

/-! ### The verdict of the host -/

theorem mem_numbers {sequences : List ℕ} {i : ℕ} :
    (i : Number) ∈ numbers sequences ↔ i ∈ sequences :=
  List.mem_map_of_injective Number.natCast_injective

theorem isSequenceSet_numbers {sequences : List ℕ} :
    IsSequenceSet (numbers sequences) ↔
      sequences.Nodup ∧ ∀ i ∈ sequences, i ≤ maxSafeInteger := by
  rw [IsSequenceSet, numbers, List.nodup_map_iff Number.natCast_injective, List.forall_mem_map]
  simp only [Number.isSequence_natCast]

theorem disjoint_numbers {l l' : List ℕ} (h : ∀ i ∈ l, i ∉ l') :
    (numbers l).Disjoint (numbers l') := by
  intro x hx hx'
  obtain ⟨i, hi, rfl⟩ := List.mem_map.mp hx
  exact h i hi (mem_numbers.mp hx')

theorem numbers_subset_append {l l₁ l₂ : List ℕ} (h : ∀ i ∈ l, i ∈ l₁ ∨ i ∈ l₂) :
    numbers l ⊆ numbers l₁ ++ numbers l₂ := by
  intro x hx
  obtain ⟨i, hi, rfl⟩ := List.mem_map.mp hx
  rw [List.mem_append, mem_numbers, mem_numbers]
  exact h i hi

/-- The value of a key that occurs once. -/
theorem lookup_of_mem {α β : Type*} [BEq α] [LawfulBEq α] {l : List (α × β)} {a : α} {b : β}
    (h : (l.map Prod.fst).Nodup) (hmem : (a, b) ∈ l) : l.lookup a = some b := by
  induction l with
  | nil => cases hmem
  | cons p l ih =>
    obtain ⟨hp, hl⟩ := List.nodup_cons.mp h
    rcases List.mem_cons.mp hmem with rfl | hmem
    · rw [List.lookup_cons_self]
    · have hne : a ≠ p.1 := fun heq => hp (heq ▸ List.mem_map_of_mem hmem)
      rw [List.lookup_cons, beq_false_of_ne hne]
      exact ih hl hmem

namespace QueueFleet

variable {n : ℕ} (p : QueueFleet n) {s : Fin n → QueueSystem}

theorem mem_workers_observed {worker : String} : worker ∈ (p.observed s).workers ↔
    worker ∈ (List.ofFn (p.outcome s)).map QueueClientOutcome.worker := by
  rw [ObservedByWorker.mem_workers, observed, List.map_ofFn, List.map_ofFn]
  rfl

theorem observed_of (i : Fin n) : (p.observed s).of (p.workers i).text =
    numbers ((s i).reconciler.sequences.mergeSort (· ≤ ·)) := by
  have hmem : ((p.workers i).text, numbers ((s i).reconciler.sequences.mergeSort (· ≤ ·))) ∈
      p.observed s := List.mem_ofFn.mpr ⟨i, rfl⟩
  have hnodup : ((p.observed s).map Prod.fst).Nodup := by
    rw [observed, List.map_ofFn, List.nodup_ofFn]
    exact p.distinct
  rw [ObservedByWorker.of, lookup_of_mem hnodup hmem, Option.getD_some]

/-- A queue that is drained and accounted for is consistent with the outcome of its worker. -/
theorem consistent (i : Fin n)
    (h : Accounted p.namespaceName (p.workers i) (s i)) (hended : (s i).Ended) :
    Consistent (p.outcome s i) ((p.observed s).of (p.workers i).text) := by
  have hempty : (s i).broker.stored = [] := by
    refine h.emptied ?_
    by_contra hlt
    exact hended ⟨not_le.mp hlt, h.sound⟩
  have hperm := List.mergeSort_perm (s i).reconciler.sequences (· ≤ ·)
  have hknown : ∀ j, 0 < (s i).client.outcome.known j →
      j ∈ (s i).client.outcome.acknowledged ∨ j ∈ (s i).client.outcome.ambiguousEnqueues := by
    intro j hj
    rw [← List.count_pos_iff, ← List.count_pos_iff (l := (s i).client.outcome.ambiguousEnqueues)]
    unfold QueueOutcome.known at hj
    omega
  -- A sequence is in at most one of the lists of enqueues, and in at most one of the others.
  have henqueued : ∀ j, (s i).client.outcome.acknowledged.count j +
      (s i).client.outcome.ambiguousEnqueues.count j +
      (s i).client.outcome.failedEnqueues.count j ≤ 1 := h.single
  have hspent : ∀ j, (s i).client.outcome.completed.count j +
      (s i).reconciler.sequences.count j ≤ (s i).client.outcome.known j := by
    intro j
    have := h.stored j
    unfold QueueSystem.spent at this
    omega
  have hset : ∀ l : List ℕ, (∀ j, l.count j ≤ (s i).client.outcome.enqueued j) →
      IsSequenceSet (numbers l) := by
    intro l hl
    rw [isSequenceSet_numbers, List.nodup_iff_count_le_one]
    exact ⟨fun j => (hl j).trans (h.single j), fun j hj => h.fit.safe j
      ((List.count_pos_iff.mpr hj).trans_le (hl j))⟩
  have hdisjoint : ∀ l l' : List ℕ, (∀ j, l.count j + l'.count j ≤ 1) →
      (numbers l).Disjoint (numbers l') := by
    intro l l' hl
    refine disjoint_numbers fun j hj hj' => ?_
    have := hl j
    have := List.count_pos_iff.mpr hj
    have := List.count_pos_iff.mpr hj'
    omega
  rw [observed_of]
  refine ⟨hset _ fun j => ?_, hset _ fun j => ?_, hset _ fun j => ?_, hset _ fun j => ?_, ?_,
    hset _ fun j => ?_, hdisjoint _ _ fun j => ?_, hdisjoint _ _ fun j => ?_,
    hdisjoint _ _ fun j => ?_, numbers_subset_append fun j hj => ?_,
    numbers_subset_append fun j hj => ?_, numbers_subset_append fun j hj => ?_,
    hdisjoint _ _ fun j => ?_, ?_⟩
  · unfold QueueOutcome.enqueued QueueOutcome.known
    omega
  · unfold QueueOutcome.enqueued QueueOutcome.known
    omega
  · unfold QueueOutcome.enqueued
    omega
  · have := hspent j
    unfold QueueOutcome.enqueued
    omega
  · exact isSequenceSet_numbers.mpr ⟨h.fit.once, fun j hj => h.safe_of_known (h.completions j hj)⟩
  · have := hspent j
    rw [hperm.count_eq]
    unfold QueueOutcome.enqueued
    omega
  · have := henqueued j
    omega
  · have := henqueued j
    omega
  · have := henqueued j
    omega
  · have hpos := List.count_pos_iff.mpr hj
    have := hspent j
    exact hknown j (by omega)
  · exact hknown j (h.completions j hj)
  · have hpos := List.count_pos_iff.mpr (hperm.mem_iff.mp hj)
    have := hspent j
    exact hknown j (by omega)
  · have := hspent j
    have := h.known_le_one j
    rw [hperm.count_eq]
    omega
  · -- The queue is empty, so that an acknowledged item has been completed or observed.
    intro x hx
    obtain ⟨j, hj, rfl⟩ := List.mem_map.mp hx
    have hresolved := h.resolved j hj
    rw [hempty] at hresolved
    rcases hresolved with hr | hr | hr | hr
    · cases hr
    · exact .inl (mem_numbers.mpr hr)
    · exact .inr (.inl (mem_numbers.mpr (hperm.mem_iff.mpr hr)))
    · exact .inr (.inr (mem_numbers.mpr hr))

/-- The outcome of a worker that is consistent with what was observed is fit. -/
theorem fit_of_consistent {i : Fin n} {observed : List Number}
    (h : Consistent (p.outcome s i) observed) : (s i).client.outcome.Fit := by
  have hack := isSequenceSet_numbers.mp h.acknowledged_set
  have hamb := isSequenceSet_numbers.mp h.ambiguous_set
  have hfailed := isSequenceSet_numbers.mp h.failed_set
  refine ⟨fun j hj => ?_, (isSequenceSet_numbers.mp h.ambiguousCompletions_set).1⟩
  unfold QueueOutcome.enqueued QueueOutcome.known at hj
  by_cases h₁ : j ∈ (s i).client.outcome.acknowledged
  · exact hack.2 j h₁
  by_cases h₂ : j ∈ (s i).client.outcome.ambiguousEnqueues
  · exact hamb.2 j h₂
  · refine hfailed.2 j (List.count_pos_iff.mp ?_)
    rw [List.count_eq_zero.mpr h₁, List.count_eq_zero.mpr h₂] at hj
    omega

/-- **The verdict raises no false alarm** iff in the run of every worker no completion of an item
fails ambiguously that did so before. -/
theorem accepted_iff {es : List (Fin n × QueueEvent)}
    (hr : p.system.run (fun _ => .start) es = some s) (hended : ∀ i, (s i).Ended) :
    p.Accepted s ↔ ∀ i, (queueSystem p.namespaceName (p.workers i)).Guarded
      QueueSystem.OnceAmbiguous .start (EventSys.eventsOf i es) := by
  have hrun : ∀ i, (queueSystem p.namespaceName (p.workers i)).run .start
      (EventSys.eventsOf i es) = some (s i) := fun i => EventSys.run_pi hr i
  constructor
  · rintro ⟨-, hpasses⟩ i
    rw [passes_reconcileQueueOutcomes] at hpasses
    have hconsistent := hpasses.1 (p.outcome s i) (List.mem_ofFn.mpr ⟨i, rfl⟩)
    exact (fit_iff_guarded (hrun i)).mp (p.fit_of_consistent hconsistent.2)
  · intro hg
    have haccounted := fun i => accounted_of_guarded (hg i) (hrun i)
    refine ⟨fun i => (haccounted i).sound, passes_reconcileQueueOutcomes.mpr ⟨?_, ?_⟩⟩
    · intro o ho
      obtain ⟨i, rfl⟩ := List.mem_ofFn.mp ho
      refine ⟨.inl ?_, p.consistent i (haccounted i) (hended i)⟩
      exact p.mem_workers_observed.mpr (List.mem_map_of_mem ho)
    · exact fun w hw => p.mem_workers_observed.mp hw

end QueueFleet

/-! ### Runs of one worker -/

theorem chars_run : ∀ c ∈ "run".toList, c.isDigit = true ∨ c.isLower = true ∨ c = '-' := by
  decide

/-- A pressure run with one worker. -/
def oneWorker : QueueFleet 1 where
  namespaceName := ⟨"run", chars_run⟩
  workers := fun _ => ⟨"worker", by decide⟩
  distinct := fun i j _ => Fin.ext (by omega)

/-- The value of an operation of the worker. -/
def oneWorkerValue (counter : ℕ) : Body :=
  pressureValue oneWorker.namespaceName (oneWorker.workers 0) .queue counter

/-- A request that times out. -/
def timedOut : Except Thrown Unit := .error (.error "TimeoutError" "timed out" none)

/-- The worker completes an item, and a completion times out. -/
def timedOutOnce : List QueueEvent :=
  [.loop, .enqueued (.ok ()), .reserved (.ok (some (oneWorkerValue 0))), .completed (.ok ()),
    .loop, .enqueued (.ok ()), .reserved (.ok (some (oneWorkerValue 1))), .completed timedOut,
    .shutdown, .loop, .leaseExpired (oneWorkerValue 1), .polled [oneWorkerValue 1], .drained,
    .polled [], .polled [], .polled []]

/-- The completion of an item times out, and so does its completion when it is redelivered. -/
def timedOutTwice : List QueueEvent :=
  [.loop, .enqueued (.ok ()), .reserved (.ok (some (oneWorkerValue 0))), .completed timedOut,
    .leaseExpired (oneWorkerValue 0),
    .loop, .enqueued (.ok ()), .reserved (.ok (some (oneWorkerValue 0))), .completed timedOut,
    .shutdown, .loop, .leaseExpired (oneWorkerValue 0),
    .polled [oneWorkerValue 0, oneWorkerValue 1], .drained, .drained,
    .polled [], .polled [], .polled []]

theorem accepted_iff_once : ∃ s, oneWorker.system.run (fun _ => .start)
    (timedOutOnce.map (Prod.mk 0)) = some s ∧ oneWorker.Accepted s := by
  have hrun : (oneWorker.system.run (fun _ => .start) (timedOutOnce.map (Prod.mk 0))).map
      (fun s => (s 0).reconciler.emptyPolls) = some 3 := by decide +kernel
  obtain ⟨s, hs, hpolls⟩ := Option.map_eq_some_iff.mp hrun
  refine ⟨s, hs, (oneWorker.accepted_iff hs fun i => ?_).mpr fun i => ?_⟩
  · obtain rfl := Subsingleton.elim i 0
    exact fun hrunning => absurd hrunning.1 (by rw [hpolls]; exact lt_irrefl 3)
  · obtain rfl := Subsingleton.elim i 0
    decide +kernel

/-- **A completion that times out twice** makes the host reject the outcome of a worker whose
broker lost nothing. -/
theorem not_accepted_twice : ∃ s, oneWorker.system.run (fun _ => .start)
    (timedOutTwice.map (Prod.mk 0)) = some s ∧ (∀ i, (s i).Ended) ∧ ¬oneWorker.Accepted s := by
  have hrun : (oneWorker.system.run (fun _ => .start) (timedOutTwice.map (Prod.mk 0))).map
      (fun s => ((s 0).reconciler.emptyPolls, (s 0).client.outcome.ambiguousCompletions)) =
        some (3, [0, 0]) := by decide +kernel
  obtain ⟨s, hs, hfacts⟩ := Option.map_eq_some_iff.mp hrun
  obtain ⟨hpolls, hcompletions⟩ := Prod.mk.inj hfacts
  refine ⟨s, hs, fun i => ?_, fun haccepted => ?_⟩
  · obtain rfl := Subsingleton.elim i 0
    exact fun hrunning => absurd hrunning.1 (by rw [hpolls]; exact lt_irrefl 3)
  · have hconsistent := (passes_reconcileQueueOutcomes.mp haccepted.2).1 _
      (List.mem_ofFn.mpr ⟨0, rfl⟩)
    have honce := (oneWorker.fit_of_consistent hconsistent.2).once
    rw [hcompletions] at honce
    exact absurd honce (by decide)

end Pressure

end FitzDestroyer
