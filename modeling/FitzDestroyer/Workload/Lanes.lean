import FitzDestroyer.Run.Basic
import Mathlib.Data.List.Nodup
import Mathlib.Data.List.Perm.Subperm
import Mathlib.Data.List.Range

/-!
# Concurrent lanes

A workload runs its operations in lanes that share one counter (`runConcurrent` in
`workloads/live.ts`; the other workloads keep a copy of it).  A lane takes the next sequence and
awaits the operation before it takes another.  Between two awaits a lane is not interrupted, so an
event is the call of a lane, an operation that settles, a lane that resumes, or the abort.

* `Lanes.runConcurrent` : the lanes as an event system;
* `Lanes.Invariant` : what relates the counter, the operations and the lanes;
* `Lanes.inFlight_le`, `Lanes.progress`, `Lanes.length_le` : the bound on the operations in flight,
  no run is stuck, every run is finite;
* `Lanes.runs_once` : every sequence is run once.
-/

namespace FitzDestroyer

namespace Workload

namespace Lanes

/-- A lane that has been called. -/
inductive Lane where
  /-- It awaits its operation. -/
  | awaiting (sequence : ℕ)
  | done
  | failed
  deriving DecidableEq

/-- The lanes, and the operations they have run. -/
structure State where
  next : ℕ
  /-- The lanes that have been called, in the order of the calls. -/
  lanes : List Lane
  aborted : Bool
  /-- The sequences of the operations, in the order of the invocations. -/
  invoked : List ℕ
  /-- Whether the operation of a sequence was fulfilled or rejected, once it has settled. -/
  outcome : ℕ → Option Bool

inductive Event where
  /-- `Array.from` calls the next lane. -/
  | call
  /-- The operation of a sequence is fulfilled or rejected. -/
  | settle (sequence : ℕ) (fulfilled : Bool)
  /-- A lane resumes after its operation has settled. -/
  | resume (lane : ℕ)
  | abort
  deriving DecidableEq

def init : State := ⟨0, [], false, [], fun _ => none⟩

/-- The operations that have not settled. -/
def State.inFlight (s : State) : List ℕ :=
  s.invoked.filter fun sequence => s.outcome sequence = none

section

variable (operations concurrency : ℕ)

/-- A lane at the head of its loop, up to its next `await` or to its end. -/
def loop (s : State) : State × Lane :=
  if s.next < operations then
    if s.aborted then (s, .failed)
    else ({ s with next := s.next + 1, invoked := s.invoked ++ [s.next] }, .awaiting s.next)
  else (s, .done)

/-- How many lanes there are. -/
def width : ℕ := min operations concurrency

def step (s : State) : Event → Option State
  | .call =>
    if s.lanes.length < width operations concurrency then
      let (t, lane) := loop operations s
      some { t with lanes := t.lanes ++ [lane] }
    else none
  | .settle sequence fulfilled =>
    if sequence ∈ s.invoked ∧ s.outcome sequence = none then
      some { s with outcome := Function.update s.outcome sequence (some fulfilled) }
    else none
  | .resume i =>
    -- The lanes resume once all of them have been called.
    if s.lanes.length = width operations concurrency then
      match s.lanes[i]? with
      | some (.awaiting sequence) =>
        match s.outcome sequence with
        | none => none
        | some false => some { s with lanes := s.lanes.set i .failed }
        | some true =>
          let (t, lane) := loop operations s
          some { t with lanes := t.lanes.set i lane }
      | _ => none
    else none
  | .abort => some { s with aborted := true }

def runConcurrent : EventSys State Event := ⟨step operations concurrency⟩

/-- `Promise.all` resolves: every lane is done. -/
def Resolved (s : State) : Prop :=
  s.lanes.length = width operations concurrency ∧ ∀ lane ∈ s.lanes, lane = .done

instance (s : State) : Decidable (Resolved operations concurrency s) :=
  inferInstanceAs (Decidable (_ ∧ _))

end

/-- Neither a rejection nor the abort. -/
def Event.Peaceful : Event → Prop
  | .settle _ fulfilled => fulfilled = true
  | .abort => False
  | _ => True

/-- The lane awaits an operation. -/
def Lane.isAwaiting : Lane → Bool
  | .awaiting _ => true
  | _ => false

/-! ### What a step does -/

section

variable {operations concurrency : ℕ} {s t : State}

/-- What a lane does at the head of its loop: it ends, or it takes the next sequence. -/
theorem loop_cases (operations : ℕ) (s : State) :
    (∃ lane, loop operations s = (s, lane) ∧
      (lane = .done ∧ operations ≤ s.next ∨ lane = .failed ∧ s.aborted = true)) ∨
    s.next < operations ∧ loop operations s =
      ({ s with next := s.next + 1, invoked := s.invoked ++ [s.next] }, .awaiting s.next) := by
  unfold loop
  split_ifs with hnext haborted
  · exact .inl ⟨_, rfl, .inr ⟨rfl, haborted⟩⟩
  · exact .inr ⟨hnext, rfl⟩
  · exact .inl ⟨_, rfl, .inl ⟨rfl, not_lt.mp hnext⟩⟩

theorem outcome_loop (operations : ℕ) (s : State) :
    (loop operations s).1.outcome = s.outcome := by
  rcases loop_cases operations s with ⟨lane, hloop, -⟩ | ⟨-, hloop⟩ <;> rw [hloop]

variable (operations concurrency s) in
/-- A lane that runs its loop gets a place among the lanes: it is called, or it replaces the lane
that awaited a fulfilled operation. -/
structure Place (place : Lane → List Lane) : Prop where
  length_le : ∀ lane, (place lane).length ≤ width operations concurrency
  mem : ∀ lane, lane ∈ place lane
  keeps : ∀ lane sequence, s.outcome sequence = none → .awaiting sequence ∈ s.lanes →
    .awaiting sequence ∈ place lane
  only : ∀ lane, ∀ other ∈ place lane, other = lane ∨ other ∈ s.lanes
  /-- The lanes that have not been called and those that await: one fewer, and the lane itself. -/
  work : ∀ lane, width operations concurrency - (place lane).length +
      (place lane).countP Lane.isAwaiting + 1 =
    width operations concurrency - s.lanes.length + s.lanes.countP Lane.isAwaiting +
      if lane.isAwaiting then 1 else 0

theorem place_call (h : s.lanes.length < width operations concurrency) :
    Place operations concurrency s fun lane => s.lanes ++ [lane] where
  length_le lane := by rw [List.length_append, List.length_singleton]; exact h
  mem lane := List.mem_append_right _ (List.mem_singleton_self lane)
  keeps lane sequence _ hmem := List.mem_append_left _ hmem
  only lane other hother := (List.mem_append.mp hother).symm.imp List.mem_singleton.mp id
  work lane := by
    rw [List.length_append, List.length_singleton, List.countP_append, List.countP_singleton]
    omega

/-- The lane that awaited a settled operation is no longer counted. -/
theorem work_set {i sequence : ℕ} (hi : s.lanes[i]? = some (.awaiting sequence)) (lane : Lane) :
    width operations concurrency - (s.lanes.set i lane).length +
        (s.lanes.set i lane).countP Lane.isAwaiting + 1 =
      width operations concurrency - s.lanes.length + s.lanes.countP Lane.isAwaiting +
        if lane.isAwaiting then 1 else 0 := by
  obtain ⟨hlt, hget⟩ := List.getElem?_eq_some_iff.mp hi
  have hpos : 0 < s.lanes.countP Lane.isAwaiting :=
    List.countP_pos_iff.mpr ⟨_, List.getElem_mem hlt, by rw [hget]; rfl⟩
  rw [List.length_set, List.countP_set hlt, hget]
  simp only [Lane.isAwaiting, if_true]
  omega

theorem place_resume {i sequence : ℕ} (hlanes : s.lanes.length = width operations concurrency)
    (hi : s.lanes[i]? = some (.awaiting sequence)) (hsettled : s.outcome sequence ≠ none) :
    Place operations concurrency s fun lane => s.lanes.set i lane where
  length_le lane := by rw [List.length_set]; exact hlanes.le
  mem lane := List.mem_set (List.getElem?_eq_some_iff.mp hi).1 lane
  keeps lane other hother hmem := by
    obtain ⟨j, hj⟩ := List.mem_iff_getElem?.mp hmem
    have hne : i ≠ j := by
      rintro rfl
      obtain rfl : sequence = other := by simpa using hi.symm.trans hj
      exact hsettled hother
    exact List.mem_iff_getElem?.mpr ⟨j, (List.getElem?_set_ne hne).trans hj⟩
  only lane other hother := (List.mem_or_eq_of_mem_set hother).symm
  work lane := work_set hi lane

/-- What a step does: a lane runs its loop, a lane fails with its operation, an operation settles,
or the signal aborts. -/
theorem step_cases {e : Event} (h : step operations concurrency s e = some t) :
    (∃ place, Place operations concurrency s place ∧ e ≠ .abort ∧ e.Peaceful ∧
      t = { (loop operations s).1 with lanes := place (loop operations s).2 }) ∨
    (∃ i sequence, e = .resume i ∧ s.lanes[i]? = some (.awaiting sequence) ∧
      s.outcome sequence = some false ∧ t = { s with lanes := s.lanes.set i .failed }) ∨
    (∃ sequence fulfilled, e = .settle sequence fulfilled ∧ sequence ∈ s.invoked ∧
      s.outcome sequence = none ∧
      t = { s with outcome := Function.update s.outcome sequence (some fulfilled) }) ∨
    e = .abort ∧ t = { s with aborted := true } := by
  have hloop : (loop operations s).1.lanes = s.lanes := by
    rcases loop_cases operations s with ⟨lane, hl, -⟩ | ⟨-, hl⟩ <;> rw [hl]
  cases e with
  | call =>
    simp only [step] at h
    split_ifs at h with hlt
    obtain rfl := Option.some.inj h
    exact .inl ⟨_, place_call hlt, by simp, trivial, by rw [hloop]⟩
  | settle sequence fulfilled =>
    simp only [step] at h
    split_ifs at h with hsettle
    obtain rfl := Option.some.inj h
    exact .inr (.inr (.inl ⟨sequence, fulfilled, rfl, hsettle.1, hsettle.2, rfl⟩))
  | resume i =>
    simp only [step] at h
    split_ifs at h with hlanes
    rcases hi : s.lanes[i]? with _ | lane
    · rw [hi] at h
      cases h
    · -- Only a lane whose operation has settled resumes.
      cases lane with
      | awaiting sequence =>
        rw [hi] at h
        dsimp only at h
        rcases hout : s.outcome sequence with _ | fulfilled
        · rw [hout] at h
          cases h
        · rw [hout] at h
          cases fulfilled with
          | false =>
            obtain rfl := Option.some.inj h
            exact .inr (.inl ⟨i, sequence, rfl, hi, hout, rfl⟩)
          | true =>
            obtain rfl := Option.some.inj h
            exact .inl ⟨_, place_resume hlanes hi (by simp [hout]), by simp, trivial, by rw [hloop]⟩
      | done =>
        rw [hi] at h
        cases h
      | failed =>
        rw [hi] at h
        cases h
  | abort =>
    obtain rfl := Option.some.inj h
    exact .inr (.inr (.inr ⟨rfl, rfl⟩))

/-! ### The invariant -/

variable (operations concurrency) in
/-- The counter counts the operations, and each operation that has not settled has its lane. -/
structure Invariant (s : State) : Prop where
  invoked : s.invoked = List.range s.next
  next_le : s.next ≤ operations
  lanes_le : s.lanes.length ≤ width operations concurrency
  settled : ∀ sequence, s.outcome sequence ≠ none → sequence ∈ s.invoked
  awaited : ∀ sequence ∈ s.invoked, s.outcome sequence = none → .awaiting sequence ∈ s.lanes
  known : ∀ sequence, .awaiting sequence ∈ s.lanes → sequence ∈ s.invoked
  ended : .done ∈ s.lanes → s.next = operations

theorem Invariant.init : Invariant operations concurrency init where
  invoked := rfl
  next_le := Nat.zero_le _
  lanes_le := Nat.zero_le _
  settled _ h := absurd rfl h
  awaited _ h := absurd h (List.not_mem_nil)
  known _ h := absurd h (List.not_mem_nil)
  ended h := absurd h (List.not_mem_nil)

theorem Invariant.not_mem_next (h : Invariant operations concurrency s) : s.next ∉ s.invoked := by
  rw [h.invoked]
  exact List.not_mem_range_self

/-- A lane that runs its loop keeps the invariant. -/
theorem Invariant.loop (h : Invariant operations concurrency s) {place : Lane → List Lane}
    (hplace : Place operations concurrency s place) :
    Invariant operations concurrency
      { (loop operations s).1 with lanes := place (loop operations s).2 } := by
  rcases loop_cases operations s with ⟨lane, hloop, hend⟩ | ⟨hnext, hloop⟩
  · -- The lane ends.
    rw [hloop]
    have hne : ∀ sequence, lane ≠ .awaiting sequence := by
      rcases hend with ⟨rfl, -⟩ | ⟨rfl, -⟩ <;> simp
    exact
      { invoked := h.invoked
        next_le := h.next_le
        lanes_le := hplace.length_le lane
        settled := h.settled
        awaited := fun sequence hmem hnone =>
          hplace.keeps lane sequence hnone (h.awaited sequence hmem hnone)
        known := fun sequence hmem => h.known sequence
          ((hplace.only lane _ hmem).resolve_left (Ne.symm (hne sequence)))
        ended := fun hdone => by
          rcases hplace.only lane _ hdone with heq | hmem
          · rcases hend with ⟨-, hle⟩ | ⟨hfailed, -⟩
            · exact le_antisymm h.next_le hle
            · exact absurd (heq.trans hfailed) (by simp)
          · exact h.ended hmem }
  · -- The lane takes the next sequence.
    rw [hloop]
    exact
      { invoked := by rw [h.invoked, List.range_succ]
        next_le := hnext
        lanes_le := hplace.length_le _
        settled := fun sequence hsome => List.mem_append_left _ (h.settled sequence hsome)
        awaited := fun sequence hmem hnone => by
          rcases List.mem_append.mp hmem with hold | hnew
          · exact hplace.keeps _ sequence hnone (h.awaited sequence hold hnone)
          · obtain rfl := List.mem_singleton.mp hnew
            exact hplace.mem _
        known := fun sequence hmem => by
          rcases hplace.only _ _ hmem with heq | hold
          · obtain rfl := Lane.awaiting.inj heq
            exact List.mem_append_right _ (List.mem_singleton_self _)
          · exact List.mem_append_left _ (h.known sequence hold)
        ended := fun hdone => by
          rcases hplace.only _ _ hdone with heq | hold
          · cases heq
          · exact absurd (h.ended hold) hnext.ne }

/-- **The step lemma.** -/
theorem Invariant.step (h : Invariant operations concurrency s) {e : Event}
    (hstep : step operations concurrency s e = some t) : Invariant operations concurrency t := by
  rcases step_cases hstep with ⟨place, hplace, -, -, rfl⟩ | ⟨i, sequence, -, hi, hout, rfl⟩ |
    ⟨sequence, fulfilled, -, hmem, hnone, rfl⟩ | ⟨-, rfl⟩
  · exact h.loop hplace
  · -- A lane that fails awaited an operation that has settled.
    have hother : ∀ other, s.outcome other = none → .awaiting other ∈ s.lanes →
        .awaiting other ∈ s.lanes.set i .failed := by
      intro other hother hlane
      obtain ⟨j, hj⟩ := List.mem_iff_getElem?.mp hlane
      have hne : i ≠ j := by
        rintro rfl
        obtain rfl : sequence = other := by simpa using hi.symm.trans hj
        simp [hout] at hother
      exact List.mem_iff_getElem?.mpr ⟨j, (List.getElem?_set_ne hne).trans hj⟩
    exact { h with
      lanes_le := by
        rw [List.length_set]
        exact h.lanes_le
      awaited := fun other hmem hnone => hother other hnone (h.awaited other hmem hnone)
      known := fun other hmem =>
        h.known other ((List.mem_or_eq_of_mem_set hmem).resolve_right (by simp))
      ended := fun hdone =>
        h.ended ((List.mem_or_eq_of_mem_set hdone).resolve_right (by simp)) }
  · have hold : ∀ other, other ≠ sequence →
        Function.update s.outcome sequence (some fulfilled) other = s.outcome other :=
      fun other hne => Function.update_of_ne hne _ _
    exact { h with
      settled := fun other hother => by
        by_cases hsame : other = sequence
        · exact hsame ▸ hmem
        · exact h.settled other fun hnone => hother ((hold other hsame).trans hnone)
      awaited := fun other hother hpending => by
        by_cases hsame : other = sequence
        · subst hsame
          simp at hpending
        · exact h.awaited other hother ((hold other hsame).symm.trans hpending) }
  · exact { h with }

/-- Every reachable state has the invariant. -/
theorem Invariant.reached {events : List Event}
    (hrun : (runConcurrent operations concurrency).run Lanes.init events = some s) :
    Invariant operations concurrency s :=
  EventSys.invariant (fun _ _ _ h hstep => h.step hstep) Invariant.init hrun

/-- No more operations are in flight than there are lanes: each has its own. -/
theorem Invariant.inFlight_le (h : Invariant operations concurrency s) :
    s.inFlight.length ≤ width operations concurrency := by
  have hnodup : (s.inFlight.map Lane.awaiting).Nodup := by
    refine List.Nodup.map (fun a b hab => Lane.awaiting.inj hab) ?_
    rw [State.inFlight, h.invoked]
    exact List.nodup_range.filter _
  have hsubset : s.inFlight.map Lane.awaiting ⊆ s.lanes := by
    intro lane hlane
    obtain ⟨sequence, hsequence, rfl⟩ := List.mem_map.mp hlane
    obtain ⟨hmem, hnone⟩ := List.mem_filter.mp hsequence
    exact h.awaited sequence hmem (of_decide_eq_true hnone)
  calc s.inFlight.length = (s.inFlight.map Lane.awaiting).length := (List.length_map _).symm
    _ ≤ s.lanes.length := (hnodup.subperm hsubset).length_le
    _ ≤ width operations concurrency := h.lanes_le

/-! ### Runs end -/

variable (operations concurrency) in
/-- The steps that are left: each sequence that has not been taken will settle and will be resumed
from, each lane that has not been called will be. -/
def work (s : State) : ℕ :=
  2 * (operations - s.next) + (width operations concurrency - s.lanes.length +
    s.lanes.countP Lane.isAwaiting) + s.inFlight.length

theorem work_init :
    work operations concurrency init = 2 * operations + width operations concurrency := rfl

/-- A lane that runs its loop takes one step. -/
theorem work_loop (h : Invariant operations concurrency s) {place : Lane → List Lane}
    (hplace : Place operations concurrency s place) :
    work operations concurrency
      { (loop operations s).1 with lanes := place (loop operations s).2 } + 1 =
        work operations concurrency s := by
  rcases loop_cases operations s with ⟨lane, hloop, hend⟩ | ⟨hnext, hloop⟩
  · rw [hloop]
    have hwork := hplace.work lane
    have hlane : lane.isAwaiting = false := by rcases hend with ⟨rfl, -⟩ | ⟨rfl, -⟩ <;> rfl
    rw [hlane] at hwork
    simp only [work, State.inFlight, Bool.false_eq_true, if_false] at hwork ⊢
    omega
  · rw [hloop]
    have hwork := hplace.work (.awaiting s.next)
    have hfresh : s.outcome s.next = none :=
      not_not.mp fun hsome => h.not_mem_next (h.settled _ hsome)
    simp only [work, State.inFlight, List.filter_append, List.length_append, Lane.isAwaiting,
      if_true] at hwork ⊢
    rw [List.filter_singleton, decide_eq_true hfresh, cond_true, List.length_singleton]
    omega

/-- An operation that settles is no longer in flight. -/
theorem length_inFlight_settle (h : Invariant operations concurrency s) {sequence : ℕ}
    (hmem : sequence ∈ s.invoked) (hnone : s.outcome sequence = none) (fulfilled : Bool) :
    ({ s with outcome := Function.update s.outcome sequence (some fulfilled) } :
      State).inFlight.length + 1 = s.inFlight.length := by
  have hnodup : s.inFlight.Nodup := by
    rw [State.inFlight, h.invoked]
    exact List.nodup_range.filter _
  have herase : ({ s with outcome := Function.update s.outcome sequence (some fulfilled) } :
      State).inFlight = s.inFlight.erase sequence := by
    rw [hnodup.erase_eq_filter, State.inFlight, State.inFlight, List.filter_filter]
    refine List.filter_congr fun other _ => ?_
    by_cases hsame : other = sequence
    · subst hsame
      simp
    · simp [hsame]
  have hin : sequence ∈ s.inFlight := List.mem_filter.mpr ⟨hmem, decide_eq_true hnone⟩
  rw [herase, List.length_erase_of_mem hin]
  have := List.length_pos_of_mem hin
  omega

/-- Every step but the abort is one of those that were left. -/
theorem work_step (h : Invariant operations concurrency s) {e : Event}
    (hstep : step operations concurrency s e = some t) :
    work operations concurrency t + (if e = .abort then 0 else 1) =
      work operations concurrency s := by
  rcases step_cases hstep with ⟨place, hplace, hne, -, rfl⟩ | ⟨i, sequence, rfl, hi, -, rfl⟩ |
    ⟨sequence, fulfilled, rfl, hmem, hnone, rfl⟩ | ⟨rfl, rfl⟩
  · rw [if_neg hne]
    exact work_loop h hplace
  · have hset := @work_set operations concurrency s i sequence hi .failed
    simp only [work, State.inFlight, Lane.isAwaiting, Bool.false_eq_true, if_false, reduceCtorEq]
      at hset ⊢
    omega
  · have hsettle := length_inFlight_settle h hmem hnone fulfilled
    simp only [work, reduceCtorEq, if_false] at hsettle ⊢
    omega
  · simp [work, State.inFlight]

/-- Every run has at most two steps for each operation and one for each lane, besides aborts. -/
theorem length_le {events : List Event}
    (hrun : (runConcurrent operations concurrency).run init events = some s) :
    events.countP (· ≠ .abort) ≤ 2 * operations + width operations concurrency := by
  have hwork : ∀ (events : List Event) (r : State), Invariant operations concurrency r →
      (runConcurrent operations concurrency).run r events = some s →
        work operations concurrency s + events.countP (· ≠ .abort) =
          work operations concurrency r := by
    intro events
    induction events with
    | nil =>
      intro r _ hr
      obtain rfl := Option.some.inj hr
      rfl
    | cons e events ih =>
      intro r hinv hr
      obtain ⟨t, hstep, hrest⟩ := EventSys.run_cons_eq_some.mp hr
      have hhead := work_step hinv hstep
      have htail := ih t (hinv.step hstep) hrest
      have hcount : (e :: events).countP (· ≠ .abort) =
          events.countP (· ≠ .abort) + if e = .abort then 0 else 1 := by
        rw [List.countP_cons]
        by_cases habort : e = .abort <;> simp [habort]
      rw [hcount, ← hhead, ← htail, Nat.add_assoc]
  have := hwork events init Invariant.init hrun
  rw [work_init] at this
  omega

/-! ### Runs without a rejection or the abort -/

theorem length_le_of_peaceful {events : List Event} (hpeaceful : ∀ e ∈ events, e.Peaceful)
    (hrun : (runConcurrent operations concurrency).run init events = some s) :
    events.length ≤ 2 * operations + width operations concurrency := by
  have hcount : events.countP (· ≠ .abort) = events.length := by
    refine List.countP_eq_length.mpr fun e he => decide_eq_true fun habort => ?_
    exact (habort ▸ hpeaceful e he : Event.Peaceful .abort)
  rw [← hcount]
  exact length_le hrun

/-- No lane fails. -/
structure Unharmed (s : State) : Prop where
  not_aborted : s.aborted = false
  not_failed : .failed ∉ s.lanes
  not_rejected : ∀ sequence, s.outcome sequence ≠ some false

theorem Unharmed.step (h : Unharmed s) {e : Event} (he : e.Peaceful)
    (hstep : step operations concurrency s e = some t) : Unharmed t := by
  rcases step_cases hstep with ⟨place, hplace, -, -, rfl⟩ | ⟨i, sequence, -, -, hout, -⟩ |
    ⟨sequence, fulfilled, rfl, -, -, rfl⟩ | ⟨rfl, -⟩
  · have hlane : (loop operations s).2 ≠ .failed ∧ (loop operations s).1.aborted = false := by
      rcases loop_cases operations s with ⟨lane, hloop, hend⟩ | ⟨-, hloop⟩
      · rw [hloop]
        rcases hend with ⟨rfl, -⟩ | ⟨-, haborted⟩
        · exact ⟨by simp, h.not_aborted⟩
        · exact absurd (h.not_aborted.symm.trans haborted) (by simp)
      · rw [hloop]
        exact ⟨by simp, h.not_aborted⟩
    exact
      { not_aborted := hlane.2
        not_failed := fun hfailed =>
          (hplace.only _ _ hfailed).elim (fun heq => hlane.1 heq.symm) h.not_failed
        not_rejected := (outcome_loop operations s).symm ▸ h.not_rejected }
  · exact absurd hout (h.not_rejected sequence)
  · obtain rfl : fulfilled = true := he
    exact { h with
      not_rejected := fun other => by
        by_cases hsame : other = sequence
        · subst hsame
          simp
        · exact fun hfalse => h.not_rejected other
            ((Function.update_of_ne hsame _ _).symm.trans hfalse) }
  · exact he.elim

theorem Unharmed.reached {events : List Event} (hpeaceful : ∀ e ∈ events, e.Peaceful)
    (hrun : (runConcurrent operations concurrency).run init events = some s) : Unharmed s := by
  have hall : ∀ (events : List Event) (r : State), (∀ e ∈ events, e.Peaceful) → Unharmed r →
      (runConcurrent operations concurrency).run r events = some s → Unharmed s := by
    intro events
    induction events with
    | nil =>
      intro r _ hr hrun
      obtain rfl := Option.some.inj hrun
      exact hr
    | cons e events ih =>
      intro r hpeaceful hr hrun
      obtain ⟨t, hstep, hrest⟩ := EventSys.run_cons_eq_some.mp hrun
      obtain ⟨he, hevents⟩ := List.forall_mem_cons.mp hpeaceful
      exact ih t hevents (hr.step he hstep) hrest
  exact hall events init hpeaceful ⟨rfl, List.not_mem_nil, fun _ => by simp [init]⟩ hrun

/-- **No run is stuck**: until every lane is done, a lane is called, an operation is fulfilled or a
lane resumes. -/
theorem progress (h : Invariant operations concurrency s) (hs : Unharmed s)
    (hresolved : ¬Resolved operations concurrency s) :
    ∃ e : Event, e.Peaceful ∧ (step operations concurrency s e).isSome := by
  by_cases hlt : s.lanes.length < width operations concurrency
  · exact ⟨.call, trivial, by simp [step, hlt]⟩
  have hlanes : s.lanes.length = width operations concurrency :=
    le_antisymm h.lanes_le (not_lt.mp hlt)
  have hlane : ∃ lane ∈ s.lanes, lane ≠ .done := by
    by_contra hall
    exact hresolved ⟨hlanes, fun lane hlane => not_not.mp fun hne => hall ⟨lane, hlane, hne⟩⟩
  obtain ⟨lane, hmem, hne⟩ := hlane
  cases lane with
  | done => exact absurd rfl hne
  | failed => exact absurd hmem hs.not_failed
  | awaiting sequence =>
    rcases hout : s.outcome sequence with _ | fulfilled
    · exact ⟨.settle sequence true, rfl, by simp [step, h.known sequence hmem, hout]⟩
    · obtain ⟨i, hi⟩ := List.mem_iff_getElem?.mp hmem
      refine ⟨.resume i, trivial, ?_⟩
      cases fulfilled <;> simp [step, hlanes, hi, hout]

/-- When every lane is done, every operation has run and has settled. -/
theorem Invariant.settled_of_resolved (h : Invariant operations concurrency s)
    (hconcurrency : 1 ≤ concurrency) (hresolved : Resolved operations concurrency s) :
    s.invoked = List.range operations ∧ ∀ sequence < operations,
      s.outcome sequence ≠ none := by
  have hnext : s.next = operations := by
    rcases hlanes : s.lanes with _ | ⟨lane, lanes⟩
    · -- There are no lanes, so there are no operations.
      have hwidth : width operations concurrency = 0 := by rw [← hresolved.1, hlanes]; rfl
      have := h.next_le
      rw [width] at hwidth
      omega
    · refine h.ended ?_
      have hmem : lane ∈ s.lanes := hlanes ▸ List.mem_cons_self
      exact hresolved.2 lane hmem ▸ hmem
  have hinvoked : s.invoked = List.range operations := hnext ▸ h.invoked
  refine ⟨hinvoked, fun sequence hlt hnone => ?_⟩
  have hmem : sequence ∈ s.invoked := hinvoked ▸ List.mem_range.mpr hlt
  exact absurd (hresolved.2 _ (h.awaited sequence hmem hnone)) (by simp)

/-- When every lane is done, every operation has run and has been fulfilled. -/
theorem Invariant.resolved (h : Invariant operations concurrency s) (hs : Unharmed s)
    (hconcurrency : 1 ≤ concurrency) (hresolved : Resolved operations concurrency s) :
    s.invoked = List.range operations ∧ ∀ sequence < operations,
      s.outcome sequence = some true := by
  obtain ⟨hinvoked, hsettled⟩ := h.settled_of_resolved hconcurrency hresolved
  refine ⟨hinvoked, fun sequence hlt => ?_⟩
  rcases hout : s.outcome sequence with _ | fulfilled
  · exact absurd hout (hsettled sequence hlt)
  · cases fulfilled with
    | true => rfl
    | false => exact absurd hout (hs.not_rejected sequence)

end

/-- **Every sequence is run once**: no run invokes a sequence twice or has more operations in flight
than lanes, and a run without a rejection or the abort ends with each sequence run and fulfilled. -/
theorem runs_once {operations concurrency : ℕ} (hconcurrency : 1 ≤ concurrency)
    {events : List Event} {s : State}
    (hrun : (runConcurrent operations concurrency).run init events = some s) :
    s.invoked.Nodup ∧ s.inFlight.length ≤ min operations concurrency ∧
      ((∀ e ∈ events, e.Peaceful) →
        (Resolved operations concurrency s → s.invoked = List.range operations ∧
          ∀ sequence < operations, s.outcome sequence = some true) ∧
        (¬Resolved operations concurrency s →
          ∃ e : Event, e.Peaceful ∧ (step operations concurrency s e).isSome) ∧
        events.length ≤ 2 * operations + min operations concurrency) := by
  have hinv := Invariant.reached hrun
  refine ⟨?_, hinv.inFlight_le, fun hpeaceful => ?_⟩
  · rw [hinv.invoked]
    exact List.nodup_range
  · have hs := Unharmed.reached hpeaceful hrun
    exact ⟨hinv.resolved hs hconcurrency, progress hinv hs, length_le_of_peaceful hpeaceful hrun⟩

/-- Two lanes run three operations; the second lane is done first and takes the third. -/
def threeOperations : List Event :=
  [.call, .call, .settle 1 true, .settle 0 true, .resume 1, .resume 0, .settle 2 true, .resume 1]

theorem runs_once_threeOperations : ∃ s, (runConcurrent 3 2).run init threeOperations = some s ∧
    Resolved 3 2 s ∧ s.inFlight.length ≤ 2 ∧ s.invoked = [0, 1, 2] := by
  have hlanes : ((runConcurrent 3 2).run init threeOperations).map State.lanes =
      some [.done, .done] := by decide
  obtain ⟨s, hrun, hdone⟩ := Option.map_eq_some_iff.mp hlanes
  have hresolved : Resolved 3 2 s := by
    rw [Resolved, hdone]
    decide
  obtain ⟨-, hflight, hrest⟩ := runs_once (by decide) hrun
  have hpeaceful : ∀ e ∈ threeOperations, e.Peaceful := by simp [threeOperations, Event.Peaceful]
  exact ⟨s, hrun, hresolved, hflight, ((hrest hpeaceful).1 hresolved).1⟩

end Lanes

end Workload

end FitzDestroyer
