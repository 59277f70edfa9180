import FitzDestroyer.Workload.Log

/-!
# Waiters of a lease that disconnect

`lease-waiter-disconnect-races` (`src/workloads/lease-waiter-disconnect-races.ts`) queues waiters
behind the owner of a lease in every round, disconnects them around its release, and acquires the
lease again.  The run is modelled as a function of the answers of the broker.

* `RoundAnswers`, `BrokerAnswers` : the answers, with the fencing tokens of the leases;
* `runLeaseWaiterDisconnectRaces` : the run, with its evidence;
* `runLeaseWaiterDisconnectRaces_passes_iff` : when the run passes;
* `detectsRegressions_iff` : when it detects every regression of the fencing tokens.
-/

namespace FitzDestroyer

namespace Lease

open Js Workload

/-- `ROUNDS`. -/
def raceRounds : ℕ := 8

/-- `WAITERS_PER_ROUND`. -/
def waitersPerRound : ℕ := 4

/-! ### The answers -/

/-- A lease that has been granted. -/
structure Granted where
  fencingToken : ℤ

/-- The answer to a query. -/
structure LeaseState where
  pendingWaiters : ℕ
  isHeld : Bool

/-- The answers to the queries of `waitForWaiterDepth`. -/
structure DepthAnswers where
  beforeDeadline : List (Except Thrown LeaseState)
  afterDeadline : Except Thrown LeaseState

/-- The answers in one round.  To close a waiter and to release a ghost throws nothing. -/
structure RoundAnswers where
  owner : Except Thrown Granted
  connected : Fin waitersPerRound → Except Thrown Unit
  queued : DepthAnswers
  ownerReleased : Except Thrown Unit
  /-- What becomes of the acquisitions of the waiters. -/
  acquisitions : Fin waitersPerRound → Except Thrown Granted
  drained : DepthAnswers
  replacement : Except Thrown Granted
  replacementReleased : Except Thrown Unit

structure BrokerAnswers where
  rounds : List RoundAnswers
  length_rounds : rounds.length = raceRounds
  finalState : Except Thrown LeaseState

/-- The token of a lease, if it has been granted. -/
def tokenOf : Except Thrown Granted → List ℤ
  | .ok lease => [lease.fencingToken]
  | .error _ => []

/-- The fencing tokens of the owners and their replacements, in the order of the grants. -/
def BrokerAnswers.fencingTokens (b : BrokerAnswers) : List ℤ :=
  b.rounds.flatMap fun r => tokenOf r.owner ++ tokenOf r.replacement

/-! ### The run -/

@[ext] structure LeaseWaiterRaceEvidence where
  rounds : ℕ
  waitersQueued : ℕ
  waitersDisconnected : ℕ
  ghostAcquisitions : ℕ
  pendingWaiters : ℕ
  replacementAcquisitions : ℕ
  fencingRegressions : ℕ
  deriving DecidableEq

/-- The fields of the evidence. -/
def LeaseWaiterRaceEvidence.fields (e : LeaseWaiterRaceEvidence) : List (String × ℕ) :=
  [("rounds", e.rounds), ("waitersQueued", e.waitersQueued),
    ("waitersDisconnected", e.waitersDisconnected), ("ghostAcquisitions", e.ghostAcquisitions),
    ("pendingWaiters", e.pendingWaiters),
    ("replacementAcquisitions", e.replacementAcquisitions),
    ("fencingRegressions", e.fencingRegressions)]

def LeaseWaiterRaceEvidence.record (e : LeaseWaiterRaceEvidence) : Record :=
  e.fields.map fun p => (p.1, .count p.2)

/-- The evidence before the first round. -/
def LeaseWaiterRaceEvidence.start : LeaseWaiterRaceEvidence := ⟨raceRounds, 0, 0, 0, 0, 0, 0⟩

/-- `expected`. -/
def expectedEvidence : LeaseWaiterRaceEvidence where
  rounds := raceRounds
  waitersQueued := raceRounds * waitersPerRound
  waitersDisconnected := raceRounds * waitersPerRound
  ghostAcquisitions := 0
  pendingWaiters := 0
  replacementAcquisitions := raceRounds
  fencingRegressions := 0

/-- `value === n`. -/
def isCount (value : Option Json) (n : ℕ) : Bool :=
  match value with
  | some (.num x) => x = (n : Number)
  | _ => false

def assertLeaseWaiterRaceEvidence (record : Record) : Except Thrown Unit :=
  Check.forEach expectedEvidence.fields fun p =>
    Check.failIf (isCount (field record p.1) p.2 = false)
      (newError (p.1 ++ "=" ++ fieldText record p.1 ++ s!"/{p.2}"))

/-- The waiters are as many as expected, and the lease is free when none is. -/
def LeaseState.Settled (state : LeaseState) (expected : ℕ) : Prop :=
  state.pendingWaiters = expected ∧ (0 < expected ∨ state.isHeld = false)

instance (state : LeaseState) (expected : ℕ) : Decidable (state.Settled expected) :=
  inferInstanceAs (Decidable (_ ∧ _))

/-- `waitForWaiterDepth`. -/
def waitForWaiterDepth (expected : ℕ) (last : Except Thrown LeaseState) :
    List (Except Thrown LeaseState) → Except Thrown Unit
  | [] => do
    let state ← last
    .error (newError
      s!"Lease waiter depth {state.pendingWaiters}/{expected}, held={state.isHeld}")
  | answer :: answers => do
    let state ← answer
    if state.Settled expected then .ok () else waitForWaiterDepth expected last answers

/-- The acquisitions of waiters that have been granted. -/
def RoundAnswers.ghosts (r : RoundAnswers) : ℕ :=
  (List.finRange waitersPerRound).countP fun i => (r.acquisitions i).isOk

/-- One round.  The fencing tokens are not read. -/
def runRound (evidence : LeaseWaiterRaceEvidence) (r : RoundAnswers) :
    Except Thrown LeaseWaiterRaceEvidence := do
  let _ ← r.owner
  Check.forEach (List.finRange waitersPerRound) r.connected
  waitForWaiterDepth waitersPerRound r.queued.afterDeadline r.queued.beforeDeadline
  -- The waiters are closed before the release of the owner in one round, with it in the next.
  r.ownerReleased
  waitForWaiterDepth 0 r.drained.afterDeadline r.drained.beforeDeadline
  let _ ← r.replacement
  r.replacementReleased
  return { evidence with
    waitersQueued := evidence.waitersQueued + waitersPerRound
    waitersDisconnected := evidence.waitersDisconnected + waitersPerRound
    ghostAcquisitions := evidence.ghostAcquisitions + r.ghosts
    replacementAcquisitions := evidence.replacementAcquisitions + 1 }

def runLeaseWaiterDisconnectRaces (b : BrokerAnswers) :
    Except Thrown LeaseWaiterRaceEvidence := do
  let evidence ← b.rounds.foldlM runRound .start
  let finalState ← b.finalState
  let evidence := { evidence with pendingWaiters := finalState.pendingWaiters }
  assertLeaseWaiterRaceEvidence evidence.record
  return evidence

/-! ### When the run passes -/

/-- The waiters are seen to be as many as expected before the deadline. -/
def DepthAnswers.Reach (d : DepthAnswers) (expected : ℕ) : Prop :=
  ∃ before state after, d.beforeDeadline = before ++ .ok state :: after ∧
    (∀ answer ∈ before, Check.Passes answer) ∧ state.Settled expected

/-- Every request of the round is answered, and the waiters queue up and drain. -/
structure RoundAnswers.Answered (r : RoundAnswers) : Prop where
  owner : Check.Passes r.owner
  connected : ∀ i, r.connected i = .ok ()
  queued : r.queued.Reach waitersPerRound
  ownerReleased : r.ownerReleased = .ok ()
  drained : r.drained.Reach 0
  replacement : Check.Passes r.replacement
  replacementReleased : r.replacementReleased = .ok ()

/-- Nothing but the fencing tokens can be wrong: every request is answered, no waiter is granted
the lease, and none is left. -/
structure BrokerAnswers.Clean (b : BrokerAnswers) : Prop where
  answered : ∀ r ∈ b.rounds, r.Answered
  noGhost : ∀ r ∈ b.rounds, ∀ i, ¬Check.Passes (r.acquisitions i)
  noWaiter : ∃ state, b.finalState = .ok state ∧ state.pendingWaiters = 0

theorem waitForWaiterDepth_eq_ok {expected : ℕ} {last : Except Thrown LeaseState}
    {answers : List (Except Thrown LeaseState)} :
    waitForWaiterDepth expected last answers = .ok () ↔
      (DepthAnswers.mk answers last).Reach expected := by
  induction answers with
  | nil =>
    refine iff_of_false ?_ ?_
    · cases last <;> simp [waitForWaiterDepth]
    · rintro ⟨before, state, after, h, -⟩
      cases before <;> cases h
  | cons answer answers ih =>
    simp only [waitForWaiterDepth, Check.bind_eq, Check.bind_eq_ok]
    constructor
    · rintro ⟨state, rfl, h⟩
      split_ifs at h with hsettled
      · exact ⟨[], state, answers, rfl, fun _ hmem => absurd hmem List.not_mem_nil, hsettled⟩
      · obtain ⟨before, state', after, hanswers, hbefore, hsettled'⟩ := ih.mp h
        refine ⟨.ok state :: before, state', after, congrArg _ hanswers, ?_, hsettled'⟩
        exact List.forall_mem_cons.mpr ⟨Check.passes_ok state, hbefore⟩
    · rintro ⟨before, state, after, hanswers, hbefore, hsettled⟩
      cases before with
      | nil =>
        obtain ⟨rfl, -⟩ := List.cons.inj hanswers
        exact ⟨state, rfl, if_pos hsettled⟩
      | cons first before =>
        obtain ⟨rfl, hrest⟩ := List.cons.inj hanswers
        obtain ⟨⟨state', hfirst⟩, hbefore⟩ := List.forall_mem_cons.mp hbefore
        refine ⟨state', hfirst, ?_⟩
        split_ifs
        · rfl
        · exact ih.mpr ⟨before, state, after, hrest, hbefore, hsettled⟩

/-- The evidence after some rounds. -/
def LeaseWaiterRaceEvidence.after (evidence : LeaseWaiterRaceEvidence)
    (rounds : List RoundAnswers) : LeaseWaiterRaceEvidence :=
  { evidence with
    waitersQueued := evidence.waitersQueued + rounds.length * waitersPerRound
    waitersDisconnected := evidence.waitersDisconnected + rounds.length * waitersPerRound
    ghostAcquisitions := evidence.ghostAcquisitions + (rounds.map RoundAnswers.ghosts).sum
    replacementAcquisitions := evidence.replacementAcquisitions + rounds.length }

theorem runRound_eq_ok {evidence evidence' : LeaseWaiterRaceEvidence} {r : RoundAnswers} :
    runRound evidence r = .ok evidence' ↔ r.Answered ∧ evidence' = evidence.after [r] := by
  simp only [runRound, Check.bind_eq, Check.bind_eq_ok, Check.forEach_eq_ok, Check.pure_eq,
    Check.exists_unit, waitForWaiterDepth_eq_ok, List.mem_finRange, true_imp_iff, Except.ok.injEq]
  constructor
  · rintro ⟨owner, howner, hconnected, hqueued, hreleased, hdrained, replacement, hreplacement,
      hreleased', rfl⟩
    refine ⟨⟨⟨owner, howner⟩, hconnected, hqueued, hreleased, hdrained,
      ⟨replacement, hreplacement⟩, hreleased'⟩, ?_⟩
    simp [LeaseWaiterRaceEvidence.after]
  · rintro ⟨h, rfl⟩
    obtain ⟨owner, howner⟩ := h.owner
    obtain ⟨replacement, hreplacement⟩ := h.replacement
    refine ⟨owner, howner, h.connected, h.queued, h.ownerReleased, h.drained, replacement,
      hreplacement, h.replacementReleased, ?_⟩
    simp [LeaseWaiterRaceEvidence.after]

/-- The rounds pass iff every request is answered; then the evidence counts them. -/
theorem foldlM_runRound {evidence evidence' : LeaseWaiterRaceEvidence}
    {rounds : List RoundAnswers} : rounds.foldlM runRound evidence = .ok evidence' ↔
      (∀ r ∈ rounds, r.Answered) ∧ evidence' = evidence.after rounds := by
  induction rounds generalizing evidence with
  | nil => simp [LeaseWaiterRaceEvidence.after, eq_comm]
  | cons r rounds ih =>
    have hafter : (evidence.after [r]).after rounds = evidence.after (r :: rounds) := by
      ext <;> simp [LeaseWaiterRaceEvidence.after, waitersPerRound] <;> omega
    rw [List.foldlM_cons, List.forall_mem_cons]
    simp only [Check.bind_eq, Check.bind_eq_ok, runRound_eq_ok, ih]
    constructor
    · rintro ⟨_, ⟨hr, rfl⟩, hrounds, rfl⟩
      exact ⟨⟨hr, hrounds⟩, hafter⟩
    · rintro ⟨⟨hr, hrounds⟩, rfl⟩
      exact ⟨_, ⟨hr, rfl⟩, hrounds, hafter.symm⟩

/-- The assertion passes iff the evidence is as expected. -/
theorem assertLeaseWaiterRaceEvidence_eq_ok {evidence : LeaseWaiterRaceEvidence} :
    assertLeaseWaiterRaceEvidence evidence.record = .ok () ↔ evidence = expectedEvidence := by
  have hcount : ∀ n m : ℕ, isCount (some (.count n)) m = true ↔ n = m := fun n m => by
    simp [isCount, Json.count]
  obtain ⟨rounds, queued, disconnected, ghosts, pending, replacements, regressions⟩ := evidence
  simp only [assertLeaseWaiterRaceEvidence, Check.forEach_eq_ok, Check.failIf_eq_ok,
    Bool.not_eq_false]
  simp [expectedEvidence, LeaseWaiterRaceEvidence.fields, LeaseWaiterRaceEvidence.record, field,
    hcount]

theorem ghosts_eq_zero {r : RoundAnswers} :
    r.ghosts = 0 ↔ ∀ i, ¬Check.Passes (r.acquisitions i) := by
  rw [RoundAnswers.ghosts, List.countP_eq_zero]
  simp only [List.mem_finRange, true_imp_iff]
  refine forall_congr' fun i => not_congr ?_
  cases r.acquisitions i <;> simp [Except.isOk, Except.toBool]

/-- **The run passes** iff nothing but the fencing tokens is wrong. -/
theorem runLeaseWaiterDisconnectRaces_passes_iff {b : BrokerAnswers} :
    Check.Passes (runLeaseWaiterDisconnectRaces b) ↔ b.Clean := by
  simp only [runLeaseWaiterDisconnectRaces, Check.bind_eq, Check.passes_bind, foldlM_runRound,
    assertLeaseWaiterRaceEvidence_eq_ok, Check.exists_unit, Check.pure_eq, Check.passes_ok,
    and_true]
  constructor
  · rintro ⟨_, ⟨hanswered, rfl⟩, state, hstate, hexpected⟩
    have hghosts := congrArg LeaseWaiterRaceEvidence.ghostAcquisitions hexpected
    have hsum : (b.rounds.map RoundAnswers.ghosts).sum = 0 :=
      Nat.eq_zero_of_add_eq_zero_left hghosts
    rw [List.sum_eq_zero_iff_forall_eq_nat] at hsum
    refine ⟨hanswered, fun r hr => ?_, state, hstate, ?_⟩
    · exact ghosts_eq_zero.mp (hsum _ (List.mem_map_of_mem hr))
    · exact congrArg LeaseWaiterRaceEvidence.pendingWaiters hexpected
  · rintro ⟨hanswered, hghosts, state, hstate, hpending⟩
    have hsum : (b.rounds.map RoundAnswers.ghosts).sum = 0 := by
      rw [List.sum_eq_zero_iff_forall_eq_nat]
      intro n hn
      obtain ⟨r, hr, rfl⟩ := List.mem_map.mp hn
      exact ghosts_eq_zero.mpr (hghosts r hr)
    refine ⟨_, ⟨hanswered, rfl⟩, state, hstate, ?_⟩
    simp [LeaseWaiterRaceEvidence.after, LeaseWaiterRaceEvidence.start, expectedEvidence, hsum,
      hpending, b.length_rounds]

/-! ### Fencing tokens -/

/-- Every regression of the fencing tokens makes the run fail, or is in evidence that the assertion
rejects. -/
def DetectsRegressions (b : BrokerAnswers) : Prop :=
  ¬b.fencingTokens.Pairwise (· < ·) → ∀ evidence, runLeaseWaiterDisconnectRaces b = .ok evidence →
    evidence.fencingRegressions ≠ 0 ∧
      ¬Check.Passes (assertLeaseWaiterRaceEvidence evidence.record)

/-- The evidence of a run that passes reports no regression. -/
theorem fencingRegressions_eq_zero {b : BrokerAnswers} {evidence : LeaseWaiterRaceEvidence}
    (h : runLeaseWaiterDisconnectRaces b = .ok evidence) : evidence.fencingRegressions = 0 := by
  simp only [runLeaseWaiterDisconnectRaces, Check.bind_eq, Check.bind_eq_ok,
    assertLeaseWaiterRaceEvidence_eq_ok, Check.exists_unit, Check.pure_eq] at h
  obtain ⟨_, -, state, -, hexpected, heq⟩ := h
  rw [← Except.ok.inj heq, hexpected]
  rfl

/-- **Every regression is detected** iff the tokens increase unless something else is wrong. -/
theorem detectsRegressions_iff {b : BrokerAnswers} :
    DetectsRegressions b ↔ (b.Clean → b.fencingTokens.Pairwise (· < ·)) := by
  rw [← runLeaseWaiterDisconnectRaces_passes_iff]
  constructor
  · rintro h ⟨evidence, hevidence⟩
    by_contra htokens
    exact (h htokens evidence hevidence).1 (fencingRegressions_eq_zero hevidence)
  · intro h htokens evidence hevidence
    exact absurd (h ⟨evidence, hevidence⟩) htokens

/-- A broker that grants every lease with the same token. -/
def stuckBroker : BrokerAnswers where
  rounds := List.replicate raceRounds
    { owner := .ok ⟨7⟩
      connected := fun _ => .ok ()
      queued := ⟨[.ok ⟨4, true⟩], .ok ⟨4, true⟩⟩
      ownerReleased := .ok ()
      acquisitions := fun _ => .error (newError "closed")
      drained := ⟨[.ok ⟨0, false⟩], .ok ⟨0, false⟩⟩
      replacement := .ok ⟨7⟩
      replacementReleased := .ok () }
  length_rounds := List.length_replicate
  finalState := .ok ⟨0, false⟩

/-- **A token that never changes** is not detected. -/
theorem not_detectsRegressions_stuckBroker : ¬DetectsRegressions stuckBroker := by
  have hround : ∀ r ∈ stuckBroker.rounds, r.Answered ∧ ∀ i, ¬Check.Passes (r.acquisitions i) := by
    intro r hr
    obtain rfl := List.eq_of_mem_replicate hr
    refine ⟨⟨⟨_, rfl⟩, fun _ => rfl, ?_, rfl, ?_, ⟨_, rfl⟩, rfl⟩, fun _ => Check.not_passes_error _⟩
    · exact ⟨[], _, [], rfl, fun _ hmem => absurd hmem List.not_mem_nil, by decide⟩
    · exact ⟨[], _, [], rfl, fun _ hmem => absurd hmem List.not_mem_nil, by decide⟩
  have hclean : stuckBroker.Clean :=
    ⟨fun r hr => (hround r hr).1, fun r hr => (hround r hr).2, _, rfl, rfl⟩
  intro hdetects
  obtain ⟨evidence, hevidence⟩ := runLeaseWaiterDisconnectRaces_passes_iff.mpr hclean
  exact (hdetects (by decide) evidence hevidence).1 (fencingRegressions_eq_zero hevidence)

end Lease

end FitzDestroyer
