import FitzDestroyer.Pressure.Stream

/-!
# The offset of a stream writer

The offset that a worker expects to be next is an estimate once a commit has failed ambiguously:
the commit may be applied after the worker has read the latest offset, and a retry keeps the
offset of its attempt.

* `Moves` : the steps of a stream, by their events;
* `Written` : every value is written at most once, and where its success says;
* `Tracked` : an estimate is off by the late commits that it does not take into account;
* `Blameless` : the worker never blames the broker for a stale offset;
* `blameless_iff` : this holds iff late commits are taken into account in time.
-/

namespace FitzDestroyer

namespace Pressure

open Js

section System

variable {namespaceName worker : RouteSegment} {s s' : StreamSystem} {e : StreamEvent}

/-! ### Steps -/

/-- The steps of a stream, by their events. -/
inductive Moves (namespaceName worker : RouteSegment) (s : StreamSystem) :
    StreamEvent → StreamSystem → Prop
  | shutdown : Moves namespaceName worker s .shutdown s.shutdown
  | loop (hphase : s.client.phase = .idle) :
      Moves namespaceName worker s .loop (s.loop namespaceName worker)
  | begun {x : ℕ} {answer : Except Thrown Unit} (hphase : s.client.phase = .beginning x)
      (hanswer : s.client.AnswersBegin answer) :
      Moves namespaceName worker s (.begun answer) (s.begun x answer)
  | appended {x : ℕ} {answer : StreamAnswer} (hphase : s.client.phase = .appending x)
      (hanswer : s.broker.AnswersAppend x answer) :
      Moves namespaceName worker s (.appended answer) (s.appended x answer)
  | committed {x : ℕ} {answer : StreamAnswer} (hphase : s.client.phase = .committing x)
      (hanswer : s.broker.AnswersCommit x answer) :
      Moves namespaceName worker s (.committed answer)
        (s.committed namespaceName worker x answer)
  | rolledBack {x : ℕ} {failure : StreamFailure}
      (hphase : s.client.phase = .rollingBack x failure) :
      Moves namespaceName worker s .rolledBack (s.rolledBack x failure)
  | reconciled {x : ℕ} {failure : StreamFailure} {result : Except Thrown Unit}
      (hphase : s.client.phase = .reconciling x failure) :
      Moves namespaceName worker s (.reconciled result) (s.reconciled x failure result)
  | commitLate {commit : ℕ × Body} (hpending : commit ∈ s.broker.pending)
      (hoffset : commit.1 = s.broker.log.length) :
      Moves namespaceName worker s (.commitLate commit) (s.commitLate commit)

theorem moves_of_step (h : (streamSystem namespaceName worker).step s e = some s') :
    Moves namespaceName worker s e s' := by
  simp only [streamSystem, StreamSystem.step] at h
  split at h
  · cases h
    exact .shutdown
  · rename_i hphase
    cases h
    exact .loop hphase
  · rename_i hphase
    split_ifs at h with hanswer
    cases h
    exact .begun hphase hanswer
  · rename_i hphase
    split_ifs at h with hanswer
    cases h
    exact .appended hphase hanswer
  · rename_i hphase
    split_ifs at h with hanswer
    cases h
    exact .committed hphase hanswer
  · rename_i hphase
    cases h
    exact .rolledBack hphase
  · rename_i hphase
    cases h
    exact .reconciled hphase
  · split_ifs at h with hlate
    cases h
    exact .commitLate hlate.1 hlate.2
  · cases h

/-! ### An attempt that throws -/

namespace StreamStage

variable {stage : StreamStage} {failure : StreamFailure}

@[simp] theorem succeeded_recordError :
    (stage.recordError failure).succeeded = stage.succeeded := by
  unfold recordError
  split_ifs <;> rfl

theorem failed_recordError : (stage.recordError failure).failed =
    if isAmbiguousDurableError failure.error then stage.failed else stage.failed ++ [failure] := by
  unfold recordError
  split_ifs <;> rfl

end StreamStage

namespace StreamClient

variable {c : StreamClient} {failure : StreamFailure}

/-- The first counter whose value the worker has not tried to commit. -/
def bound (c : StreamClient) : ℕ :=
  match c.phase.failure? with
  | some failure =>
    -- The attempt is retried, or its value may have been committed.
    if isPressureStreamCleanupPending failure.error then c.counter else c.counter + 1
  | none => if c.phase = .stopped then c.counter + 1 else c.counter

theorem counter_le_bound : c.counter ≤ c.bound := by
  unfold bound
  split <;> split_ifs <;> omega

theorem bound_le_counter : c.bound ≤ c.counter + 1 := by
  unfold bound
  split <;> split_ifs <;> omega

theorem bound_of_failure (h : c.phase.failure? = some failure) :
    c.bound =
      if isPressureStreamCleanupPending failure.error then c.counter else c.counter + 1 := by
  rw [bound, h]

theorem bound_of_working (h : c.phase.failure? = none) (hstopped : c.phase ≠ .stopped) :
    c.bound = c.counter := by
  rw [bound, h]
  exact if_neg hstopped

@[simp] theorem stage_throw : (c.throw failure).stage = c.stage.recordError failure := by
  unfold throw
  dsimp only
  split_ifs <;> rfl

@[simp] theorem succeeded_throw : (c.throw failure).stage.succeeded = c.stage.succeeded := by
  rw [stage_throw, StreamStage.succeeded_recordError]

@[simp] theorem nextStreamOffset_throw :
    (c.throw failure).nextStreamOffset = c.nextStreamOffset := by
  unfold throw
  dsimp only
  split_ifs <;> rfl

@[simp] theorem expectedOffset_throw : (c.throw failure).phase.expectedOffset? = none := by
  unfold throw
  dsimp only
  split_ifs <;> rfl

@[simp] theorem failure_throw : (c.throw failure).phase.failure? = none := by
  unfold throw
  dsimp only
  split_ifs <;> rfl

@[simp] theorem bound_throw : (c.throw failure).bound = c.counter + 1 := by
  unfold throw
  dsimp only
  split_ifs <;> rfl

end StreamClient

/-! ### What is written -/

/-- Whether the commit was applied, or may be applied, after the answer. -/
def MayApply : StreamAnswer → Prop
  | .ok => True
  | .conflict _ => False
  | .error error =>
    isPressureStreamCleanupPending error = false ∧ isAmbiguousDurableError error = true

instance : (answer : StreamAnswer) → Decidable (MayApply answer)
  | .ok => inferInstanceAs (Decidable True)
  | .conflict _ => inferInstanceAs (Decidable False)
  | .error _ => inferInstanceAs (Decidable (_ ∧ _))

namespace StreamBroker

variable {b : StreamBroker} {x : ℕ} {body : Body} {answer : StreamAnswer}

/-- How often a body is in the stream, or may be appended to it. -/
def written (b : StreamBroker) (body : Body) : ℕ :=
  b.log.count body + (b.pending.map Prod.snd).count body

theorem written_commit (body' : Body) : (b.commit x body answer).written body' =
    b.written body' + if MayApply answer ∧ body = body' then 1 else 0 := by
  cases answer with
  | ok =>
    simp only [commit, written, MayApply, List.count_append, List.count_singleton, beq_iff_eq,
      true_and]
    omega
  | conflict error => simp [commit, MayApply]
  | error error =>
    by_cases hopen : MayApply (.error error)
    · have hcommit : b.commit x body (.error error) =
          { b with pending := b.pending ++ [(x, body)] } := if_pos hopen
      simp only [hcommit, written, hopen, List.map_append, List.map_cons, List.map_nil,
        List.count_append, List.count_singleton, beq_iff_eq, true_and]
      omega
    · have hcommit : b.commit x body (.error error) = b := if_neg hopen
      rw [hcommit, if_neg fun h => hopen h.1, Nat.add_zero]

theorem written_commitLate {commit : ℕ × Body} (h : commit ∈ b.pending) (body : Body) :
    (b.commitLate commit).written body = b.written body := by
  have hperm := (List.perm_cons_erase h).map Prod.snd
  simp only [commitLate, written, hperm.count_eq, List.map_cons, List.count_append,
    List.count_cons, List.count_nil]
  omega

theorem log_commit_of_not_ok (h : answer ≠ .ok) : (b.commit x body answer).log = b.log := by
  cases answer with
  | ok => exact absurd rfl h
  | conflict error => rfl
  | error error =>
    simp only [commit]
    split_ifs <;> rfl

end StreamBroker

/-- A record of a list stays where it is. -/
theorem getElem?_concat {α : Type*} {l : List α} {k : ℕ} {a : α} (h : l[k]? = some a) (b : α) :
    (l ++ [b])[k]? = some a := by
  obtain ⟨hk, -⟩ := List.getElem?_eq_some_iff.mp h
  rw [List.getElem?_append_left hk, h]

/-- Every value is written at most once, and where its success says. -/
structure Written (namespaceName worker : RouteSegment) (s : StreamSystem) : Prop where
  single : ∀ i, s.broker.written (pressureValue namespaceName worker .stream i) ≤ 1
  fresh : ∀ i, s.client.bound ≤ i →
    s.broker.written (pressureValue namespaceName worker .stream i) = 0
  succeeded : ∀ success ∈ s.client.stage.succeeded, s.broker.log[success.2]? =
    some (pressureValue namespaceName worker .stream success.1)

namespace Written

/-- A step of the worker that writes nothing. -/
theorem of_broker_eq (h : Written namespaceName worker s) (hbroker : s'.broker = s.broker)
    (hbound : s.client.bound ≤ s'.client.bound)
    (hsucceeded : s'.client.stage.succeeded = s.client.stage.succeeded) :
    Written namespaceName worker s' := by
  refine ⟨fun i => ?_, fun i hi => ?_, ?_⟩
  · rw [hbroker]
    exact h.single i
  · rw [hbroker]
    exact h.fresh i (hbound.trans hi)
  · rw [hbroker, hsucceeded]
    exact h.succeeded

/-- The commit of an attempt is answered. -/
theorem committed (h : Written namespaceName worker s) {x : ℕ} {answer : StreamAnswer}
    (hphase : s.client.phase = .committing x) (hanswer : s.broker.AnswersCommit x answer) :
    Written namespaceName worker (s.committed namespaceName worker x answer) := by
  have hbound : s.client.bound = s.client.counter :=
    StreamClient.bound_of_working (by rw [hphase]; rfl) (by simp [hphase])
  have hle : s.client.counter ≤ (s.client.onCommit x answer).bound := by
    refine le_trans ?_ StreamClient.counter_le_bound
    cases answer with
    | ok => exact Nat.le_succ _
    | conflict error => exact le_rfl
    | error error => exact le_rfl
  have hlt : MayApply answer → s.client.counter < (s.client.onCommit x answer).bound := by
    intro hmay
    cases answer with
    | ok => exact StreamClient.counter_le_bound (c := s.client.onCommit x .ok)
    | conflict error => cases hmay
    | error error =>
      rw [StreamClient.bound_of_failure (c := s.client.onCommit x (.error error)) rfl,
        if_neg (by simp [hmay.1])]
      exact Nat.lt_succ_self _
  have hvalue : ∀ i, (pressureValue namespaceName worker .stream s.client.counter =
      pressureValue namespaceName worker .stream i ↔ s.client.counter = i) :=
    fun i => (pressureValue_injective .stream).eq_iff
  refine ⟨fun i => ?_, fun i hi => ?_, fun success hsuccess => ?_⟩
  · have hsingle := h.single i
    have hfresh := h.fresh i
    simp only [StreamSystem.committed, StreamBroker.written_commit, hvalue]
    split_ifs with hnew
    · have := hfresh (by omega)
      omega
    · omega
  · change (s.client.onCommit x answer).bound ≤ i at hi
    have hfresh := h.fresh i (by omega)
    simp only [StreamSystem.committed, StreamBroker.written_commit, hvalue]
    split_ifs with hnew
    · have := hlt hnew.1
      omega
    · omega
  · by_cases hok : answer = .ok
    · subst hok
      change s.broker.AnswersCommit x .ok at hanswer
      simp only [StreamSystem.committed, StreamClient.onCommit, List.mem_append,
        List.mem_singleton] at hsuccess
      obtain hold | rfl := hsuccess
      · exact getElem?_concat (h.succeeded success hold) _
      · change x = s.broker.log.length at hanswer
        simp [StreamSystem.committed, StreamBroker.commit, hanswer]
    · have hstage : (s.client.onCommit x answer).stage = s.client.stage := by
        cases answer with
        | ok => exact absurd rfl hok
        | conflict error => rfl
        | error error => rfl
      simp only [StreamSystem.committed, hstage] at hsuccess
      simp only [StreamSystem.committed, StreamBroker.log_commit_of_not_ok hok]
      exact h.succeeded success hsuccess

/-- A commit is applied late. -/
theorem commitLate (h : Written namespaceName worker s) {commit : ℕ × Body}
    (hpending : commit ∈ s.broker.pending) :
    Written namespaceName worker (s.commitLate commit) := by
  refine ⟨fun i => ?_, fun i hi => ?_, fun success hsuccess => ?_⟩
  · rw [StreamSystem.commitLate, StreamBroker.written_commitLate hpending]
    exact h.single i
  · rw [StreamSystem.commitLate, StreamBroker.written_commitLate hpending]
    exact h.fresh i hi
  · exact getElem?_concat (h.succeeded success hsuccess) _

theorem step (h : Written namespaceName worker s) (hmoves : Moves namespaceName worker s e s') :
    Written namespaceName worker s' := by
  cases hmoves with
  | shutdown => exact h.of_broker_eq rfl le_rfl rfl
  | loop hphase =>
    refine h.of_broker_eq rfl ?_ rfl
    rw [StreamClient.bound_of_working (by rw [hphase]; rfl) (by simp [hphase])]
    exact StreamClient.counter_le_bound (c := (s.loop namespaceName worker).client)
  | @begun x answer hphase _ =>
    have hbound : s.client.bound = s.client.counter :=
      StreamClient.bound_of_working (by rw [hphase]; rfl) (by simp [hphase])
    have hcounter : (s.client.onBegin x answer).counter = s.client.counter := by
      cases answer <;> rfl
    refine h.of_broker_eq rfl ?_ (by cases answer <;> rfl)
    rw [hbound, ← hcounter]
    exact StreamClient.counter_le_bound
  | @appended x answer hphase _ =>
    have hbound : s.client.bound = s.client.counter :=
      StreamClient.bound_of_working (by rw [hphase]; rfl) (by simp [hphase])
    have hcounter : (s.client.onAppend x answer).counter = s.client.counter := by
      cases answer <;> rfl
    refine h.of_broker_eq rfl ?_ (by cases answer <;> rfl)
    rw [hbound, ← hcounter]
    exact StreamClient.counter_le_bound
  | committed hphase hanswer => exact h.committed hphase hanswer
  | @rolledBack x failure hphase =>
    simp only [StreamSystem.rolledBack, StreamClient.onRollback]
    split_ifs
    · refine h.of_broker_eq rfl ?_ (by simp)
      rw [StreamClient.bound_throw]
      exact StreamClient.bound_le_counter
    · refine h.of_broker_eq rfl ?_ rfl
      rw [StreamClient.bound_of_failure (by rw [hphase]; rfl),
        @StreamClient.bound_of_failure _ failure rfl]
  | @reconciled x failure result hphase =>
    have hbound := @StreamClient.bound_of_failure s.client failure (by rw [hphase]; rfl)
    cases result with
    | error error =>
      refine h.of_broker_eq rfl ?_ StreamClient.succeeded_throw
      simp only [StreamSystem.reconciled, StreamClient.onReconcile, Except.map,
        StreamClient.bound_throw]
      exact StreamClient.bound_le_counter
    | ok answer =>
      simp only [StreamSystem.reconciled, StreamClient.onReconcile, Except.map]
      split_ifs with hretry
      · rw [if_pos hretry] at hbound
        refine h.of_broker_eq rfl ?_ rfl
        rw [hbound]
        exact StreamClient.counter_le_bound (c := { s.client with phase := .beginning x })
      · refine h.of_broker_eq rfl ?_ StreamClient.succeeded_throw
        rw [StreamClient.bound_throw]
        exact StreamClient.bound_le_counter
  | commitLate hpending _ => exact h.commitLate hpending

end Written

/-! ### What an offset takes into account -/

theorem nextPressureStreamOffset_peek (b : StreamBroker) :
    nextPressureStreamOffset b.peek = b.log.length := by
  unfold StreamBroker.peek
  split_ifs with hlog
  · rw [hlog]
    rfl
  · have := List.length_pos_of_ne_nil hlog
    simp only [nextPressureStreamOffset]
    omega

/-- An offset is off by the late commits that it does not take into account. -/
structure Tracked (s : StreamSystem) : Prop where
  offset : s.broker.log.length + s.history.lateSeen = s.client.nextStreamOffset + s.history.late
  captured : ∀ x ∈ s.client.phase.expectedOffset?,
    s.broker.log.length + s.history.lateCaptured = x + s.history.late
  captured_le : s.history.lateCaptured ≤ s.history.lateSeen
  seen_le : s.history.lateSeen ≤ s.history.late
  established : s.history.established = s.client.nextStreamOffset
  conflict : ∀ failure ∈ s.client.phase.failure?, failure.stale = true →
    StreamBroker.IsConflict failure.error

namespace Tracked

/-- A step of the worker that establishes no offset. -/
theorem of_history_eq (h : Tracked s) (hbroker : s'.broker.log = s.broker.log)
    (hhistory : s'.history = s.history)
    (hnext : s'.client.nextStreamOffset = s.client.nextStreamOffset)
    (hcaptured : ∀ x ∈ s'.client.phase.expectedOffset?, x ∈ s.client.phase.expectedOffset?)
    (hconflict : ∀ failure ∈ s'.client.phase.failure?, failure.stale = true →
      StreamBroker.IsConflict failure.error) : Tracked s' := by
  refine ⟨?_, fun x hx => ?_, ?_, ?_, ?_, hconflict⟩
  · rw [hbroker, hhistory, hnext]
    exact h.offset
  · rw [hbroker, hhistory]
    exact h.captured x (hcaptured x hx)
  · rw [hhistory]
    exact h.captured_le
  · rw [hhistory]
    exact h.seen_le
  · rw [hhistory, hnext]
    exact h.established

/-- The commit of an attempt is answered. -/
theorem committed (h : Tracked s) {x : ℕ} {answer : StreamAnswer}
    (hphase : s.client.phase = .committing x) (hanswer : s.broker.AnswersCommit x answer) :
    Tracked (s.committed namespaceName worker x answer) := by
  have hcaptured := h.captured x (by rw [hphase]; rfl)
  cases answer with
  | ok =>
    change x = s.broker.log.length at hanswer
    have hoffset := h.offset
    have hcaptured_le := h.captured_le
    have hseen_le := h.seen_le
    refine ⟨?_, fun x hx => (nomatch hx), ?_, le_rfl, ?_, fun f hf => (nomatch hf)⟩
    · simp only [StreamSystem.committed, StreamBroker.commit, StreamClient.onCommit,
        StreamHistory.establish, List.length_append, List.length_singleton]
      omega
    · simp only [StreamSystem.committed, StreamHistory.establish]
      omega
    · simp only [StreamSystem.committed, StreamClient.onCommit, StreamHistory.establish]
      omega
  | conflict error =>
    refine h.of_history_eq (by rfl) rfl rfl (fun y hy => ?_) fun f hf _ => ?_
    · rw [hphase]
      exact hy
    · obtain rfl := Option.some.inj hf
      exact hanswer.2
  | error error =>
    refine h.of_history_eq (StreamBroker.log_commit_of_not_ok (by simp)) rfl rfl (fun y hy => ?_)
      fun f hf hstale => ?_
    · rw [hphase]
      exact hy
    · obtain rfl := Option.some.inj hf
      cases hstale

/-- The client has been replaced, or not. -/
theorem reconciled (h : Tracked s) {x : ℕ} {failure : StreamFailure} {result : Except Thrown Unit}
    (hphase : s.client.phase = .reconciling x failure) :
    Tracked (s.reconciled x failure result) := by
  cases result with
  | error error =>
    refine h.of_history_eq rfl rfl ?_ (fun y hy => ?_) fun f hf => ?_
    · simp [StreamSystem.reconciled, StreamClient.onReconcile, Except.map]
    · simp [StreamSystem.reconciled, StreamClient.onReconcile, Except.map] at hy
    · simp [StreamSystem.reconciled, StreamClient.onReconcile, Except.map] at hf
  | ok answer =>
    have hnext : (s.reconciled x failure (.ok answer)).client.nextStreamOffset =
        s.broker.log.length := by
      simp only [StreamSystem.reconciled, StreamClient.onReconcile, Except.map]
      split_ifs
      · exact nextPressureStreamOffset_peek s.broker
      · rw [StreamClient.nextStreamOffset_throw, nextPressureStreamOffset_peek]
    refine ⟨?_, fun y hy => ?_, ?_, le_rfl, ?_, fun f hf => ?_⟩
    · rw [hnext]
      rfl
    · refine h.captured y ?_
      simp only [StreamSystem.reconciled, StreamClient.onReconcile, Except.map] at hy
      split_ifs at hy
      · rw [hphase]
        exact hy
      · simp at hy
    · exact h.captured_le.trans h.seen_le
    · rw [hnext]
      exact nextPressureStreamOffset_peek s.broker
    · simp only [StreamSystem.reconciled, StreamClient.onReconcile, Except.map] at hf
      split_ifs at hf
      · cases hf
      · simp at hf

theorem step (h : Tracked s) (hmoves : Moves namespaceName worker s e s') : Tracked s' := by
  cases hmoves with
  | shutdown => exact h.of_history_eq rfl rfl rfl (fun x hx => hx) h.conflict
  | loop hphase =>
    refine ⟨h.offset, fun x hx => ?_, le_rfl, h.seen_le, h.established, fun f hf => ?_⟩
    · simp only [StreamSystem.loop, StreamClient.loop] at hx
      split_ifs at hx
      · cases hx
      · -- The attempt reads the offset that was established last.
        obtain rfl : s.client.nextStreamOffset = x := Option.some.inj hx
        exact h.offset
    · simp only [StreamSystem.loop, StreamClient.loop] at hf
      split_ifs at hf <;> cases hf
  | @begun x answer hphase _ =>
    cases answer with
    | ok answer =>
      exact ⟨h.offset, fun y hy => h.captured y (by rw [hphase]; exact hy), h.captured_le,
        h.seen_le, h.established, fun f hf => (nomatch hf)⟩
    | error error =>
      refine h.of_history_eq rfl rfl rfl (fun y hy => ?_) fun f hf hstale => ?_
      · rw [hphase]
        exact hy
      · obtain rfl := Option.some.inj hf
        cases hstale
  | @appended x answer hphase hanswer =>
    refine h.of_history_eq rfl rfl (by cases answer <;> rfl) (fun y hy => ?_) fun f hf hstale => ?_
    · rw [hphase]
      cases answer <;> exact hy
    · cases answer with
      | ok => cases hf
      | conflict error =>
        obtain rfl := Option.some.inj hf
        exact hanswer.2
      | error error =>
        obtain rfl := Option.some.inj hf
        cases hstale
  | committed hphase hanswer => exact h.committed hphase hanswer
  | @rolledBack x failure hphase =>
    simp only [StreamSystem.rolledBack, StreamClient.onRollback]
    split_ifs
    · refine h.of_history_eq rfl rfl ?_ (fun y hy => ?_) fun f hf => ?_
      · simp
      · simp at hy
      · simp at hf
    · refine h.of_history_eq rfl rfl rfl (fun y hy => ?_) fun f hf => h.conflict f ?_
      · rw [hphase]
        exact hy
      · rw [hphase]
        exact hf
  | reconciled hphase => exact h.reconciled hphase
  | @commitLate commit hpending hoffset =>
    have hlength : (s.commitLate commit).broker.log.length = s.broker.log.length + 1 := by
      simp [StreamSystem.commitLate, StreamBroker.commitLate]
    refine ⟨?_, fun x hx => ?_, h.captured_le, h.seen_le.trans (Nat.le_succ _), h.established,
      h.conflict⟩
    · have := h.offset
      rw [hlength]
      simp only [StreamSystem.commitLate]
      omega
    · have := h.captured x hx
      rw [hlength]
      simp only [StreamSystem.commitLate]
      omega

end Tracked

/-! ### The worker is not to blame -/

/-- The worker never blames the broker for a stale offset. -/
structure Blameless (namespaceName worker : RouteSegment) (s : StreamSystem) : Prop where
  /-- An append uses the offset that the last success or reconciliation established. -/
  appends : ∀ append ∈ s.history.appends, append.1 = append.2
  /-- No attempt fails definitely after the broker has rejected its offset. -/
  failed : ∀ failure ∈ s.client.stage.failed, failure.stale = false
  /-- An attempt that succeeded committed one record, at its offset. -/
  succeeded : ∀ success ∈ s.client.stage.succeeded,
    s.broker.log[success.2]? = some (pressureValue namespaceName worker .stream success.1) ∧
      s.broker.log.count (pressureValue namespaceName worker .stream success.1) = 1

/-- No commit is applied late between the moment the offset of an attempt was established and
the last peek, when the attempt appends, or the answer, when it is rejected. -/
def StreamSystem.InTime (s : StreamSystem) : StreamEvent → Prop
  | .begun (.ok ()) => s.history.lateCaptured = s.history.lateSeen
  | .appended (.conflict _) => s.history.lateCaptured = s.history.late
  | .committed (.conflict _) => s.history.lateCaptured = s.history.late
  | _ => True

instance (s : StreamSystem) : (e : StreamEvent) → Decidable (s.InTime e)
  | .begun (.ok ()) => inferInstanceAs (Decidable (_ = _))
  | .begun (.error _) => inferInstanceAs (Decidable True)
  | .appended .ok => inferInstanceAs (Decidable True)
  | .appended (.conflict _) => inferInstanceAs (Decidable (_ = _))
  | .appended (.error _) => inferInstanceAs (Decidable True)
  | .committed .ok => inferInstanceAs (Decidable True)
  | .committed (.conflict _) => inferInstanceAs (Decidable (_ = _))
  | .committed (.error _) => inferInstanceAs (Decidable True)
  | .shutdown => inferInstanceAs (Decidable True)
  | .loop => inferInstanceAs (Decidable True)
  | .rolledBack => inferInstanceAs (Decidable True)
  | .reconciled _ => inferInstanceAs (Decidable True)
  | .commitLate _ => inferInstanceAs (Decidable True)

/-- No attempt has used or been rejected for a stale offset, also not the last one. -/
structure Clean (s : StreamSystem) : Prop where
  appends : ∀ append ∈ s.history.appends, append.1 = append.2
  failed : ∀ failure ∈ s.client.stage.failed, failure.stale = false
  failure : ∀ failure ∈ s.client.phase.failure?, failure.stale = false

namespace StreamClient

variable {c : StreamClient} {failure : StreamFailure}

/-- What an attempt that throws adds to the definite failures. -/
theorem stale_throw
    (hconflict : failure.stale = true → isAmbiguousDurableError failure.error = false) :
    (∀ f ∈ (c.throw failure).stage.failed, f.stale = false) ↔
      (∀ f ∈ c.stage.failed, f.stale = false) ∧ failure.stale = false := by
  rw [stage_throw, StreamStage.failed_recordError]
  split_ifs with hopen
  · refine (and_iff_left ?_).symm
    by_contra hstale
    rw [hconflict (by simpa using hstale)] at hopen
    cases hopen
  · simp only [List.mem_append, List.mem_singleton]
    exact ⟨fun h => ⟨fun f hf => h f (.inl hf), h failure (.inr rfl)⟩,
      fun h f hf => hf.elim (h.1 f) fun hf => hf ▸ h.2⟩

end StreamClient

theorem not_ambiguous_of_isConflict {error : Thrown} (h : StreamBroker.IsConflict error) :
    isAmbiguousDurableError error = false := by
  simp [isAmbiguousDurableError, h.1]

theorem not_ambiguous_reconciliationError :
    isAmbiguousDurableError pressureStreamReconciliationError = false := by
  decide +kernel

/-- A step that adds no append. -/
theorem clean_congr (happends : s'.history.appends = s.history.appends)
    (hfailures : ((∀ f ∈ s'.client.stage.failed, f.stale = false) ∧
        ∀ f ∈ s'.client.phase.failure?, f.stale = false) ↔
      (∀ f ∈ s.client.stage.failed, f.stale = false) ∧
        ∀ f ∈ s.client.phase.failure?, f.stale = false) : Clean s' ↔ Clean s := by
  constructor
  · intro h
    obtain ⟨hfailed, hfailure⟩ := hfailures.mp ⟨h.failed, h.failure⟩
    exact ⟨happends ▸ h.appends, hfailed, hfailure⟩
  · intro h
    obtain ⟨hfailed, hfailure⟩ := hfailures.mpr ⟨h.failed, h.failure⟩
    exact ⟨happends ▸ h.appends, hfailed, hfailure⟩

/-- A step that neither rejects nor counts an attempt. -/
theorem clean_of_clear (happends : s'.history.appends = s.history.appends)
    (hfailed : s'.client.stage.failed = s.client.stage.failed)
    (h : ∀ f ∈ s.client.phase.failure?, f.stale = false)
    (h' : ∀ f ∈ s'.client.phase.failure?, f.stale = false) : Clean s' ↔ Clean s := by
  refine clean_congr happends ?_
  rw [hfailed]
  exact and_congr_right fun _ => iff_of_true h' h

/-- An event that is always in time. -/
theorem clean_keep (hinTime : s.InTime e) (h : Clean s' ↔ Clean s) :
    Clean s' ↔ Clean s ∧ s.InTime e := h.trans (and_iff_left hinTime).symm

/-- The error of an attempt that is not over. -/
theorem forall_failure {c : StreamClient} {failure : StreamFailure}
    (h : c.phase.failure? = some failure) :
    (∀ f ∈ c.phase.failure?, f.stale = false) ↔ failure.stale = false := by
  rw [h]
  exact ⟨fun hf => hf failure rfl, fun hf f hmem => Option.some.inj hmem ▸ hf⟩

theorem forall_no_failure {c : StreamClient} (h : c.phase.failure? = none) :
    ∀ f ∈ c.phase.failure?, f.stale = false := by
  intro f hf
  rw [h] at hf
  cases hf

/-- The error of the attempt is counted. -/
theorem clean_throw {c : StreamClient} {failure : StreamFailure} (h : Tracked s)
    (hfailure : s.client.phase.failure? = some failure) {error : Thrown}
    (herror : error = failure.error ∨ error = pressureStreamReconciliationError)
    (hclient : s'.client = c.throw ⟨error, failure.stale⟩) (hstage : c.stage = s.client.stage)
    (happends : s'.history.appends = s.history.appends) : Clean s' ↔ Clean s := by
  have hdefinite : failure.stale = true → isAmbiguousDurableError error = false := by
    intro hstale
    obtain rfl | rfl := herror
    · exact not_ambiguous_of_isConflict (h.conflict failure hfailure hstale)
    · exact not_ambiguous_reconciliationError
  refine clean_congr happends ?_
  rw [hclient, @StreamClient.stale_throw _ ⟨error, failure.stale⟩ hdefinite, hstage,
    forall_failure hfailure]
  exact and_iff_left (forall_no_failure StreamClient.failure_throw)

/-- An attempt is rejected for its offset only if a commit has been applied late. -/
theorem not_clean_of_conflict {x : ℕ} {error : Thrown} (h : Tracked s)
    (hx : s.client.phase.expectedOffset? = some x) (hstale : x ≠ s.broker.log.length)
    (hinTime : s.InTime e → s.history.lateCaptured = s.history.late)
    (hfailure : s'.client.phase.failure? = some ⟨error, true⟩) :
    Clean s' ↔ Clean s ∧ s.InTime e := by
  refine iff_of_false (fun hclean => ?_) fun hclean => ?_
  · have := hclean.failure _ hfailure
    cases this
  · have hcaptured := h.captured x hx
    have hlate := hinTime hclean.2
    omega

/-- An attempt appends with the established offset iff no commit that the last peek took into
account was applied since the attempt read its offset. -/
theorem clean_begun {x : ℕ} (h : Tracked s) (hphase : s.client.phase = .beginning x) :
    Clean (s.begun x (.ok ())) ↔ Clean s ∧ s.InTime (.begun (.ok ())) := by
  have hcaptured := h.captured x (by rw [hphase]; rfl)
  have hoffset := h.offset
  have hestablished := h.established
  have hinTime : s.InTime (.begun (.ok ())) ↔ x = s.history.established := by
    change s.history.lateCaptured = s.history.lateSeen ↔ _
    omega
  rw [hinTime]
  constructor
  · intro hclean
    refine ⟨⟨fun append hmem => hclean.appends append (List.mem_append_left _ hmem),
      hclean.failed, forall_no_failure (by rw [hphase]; rfl)⟩, ?_⟩
    exact hclean.appends (x, s.history.established)
      (List.mem_append_right _ (List.mem_singleton_self _))
  · rintro ⟨hclean, hx⟩
    refine ⟨fun append hmem => ?_, hclean.failed, by rintro f ⟨⟩⟩
    obtain hmem | hmem := List.mem_append.mp hmem
    · exact hclean.appends append hmem
    · rw [List.mem_singleton.mp hmem]
      exact hx

/-- A stream stays clean iff the event is in time. -/
theorem clean_step (h : Tracked s) (hmoves : Moves namespaceName worker s e s') :
    Clean s' ↔ Clean s ∧ s.InTime e := by
  cases hmoves with
  | shutdown => exact clean_keep trivial (clean_congr rfl Iff.rfl)
  | loop hphase =>
    refine clean_keep trivial (clean_of_clear rfl rfl ?_ ?_)
    · exact forall_no_failure (by rw [hphase]; rfl)
    · refine forall_no_failure ?_
      simp only [StreamSystem.loop, StreamClient.loop]
      split_ifs <;> rfl
  | @begun x answer hphase _ =>
    have hnone := forall_no_failure (c := s.client) (by rw [hphase]; rfl)
    cases answer with
    | ok answer => exact clean_begun h hphase
    | error error => exact clean_keep trivial (clean_of_clear rfl rfl hnone (by rintro f ⟨⟩; rfl))
  | @appended x answer hphase hanswer =>
    have hnone := forall_no_failure (c := s.client) (by rw [hphase]; rfl)
    cases answer with
    | ok => exact clean_keep trivial (clean_of_clear rfl rfl hnone (by rintro f ⟨⟩))
    | conflict error => exact not_clean_of_conflict h (by rw [hphase]; rfl) hanswer.1 id rfl
    | error error => exact clean_keep trivial (clean_of_clear rfl rfl hnone (by rintro f ⟨⟩; rfl))
  | @committed x answer hphase hanswer =>
    have hnone := forall_no_failure (c := s.client) (by rw [hphase]; rfl)
    cases answer with
    | ok => exact clean_keep trivial (clean_of_clear rfl rfl hnone (by rintro f ⟨⟩))
    | conflict error => exact not_clean_of_conflict h (by rw [hphase]; rfl) hanswer.1 id rfl
    | error error => exact clean_keep trivial (clean_of_clear rfl rfl hnone (by rintro f ⟨⟩; rfl))
  | @rolledBack x failure hphase =>
    refine clean_keep trivial ?_
    by_cases haborted : s.client.aborted
    · exact clean_throw h (by rw [hphase]; rfl) (.inl rfl) (if_pos haborted) rfl rfl
    · have hclient : (s.rolledBack x failure).client =
          { s.client with phase := .reconciling x failure } := if_neg haborted
      refine clean_congr rfl ?_
      rw [hclient, hphase]
      exact Iff.rfl
  | @reconciled x failure result hphase =>
    refine clean_keep trivial ?_
    have hfailure : s.client.phase.failure? = some failure := by rw [hphase]; rfl
    cases result with
    | error error => exact clean_throw h hfailure (.inr rfl) rfl rfl rfl
    | ok answer =>
      by_cases hretry : isPressureStreamCleanupPending failure.error
      · -- An attempt that is retried has not been rejected for its offset.
        have hfresh : failure.stale = false := by
          by_contra hstale
          have hconflict := (h.conflict failure hfailure (by simpa using hstale)).2
          rw [hretry] at hconflict
          cases hconflict
        have hclient : (s.reconciled x failure (.ok answer)).client = { s.client with
            closed := false
            nextStreamOffset := nextPressureStreamOffset s.broker.peek
            phase := .beginning x } := if_pos hretry
        refine clean_of_clear rfl (by rw [hclient]) ((forall_failure hfailure).mpr hfresh) ?_
        rw [hclient]
        rintro f ⟨⟩
      · exact clean_throw h hfailure (.inl rfl) (if_neg hretry) rfl rfl
  | commitLate _ _ => exact clean_keep trivial (clean_congr rfl Iff.rfl)

/-! ### Runs -/

theorem written_start : Written namespaceName worker .start where
  single _ := Nat.zero_le 1
  fresh _ _ := rfl
  succeeded := by rintro success ⟨⟩

theorem tracked_start : Tracked .start where
  offset := rfl
  captured := by rintro x ⟨⟩
  captured_le := le_rfl
  seen_le := le_rfl
  established := rfl
  conflict := by rintro f ⟨⟩

theorem clean_start : Clean .start where
  appends := by rintro append ⟨⟩
  failed := by rintro f ⟨⟩
  failure := by rintro f ⟨⟩

/-- An attempt that succeeded committed one record, at its offset. -/
theorem Written.count_succeeded (h : Written namespaceName worker s) {success : ℕ × ℕ}
    (hsuccess : success ∈ s.client.stage.succeeded) :
    s.broker.log.count (pressureValue namespaceName worker .stream success.1) = 1 := by
  have hpos := List.count_pos_iff.mpr (List.mem_of_getElem? (h.succeeded success hsuccess))
  have hsingle := h.single success.1
  unfold StreamBroker.written at hsingle
  omega

theorem clean_iff_guarded {es : List StreamEvent}
    (hr : (streamSystem namespaceName worker).run .start es = some s) :
    Clean s ↔ (streamSystem namespaceName worker).Guarded StreamSystem.InTime .start es := by
  refine EventSys.iff_guarded (I := Tracked) (fun s e s' h hstep => h.step (moves_of_step hstep))
    ?_ ?_ ?_ tracked_start clean_start hr
  · intro s e s' h hclean hinTime hstep
    exact (clean_step h (moves_of_step hstep)).mpr ⟨hclean, hinTime⟩
  · intro s e s' h hinTime hstep hclean
    exact hinTime ((clean_step h (moves_of_step hstep)).mp hclean).2
  · intro s e s' h hdirty hstep hclean
    exact hdirty ((clean_step h (moves_of_step hstep)).mp hclean).1

/-- **The worker never blames the broker for a stale offset** if late commits are taken into
account in time, and only then, once its last attempt is over. -/
theorem blameless_iff {es : List StreamEvent}
    (hr : (streamSystem namespaceName worker).run .start es = some s) :
    ((streamSystem namespaceName worker).Guarded StreamSystem.InTime .start es →
        Blameless namespaceName worker s) ∧
      (s.client.phase.failure? = none → Blameless namespaceName worker s →
        (streamSystem namespaceName worker).Guarded StreamSystem.InTime .start es) := by
  have hwritten : Written namespaceName worker s :=
    EventSys.invariant (fun s e s' h hstep => h.step (moves_of_step hstep)) written_start hr
  rw [← clean_iff_guarded hr]
  constructor
  · intro hclean
    exact ⟨hclean.appends, hclean.failed, fun success hsuccess =>
      ⟨hwritten.succeeded success hsuccess, hwritten.count_succeeded hsuccess⟩⟩
  · intro hover hblameless
    exact ⟨hblameless.appends, hblameless.failed, forall_no_failure hover⟩

end System

/-! ### Runs of one writer -/

def writerNamespace : RouteSegment := ⟨"run", by decide⟩

def writer : RouteSegment := ⟨"writer", by decide⟩

/-- The value of an attempt of the writer. -/
def writerValue (counter : ℕ) : Body := pressureValue writerNamespace writer .stream counter

/-- A request that times out. -/
def requestTimedOut : Thrown := .error "TimeoutError" "timed out" none

/-- The session before has not been cleaned up. -/
def cleanupPending : Thrown :=
  .error "FitzError" "stream session is active" (some (Number.fin streamSessionAlreadyActive))

/-- The offset that is expected is not the next one. -/
def offsetMismatch : Thrown := .error "FitzError" "conflict on the expected offset" none

/-- A commit times out, and is applied before the peek.  The next attempt is retried. -/
def appliedBeforePeek : List StreamEvent :=
  [.loop, .begun (.ok ()), .appended .ok, .committed (.error requestTimedOut),
    .commitLate (0, writerValue 0), .rolledBack, .reconciled (.ok ()),
    .loop, .begun (.error cleanupPending), .rolledBack, .reconciled (.ok ()),
    .begun (.ok ()), .appended .ok, .committed .ok]

/-- A commit times out, and is applied while the next attempt waits for its session. -/
def appliedDuringRetry : List StreamEvent :=
  [.loop, .begun (.ok ()), .appended .ok, .committed (.error requestTimedOut), .rolledBack,
    .reconciled (.ok ()),
    .loop, .begun (.error cleanupPending), .rolledBack, .commitLate (0, writerValue 0),
    .reconciled (.ok ()), .begun (.ok ()), .appended (.conflict offsetMismatch), .rolledBack,
    .reconciled (.ok ())]

theorem blameless_appliedBeforePeek : ∃ s, (streamSystem writerNamespace writer).run .start
    appliedBeforePeek = some s ∧ s.client.stage.succeeded = [(1, 1)] ∧
      Blameless writerNamespace writer s := by
  have hrun : ((streamSystem writerNamespace writer).run .start appliedBeforePeek).map
      (fun s => s.client.stage.succeeded) = some [(1, 1)] := by decide +kernel
  obtain ⟨s, hs, hsucceeded⟩ := Option.map_eq_some_iff.mp hrun
  exact ⟨s, hs, hsucceeded, (blameless_iff hs).1 (by decide +kernel)⟩

/-- **A retry that keeps its offset** makes the worker count a conflict as a definite failure of
the broker. -/
theorem not_blameless_appliedDuringRetry : ∃ s, (streamSystem writerNamespace writer).run .start
    appliedDuringRetry = some s ∧ s.history.appends = [(0, 0), (0, 1)] ∧
      s.client.stage.failed = [⟨offsetMismatch, true⟩] ∧
      ¬Blameless writerNamespace writer s := by
  have hrun : ((streamSystem writerNamespace writer).run .start appliedDuringRetry).map
      (fun s => (s.history.appends, s.client.stage.failed)) =
        some ([(0, 0), (0, 1)], [⟨offsetMismatch, true⟩]) := by decide +kernel
  obtain ⟨s, hs, hfacts⟩ := Option.map_eq_some_iff.mp hrun
  obtain ⟨happends, hfailed⟩ := Prod.mk.inj hfacts
  refine ⟨s, hs, happends, hfailed, fun hblameless => ?_⟩
  have hstale := hblameless.appends (0, 1) (by rw [happends]; decide)
  exact absurd hstale (by decide)

end Pressure

end FitzDestroyer
