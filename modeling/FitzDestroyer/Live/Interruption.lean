import FitzDestroyer.Live.RpcStream

/-!
# The evidence of an interruption

A caller that expects a fault counts every error of its loop, also those that it throws itself
when the stream completes or a frame fails a check.

* `Interrupted` : the stream of a call ended with an error of its own;
* `CallerRun.Genuine` : only such a call is counted, and accepted by the host;
* `CallerRun.EndsByStream` : the caller does not end its call itself where the error counts;
* `genuine_iff` : the evidence is genuine iff the run meets this condition.
-/

namespace FitzDestroyer

namespace Live

open Js Workload

/-! ### How a call ends -/

section Call

variable (o : RpcStreamCallerOptions) (call : ℕ)

/-- The state of a call after events that do not end it. -/
def advance (s : CallState) : List StreamEvent → Option CallState
  | [] => some s
  | e :: es =>
    match s.onEvent o call e with
    | .inl s' => advance s' es
    | .inr _ => none

/-- The events of a call go on until the event `e`, in the state `s`. -/
def ReachesWith (c : Call) (s : CallState) (e : StreamEvent) : Prop :=
  ∃ es rest, c.events = es ++ e :: rest ∧ advance o c.number .start es = some s

/-- The stream of the call ends with an error of its own.  A caller that cancels has cancelled
before. -/
def Interrupted (c : Call) : Prop :=
  ∃ s error, ReachesWith o c s (.error error) ∧ (o.expectedOutcome = .cancel → s.aborted = true)

/-- The stream completes, or sends a frame that fails a check. -/
def CallState.Rejects (s : CallState) : StreamEvent → Prop
  | .frame response => ∃ error, checkResponse o call s response = .error error
  | .done => True
  | .error _ => False
  | .abort => False

variable {o call}

/-- A call ends at the first event that does not let it go on. -/
theorem runCall_eq_some {s s' : CallState} {events : List StreamEvent} {callEnd : CallEnd} :
    runCall o call s events = some (s', callEnd) ↔ ∃ es e rest, events = es ++ e :: rest ∧
      advance o call s es = some s' ∧ s'.onEvent o call e = .inr callEnd := by
  induction events generalizing s with
  | nil => simp [runCall]
  | cons e events ih =>
    rw [runCall]
    rcases h : s.onEvent o call e with s₁ | callEnd₁
    · dsimp only
      -- The call goes on after the first event.
      rw [ih]
      constructor
      · rintro ⟨es, e', rest, rfl, hes, he'⟩
        exact ⟨e :: es, e', rest, rfl, by rw [advance, h]; exact hes, he'⟩
      · rintro ⟨es, e', rest, hevents, hes, he'⟩
        cases es with
        | nil =>
          obtain ⟨rfl, rfl⟩ := List.cons.inj hevents
          obtain rfl := Option.some.inj hes
          rw [h] at he'
          cases he'
        | cons e₀ es =>
          obtain ⟨rfl, rfl⟩ := List.cons.inj hevents
          rw [advance, h] at hes
          exact ⟨es, e', rest, rfl, hes, he'⟩
    · dsimp only
      -- The first event ends the call.
      rw [Option.some.injEq, Prod.mk.injEq]
      constructor
      · rintro ⟨rfl, rfl⟩
        exact ⟨[], e, events, rfl, rfl, h⟩
      · rintro ⟨es, e', rest, hevents, hes, he'⟩
        cases es with
        | nil =>
          obtain ⟨rfl, rfl⟩ := List.cons.inj hevents
          obtain rfl := Option.some.inj hes
          rw [h] at he'
          exact ⟨rfl, Sum.inr.inj he'⟩
        | cons e₀ es =>
          obtain ⟨rfl, rfl⟩ := List.cons.inj hevents
          rw [advance, h] at hes
          cases hes

/-- The error that ends a call of a fault caller is counted, unless the caller has yet to
cancel. -/
theorem caught_eq (h : o.expectedOutcome ≠ .complete) (s : CallState) (error : Thrown) :
    caught o s error = if o.expectedOutcome = .cancel ∧ s.aborted = false then .thrown error
      else .interrupted error := by
  rw [caught, if_neg h]

theorem afterLoop_fault (h : o.expectedOutcome ≠ .complete) (s : CallState) :
    afterLoop o call s = .error (newError
      s!"RPC stream unexpectedly completed during {o.expectedOutcome.name} phase") := by
  rw [afterLoop, Check.failIf, if_pos h]
  rfl

/-- A call of a fault caller ends with the stream, or because the caller rejects an event. -/
theorem onEvent_eq_inr (h : o.expectedOutcome ≠ .complete) {s : CallState} {e : StreamEvent}
    {callEnd : CallEnd} (hend : s.onEvent o call e = .inr callEnd) :
    ∃ error, callEnd = caught o s error ∧ (e = .error error ∨ s.Rejects o call e) := by
  cases e with
  | frame response =>
    rcases hcheck : checkResponse o call s response with error | worker
    · simp only [CallState.onEvent, hcheck, Sum.inr.injEq] at hend
      exact ⟨error, hend.symm, .inr ⟨error, hcheck⟩⟩
    · simp only [CallState.onEvent, hcheck] at hend
      cases hend
  | done =>
    simp only [CallState.onEvent, afterLoop_fault h, Sum.inr.injEq] at hend
    exact ⟨_, hend.symm, .inr trivial⟩
  | error error => exact ⟨error, (Sum.inr.inj hend).symm, .inl rfl⟩
  | abort => cases hend

/-- An event that the caller rejects ends the call. -/
theorem onEvent_of_rejects (h : o.expectedOutcome ≠ .complete) {s : CallState} {e : StreamEvent}
    (hrejects : s.Rejects o call e) : ∃ error, s.onEvent o call e = .inr (caught o s error) := by
  cases e with
  | frame response =>
    obtain ⟨error, hcheck⟩ := hrejects
    exact ⟨error, by simp only [CallState.onEvent, hcheck]⟩
  | done =>
    refine ⟨newError s!"RPC stream unexpectedly completed during {o.expectedOutcome.name} phase",
      ?_⟩
    rw [CallState.onEvent, afterLoop_fault h]
  | error error => cases hrejects
  | abort => cases hrejects

theorem runCall_of_rejects (h : o.expectedOutcome ≠ .complete) {c : Call} {s : CallState}
    {e : StreamEvent} (hreach : ReachesWith o c s e) (hrejects : s.Rejects o c.number e) :
    ∃ error, runCall o c.number .start c.events = some (s, caught o s error) := by
  obtain ⟨es, rest, hevents, hes⟩ := hreach
  obtain ⟨error, he⟩ := onEvent_of_rejects h hrejects
  exact ⟨error, runCall_eq_some.mpr ⟨es, e, rest, hevents, hes, he⟩⟩

end Call

/-! ### What the caller counts -/

section Run

variable {o : RpcStreamCallerOptions}

/-- The logs of a fleet of one caller. -/
def CallerRun.logs (r : CallerRun o) (name : String) : JsMap String Log :=
  ⟨[(name, r.log)], List.nodup_singleton _⟩

/-- The evidence of a run is genuine. -/
structure CallerRun.Genuine (r : CallerRun o) : Prop where
  /-- A call is counted only if its stream ended with an error of its own. -/
  counted : ∀ t, r.counters = some (.ok t) → 0 < t.interrupted →
    ∃ c, r.calls = [c] ∧ Interrupted o c
  /-- The caller fails if the stream of a call completes or sends a frame that fails a check. -/
  rejected : ∀ c ∈ r.calls, ∀ s e, ReachesWith o c s e → s.Rejects o c.number e →
    ∀ result, r.result = some result → ∃ error, result = .error error
  /-- The host accepts the log only if the call was interrupted. -/
  observedFault : ∀ name expectedOutcome,
    assertObservedFault (r.logs name) expectedOutcome = .ok () →
      ∃ c, r.calls = [c] ∧ Interrupted o c
  interruptedCaller : ∀ name, assertInterruptedCaller (r.logs name) = .ok () →
    ∃ c, r.calls = [c] ∧ Interrupted o c

/-- The stream of the call does not complete or send a frame that fails a check, or it does so
before a caller that cancels has cancelled. -/
def CallerRun.EndsByStream (r : CallerRun o) : Prop :=
  o.operations = 1 → ∀ c ∈ r.calls, c.abortReason = none → ∀ s e, ReachesWith o c s e →
    s.Rejects o c.number e → o.expectedOutcome = .cancel ∧ s.aborted = false

theorem CallerRun.calls_of_one (r : CallerRun o) (h : o.operations = 1) :
    r.calls = [] ∨ ∃ c, r.calls = [c] := by
  have hzero : ∀ n ∈ r.calls.map Call.number, n = 0 := by
    intro n hn
    obtain ⟨c, hc, rfl⟩ := List.mem_map.mp hn
    have := r.lt_operations c hc
    omega
  have hreplicate := List.eq_replicate_of_mem hzero
  have hnodup := r.nodup
  rw [hreplicate, List.nodup_replicate, List.length_map] at hnodup
  rcases hcalls : r.calls with _ | ⟨c, calls⟩
  · exact .inl rfl
  · rw [hcalls, List.length_cons] at hnodup
    obtain rfl := List.length_eq_zero_iff.mp (by omega : calls.length = 0)
    exact .inr ⟨c, rfl⟩

theorem CallerRun.counters_of_ne_one (r : CallerRun o) (h : o.expectedOutcome ≠ .complete)
    (hone : o.operations ≠ 1) : ∃ error, r.counters = some (.error error) :=
  ⟨_, by rw [CallerRun.counters, if_pos ⟨h, hone⟩]⟩

/-- The counters of a caller whose only call has ended. -/
theorem CallerRun.counters_singleton (r : CallerRun o) (hone : o.operations = 1) {c : Call}
    (hcalls : r.calls = [c]) (habort : c.abortReason = none) {s : CallState}
    {callEnd : CallEnd} (hrun : runCall o c.number .start c.events = some (s, callEnd)) :
    r.counters = some (Counters.zero.settle o c s callEnd) := by
  rw [CallerRun.counters, if_neg fun h => h.2 hone, hcalls, runConcurrent, habort]
  dsimp only
  rw [hrun]
  dsimp only
  rcases Counters.zero.settle o c s callEnd with error | t
  · rfl
  · simp [runConcurrent, hone]

/-- What it takes for the counters of a fault caller to be complete. -/
theorem CallerRun.counters_eq_ok (r : CallerRun o) (h : o.expectedOutcome ≠ .complete)
    {t : Counters} (ht : r.counters = some (.ok t)) : o.operations = 1 ∧ ∃ c, r.calls = [c] ∧
      c.abortReason = none ∧ ∃ s callEnd, runCall o c.number .start c.events = some (s, callEnd) ∧
        Counters.zero.settle o c s callEnd = .ok t := by
  by_cases hone : o.operations = 1
  · refine ⟨hone, ?_⟩
    obtain hcalls | ⟨c, hcalls⟩ := r.calls_of_one hone
    · rw [CallerRun.counters, if_neg fun h => h.2 hone, hcalls, runConcurrent] at ht
      simp [hone] at ht
    · rcases habort : c.abortReason with _ | reason
      · rcases hrun : runCall o c.number .start c.events with _ | ⟨s, callEnd⟩
        · rw [CallerRun.counters, if_neg fun h => h.2 hone, hcalls, runConcurrent, habort] at ht
          simp [hrun] at ht
        · rw [r.counters_singleton hone hcalls habort hrun] at ht
          exact ⟨c, hcalls, habort, s, callEnd, hrun, Option.some.inj ht⟩
      · rw [CallerRun.counters, if_neg fun h => h.2 hone, hcalls, runConcurrent, habort] at ht
        cases ht
  · obtain ⟨error, herror⟩ := r.counters_of_ne_one h hone
    rw [herror] at ht
    cases ht

/-- The result of a caller that counts the error of its call. -/
theorem CallerRun.result_interrupted (r : CallerRun o) (h : o.expectedOutcome ≠ .complete)
    (hone : o.operations = 1) {c : Call} (hcalls : r.calls = [c])
    (habort : c.abortReason = none) {s : CallState} {error : Thrown}
    (hrun : runCall o c.number .start c.events = some (s, .interrupted error)) :
    ∃ lines, r.result = some (.ok lines) := by
  rw [CallerRun.result, r.counters_singleton hone hcalls habort hrun, Option.map_some]
  simp only [Counters.settle, Except.bind, afterCalls, Check.bind_eq, Check.failIf, h, false_and,
    if_false, Counters.zero, hone, ne_eq, not_true_eq_false, and_false, Check.pure_eq]
  exact ⟨_, rfl⟩

/-- The result of a caller that fails. -/
theorem CallerRun.result_error {r : CallerRun o} {error : Thrown}
    (h : r.counters = some (.error error)) : r.result = some (.error error) := by
  rw [CallerRun.result, h]
  rfl

/-- A fault caller that has printed its last record has counted one call. -/
theorem CallerRun.interrupted_of_result (r : CallerRun o) (h : o.expectedOutcome ≠ .complete)
    {lines : Log} (hresult : r.result = some (.ok lines)) :
    ∃ t, r.counters = some (.ok t) ∧ 0 < t.interrupted := by
  rw [CallerRun.result, Option.map_eq_some_iff] at hresult
  obtain ⟨counters, hcounters, hbind⟩ := hresult
  obtain ⟨t, rfl, hafter⟩ := Check.bind_eq_ok.mp hbind
  have hone := (r.counters_eq_ok h hcounters).1
  rw [afterCalls, Check.bind_eq, Check.seq_eq_ok, Check.bind_eq, Check.seq_eq_ok,
    Check.failIf_eq_ok, Check.failIf_eq_ok] at hafter
  have hinterrupted : t.interrupted = o.operations := by
    by_contra hne
    exact hafter.2.1 ⟨h, hne⟩
  exact ⟨t, hcounters, by omega⟩

/-- The log of a caller has the record the host looks for only if the caller has printed it. -/
theorem CallerRun.result_of_requiredEvent (r : CallerRun o) {complete : Record}
    (h : requiredEvent r.log "rpc_stream_caller_complete" = .ok complete) :
    ∃ lines, r.result = some (.ok lines) := by
  by_contra hnone
  have hlog : r.log = r.before ++ r.after := by
    unfold CallerRun.log
    split
    · rename_i lines hlines
      exact absurd ⟨lines, hlines⟩ hnone
    · rfl
  have hother :
      ∀ record ∈ parseJsonRecords r.log, ¬IsEvent record "rpc_stream_caller_complete" := by
    intro record hrecord
    rw [hlog] at hrecord
    obtain ⟨line, hline, hrecord⟩ := List.mem_filterMap.mp hrecord
    rcases List.mem_append.mp hline with hline | hline
    · exact r.before_other line hline record hrecord
    · exact r.after_other line hline record hrecord
  have hfind : (parseJsonRecords r.log).reverse.find? (fun record =>
      IsEvent record "rpc_stream_caller_complete") = none := by
    rw [List.find?_eq_none]
    exact fun record hrecord => by simpa using hother record (List.mem_reverse.mp hrecord)
  rw [requiredEvent, hfind] at h
  cases h

theorem CallerRun.result_of_observedFault (r : CallerRun o) {name : String}
    {expectedOutcome : ExpectedOutcome}
    (h : assertObservedFault (r.logs name) expectedOutcome = .ok ()) :
    ∃ lines, r.result = some (.ok lines) := by
  simp only [assertObservedFault, CallerRun.logs, Check.bind_eq, Check.bind_eq_ok] at h
  obtain ⟨complete, hcomplete, -⟩ := h
  exact r.result_of_requiredEvent hcomplete

theorem CallerRun.result_of_interruptedCaller (r : CallerRun o) {name : String}
    (h : assertInterruptedCaller (r.logs name) = .ok ()) :
    ∃ lines, r.result = some (.ok lines) := by
  rw [assertInterruptedCaller, Check.bind_eq, Check.bind_eq_ok] at h
  obtain ⟨complete, hcomplete, -⟩ := h
  exact r.result_of_requiredEvent hcomplete

/-! ### The evidence -/

/-- A call whose error is counted was interrupted, if the caller does not end it itself. -/
theorem CallerRun.EndsByStream.interrupted {r : CallerRun o} (hends : r.EndsByStream)
    (h : o.expectedOutcome ≠ .complete) {t : Counters} (ht : r.counters = some (.ok t)) :
    ∃ c, r.calls = [c] ∧ Interrupted o c := by
  obtain ⟨hone, c, hcalls, habort, s, callEnd, hrun, hsettle⟩ := r.counters_eq_ok h ht
  obtain ⟨es, e, rest, hevents, hes, he⟩ := runCall_eq_some.mp hrun
  have hreach : ReachesWith o c s e := ⟨es, rest, hevents, hes⟩
  obtain ⟨error, rfl, hcause⟩ := onEvent_eq_inr h he
  -- The error would be thrown, had the caller yet to cancel.
  have hcancelled : ¬(o.expectedOutcome = .cancel ∧ s.aborted = false) := by
    intro hyet
    rw [caught_eq h, if_pos hyet] at hsettle
    cases hsettle
  rcases hcause with rfl | hrejects
  · refine ⟨c, hcalls, s, error, hreach, fun hcancel => ?_⟩
    by_contra haborted
    exact hcancelled ⟨hcancel, Bool.eq_false_iff.mpr haborted⟩
  · exact absurd (hends hone c (by simp [hcalls]) habort s e hreach hrejects) hcancelled

/-- A caller that ends its call itself fails, if it has yet to cancel. -/
theorem CallerRun.EndsByStream.fails {r : CallerRun o} (hends : r.EndsByStream)
    (h : o.expectedOutcome ≠ .complete) {c : Call} (hc : c ∈ r.calls) {s : CallState}
    {e : StreamEvent} (hreach : ReachesWith o c s e) (hrejects : s.Rejects o c.number e) :
    ∃ error, r.counters = some (.error error) := by
  by_cases hone : o.operations = 1
  · obtain hcalls | ⟨c', hcalls⟩ := r.calls_of_one hone
    · rw [hcalls] at hc
      cases hc
    · obtain rfl : c = c' := by simpa [hcalls] using hc
      rcases habort : c.abortReason with _ | reason
      · obtain ⟨error, hrun⟩ := runCall_of_rejects h hreach hrejects
        rw [caught_eq h, if_pos (hends hone c hc habort s e hreach hrejects)] at hrun
        exact ⟨error, r.counters_singleton hone hcalls habort hrun⟩
      · refine ⟨reason, ?_⟩
        rw [CallerRun.counters, if_neg fun h => h.2 hone, hcalls, runConcurrent, habort]
  · exact r.counters_of_ne_one h hone

/-- **The evidence of a fault caller is genuine** iff its stream does not complete or send a frame
that fails a check, or does so before a caller that cancels has cancelled. -/
theorem genuine_iff (r : CallerRun o) (h : o.expectedOutcome ≠ .complete) :
    r.Genuine ↔ r.EndsByStream := by
  constructor
  · intro hgenuine hone c hc habort s e hreach hrejects
    by_contra hcancelled
    obtain ⟨error, hrun⟩ := runCall_of_rejects h hreach hrejects
    rw [caught_eq h, if_neg hcancelled] at hrun
    have hcalls : r.calls = [c] := by
      obtain hcalls | ⟨c', hcalls⟩ := r.calls_of_one hone
      · rw [hcalls] at hc
        cases hc
      · obtain rfl : c = c' := by simpa [hcalls] using hc
        exact hcalls
    -- The error that the caller throws itself is counted, so that the caller does not fail.
    obtain ⟨lines, hresult⟩ := r.result_interrupted h hone hcalls habort hrun
    obtain ⟨error', herror⟩ := hgenuine.rejected c hc s e hreach hrejects _ hresult
    cases herror
  · intro hends
    have hresult : ∀ lines, r.result = some (.ok lines) →
        ∃ c, r.calls = [c] ∧ Interrupted o c := by
      intro lines hlines
      obtain ⟨t, ht, -⟩ := r.interrupted_of_result h hlines
      exact hends.interrupted h ht
    refine ⟨fun t ht _ => hends.interrupted h ht, ?_, fun name expectedOutcome haccept => ?_,
      fun name haccept => ?_⟩
    · intro c hc s e hreach hrejects result hres
      obtain ⟨error, herror⟩ := hends.fails h hc hreach hrejects
      rw [CallerRun.result_error herror, Option.some.injEq] at hres
      exact ⟨error, hres.symm⟩
    · obtain ⟨lines, hlines⟩ := r.result_of_observedFault haccept
      exact hresult lines hlines
    · obtain ⟨lines, hlines⟩ := r.result_of_interruptedCaller haccept
      exact hresult lines hlines

end Run

/-! ### Runs of a caller that expects a failure -/

/-- The options of a caller that expects a failure. -/
def failureOptions : RpcStreamCallerOptions := ⟨"0", 1, 64, 128, .failure, 1⟩

/-- A run whose only call has the given events. -/
def failureRun (events : List StreamEvent) : CallerRun failureOptions where
  calls := [⟨0, none, events⟩]
  nodup := List.nodup_singleton _
  lt_operations := by simp [failureOptions]
  elapsedMs := 5
  before := []
  after := []
  before_other := by simp
  after_other := by simp

/-- A connection that breaks is a genuine interruption. -/
theorem genuine_iff_broken : (failureRun [.error (newError "connection lost")]).Genuine := by
  refine (genuine_iff _ (by decide)).mpr fun _ c hc _ s e ⟨es, rest, hevents, hes⟩ hrejects => ?_
  obtain rfl := List.mem_singleton.mp hc
  obtain ⟨rfl, he⟩ : es = [] ∧ e = .error (newError "connection lost") := by
    cases es with
    | nil => exact ⟨rfl, (List.cons.inj hevents).1.symm⟩
    | cons e' es => simp at hevents
  rw [he] at hrejects
  cases hrejects

/-- **A stream that completes normally** is counted as an interruption, and the host accepts the
log. -/
theorem not_genuine_completed :
    assertObservedFault ((failureRun [.done]).logs "caller") .failure = .ok () ∧
      assertInterruptedCaller ((failureRun [.done]).logs "caller") = .ok () ∧
      ¬(failureRun [.done]).Genuine := by
  have hfault : assertObservedFault ((failureRun [.done]).logs "caller") .failure = .ok () := by
    decide
  refine ⟨hfault, by decide, fun hgenuine => ?_⟩
  obtain ⟨c, hcalls, s, error, ⟨es, rest, hevents, -⟩, -⟩ :=
    hgenuine.observedFault "caller" .failure hfault
  obtain rfl := (List.cons.inj hcalls).1
  cases es with
  | nil => cases (List.cons.inj hevents).1
  | cons e es => simp at hevents

end Live

end FitzDestroyer
