import FitzDestroyer.ResponseState.Conformance

/-!
# What the response-state verdict decides

* `Misbehaves` : what a broker should not do to a caller;
* `Served`, `Undisturbed` : the operations of the raw worker succeed;
* `passes_responseStateVerdict` : the runs that pass;
* `responseState_detects_iff` : when the verdict detects every misbehaviour.
-/

namespace FitzDestroyer

namespace ResponseState

open Js Workload RawProtocol

open Schedule (OtherLine not_isEvent_otherLines)

/-! ### Callers -/

/-- The call completes after one response, which has its body. -/
def AnsweredOnce (c : Case) (call : Call) : Prop :=
  call.error = none ∧ call.responses.map Response.body = [c.body]

/-- A response for another call, or with another body, or more than one terminal response is
delivered to the caller. -/
def Misbehaves (c : Case) (call : Call) : Prop :=
  (∃ r ∈ call.responses, r.correlation ≠ call.correlation) ∨
    2 ≤ (call.responses.countP fun r => r.terminal) ∨ ∃ r ∈ call.responses, r.body ≠ c.body

/-- The loop over the responses reads all of them iff they have the expected body. -/
theorem readResponses_eq {route : String} {body : List UInt8} {frames n : ℕ}
    {responses : List Response} : readResponses route body frames responses = (n, none) ↔
      (∀ r ∈ responses, r.body = body) ∧ n = frames + responses.length := by
  induction responses generalizing frames with
  | nil => simp [readResponses, eq_comm]
  | cons r responses ih =>
    rw [readResponses, List.forall_mem_cons, List.length_cons]
    have hbody := @assertBytesEqual_eq_ok r.body body s!"{route} response {frames}"
    cases hcheck : assertBytesEqual r.body body s!"{route} response {frames}" with
    | ok u =>
      have hcount : n = frames + 1 + responses.length ↔ n = frames + (responses.length + 1) := by
        omega
      simp only [ih, hcount, hbody.mp hcheck, true_and]
    | error error =>
      refine iff_of_false (by simp) fun h => ?_
      rw [hbody.mpr h.1.1] at hcheck
      cases hcheck

theorem answeredOnce_iff {route : String} {c : Case} {call : Call} :
    ¬((collectCall route c.body call).frames ≠ 1 ∨ (collectCall route c.body call).failed = true) ↔
      AnsweredOnce c call := by
  have hread := @readResponses_eq route c.body 0
  unfold collectCall
  obtain ⟨⟨n, thrown⟩, hloop⟩ : ∃ x, readResponses route c.body 0 call.responses = x := ⟨_, rfl⟩
  rw [hloop]
  rw [AnsweredOnce, List.map_eq_singleton_iff]
  cases thrown with
  | none =>
    obtain ⟨hbodies, rfl⟩ := hread.mp hloop
    cases herror : call.error with
    | some error => simp
    | none =>
      simp only [Nat.zero_add, Option.orElse_none, Option.isSome_none, or_false, not_not, ne_eq,
        List.length_eq_one_iff, true_and, Bool.false_eq_true]
      constructor
      · rintro ⟨r, hr⟩
        exact ⟨r, hr, hbodies r (by rw [hr]; exact List.mem_singleton_self r)⟩
      · rintro ⟨r, hr, -⟩
        exact ⟨r, hr⟩
  | some error =>
    refine iff_of_false (by simp) ?_
    rintro ⟨-, r, hr, hbody⟩
    have hok := (@hread 1 call.responses).mpr
      ⟨by simpa [hr] using hbody, by simp [hr]⟩
    rw [hloop] at hok
    cases (Prod.mk.inj hok).2

/-! ### The raw worker -/

/-- The responses to the request fit into a record. -/
def Fits (request : RpcWorkerRequest) : Prop := request.body.length + 29 ≤ 0xffff

/-- The raw worker receives requests, and sends a number of frames for each of them, after the ones
that it has sent. -/
def Served (b : Broker) : List ℕ → List (List UInt8) → ℕ → Prop
  | [], _, _ => True
  | n :: ns, inbox, sent => ∃ request inbox',
      receiveWorkerRequest b inbox = .ok (request, inbox') ∧ Fits request ∧
        (∀ i < n, b.sendError (sent + i) = none) ∧ Served b ns inbox' (sent + n)

/-- A frame with a response. -/
def responseFrame (correlation : List UInt8) (sequence : ℕ) (terminal : Bool)
    (body : List UInt8) : List UInt8 :=
  tlvBytes rpcResponse (concatBytes [correlation, encodeU64 sequence,
    [if terminal then 1 else 0], encodeBytes body])

section Worker

variable {b : Broker} {route : String} {s s' : RunState}

theorem encodeTlv_eq_ok_iff {type : ℕ} {payload frame : List UInt8} (htype : type ≤ 0xffff) :
    encodeTlv (type : Number) payload = .ok frame ↔
      payload.length ≤ 0xffff ∧ frame = tlvBytes type payload := by
  by_cases hpayload : payload.length ≤ 0xffff
  · rw [encodeTlv_eq_ok htype hpayload, Except.ok.injEq]
    exact ⟨fun h => ⟨hpayload, h.symm⟩, fun h => h.2.symm⟩
  · have hsafe : type ≤ maxSafeInteger := htype.trans (by decide)
    refine iff_of_false ?_ fun h => hpayload h.1
    simp only [encodeTlv, Number.sequence?_natCast hsafe]
    rw [if_neg (not_lt.mpr htype), if_pos (not_le.mp hpayload)]
    simp

theorem send_eq_ok {frame : List UInt8} : send b s frame = .ok s' ↔
    b.sendError s.sent.length = none ∧ s' = { s with sent := s.sent ++ [frame] } := by
  simp only [send, Check.bind_eq, Check.seq_eq_ok, Check.attempt_eq_ok, Check.pure_eq,
    Except.ok.injEq, eq_comm (a := s')]

theorem sendRpcResponse_eq_ok {correlation body : List UInt8} {sequence : ℕ} {terminal : Bool}
    (hcorrelation : correlation.length = 16) :
    sendRpcResponse b s correlation sequence terminal body = .ok s' ↔
      body.length + 29 ≤ 0xffff ∧ b.sendError s.sent.length = none ∧
        s' = { s with sent := s.sent ++ [responseFrame correlation sequence terminal body] } := by
  have hlength : (concatBytes [correlation, encodeU64 sequence, [if terminal then 1 else 0],
      encodeBytes body]).length = body.length + 29 := by
    simp only [concatBytes, List.flatten_cons, List.flatten_nil, List.length_append, encodeU64,
      length_bigEndian, length_encodeBytes, List.length_cons, List.length_nil, hcorrelation]
    omega
  have hpayload : encodeRpcResponsePayload correlation sequence terminal body =
      .ok (concatBytes [correlation, encodeU64 sequence, [if terminal then 1 else 0],
        encodeBytes body]) := by
    rw [encodeRpcResponsePayload, Check.bind_eq, Check.seq_eq_ok, Check.failIf_eq_ok]
    exact ⟨not_not.mpr hcorrelation, rfl⟩
  rw [sendRpcResponse, hpayload, Check.bind_eq, Except.bind, Check.bind_eq, Check.bind_eq_ok]
  simp only [encodeTlv_eq_ok_iff (show rpcResponse ≤ 0xffff by decide), hlength, send_eq_ok,
    and_assoc, exists_and_left, exists_eq_left]
  rfl

theorem receive_correlation {inbox inbox' : List (List UInt8)} {request : RpcWorkerRequest}
    (h : receiveWorkerRequest b inbox = .ok (request, inbox')) :
    request.correlation.length = 16 := by
  simp only [receiveWorkerRequest, Check.bind_eq, Check.bind_eq_ok, Check.pure_eq,
    Except.ok.injEq, Prod.mk.injEq] at h
  obtain ⟨⟨payload, _⟩, -, _, hdecode, rfl, -⟩ := h
  rw [decodeRpcWorkerRequest, Check.bind_eq, Check.seq_eq_ok, Check.failIf_eq_ok, not_lt] at hdecode
  simp only [Check.bind_eq, Check.bind_eq_ok, Check.pure_eq, Except.ok.injEq] at hdecode
  obtain ⟨hlength, _, -, _, -, _, -, _, -, rfl⟩ := hdecode
  rw [List.length_take]
  omega

end Worker

/-! ### The cases -/

/-- A case of the run: the worker receives a request and sends the given frames for it, and the
counters change.  It goes well only if `good` holds. -/
def Phase (b : Broker) (frames : RpcWorkerRequest → List (List UInt8))
    (count : RpcResponseStateEvidence → RpcResponseStateEvidence) (good : Prop)
    (p : RunState → Except Thrown RunState) : Prop :=
  ∀ s s', p s = .ok s' ↔ ∃ request inbox, receiveWorkerRequest b s.inbox = .ok (request, inbox) ∧
    Fits request ∧ (∀ i < (frames request).length, b.sendError (s.sent.length + i) = none) ∧
      good ∧ s' = ⟨inbox, s.sent ++ frames request, count s.evidence⟩

/-- The rest of a run, which goes well only if `good` holds and the worker sends the given numbers
of frames, and then returns the counters. -/
def Continues (b : Broker) (ns : List ℕ) (e e' : RpcResponseStateEvidence) (good : Prop)
    (rest : RunState → Except Thrown RpcResponseStateEvidence) : Prop :=
  ∀ s, s.evidence = e → ∀ a, rest s = .ok a ↔
    good ∧ Served b ns s.inbox s.sent.length ∧ a = e'

section Cases

variable {b : Broker} {route : String}

theorem forall_lt_two {P : ℕ → Prop} : (∀ i < 2, P i) ↔ P 0 ∧ P 1 :=
  ⟨fun h => ⟨h 0 (by decide), h 1 (by decide)⟩, fun h i hi => by
    obtain rfl | rfl : i = 0 ∨ i = 1 := by omega
    · exact h.1
    · exact h.2⟩

theorem forall_lt_one {P : ℕ → Prop} : (∀ i < 1, P i) ↔ P 0 :=
  ⟨fun h => h 0 (by decide), fun h i hi => Nat.lt_one_iff.mp hi ▸ h⟩

/-- The phases of a run follow each other. -/
theorem Phase.continues {frames : RpcWorkerRequest → List (List UInt8)}
    {count : RpcResponseStateEvidence → RpcResponseStateEvidence} {good good' : Prop} {n : ℕ}
    {ns : List ℕ} {e e' : RpcResponseStateEvidence} {p : RunState → Except Thrown RunState}
    {rest : RunState → Except Thrown RpcResponseStateEvidence} (h : Phase b frames count good p)
    (hframes : ∀ request, (frames request).length = n)
    (hrest : Continues b ns (count e) e' good' rest) :
    Continues b (n :: ns) e e' (good ∧ good') fun s => (p s).bind rest := by
  rintro s rfl a
  simp only [Check.bind_eq_ok, h s, hframes, Served]
  constructor
  · rintro ⟨_, ⟨request, inbox, hreceive, hfits, hsends, hgood, rfl⟩, ha⟩
    obtain ⟨hgood', hserved, rfl⟩ := (hrest _ rfl a).mp ha
    rw [List.length_append, hframes] at hserved
    exact ⟨⟨hgood, hgood'⟩, ⟨request, inbox, hreceive, hfits, hsends, hserved⟩, rfl⟩
  · rintro ⟨⟨hgood, hgood'⟩, ⟨request, inbox, hreceive, hfits, hsends, hserved⟩, rfl⟩
    refine ⟨_, ⟨request, inbox, hreceive, hfits, hsends, hgood, rfl⟩, (hrest _ rfl _).mpr ?_⟩
    rw [List.length_append, hframes]
    exact ⟨hgood', hserved, rfl⟩

/-- The frames that the worker sends to the call with another correlation. -/
def wrongFrames (request : RpcWorkerRequest) : List (List UInt8) :=
  [responseFrame (request.correlation.set 15 (request.correlation.getD 15 0 + 1)) 0 true [],
    responseFrame request.correlation 0 true request.body]

theorem wrongCorrelation_phase : Phase b wrongFrames
    (fun e => { e with
      callersTerminated := e.callersTerminated + 1
      unknownCorrelationRejected := e.unknownCorrelationRejected + 1 }) True
    (wrongCorrelation b route) := by
  intro s s'
  rw [wrongCorrelation, Check.bind_eq, Check.bind_eq_ok, Prod.exists]
  refine exists_congr fun request => exists_congr fun inbox => and_congr_right fun hreceive => ?_
  have hcorrelation := receive_correlation hreceive
  have hwrong : (request.correlation.set 15 (request.correlation.getD 15 0 + 1)).length = 16 := by
    rw [List.length_set, hcorrelation]
  simp only [Check.bind_eq, Check.bind_eq_ok, sendRpcResponse_eq_ok hwrong, sendSuccessfulTerminal,
    sendRpcResponse_eq_ok hcorrelation, Check.pure_eq, Except.ok.injEq]
  constructor
  · rintro ⟨_, ⟨-, hsend, rfl⟩, _, ⟨hfits, hsend', rfl⟩, rfl⟩
    refine ⟨hfits, forall_lt_two.mpr ⟨hsend, ?_⟩, trivial, ?_⟩
    · simpa using hsend'
    · simp [wrongFrames, RpcResponseStateEvidence.addOutcome, outcome, collectCall]
  · rintro ⟨hfits, hsends, -, rfl⟩
    obtain ⟨hsend, hsend'⟩ := forall_lt_two.mp hsends
    refine ⟨_, ⟨by simp, hsend, rfl⟩, _, ⟨hfits, ?_, rfl⟩, ?_⟩
    · simpa using hsend'
    · simp [wrongFrames, RpcResponseStateEvidence.addOutcome, outcome, collectCall]

theorem duplicateTerminal_phase : Phase b
    (fun request => [responseFrame request.correlation 0 true request.body,
      responseFrame request.correlation 1 true request.body])
    (fun e => { e with
      callersTerminated := e.callersTerminated + 1
      duplicateTerminalRejected := e.duplicateTerminalRejected + 1 }) True
    (duplicateTerminal b route) := by
  intro s s'
  rw [duplicateTerminal, Check.bind_eq, Check.bind_eq_ok, Prod.exists]
  refine exists_congr fun request => exists_congr fun inbox => and_congr_right fun hreceive => ?_
  have hcorrelation := receive_correlation hreceive
  simp only [Check.bind_eq, Check.bind_eq_ok, sendSuccessfulTerminal,
    sendRpcResponse_eq_ok hcorrelation, Check.pure_eq, Except.ok.injEq]
  constructor
  · rintro ⟨_, ⟨hfits, hsend, rfl⟩, _, ⟨-, hsend', rfl⟩, rfl⟩
    refine ⟨hfits, forall_lt_two.mpr ⟨hsend, ?_⟩, trivial, ?_⟩
    · simpa using hsend'
    · simp [RpcResponseStateEvidence.addOutcome, outcome, collectCall]
  · rintro ⟨hfits, hsends, -, rfl⟩
    obtain ⟨hsend, hsend'⟩ := forall_lt_two.mp hsends
    refine ⟨_, ⟨hfits, hsend, rfl⟩, _, ⟨hfits, ?_, rfl⟩, ?_⟩
    · simpa using hsend'
    · simp [RpcResponseStateEvidence.addOutcome, outcome, collectCall]

/-- The frame that answers a request as it should be answered. -/
def successFrames (request : RpcWorkerRequest) : List (List UInt8) :=
  [responseFrame request.correlation 0 true request.body]

theorem cancelled_phase : Phase b successFrames
    (fun e => { e with
      callersTerminated := e.callersTerminated + 1
      postCancelResponsesObserved := e.postCancelResponsesObserved + 1 }) True
    (cancelled b route) := by
  intro s s'
  rw [cancelled, Check.bind_eq, Check.bind_eq_ok, Prod.exists]
  refine exists_congr fun request => exists_congr fun inbox => and_congr_right fun hreceive => ?_
  have hcorrelation := receive_correlation hreceive
  simp only [Check.bind_eq, Check.bind_eq_ok, sendRpcResponse_eq_ok hcorrelation, Check.pure_eq,
    Except.ok.injEq]
  constructor
  · rintro ⟨_, ⟨hfits, hsend, rfl⟩, rfl⟩
    exact ⟨hfits, forall_lt_one.mpr hsend, trivial, rfl⟩
  · rintro ⟨hfits, hsends, -, rfl⟩
    exact ⟨_, ⟨hfits, forall_lt_one.mp hsends, rfl⟩, rfl⟩

theorem callerDisconnect_phase : Phase b successFrames
    (fun e => { e with
      callersTerminated := e.callersTerminated + 1
      postDisconnectRejected := e.postDisconnectRejected + 1 })
    (b.connectError = none ∧ b.closeError = none) (callerDisconnect b route) := by
  intro s s'
  rw [callerDisconnect, Check.bind_eq, Check.seq_eq_ok, Check.attempt_eq_ok, Check.bind_eq,
    Check.bind_eq_ok, Prod.exists]
  simp only [Check.bind_eq, Check.seq_eq_ok, Check.attempt_eq_ok, Check.pure_eq]
  constructor
  · rintro ⟨hconnect, request, inbox, hreceive, hclose, hsend⟩
    have hcorrelation := receive_correlation hreceive
    simp only [Check.bind_eq_ok, sendRpcResponse_eq_ok hcorrelation, Except.ok.injEq] at hsend
    obtain ⟨_, ⟨hfits, hsend, rfl⟩, rfl⟩ := hsend
    exact ⟨request, inbox, hreceive, hfits, forall_lt_one.mpr hsend, ⟨hconnect, hclose⟩, rfl⟩
  · rintro ⟨request, inbox, hreceive, hfits, hsends, ⟨hconnect, hclose⟩, rfl⟩
    have hcorrelation := receive_correlation hreceive
    refine ⟨hconnect, request, inbox, hreceive, hclose, ?_⟩
    simp only [Check.bind_eq_ok, sendRpcResponse_eq_ok hcorrelation, Except.ok.injEq]
    exact ⟨_, ⟨hfits, forall_lt_one.mp hsends, rfl⟩, rfl⟩

theorem healthy_phase (sequence : ℕ) : Phase b successFrames
    (fun e => { e with healthyCalls := e.healthyCalls + 1 })
    (AnsweredOnce (.healthy sequence) (b.calls (.healthy sequence)))
    (healthy b route · sequence) := by
  intro s s'
  change healthy b route s sequence = _ ↔ _
  rw [healthy, Check.bind_eq, Check.bind_eq_ok, Prod.exists]
  refine exists_congr fun request => exists_congr fun inbox => and_congr_right fun hreceive => ?_
  have hcorrelation := receive_correlation hreceive
  dsimp only
  rw [Check.bind_eq, Check.bind_eq_ok]
  simp only [Check.bind_eq, Check.seq_eq_ok, sendSuccessfulTerminal,
    sendRpcResponse_eq_ok hcorrelation, outcome, Check.pure_eq, Except.ok.injEq]
  constructor
  · rintro ⟨_, ⟨hfits, hsend, rfl⟩, hcheck, rfl⟩
    have hanswered := answeredOnce_iff.mp (Check.failIf_eq_ok.mp hcheck)
    exact ⟨hfits, forall_lt_one.mpr hsend, hanswered, rfl⟩
  · rintro ⟨hfits, hsends, hanswered, rfl⟩
    exact ⟨_, ⟨hfits, forall_lt_one.mp hsends, rfl⟩,
      Check.failIf_eq_ok.mpr (answeredOnce_iff.mpr hanswered), rfl⟩

/-- The loop over the healthy calls, of any number of them. -/
theorem healthy_continues (sequences : List ℕ) (e : RpcResponseStateEvidence) :
    Continues b (sequences.map fun _ => 1) e
      { e with healthyCalls := e.healthyCalls + sequences.length }
      (∀ sequence ∈ sequences,
        AnsweredOnce (.healthy sequence) (b.calls (.healthy sequence)))
      fun s => (sequences.foldlM (healthy b route) s).bind fun s => .ok s.evidence := by
  induction sequences generalizing e with
  | nil =>
    rintro s rfl a
    simp [Served, Except.bind, eq_comm]
  | cons sequence sequences ih =>
    have hrest := (@healthy_phase b route sequence).continues (fun _ => rfl)
      (ih { e with healthyCalls := e.healthyCalls + 1 })
    intro s hs a
    have hbind : ((sequence :: sequences).foldlM (healthy b route) s).bind
        (fun s => Except.ok s.evidence) = (healthy b route s sequence).bind fun s =>
          (sequences.foldlM (healthy b route) s).bind fun s => .ok s.evidence := by
      rw [List.foldlM_cons, Check.bind_eq]
      cases healthy b route s sequence <;> rfl
    dsimp only
    rw [hbind, hrest s hs a, List.forall_mem_cons, List.map_cons, List.length_cons]
    simp only [Nat.add_right_comm, Nat.add_assoc]

/-- All cases, one after the other. -/
theorem cases_continue : Continues b [2, 2, 1, 1, 1, 1, 1, 1] .start expectedEvidence
    (True ∧ True ∧ True ∧ (b.connectError = none ∧ b.closeError = none) ∧
      ∀ sequence ∈ List.range 4, AnsweredOnce (.healthy sequence) (b.calls (.healthy sequence)))
    fun s => (wrongCorrelation b route s).bind fun s => (duplicateTerminal b route s).bind fun s =>
      (cancelled b route s).bind fun s => (callerDisconnect b route s).bind fun s =>
        ((List.range 4).foldlM (healthy b route) s).bind fun s => .ok s.evidence :=
  wrongCorrelation_phase.continues (fun _ => rfl)
    (duplicateTerminal_phase.continues (fun _ => rfl)
      (cancelled_phase.continues (fun _ => rfl)
        (callerDisconnect_phase.continues (fun _ => rfl)
          (healthy_continues (List.range 4) _))))

end Cases

/-! ### The run -/

/-- The route of a run. -/
def routeOf (namespaceName : String) : String := s!"rpc://destroyer/{namespaceName}/response-state"

/-- The operations of the run succeed, up to the checks of the calls: the connections open and
close, the broker accepts the raw worker, sends it a request for every call, and takes its frames,
which are not too large. -/
structure Undisturbed (namespaceName : String) (b : Broker) : Prop where
  opens : b.openError = none
  route : (encode (routeOf namespaceName)).length + 8 ≤ 0xffff
  sends : ∀ i < 2, b.sendError i = none
  connects : b.connectError = none
  closes : b.closeError = none
  served : ∃ payload inbox result,
    receiveRecord b rpcSubscribeWorker b.inbox = .ok (payload, inbox) ∧
      decodeStandardResponse payload = .ok result ∧ result.ok = true ∧
        Served b [2, 2, 1, 1, 1, 1, 1, 1] inbox 2

section Run

variable {namespaceName : String} {b : Broker} {route : String} {s s' : RunState}

theorem connectRawWorker_eq_ok : connectRawWorker b route s = .ok s' ↔
    (encode route).length + 8 ≤ 0xffff ∧ (∀ i < 2, b.sendError (s.sent.length + i) = none) ∧
      ∃ payload inbox result,
        receiveRecord b rpcSubscribeWorker s.inbox = .ok (payload, inbox) ∧
          decodeStandardResponse payload = .ok result ∧ result.ok = true ∧
            s' = ⟨inbox, s.sent ++ [tlvBytes 1 [], tlvBytes rpcSubscribeWorker
              (concatBytes [encodeString route, bigEndian 4 1])], s.evidence⟩ := by
  have hhello : encodeTlv ((1 : ℕ) : Number) [] = .ok (tlvBytes 1 []) :=
    encodeTlv_eq_ok (by decide) (by decide)
  have hcredit : encodeU32 ((1 : ℕ) : Number) = .ok (bigEndian 4 1) := by
    simp only [encodeU32, Number.sequence?_natCast (show 1 ≤ maxSafeInteger by decide)]
    rfl
  have hlength : (concatBytes [encodeString route, bigEndian 4 1]).length =
      (encode route).length + 8 := by
    simp only [concatBytes, List.flatten_cons, List.flatten_nil, List.length_append, encodeString,
      length_encodeBytes, length_bigEndian, List.length_nil]
    omega
  rw [connectRawWorker, hhello, Check.bind_eq, Except.bind]
  simp only [Check.bind_eq, Check.bind_eq_ok, send_eq_ok, hcredit, Except.ok.injEq,
    exists_eq_left', encodeTlv_eq_ok_iff (show rpcSubscribeWorker ≤ 0xffff by decide), hlength,
    Prod.exists, Check.pure_eq]
  constructor
  · rintro ⟨_, ⟨hsend, rfl⟩, _, ⟨hroute, rfl⟩, _, ⟨hsend', rfl⟩, payload, inbox, hreceive, result,
      hdecode, _, hok, rfl⟩
    refine ⟨hroute, forall_lt_two.mpr ⟨hsend, by simpa using hsend'⟩, payload, inbox, result,
      hreceive, hdecode, ?_, by simp⟩
    simpa using Check.failIf_eq_ok.mp hok
  · rintro ⟨hroute, hsends, payload, inbox, result, hreceive, hdecode, hok, rfl⟩
    obtain ⟨hsend, hsend'⟩ := forall_lt_two.mp hsends
    refine ⟨_, ⟨hsend, rfl⟩, _, ⟨hroute, rfl⟩, _, ⟨by simpa using hsend', rfl⟩, payload, inbox,
      hreceive, result, hdecode, (), ?_, by simp⟩
    exact Check.failIf_eq_ok.mpr (by simp [hok])

/-- **The counters do not depend on what the callers observe**: a run that does not throw reports
the same ones. -/
theorem run_eq_ok {e : RpcResponseStateEvidence} :
    runRpcResponseStateConformance namespaceName b = .ok e ↔
      Undisturbed namespaceName b ∧
        (∀ sequence < 4, AnsweredOnce (.healthy sequence) (b.calls (.healthy sequence))) ∧
          e = expectedEvidence := by
  have hcases := @cases_continue b (routeOf namespaceName)
  have hhealthy : (∀ sequence ∈ List.range 4,
      AnsweredOnce (.healthy sequence) (b.calls (.healthy sequence))) ↔
        ∀ sequence < 4, AnsweredOnce (.healthy sequence) (b.calls (.healthy sequence)) := by
    simp only [List.mem_range]
  rw [hhealthy] at hcases
  rw [runRpcResponseStateConformance, Check.bind_eq, Check.seq_eq_ok, Check.attempt_eq_ok,
    Check.bind_eq, Check.bind_eq_ok]
  simp only [connectRawWorker_eq_ok]
  constructor
  · rintro ⟨hopens, _, ⟨hroute, hsends, payload, inbox, result, hreceive, hdecode, hok, rfl⟩, hrun⟩
    obtain ⟨⟨-, -, -, ⟨hconnects, hcloses⟩, hanswered⟩, hserved, rfl⟩ := (hcases _ rfl e).mp hrun
    rw [List.length_nil] at hsends
    simp only [Nat.zero_add] at hsends
    exact ⟨⟨hopens, hroute, hsends, hconnects, hcloses, payload, inbox, result, hreceive, hdecode,
      hok, hserved⟩, hanswered, rfl⟩
  · rintro ⟨⟨hopens, hroute, hsends, hconnects, hcloses, payload, inbox, result, hreceive, hdecode,
      hok, hserved⟩, hanswered, rfl⟩
    refine ⟨hopens, _, ⟨hroute, ?_, payload, inbox, result, hreceive, hdecode, hok, rfl⟩,
      (hcases _ rfl _).mpr ⟨⟨trivial, trivial, trivial, ⟨hconnects, hcloses⟩, hanswered⟩, ?_, rfl⟩⟩
    · simpa using hsends
    · exact hserved

/-- The counters of a run that does not throw pass the checks of the host. -/
theorem assertRpcResponseStateEvidence_expected :
    assertRpcResponseStateEvidence (("event", .str "rpc_response_state_conformance_worker_complete")
      :: expectedEvidence.entries.map fun p => (p.1, .count p.2)) = .ok expectedEvidence := by
  rfl

/-- **The runs that pass** are the ones that nothing disturbs and in which every healthy call is
answered once. -/
theorem passes_responseStateVerdict {before after : List OtherLine} :
    Check.Passes (responseStateVerdict namespaceName b before after) ↔
      Undisturbed namespaceName b ∧
        ∀ sequence < 4, AnsweredOnce (.healthy sequence) (b.calls (.healthy sequence)) := by
  have hcomplete : ∀ e : RpcResponseStateEvidence, requiredEvent (before.map OtherLine.line ++
      logLine "rpc_response_state_conformance_worker_complete"
        (e.entries.map fun p => (p.1, .count p.2)) :: after.map OtherLine.line)
          "rpc_response_state_conformance_worker_complete" =
        .ok (("event", .str "rpc_response_state_conformance_worker_complete") ::
          e.entries.map fun p => (p.1, .count p.2)) := fun _ =>
    requiredEvent_append (isEvent_logLine.mpr rfl) (not_isEvent_otherLines (by decide) _)
  rw [responseStateVerdict, Check.bind_eq, Check.passes_bind]
  simp only [run_eq_ok, hcomplete, Check.bind_eq, Except.bind]
  constructor
  · rintro ⟨_, ⟨hundisturbed, hanswered, rfl⟩, -⟩
    exact ⟨hundisturbed, hanswered⟩
  · rintro ⟨hundisturbed, hanswered⟩
    exact ⟨_, ⟨hundisturbed, hanswered, rfl⟩, _, assertRpcResponseStateEvidence_expected⟩

/-- The calls of a run. -/
def cases : List Case :=
  [.wrongCorrelation, .duplicateTerminal, .cancelled, .callerDisconnect] ++
    (List.range 4).map .healthy

/-- A call that is answered once misbehaves iff its response is for another call. -/
theorem AnsweredOnce.misbehaves_iff {c : Case} {call : Call} (h : AnsweredOnce c call) :
    Misbehaves c call ↔ ∃ r ∈ call.responses, r.correlation ≠ call.correlation := by
  obtain ⟨r, hr, hbody⟩ := List.map_eq_singleton_iff.mp h.2
  have hterminals : call.responses.countP (fun r => r.terminal) ≤ 1 :=
    List.countP_le_length.trans (by rw [hr]; rfl)
  constructor
  · rintro (hcorrelation | hterminal | ⟨r', hr', hwrong⟩)
    · exact hcorrelation
    · exact absurd (hterminal.trans hterminals) (by decide)
    · rw [hr, List.mem_singleton] at hr'
      exact absurd (hr' ▸ hbody) hwrong
  · exact .inl

/-- **The verdict detects misbehaviour** iff, in a run that nothing disturbs and in which every
healthy call is answered once, the other calls do not misbehave and the responses of the healthy
calls are not for other calls. -/
theorem responseState_detects_iff {before after : List OtherLine} :
    ((∃ c ∈ cases, Misbehaves c (b.calls c)) →
      ¬Check.Passes (responseStateVerdict namespaceName b before after)) ↔
        (Undisturbed namespaceName b →
          (∀ sequence < 4, AnsweredOnce (.healthy sequence) (b.calls (.healthy sequence))) →
            (∀ c ∈ [Case.wrongCorrelation, .duplicateTerminal, .cancelled, .callerDisconnect],
              ¬Misbehaves c (b.calls c)) ∧
            ∀ sequence < 4, ∀ r ∈ (b.calls (.healthy sequence)).responses,
              r.correlation = (b.calls (.healthy sequence)).correlation) := by
  have hexists : (∃ c ∈ cases, Misbehaves c (b.calls c)) ↔
      (∃ c ∈ [Case.wrongCorrelation, .duplicateTerminal, .cancelled, .callerDisconnect],
        Misbehaves c (b.calls c)) ∨
      ∃ sequence < 4, Misbehaves (.healthy sequence) (b.calls (.healthy sequence)) := by
    simp only [cases, List.mem_append, List.mem_map, List.mem_range, or_and_right, exists_or,
      exists_exists_and_eq_and]
  rw [passes_responseStateVerdict, hexists]
  constructor
  · intro h hundisturbed hanswered
    refine ⟨fun c hc hmisbehaves => h (.inl ⟨c, hc, hmisbehaves⟩) ⟨hundisturbed, hanswered⟩,
      fun sequence hsequence r hr => ?_⟩
    by_contra hwrong
    exact h (.inr ⟨sequence, hsequence,
      (hanswered sequence hsequence).misbehaves_iff.mpr ⟨r, hr, hwrong⟩⟩) ⟨hundisturbed, hanswered⟩
  · rintro h hmisbehaves ⟨hundisturbed, hanswered⟩
    obtain ⟨hfaults, hhealthy⟩ := h hundisturbed hanswered
    obtain ⟨c, hc, hcall⟩ | ⟨sequence, hsequence, hcall⟩ := hmisbehaves
    · exact hfaults c hc hcall
    · obtain ⟨r, hr, hwrong⟩ := (hanswered sequence hsequence).misbehaves_iff.mp hcall
      exact hwrong (hhealthy sequence hsequence r hr)

end Run

/-! ### A wrong response that is delivered -/

/-- A request as the broker forwards it to the worker. -/
def requestPayload (correlation route body : List UInt8) : List UInt8 :=
  correlation ++ (encodeBytes route ++ encodeBytes body)

theorem decodeRpcWorkerRequest_requestPayload {correlation route body : List UInt8}
    (hcorrelation : correlation.length = 16) (hroute : route.length < 2 ^ 32)
    (hbody : body.length < 2 ^ 32) :
    decodeRpcWorkerRequest (requestPayload correlation route body) =
      .ok ⟨correlation, String.ofList (decode route), body⟩ := by
  have hlength : (requestPayload correlation route body).length =
      24 + route.length + body.length := by
    simp only [requestPayload, List.length_append, length_encodeBytes, hcorrelation]
    omega
  have hreadRoute : readU32 (requestPayload correlation route body) 16 = .ok route.length := by
    rw [← hcorrelation]
    exact readU32_encodeBytes hroute correlation (encodeBytes body)
  have hstart : (correlation ++ encodeBytes route).length = 20 + route.length := by
    rw [List.length_append, length_encodeBytes, hcorrelation]
    omega
  have hreadBody : readU32 (requestPayload correlation route body) (20 + route.length) =
      .ok body.length := by
    rw [requestPayload, ← hstart, ← List.append_assoc, ← List.append_nil (encodeBytes body)]
    exact readU32_encodeBytes hbody (correlation ++ encodeBytes route) []
  -- The bytes of the three parts.
  have hfirst : (requestPayload correlation route body).take 16 = correlation :=
    List.take_left' hcorrelation
  have hsecond : ((requestPayload correlation route body).take (20 + route.length)).drop 20 =
      route := by
    have hhead : (correlation ++ bigEndian 4 route.length).length = 20 := by
      rw [List.length_append, length_bigEndian, hcorrelation]
    rw [requestPayload, ← List.append_assoc, List.take_left' hstart, encodeBytes,
      ← List.append_assoc, List.drop_left' hhead]
  have hthird : (requestPayload correlation route body).drop (20 + route.length + 4) = body := by
    have hhead : (correlation ++ encodeBytes route ++ bigEndian 4 body.length).length =
        20 + route.length + 4 := by
      rw [List.length_append, hstart, length_bigEndian]
    rw [requestPayload, ← List.append_assoc]
    nth_rewrite 2 [encodeBytes]
    rw [← List.append_assoc, List.drop_left' hhead]
  rw [decodeRpcWorkerRequest, Check.bind_eq, Check.seq_eq_ok, Check.failIf_eq_ok]
  refine ⟨by omega, ?_⟩
  rw [hreadRoute, Check.bind_eq, Except.bind, Check.bind_eq, Check.seq_eq_ok, Check.failIf_eq_ok]
  refine ⟨by omega, ?_⟩
  rw [hreadBody, Check.bind_eq, Except.bind, Check.bind_eq, Check.seq_eq_ok, Check.failIf_eq_ok]
  refine ⟨by omega, ?_⟩
  rw [hfirst, hsecond, hthird, Check.pure_eq]

def sampleCorrelation : List UInt8 := List.replicate 16 1

def sampleRequest (c : Case) : List UInt8 :=
  requestPayload sampleCorrelation (encode (routeOf "run")) c.body

/-- The broker answers every call as it should, and also delivers the response with another
correlation to the first caller. -/
def sampleBroker : Broker where
  openError := none
  inbox := tlvBytes rpcSubscribeWorker [0] ::
    cases.map fun c => tlvBytes rpcRequest (sampleRequest c)
  receiveError := none
  sendError := fun _ => none
  connectError := none
  closeError := none
  calls
    | .wrongCorrelation => ⟨sampleCorrelation,
        [⟨sampleCorrelation.set 15 2, true, []⟩,
          ⟨sampleCorrelation, true, Case.wrongCorrelation.body⟩], none⟩
    | c => ⟨sampleCorrelation, [⟨sampleCorrelation, true, c.body⟩], none⟩

theorem receiveRecord_tlvBytes (b : Broker) {type : ℕ} {payload : List UInt8}
    (htype : type ≤ 0xffff) (hpayload : payload.length ≤ 0xffff) (inbox : List (List UInt8)) :
    receiveRecord b type (tlvBytes type payload :: inbox) = .ok (payload, inbox) := by
  rw [receiveRecord, decodeTlvs_tlvBytes htype hpayload, Check.bind_eq, Except.bind]
  simp

/-- The requests of some cases are served. -/
theorem served_sampleBroker {cs : List Case} (hcs : ∀ c ∈ cs, c ∈ cases) (ns : List ℕ)
    (hlength : ns.length = cs.length) (sent : ℕ) :
    Served sampleBroker ns (cs.map fun c => tlvBytes rpcRequest (sampleRequest c)) sent := by
  induction ns generalizing cs sent with
  | nil => trivial
  | cons n ns ih =>
    cases cs with
    | nil => cases hlength
    | cons c cs =>
      obtain ⟨hc, hcs⟩ := List.forall_mem_cons.mp hcs
      have hroute : (encode (routeOf "run")).length = 34 := by decide +kernel
      have hbody : c.body.length ≤ 100 := by
        have hall : ∀ c ∈ cases, c.body.length ≤ 100 := by decide +kernel
        exact hall c hc
      have hpayload : (sampleRequest c).length ≤ 0xffff := by
        simp only [sampleRequest, requestPayload, List.length_append, length_encodeBytes, hroute,
          sampleCorrelation, List.length_replicate]
        omega
      refine ⟨⟨sampleCorrelation, String.ofList (decode (encode (routeOf "run"))), c.body⟩, _, ?_,
        ?_, fun _ _ => rfl, ih hcs (Nat.succ.inj hlength) _⟩
      · have hdecode : decodeRpcWorkerRequest (sampleRequest c) = .ok _ :=
          decodeRpcWorkerRequest_requestPayload rfl (by omega) (by omega)
        rw [receiveWorkerRequest, List.map_cons, receiveRecord_tlvBytes _ (by decide) hpayload,
          Check.bind_eq, Except.bind]
        dsimp only
        rw [hdecode]
        rfl
      · change c.body.length + 29 ≤ 0xffff
        omega

theorem undisturbed_sampleBroker : Undisturbed "run" sampleBroker where
  opens := rfl
  route := by decide +kernel
  sends := fun _ _ => rfl
  connects := rfl
  closes := rfl
  served := ⟨[0], _, ⟨true, [], none, none⟩,
    receiveRecord_tlvBytes _ (by decide) (by decide) _, rfl, rfl,
    served_sampleBroker (fun _ h => h) _ rfl 2⟩

/-- The verdict accepts a run in which a response with another correlation and another body, a
second terminal one, is delivered to a caller. -/
theorem not_detects_sampleBroker :
    ¬((∃ c ∈ cases, Misbehaves c (sampleBroker.calls c)) →
      ¬Check.Passes (responseStateVerdict "run" sampleBroker [] [])) := by
  intro h
  refine h ⟨.wrongCorrelation, by decide, .inl ⟨_, List.mem_cons_self, ?_⟩⟩
    (passes_responseStateVerdict.mpr ⟨undisturbed_sampleBroker, fun sequence _ => ⟨rfl, rfl⟩⟩)
  decide

end ResponseState

end FitzDestroyer
