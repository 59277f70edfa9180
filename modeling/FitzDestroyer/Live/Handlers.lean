import FitzDestroyer.Live.Payload

/-!
# What the live handlers accept

A handler reads the identity that a body claims, and compares the body with the payload that
`workloads/live.ts` builds for this identity.

* `checkNotice` : the subscriber;
* `checkRpcRequest`, `checkRpcResponse` : the two sides of an RPC;
* `checkStreamRequest` : the worker of an RPC stream, the caller is `checkResponse`;
* the lemmas `…_eq_ok` : each accepts a body iff it is the payload of an identity that it allows.
-/

namespace FitzDestroyer

namespace Live

open Js

/-! ### The payloads -/

def noticePayload (publisherId : String) (sequence size : ℕ) : Except Thrown (List UInt8) :=
  livePayload "n" [publisherId, s!"{sequence}"] size

def rpcRequestPayload (callerId : String) (sequence size : ℕ) : Except Thrown (List UInt8) :=
  livePayload "q" [callerId, s!"{sequence}"] size

def rpcResponsePayload (workerId : String) (frame : ℕ) (callerId : String) (sequence size : ℕ) :
    Except Thrown (List UInt8) :=
  livePayload "r" [workerId, s!"{frame}", callerId, s!"{sequence}"] size

def rpcStreamRequestPayload (callerId call frames frameBytes : ℕ) : Except Thrown (List UInt8) :=
  livePayload "h" [s!"{callerId}", s!"{call}", s!"{frames}", s!"{frameBytes}"] 128

/-! ### The subscriber -/

def noticeRoute (namespaceName publisherId : String) : String :=
  s!"notice://destroyer/{namespaceName}/{publisherId}"

/-- The options of a subscriber that decide its verdict.  Its counts are read from the environment
as safe integers. -/
structure NoticeSubscriberOptions where
  namespaceName : String
  publisherCount : ℕ
  operations : ℕ
  payloadBytes : ℕ
  publisherCount_le : publisherCount ≤ maxSafeInteger
  operations_le : operations ≤ maxSafeInteger

structure Notice where
  route : String
  body : List UInt8
  deriving DecidableEq

/-- The checks of a notification: its publisher and its sequence. -/
def checkNotice (o : NoticeSubscriberOptions) (message : Notice) : Except Thrown (ℕ × ℕ) := do
  let identity ← parseLivePayload message.body "n" 2
  let publisherId ← integerField identity[0]? "notice publisher"
  let sequence ← integerField identity[1]? "notice sequence"
  Check.failIf (o.publisherCount ≤ publisherId) (newError
    s!"notice publisher {publisherId} is outside the expected range")
  Check.failIf (o.operations ≤ sequence) (newError
    s!"notice sequence {sequence} is outside the expected range")
  let expectedRoute := noticeRoute o.namespaceName s!"{publisherId}"
  Check.failIf (message.route ≠ expectedRoute) (newError
    s!"notice route '{message.route}' != '{expectedRoute}'")
  let expected ← noticePayload s!"{publisherId}" sequence o.payloadBytes
  assertPayload message.body expected s!"notice {publisherId}/{sequence}"
  return (publisherId, sequence)

/-! ### RPCs -/

/-- The checks of a worker: the caller and its sequence. -/
def checkRpcRequest (payloadBytes : ℕ) (body : List UInt8) : Except Thrown (ℕ × ℕ) := do
  let identity ← parseLivePayload body "q" 2
  let callerId ← integerField identity[0]? "RPC caller"
  let sequence ← integerField identity[1]? "RPC sequence"
  let expected ← rpcRequestPayload s!"{callerId}" sequence payloadBytes
  assertPayload body expected s!"RPC request {callerId}/{sequence}"
  return (callerId, sequence)

/-- The checks of a caller, after `frames` responses of the call: the worker that sent it. -/
def checkRpcResponse (workerId : String) (payloadBytes sequence : ℕ)
    (selectedWorker : Option String) (frames : ℕ) (response : Response) :
    Except Thrown String := do
  Check.failIf (response.sequence ≠ frames) (newError
    s!"RPC response sequence {response.sequence} != {frames}")
  let identity ← parseLivePayload response.body "r" 4
  let responseWorker := identity[0]?.getD ""
  let frame ← integerField identity[1]? "RPC response frame"
  let callerId ← integerField identity[2]? "RPC response caller"
  let responseSequence ← integerField identity[3]? "RPC response sequence"
  Check.failIf (responseWorker = "") (newError "RPC response omitted its worker identity")
  let selected := selectedWorker.getD responseWorker
  Check.failIf (selected ≠ responseWorker) (newError
    s!"RPC response switched workers from {selected} to {responseWorker}")
  Check.failIf (frame ≠ frames ∨ (callerId : Number) ≠ Number.ofText workerId.toList ∨
    responseSequence ≠ sequence) (newError
      s!"RPC response identity mismatch for caller {workerId}/{sequence}")
  let expected ← rpcResponsePayload responseWorker frame s!"{callerId}" responseSequence
    payloadBytes
  assertPayload response.body expected s!"RPC response {workerId}/{sequence}/{frames}"
  return responseWorker

/-! ### RPC streams -/

/-- The identity of a request. -/
structure StreamRequest where
  callerId : ℕ
  call : ℕ
  frames : ℕ
  frameBytes : ℕ

/-- The checks of a worker. -/
def checkStreamRequest (maxFrames maxFrameBytes : ℕ) (body : List UInt8) :
    Except Thrown StreamRequest := do
  let identity ← parseLivePayload body "h" 4
  let callerId ← integerField identity[0]? "RPC stream caller"
  let call ← integerField identity[1]? "RPC stream call"
  let frames ← integerField identity[2]? "RPC stream frame count"
  let frameBytes ← integerField identity[3]? "RPC stream frame bytes"
  Check.failIf (frames < 2 ∨ maxFrames < frames) (newError
    s!"RPC stream requested {frames} frames; maximum is {maxFrames}")
  Check.failIf (frameBytes < 64 ∨ maxFrameBytes < frameBytes) (newError
    s!"RPC stream requested {frameBytes} frame bytes; maximum is {maxFrameBytes}")
  let expected ← rpcStreamRequestPayload callerId call frames frameBytes
  assertPayload body expected s!"RPC stream request {callerId}/{call}"
  return ⟨callerId, call, frames, frameBytes⟩

/-! ### Reading an identity -/

theorem assertPayload_eq_ok {actual expected : List UInt8} {context : String} :
    assertPayload actual expected context = .ok () ↔ actual = expected := by
  unfold assertPayload
  by_cases hlen : actual.length = expected.length
  · rw [if_neg (not_not.mpr hlen), ← Workload.firstMismatch_eq_none hlen]
    rcases Workload.firstMismatch actual expected with _ | index <;> simp
  · rw [if_pos hlen]
    simp only [reduceCtorEq, false_iff]
    exact fun heq => hlen (congrArg List.length heq)

/-- A field that is read is a safe integer. -/
theorem le_of_integerField {value : Option String} {name : String} {n : ℕ}
    (h : integerField value name = .ok n) : n ≤ maxSafeInteger := by
  unfold integerField at h
  cases hvalue : value.bind fun text => (Number.ofText text.toList).sequence? with
  | none =>
    rw [hvalue] at h
    cases h
  | some m =>
    rw [hvalue] at h
    obtain rfl := Except.ok.inj h
    obtain ⟨text, -, htext⟩ := Option.bind_eq_some_iff.mp hvalue
    exact (Number.isSequence_of_sequence? htext).2

/-- A safe integer is read from its text. -/
theorem integerField_toString {n : ℕ} (h : n ≤ maxSafeInteger) (name : String) :
    integerField (some (toString n)) name = .ok n := by
  have hread : Number.ofText (toString n).toList = n := by
    rw [Nat.toString_eq_ofList_toDigits, String.toList_ofList,
      Number.ofText_digits Nat.toDigits_ne_nil (fun _ => isDigit_of_mem_toDigits) (by
        rwa [Nat.ofDigitChars_ten_toDigits]), Nat.ofDigitChars_ten_toDigits]
  unfold integerField
  rw [Option.bind_some, hread, Number.sequence?_natCast h]

/-- The parts of a text have no bar. -/
theorem no_bar_of_mem_splitOn {text part : List Char} (h : part ∈ text.splitOn '|') :
    '|' ∉ part := by
  induction text generalizing part with
  | nil =>
    obtain rfl := List.mem_singleton.mp h
    exact List.not_mem_nil
  | cons c text ih =>
    rw [List.splitOn_cons_eq_if_modifyHead] at h
    split_ifs at h with hc
    · rcases List.mem_cons.mp h with rfl | h
      · exact List.not_mem_nil
      · exact ih h
    · -- The first part grows by the character.
      obtain ⟨head, tail, hsplit⟩ := List.exists_cons_of_ne_nil (List.splitOn_ne_nil '|' text)
      rw [hsplit, List.modifyHead_cons] at h
      rcases List.mem_cons.mp h with rfl | h
      · have hhead : '|' ∉ head := ih (hsplit ▸ List.mem_cons_self)
        have hne : '|' ≠ c := fun heq => hc (by rw [heq, beq_self_eq_true])
        exact fun hmem => (List.mem_cons.mp hmem).elim hne hhead
      · exact ih (hsplit ▸ List.mem_cons_of_mem _ h)

/-- The fields that are read have no bar. -/
theorem no_bar_of_parse {body : List UInt8} {tag : String} {n : ℕ} {fields : List String}
    (h : parseLivePayload body tag n = .ok fields) : ∀ field ∈ fields, '|' ∉ field.toList := by
  unfold parseLivePayload at h
  dsimp only at h
  split_ifs at h
  obtain rfl := Except.ok.inj h
  intro field hfield
  obtain ⟨part, hpart, rfl⟩ := List.mem_map.mp (List.mem_of_mem_drop (List.mem_of_mem_take hfield))
  rw [String.toList_ofList]
  exact no_bar_of_mem_splitOn hpart

theorem no_bar_of_parse_head {body : List UInt8} {tag : String} {n : ℕ} {fields : List String}
    (h : parseLivePayload body tag n = .ok fields) : '|' ∉ (fields[0]?.getD "").toList := by
  cases fields with
  | nil => simp
  | cons field fields => exact no_bar_of_parse h field List.mem_cons_self

/-! ### What is accepted -/

/-- **The subscriber** accepts the payloads of the publishers, on their routes. -/
theorem checkNotice_eq_ok {o : NoticeSubscriberOptions} {message : Notice}
    {publisherId sequence : ℕ} :
    checkNotice o message = .ok (publisherId, sequence) ↔
      publisherId < o.publisherCount ∧ sequence < o.operations ∧
        message.route = noticeRoute o.namespaceName (toString publisherId) ∧
        noticePayload (toString publisherId) sequence o.payloadBytes = .ok message.body := by
  unfold checkNotice
  simp only [Check.bind_eq, Check.bind_eq_ok, Check.exists_unit, Check.failIf_eq_ok,
    assertPayload_eq_ok, Check.pure_eq, Except.ok.injEq, Prod.mk.injEq, not_le, ne_eq, not_not]
  constructor
  · rintro ⟨identity, -, p, -, s, -, hp, hs, hroute, expected, hexpected, rfl, rfl, rfl⟩
    exact ⟨hp, hs, hroute, hexpected⟩
  · rintro ⟨hp, hs, hroute, hbody⟩
    have hparse := parseLivePayload_payload (tag_letter (by simp)) (by
      simp only [List.forall_mem_cons]
      exact ⟨no_bar_toString _, no_bar_toString _, by simp⟩) hbody
    exact ⟨_, hparse, publisherId, integerField_toString (hp.le.trans o.publisherCount_le) _,
      sequence, integerField_toString (hs.le.trans o.operations_le) _, hp, hs, hroute, _, hbody,
      rfl, rfl, rfl⟩

/-- **A worker** accepts the requests of the callers. -/
theorem checkRpcRequest_eq_ok {payloadBytes : ℕ} {body : List UInt8} {callerId sequence : ℕ} :
    checkRpcRequest payloadBytes body = .ok (callerId, sequence) ↔
      callerId ≤ maxSafeInteger ∧ sequence ≤ maxSafeInteger ∧
        rpcRequestPayload (toString callerId) sequence payloadBytes = .ok body := by
  unfold checkRpcRequest
  simp only [Check.bind_eq, Check.bind_eq_ok, Check.exists_unit, assertPayload_eq_ok,
    Check.pure_eq, Except.ok.injEq, Prod.mk.injEq]
  constructor
  · rintro ⟨identity, -, c, hc, s, hs, expected, hexpected, rfl, rfl, rfl⟩
    exact ⟨le_of_integerField hc, le_of_integerField hs, hexpected⟩
  · rintro ⟨hc, hs, hbody⟩
    have hparse := parseLivePayload_payload (tag_letter (by simp)) (by
      simp only [List.forall_mem_cons]
      exact ⟨no_bar_toString _, no_bar_toString _, by simp⟩) hbody
    exact ⟨_, hparse, callerId, integerField_toString hc _, sequence, integerField_toString hs _,
      _, hbody, rfl, rfl, rfl⟩

/-- **A caller** accepts the responses of one worker, in their order. -/
theorem checkRpcResponse_eq_ok {workerId : String} {payloadBytes sequence : ℕ}
    {selectedWorker : Option String} {frames : ℕ} {response : Response} {worker : String} :
    checkRpcResponse workerId payloadBytes sequence selectedWorker frames response = .ok worker ↔
      response.sequence = frames ∧ worker ≠ "" ∧ '|' ∉ worker.toList ∧
        selectedWorker.getD worker = worker ∧ ∃ callerId : ℕ,
          (callerId : Number) = Number.ofText workerId.toList ∧
          (∀ n ∈ [frames, callerId, sequence], n ≤ maxSafeInteger) ∧
          rpcResponsePayload worker frames (toString callerId) sequence payloadBytes =
            .ok response.body := by
  unfold checkRpcResponse
  simp only [Check.bind_eq, Check.bind_eq_ok, Check.exists_unit, Check.failIf_eq_ok,
    assertPayload_eq_ok, Check.pure_eq, Except.ok.injEq, ne_eq, not_not, not_or]
  constructor
  · rintro ⟨hsequence, identity, hparse, f, hf, c, hc, s, hs, hworker, hselected,
      ⟨rfl, hcaller, rfl⟩, expected, hexpected, rfl, rfl⟩
    refine ⟨hsequence, hworker, no_bar_of_parse_head hparse, hselected, c, hcaller, ?_, hexpected⟩
    simp only [List.forall_mem_cons]
    exact ⟨le_of_integerField hf, le_of_integerField hc, le_of_integerField hs, by simp⟩
  · rintro ⟨hsequence, hworker, hbar, hselected, c, hcaller, hsafe, hbody⟩
    simp only [List.forall_mem_cons] at hsafe
    obtain ⟨hf, hc, hs, -⟩ := hsafe
    have hparse := parseLivePayload_payload (tag_letter (by simp)) (by
      simp only [List.forall_mem_cons]
      exact ⟨hbar, no_bar_toString _, no_bar_toString _, no_bar_toString _, by simp⟩) hbody
    exact ⟨hsequence, _, hparse, frames, integerField_toString hf _, c,
      integerField_toString hc _, sequence, integerField_toString hs _, hworker, hselected,
      ⟨rfl, hcaller, rfl⟩, _, hbody, rfl, rfl⟩

/-- **A worker of an RPC stream** accepts the requests of the callers, within its limits. -/
theorem checkStreamRequest_eq_ok {maxFrames maxFrameBytes : ℕ} {body : List UInt8}
    {r : StreamRequest} : checkStreamRequest maxFrames maxFrameBytes body = .ok r ↔
      (∀ n ∈ [r.callerId, r.call, r.frames, r.frameBytes], n ≤ maxSafeInteger) ∧
        (2 ≤ r.frames ∧ r.frames ≤ maxFrames) ∧
        (64 ≤ r.frameBytes ∧ r.frameBytes ≤ maxFrameBytes) ∧
        rpcStreamRequestPayload r.callerId r.call r.frames r.frameBytes = .ok body := by
  unfold checkStreamRequest
  simp only [Check.bind_eq, Check.bind_eq_ok, Check.exists_unit, Check.failIf_eq_ok,
    assertPayload_eq_ok, Check.pure_eq, Except.ok.injEq, not_or, not_lt, List.forall_mem_cons]
  constructor
  · rintro ⟨identity, -, callerId, hcaller, call, hcall, frames, hframes, frameBytes, hbytes,
      hframesRange, hbytesRange, expected, hexpected, rfl, rfl⟩
    exact ⟨⟨le_of_integerField hcaller, le_of_integerField hcall, le_of_integerField hframes,
      le_of_integerField hbytes, by simp⟩, hframesRange, hbytesRange, hexpected⟩
  · rintro ⟨⟨hcaller, hcall, hframes, hbytes, -⟩, hframesRange, hbytesRange, hbody⟩
    have hparse := parseLivePayload_payload (tag_letter (by simp)) (by
      simp only [List.forall_mem_cons]
      exact ⟨no_bar_toString _, no_bar_toString _, no_bar_toString _, no_bar_toString _,
        by simp⟩) hbody
    exact ⟨_, hparse, r.callerId, integerField_toString hcaller _, r.call,
      integerField_toString hcall _, r.frames, integerField_toString hframes _, r.frameBytes,
      integerField_toString hbytes _, hframesRange, hbytesRange, _, hbody, rfl, rfl⟩

/-- **A caller of an RPC stream** accepts the frames of one worker, in their order. -/
theorem checkResponse_eq_ok {o : RpcStreamCallerOptions} {call : ℕ} {s : CallState}
    {response : Response} {worker : String} :
    checkResponse o call s response = .ok worker ↔
      response.sequence = s.frames ∧ worker ≠ "" ∧ '|' ∉ worker.toList ∧
        s.selectedWorker.getD worker = worker ∧ ∃ callerId : ℕ,
          (callerId : Number) = Number.ofText o.workerId.toList ∧
          (∀ n ∈ [callerId, call, s.frames], n ≤ maxSafeInteger) ∧
          rpcStreamFramePayload worker callerId call s.frames o.frameBytes =
            .ok response.body := by
  unfold checkResponse
  simp only [Check.bind_eq, Check.bind_eq_ok, Check.exists_unit, Check.failIf_eq_ok,
    assertPayload_eq_ok, Check.pure_eq, Except.ok.injEq, ne_eq, not_not, not_or]
  constructor
  · rintro ⟨hsequence, identity, hparse, c, hc, k, hk, f, hf, hworker, hselected,
      ⟨hcaller, rfl, rfl⟩, expected, hexpected, rfl, rfl⟩
    refine ⟨hsequence, hworker, no_bar_of_parse_head hparse, hselected, c, hcaller, ?_, hexpected⟩
    simp only [List.forall_mem_cons]
    exact ⟨le_of_integerField hc, le_of_integerField hk, le_of_integerField hf, by simp⟩
  · rintro ⟨hsequence, hworker, hbar, hselected, c, hcaller, hsafe, hbody⟩
    simp only [List.forall_mem_cons] at hsafe
    obtain ⟨hc, hk, hf, -⟩ := hsafe
    have hparse := parseLivePayload_frame hbar hbody
    exact ⟨hsequence, _, hparse, c, integerField_toString hc _, call, integerField_toString hk _,
      s.frames, integerField_toString hf _, hworker, hselected, ⟨hcaller, rfl, rfl⟩, _, hbody,
      rfl, rfl⟩

end Live

end FitzDestroyer
