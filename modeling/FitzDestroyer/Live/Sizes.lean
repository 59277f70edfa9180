import FitzDestroyer.Config.Args
import FitzDestroyer.Live.Handlers

/-!
# The live payloads of a configuration

The host starts the live roles in several shapes, all derived from the configuration
(`orchestration/live-scenarios.ts`, `orchestration/rpc-stream-hose.ts`,
`orchestration/active-graceful-shutdown.ts`).  A role knows its index as its worker id.

* `noticeShapes`, `rpcShapes`, `streamShapes` : the shapes;
* `Built` : the payloads that the roles build;
* `Built.fits` : the header of each fits its size;
* `livePayloads_identify` : what a live payload says, and who accepts it.
-/

namespace FitzDestroyer

namespace Live

open Config Js

/-! ### Shapes -/

/-- How many publishers, callers or workers there are, and what each of them sends. -/
structure LiveShape where
  replicas : ℕ
  operations : ℕ
  payloadBytes : ℕ

/-- The operations of a wave of `runConnectionStormScenario`. -/
def waveOperations (c : RunConfig) (wave : ℕ) : ℕ :=
  let waves := min c.resources c.entriesPerResource
  c.entriesPerResource / waves + if wave < c.entriesPerResource % waves then 1 else 0

def waveShapes (c : RunConfig) : List LiveShape :=
  (List.range (min c.resources c.entriesPerResource)).map fun wave =>
    ⟨c.clientReplicas, waveOperations c wave, c.payloadBytes⟩

/-- The shapes of `runNoticeFanoutScenario`: a scenario of its own, the canary of
`runActorSupervisionFailpointScenario`, and the waves. -/
def noticeShapes (c : RunConfig) : List LiveShape :=
  ⟨c.clientReplicas, c.entriesPerResource, c.payloadBytes⟩ ::
    ⟨c.clientReplicas, 1, c.payloadBytes⟩ :: waveShapes c

/-- The shapes of `runRpcPressureScenario`, and the probe of `runHostileRpcWorkerScenario`. -/
def rpcShapes (c : RunConfig) : List LiveShape :=
  ⟨c.clientReplicas, c.entriesPerResource, c.payloadBytes⟩ :: ⟨1, 1, c.payloadBytes⟩ ::
    waveShapes c

structure StreamShape where
  callers : ℕ
  callsPerCaller : ℕ
  framesPerCall : ℕ
  frameBytes : ℕ

/-- `full` of `runRpcStreamHose`. -/
def fullStream (c : RunConfig) : StreamShape :=
  ⟨c.clientReplicas, c.rpcStreamCalls, c.rpcStreamFrames, c.rpcStreamFrameBytes⟩

/-- `fault` of `runRpcStreamHose`. -/
def faultStream (c : RunConfig) : StreamShape :=
  ⟨1, 1, min c.rpcStreamFrames 1000, c.rpcStreamFrameBytes⟩

/-- `runProbe`. -/
def probeStream (source : StreamShape) : StreamShape :=
  ⟨1, 1, min source.framesPerCall 32, min source.frameBytes 4096⟩

/-- `streamEnvironment` of `runActiveGracefulShutdownScenario`, with one caller. -/
def shutdownStream (c : RunConfig) (frames : ℕ) : StreamShape :=
  ⟨1, 1, frames, min 1024 c.rpcStreamFrameBytes⟩

def streamShapes (c : RunConfig) : List StreamShape :=
  [fullStream c, faultStream c, probeStream (faultStream c), shutdownStream c 1000,
    shutdownStream c 16]

/-! ### Payloads -/

/-- The payloads that the roles of a configuration build, to send them or to compare them with
what they have received from each other. -/
inductive Built (c : RunConfig) : Except Thrown (List UInt8) → Prop where
  | notice {s : LiveShape} (hs : s ∈ noticeShapes c) {publisherId sequence : ℕ}
      (hpublisher : publisherId < s.replicas) (hsequence : sequence < s.operations) :
      Built c (noticePayload (toString publisherId) sequence s.payloadBytes)
  | rpcRequest {s : LiveShape} (hs : s ∈ rpcShapes c) {callerId sequence : ℕ}
      (hcaller : callerId < s.replicas) (hsequence : sequence < s.operations) :
      Built c (rpcRequestPayload (toString callerId) sequence s.payloadBytes)
  | rpcResponse {s : LiveShape} (hs : s ∈ rpcShapes c) {workerId frame callerId sequence : ℕ}
      (hworker : workerId < s.replicas) (hframe : frame < 2) (hcaller : callerId < s.replicas)
      (hsequence : sequence < s.operations) :
      Built c (rpcResponsePayload (toString workerId) frame (toString callerId) sequence
        s.payloadBytes)
  | streamRequest {s : StreamShape} (hs : s ∈ streamShapes c) {callerId call : ℕ}
      (hcaller : callerId < s.callers) (hcall : call < s.callsPerCaller) :
      Built c (rpcStreamRequestPayload callerId call s.framesPerCall s.frameBytes)
  | streamFrame {s : StreamShape} (hs : s ∈ streamShapes c) {workerId callerId call frame : ℕ}
      (hworker : workerId < s.callers) (hcaller : callerId < s.callers)
      (hcall : call < s.callsPerCaller) (hframe : frame < s.framesPerCall) :
      Built c (rpcStreamFramePayload (toString workerId) callerId call frame s.frameBytes)

/-! ### The length of a header -/

theorem length_flatMap_ascii {cs : List Char} (h : ∀ c ∈ cs, c.toNat < 128) :
    (cs.flatMap String.utf8EncodeChar).length = cs.length := by
  induction cs with
  | nil => rfl
  | cons c cs ih =>
    obtain ⟨hc, hcs⟩ := List.forall_mem_cons.mp h
    rw [List.flatMap_cons, utf8EncodeChar_ascii hc, List.length_append, ih hcs]
    exact Nat.add_comm _ _

theorem length_intercalate {texts : List (List Char)} (hne : texts ≠ []) :
    (['|'].intercalate texts).length + 1 = (texts.map fun text => text.length + 1).sum := by
  induction texts with
  | nil => exact absurd rfl hne
  | cons text texts ih =>
    by_cases hlast : texts = []
    · simp [hlast, List.intercalate_singleton]
    · have hlength := ih hlast
      rw [List.intercalate_cons_of_ne_nil hlast, List.map_cons, List.sum_cons, ← hlength]
      simp only [List.length_append, List.length_singleton]
      omega

theorem mem_intercalate {c : Char} {texts : List (List Char)} (h : c ∈ ['|'].intercalate texts) :
    c = '|' ∨ ∃ text ∈ texts, c ∈ text := by
  induction texts with
  | nil => exact absurd h List.not_mem_nil
  | cons text texts ih =>
    by_cases hlast : texts = []
    · rw [hlast, List.intercalate_singleton] at h
      exact .inr ⟨text, List.mem_cons_self, h⟩
    · rw [List.intercalate_cons_of_ne_nil hlast, List.mem_append, List.mem_append,
        List.mem_singleton] at h
      rcases h with (h | rfl) | h
      · exact .inr ⟨text, List.mem_cons_self, h⟩
      · exact .inl rfl
      · exact (ih h).imp_right fun ⟨text, htext, hc⟩ => ⟨text, List.mem_cons_of_mem _ htext, hc⟩

/-- The length of a header of numbers, each with its greatest number of digits. -/
theorem length_header_le {tag : String} (htag : Tag tag) {numbers : List (ℕ × ℕ)}
    (hne : numbers ≠ []) (h : ∀ p ∈ numbers, 0 < p.2 ∧ p.1 < 10 ^ p.2) :
    (livePayloadHeader tag (numbers.map fun p => toString p.1)).length ≤
      tag.toList.length + 1 + (numbers.map fun p => p.2 + 1).sum := by
  have htext : ∀ n : ℕ, (toString n).toList = Nat.toDigits 10 n := fun n => by
    rw [Nat.toString_eq_ofList_toDigits, String.toList_ofList]
  have hheader : headerTexts (numbers.map fun p => toString p.1) =
      numbers.map fun p => toString p.1 := if_neg (by simpa using hne)
  have htexts : (numbers.map fun p => toString p.1).map String.toList =
      numbers.map fun p => Nat.toDigits 10 p.1 := by
    rw [List.map_map]
    exact List.map_congr_left fun p _ => htext p.1
  rw [livePayloadHeader_eq, hheader, htexts, length_flatMap_ascii]
  · have hlength := @length_intercalate (numbers.map fun p => Nat.toDigits 10 p.1)
      (by simpa using hne)
    have hsum : ((numbers.map fun p => Nat.toDigits 10 p.1).map fun text => text.length + 1).sum ≤
        (numbers.map fun p => p.2 + 1).sum := by
      rw [List.map_map]
      refine List.sum_le_sum fun p hp => Nat.add_le_add_right ?_ 1
      exact (Nat.length_toDigits_le_iff (by decide) (h p hp).1).mpr (h p hp).2
    simp only [List.length_append, List.length_cons, List.length_nil]
    omega
  · -- Every character is a digit, a bar or of the tag.
    intro c hc
    simp only [List.mem_append, List.mem_cons, List.not_mem_nil, or_false] at hc
    rcases hc with hc | rfl | hc | rfl
    · exact htag.ascii c hc
    · decide
    · rcases mem_intercalate hc with rfl | ⟨text, htext, hc⟩
      · decide
      · obtain ⟨p, -, rfl⟩ := List.mem_map.mp htext
        have hdigit := isDigit_iff.mp (isDigit_of_mem_toDigits hc)
        omega
    · decide

/-- A payload of numbers fits if its header has room for their digits. -/
theorem exists_livePayload {tag : String} (htag : Tag tag) (numbers : List (ℕ × ℕ))
    (hne : numbers ≠ []) (h : ∀ p ∈ numbers, 0 < p.2 ∧ p.1 < 10 ^ p.2) {size : ℕ}
    (hsize : tag.toList.length + 1 + (numbers.map fun p => p.2 + 1).sum ≤ size) :
    ∃ body, livePayload tag (numbers.map fun p => toString p.1) size = .ok body :=
  ⟨_, livePayload_eq_ok.mpr ⟨(length_header_le htag hne h).trans hsize, rfl⟩⟩

/-! ### Every payload fits -/

section Fits

variable {c : RunConfig}

theorem waveOperations_le (c : RunConfig) (wave : ℕ) :
    waveOperations c wave ≤ c.entriesPerResource + 1 := by
  unfold waveOperations
  dsimp only
  have := Nat.div_le_self c.entriesPerResource (min c.resources c.entriesPerResource)
  split_ifs <;> omega

theorem waveShapes_le {s : LiveShape} (hs : s ∈ waveShapes c) :
    s.replicas = c.clientReplicas ∧ s.operations ≤ c.entriesPerResource + 1 ∧
      s.payloadBytes = c.payloadBytes := by
  obtain ⟨wave, -, rfl⟩ := List.mem_map.mp hs
  exact ⟨rfl, waveOperations_le c wave, rfl⟩

/-- The shapes of the notice and RPC roles. -/
theorem shapes_le (h : c.InRange) {s : LiveShape} (hs : s ∈ noticeShapes c ∨ s ∈ rpcShapes c) :
    s.replicas ≤ 100 ∧ s.operations < 10 ^ 8 ∧ 32 ≤ s.payloadBytes := by
  have hclients := h.clientReplicas
  have hentries := h.scale.entriesPerResource
  have hbytes := h.scale.payloadBytes
  unfold Within at hclients hentries hbytes
  simp only [noticeShapes, rpcShapes, List.mem_cons] at hs
  rcases hs with (rfl | rfl | hs) | (rfl | rfl | hs)
  all_goals first
    | (obtain ⟨hreplicas, hoperations, hpayload⟩ := waveShapes_le hs
       omega)
    | (dsimp only
       omega)

theorem streamShapes_le (h : c.InRange) {s : StreamShape} (hs : s ∈ streamShapes c) :
    s.callers ≤ 100 ∧ s.callsPerCaller ≤ 10 ^ 6 ∧ s.framesPerCall ≤ 10 ^ 7 ∧ 64 ≤ s.frameBytes ∧
      s.frameBytes < 10 ^ 5 := by
  have hclients := h.clientReplicas
  have hcalls := h.scale.rpcStreamCalls
  have hframes := h.scale.rpcStreamFrames
  have hbytes := h.scale.rpcStreamFrameBytes
  unfold Within rpcStreamMaxFrameBytes at *
  simp only [streamShapes, List.mem_cons, List.not_mem_nil, or_false] at hs
  rcases hs with rfl | rfl | rfl | rfl | rfl <;>
    simp only [fullStream, faultStream, probeStream, shutdownStream] <;> omega

/-- **Every payload of a configuration fits.** -/
theorem Built.fits (h : c.InRange) {payload : Except Thrown (List UInt8)}
    (hbuilt : Built c payload) : ∃ body, payload = .ok body := by
  cases hbuilt with
  | @notice s hs p n hp hn =>
    obtain ⟨hreplicas, hoperations, hbytes⟩ := shapes_le h (.inl hs)
    refine exists_livePayload (tag_letter (by simp)) [(p, 2), (n, 8)] (by simp) ?_
      (Nat.le_trans (Nat.le_of_ble_eq_true rfl) hbytes)
    simp only [List.forall_mem_cons]
    exact ⟨⟨by decide, by omega⟩, ⟨by decide, by omega⟩, by simp⟩
  | @rpcRequest s hs p n hp hn =>
    obtain ⟨hreplicas, hoperations, hbytes⟩ := shapes_le h (.inr hs)
    refine exists_livePayload (tag_letter (by simp)) [(p, 2), (n, 8)] (by simp) ?_
      (Nat.le_trans (Nat.le_of_ble_eq_true rfl) hbytes)
    simp only [List.forall_mem_cons]
    exact ⟨⟨by decide, by omega⟩, ⟨by decide, by omega⟩, by simp⟩
  | @rpcResponse s hs w f p n hw hf hp hn =>
    obtain ⟨hreplicas, hoperations, hbytes⟩ := shapes_le h (.inr hs)
    refine exists_livePayload (tag_letter (by simp)) [(w, 2), (f, 1), (p, 2), (n, 8)] (by simp) ?_
      (Nat.le_trans (Nat.le_of_ble_eq_true rfl) hbytes)
    simp only [List.forall_mem_cons]
    exact ⟨⟨by decide, by omega⟩, ⟨by decide, by omega⟩, ⟨by decide, by omega⟩,
      ⟨by decide, by omega⟩, by simp⟩
  | @streamRequest s hs p k hp hk =>
    obtain ⟨hcallers, hcalls, hframes, -, hbytes⟩ := streamShapes_le h hs
    refine exists_livePayload (tag_letter (by simp))
      [(p, 2), (k, 6), (s.framesPerCall, 8), (s.frameBytes, 5)] (by simp) ?_
      (Nat.le_of_ble_eq_true rfl)
    simp only [List.forall_mem_cons]
    exact ⟨⟨by decide, by omega⟩, ⟨by decide, by omega⟩, ⟨by decide, by omega⟩,
      ⟨by decide, by omega⟩, by simp⟩
  | @streamFrame s hs w p k f hw hp hk hf =>
    obtain ⟨hcallers, hcalls, hframes, hbytes, -⟩ := streamShapes_le h hs
    obtain ⟨result, hresult⟩ := exists_livePayload (@tag_letter "s" (by simp))
      [(w, 2), (p, 2), (k, 6), (f, 7)] (by simp) (by
        simp only [List.forall_mem_cons]
        exact ⟨⟨by decide, by omega⟩, ⟨by decide, by omega⟩, ⟨by decide, by omega⟩,
          ⟨by decide, by omega⟩, by simp⟩)
      (Nat.le_trans (Nat.le_of_ble_eq_true rfl) hbytes)
    exact ⟨_, Check.bind_eq_ok.mpr ⟨result, hresult, rfl⟩⟩

end Fits

/-! ### What a payload says -/

/-- The text of a number has no bar. -/
theorem no_bar_text {fields : List Field}
    (h : ∀ value, .string value ∈ fields → '|' ∉ value.toList) :
    ∀ text ∈ fields.map Field.text, '|' ∉ text.toList := by
  intro text htext
  obtain ⟨field, hfield, rfl⟩ := List.mem_map.mp htext
  cases field with
  | string value => exact h value hfield
  | number value =>
    intro hbar
    rw [Field.text, Integer.text, String.toList_ofList] at hbar
    rcases mem_decimalText hbar with hdigit | hmem
    · exact absurd hdigit (by decide)
    · exact absurd hmem (by decide)

/-- No field and an empty field have the same payloads. -/
theorem not_distinct_emptyField : ¬∀ (tag : String) (fields fields' : List Field) (size : ℕ),
    Tag tag → (∀ value, .string value ∈ fields → '|' ∉ value.toList) →
    (∀ value, .string value ∈ fields' → '|' ∉ value.toList) →
    (livePayloadHeader tag (fields.map Field.text)).length ≤ size →
    (livePayloadHeader tag (fields'.map Field.text)).length ≤ size → fields ≠ fields' →
    livePayload tag (fields.map Field.text) size ≠
      livePayload tag (fields'.map Field.text) size := by
  intro h
  have hheader : livePayloadHeader "n" [""] = livePayloadHeader "n" [] := by
    rw [livePayloadHeader_eq, livePayloadHeader_eq]
    rfl
  have hlength : (livePayloadHeader "n" []).length ≤ 8 := by decide
  refine h "n" [] [.string ""] 8 (tag_letter (by simp)) (by simp) (by simp) hlength
    (hheader ▸ hlength) (by simp) ?_
  simp only [livePayload, List.map_nil, List.map_cons, Field.text, hheader]

/-- **Live payloads identify what they belong to.**  The fields of a header are read back, whatever
follows it; payloads with the same bytes have the same fields, but that no field reads as an empty
one; a handler accepts a body iff it is the payload of the identity that it returns, and that is
one it allows; and every payload of a configuration has room for its header. -/
theorem livePayloads_identify :
    (∀ (tag : String) (fields : List Field), Tag tag →
      (∀ value, .string value ∈ fields → '|' ∉ value.toList) →
      (∀ rest, parseLivePayload (livePayloadHeader tag (fields.map Field.text) ++ rest) tag
        fields.length = .ok (fields.map Field.text)) ∧
      ∀ size body, livePayload tag (fields.map Field.text) size = .ok body →
        parseLivePayload body tag fields.length = .ok (fields.map Field.text) ∧
        ∀ fields' : List Field, (∀ value, .string value ∈ fields' → '|' ∉ value.toList) →
          livePayload tag (fields'.map Field.text) size = .ok body →
          fields.map Field.text = fields'.map Field.text ∨
            (fields.map Field.text = [] ∧ fields'.map Field.text = [""]) ∨
            (fields.map Field.text = [""] ∧ fields'.map Field.text = [])) ∧
    (∀ m n : Integer, Field.text (.number m) = Field.text (.number n) → m = n) ∧
    (∀ (workerId : String) (callerId call frame size : ℕ) (body : List UInt8),
      '|' ∉ workerId.toList →
      rpcStreamFramePayload workerId callerId call frame size = .ok body →
      parseLivePayload body "s" 4 =
        .ok [workerId, toString callerId, toString call, toString frame] ∧
      ∀ (workerId' : String) (callerId' call' frame' : ℕ), '|' ∉ workerId'.toList →
        rpcStreamFramePayload workerId' callerId' call' frame' size = .ok body →
        workerId = workerId' ∧ callerId = callerId' ∧ call = call' ∧ frame = frame') ∧
    (∀ (o : NoticeSubscriberOptions) (message : Notice) (publisherId sequence : ℕ),
      checkNotice o message = .ok (publisherId, sequence) ↔
        publisherId < o.publisherCount ∧ sequence < o.operations ∧
          message.route = noticeRoute o.namespaceName (toString publisherId) ∧
          noticePayload (toString publisherId) sequence o.payloadBytes = .ok message.body) ∧
    (∀ (payloadBytes : ℕ) (body : List UInt8) (callerId sequence : ℕ),
      checkRpcRequest payloadBytes body = .ok (callerId, sequence) ↔
        callerId ≤ maxSafeInteger ∧ sequence ≤ maxSafeInteger ∧
          rpcRequestPayload (toString callerId) sequence payloadBytes = .ok body) ∧
    (∀ (workerId : String) (payloadBytes sequence : ℕ) (selectedWorker : Option String)
      (frames : ℕ) (response : Response) (worker : String),
      checkRpcResponse workerId payloadBytes sequence selectedWorker frames response = .ok worker ↔
        response.sequence = frames ∧ worker ≠ "" ∧ '|' ∉ worker.toList ∧
          selectedWorker.getD worker = worker ∧ ∃ callerId : ℕ,
            (callerId : Number) = Number.ofText workerId.toList ∧
            (∀ n ∈ [frames, callerId, sequence], n ≤ maxSafeInteger) ∧
            rpcResponsePayload worker frames (toString callerId) sequence payloadBytes =
              .ok response.body) ∧
    (∀ (maxFrames maxFrameBytes : ℕ) (body : List UInt8) (r : StreamRequest),
      checkStreamRequest maxFrames maxFrameBytes body = .ok r ↔
        (∀ n ∈ [r.callerId, r.call, r.frames, r.frameBytes], n ≤ maxSafeInteger) ∧
          (2 ≤ r.frames ∧ r.frames ≤ maxFrames) ∧
          (64 ≤ r.frameBytes ∧ r.frameBytes ≤ maxFrameBytes) ∧
          rpcStreamRequestPayload r.callerId r.call r.frames r.frameBytes = .ok body) ∧
    (∀ (o : RpcStreamCallerOptions) (call : ℕ) (s : CallState) (response : Response)
      (worker : String), checkResponse o call s response = .ok worker ↔
        response.sequence = s.frames ∧ worker ≠ "" ∧ '|' ∉ worker.toList ∧
          s.selectedWorker.getD worker = worker ∧ ∃ callerId : ℕ,
            (callerId : Number) = Number.ofText o.workerId.toList ∧
            (∀ n ∈ [callerId, call, s.frames], n ≤ maxSafeInteger) ∧
            rpcStreamFramePayload worker callerId call s.frames o.frameBytes =
              .ok response.body) ∧
    ∀ (argv : List String) (env : String → Option String) (c : RunConfig),
      parseArgs argv env = .ok c → ∀ payload, Built c payload → ∃ body, payload = .ok body := by
  refine ⟨?_, ?_, ?_, fun _ _ _ _ => checkNotice_eq_ok, fun _ _ _ _ => checkRpcRequest_eq_ok,
    fun _ _ _ _ _ _ _ => checkRpcResponse_eq_ok, fun _ _ _ _ => checkStreamRequest_eq_ok,
    fun _ _ _ _ _ => checkResponse_eq_ok,
    fun _ _ _ hargs _ hbuilt => hbuilt.fits (parseArgs_inRange hargs)⟩
  · -- Only no field at all and one empty field have the same header.
    intro tag fields htag hbars
    have hlength : (fields.map Field.text).length = fields.length := List.length_map _
    refine ⟨fun rest => ?_, fun size body hbody => ⟨?_, fun fields' hbars' hbody' => ?_⟩⟩
    · rw [← hlength]
      exact parseLivePayload_header htag (no_bar_text hbars) rest
    · rw [← hlength]
      exact parseLivePayload_payload htag (no_bar_text hbars) hbody
    · exact headerTexts_eq.mp
        (livePayload_eq htag (no_bar_text hbars) (no_bar_text hbars') hbody hbody')
  · exact fun m n h => Integer.text_injective h
  · exact fun _ _ _ _ _ _ hworker hbody => ⟨parseLivePayload_frame hworker hbody,
      fun _ _ _ _ hworker' hbody' => rpcStreamFramePayload_inj hworker hworker' hbody hbody'⟩

end Live

end FitzDestroyer
