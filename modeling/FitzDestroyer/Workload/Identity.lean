import FitzDestroyer.Durability.Verdict
import FitzDestroyer.Js.Ascii

/-!
# The record that a payload belongs to

The workloads find out from a payload which record it belongs to: `verifyQueueItem` and `identify`
read the sequence at its start and compare the rest (`workloads/queue-redelivery.ts`,
`workloads/queue-lifecycle.ts`), `identifyPayload` compares it with the payload of every sequence
(`workloads/durability-crash-cuts.ts`).

* `QueueRedelivery.verifyQueueItem`, `QueueLifecycle.identify` : the two checks;
* `payloads_identify` : each routine returns the sequence of which the body is the payload.
-/

namespace FitzDestroyer

namespace Workload

open Js

/-! ### Queue items -/

/-- The options of the queue workloads that decide their payloads. -/
structure QueueOptions where
  seed : ℕ
  payloadBytes : ℕ
  operations : ℕ

/-- `deterministicPayload(options, "queue", 0, sequence)`. -/
def queuePayload (o : QueueOptions) (sequence : ℕ) : List UInt8 :=
  deterministicPayload o.seed o.payloadBytes .queue 0 sequence

/-- The eight digits after `queue:0000:`, if the text after them is right. -/
def queueSequence? (isEnd : List Char → Bool) (text : List Char) : Option ℕ :=
  ("queue:0000:".toList.isPrefixOf? text).bind fun rest =>
    if isEnd (rest.drop 8) then digits? 8 (rest.take 8) else none

/-- The sequence, if it is in range and the body is its payload. -/
def compareQueueItem (o : QueueOptions) (outside : Thrown) (context : String)
    (actual : List UInt8) (sequence : ℕ) : Except Thrown ℕ := do
  Check.failIf (o.operations ≤ sequence) outside
  assertBytesEqual actual (queuePayload o sequence) context
  return sequence

/-- `/^queue:0000:(\d{8}):$/u`. -/
def QueueRedelivery.isEnd (rest : List Char) : Bool := rest = [':']

def QueueRedelivery.verifyQueueItem (o : QueueOptions) (body : List UInt8) : Except Thrown ℕ :=
  let start := decode (body.take 20)
  match queueSequence? isEnd start with
  | none =>
    let text := String.ofList start
    .error (newError s!"Queue body has invalid identity '{text}'")
  | some sequence =>
    let outside := newError s!"Queue sequence {sequence} is outside 0..{(o.operations : ℤ) - 1}"
    compareQueueItem o outside s!"Queue redelivery {sequence}" body sequence

/-- `/^queue:0000:(\d{8}):/u`. -/
def QueueLifecycle.isEnd (rest : List Char) : Bool := rest.head? = some ':'

def QueueLifecycle.identify (o : QueueOptions) (actual : List UInt8) : Except Thrown ℕ :=
  let omitted := newError "Queue lifecycle payload omitted a valid deterministic sequence"
  match queueSequence? isEnd (decode (actual.take (min actual.length 32))) with
  | none => .error omitted
  | some sequence => compareQueueItem o omitted "Queue lifecycle payload" actual sequence

section Queue

variable {o : QueueOptions} {s : ℕ}

/-- The start of a queue payload, decoded from enough of its bytes. -/
theorem decode_queuePayload {n : ℕ} (hbytes : 32 ≤ o.payloadBytes) (hs : s < 10 ^ 8)
    (hn : 20 ≤ n) : ∃ rest, decode ((queuePayload o s).take n) =
      "queue:0000:".toList ++ (pad s 8 ++ ':' :: rest) ∧ (n = 20 → rest = []) := by
  obtain ⟨bytes, hbytes⟩ := @deterministicPayload_eq_append o.seed _ .queue 0 s hbytes
    (by decide) hs
  have hlength : (encode (payloadStart .queue 0 s)).length = 20 :=
    length_payloadStart (by decide) hs
  have htake : (queuePayload o s).take n =
      encode (payloadStart .queue 0 s) ++ bytes.take (n - 20) := by
    rw [queuePayload, hbytes, List.take_append, hlength, List.take_of_length_le (by omega)]
  refine ⟨decodeFrom none (bytes.take (n - 20)), ?_, ?_⟩
  · rw [htake, decode_encode_append (ascii_payloadStart _ _ _) payloadStart_ne_nil,
      toList_payloadStart]
    simp only [List.append_assoc, List.cons_append, List.nil_append]
    rfl
  · rintro rfl
    rfl

/-- The digits at the start are those of the sequence. -/
theorem queueSequence?_pad {isEnd : List Char → Bool} {rest : List Char} (hs : s < 10 ^ 8)
    (h : isEnd (':' :: rest) = true) :
    queueSequence? isEnd ("queue:0000:".toList ++ (pad s 8 ++ ':' :: rest)) = some s := by
  have hlength : (pad s 8).length = 8 := length_pad (by decide) hs
  rw [queueSequence?, List.isPrefixOf?_eq_some_iff_append_eq.mpr rfl, Option.bind_some,
    List.drop_append_of_le_length hlength.ge, List.drop_of_length_le hlength.le, List.nil_append,
    if_pos h, List.take_append_of_le_length hlength.ge, List.take_of_length_le hlength.le]
  exact (digits?_eq_some (by decide)).mpr ⟨hs, rfl⟩

theorem compareQueueItem_eq_ok {outside : Thrown} {context : String} {actual : List UInt8}
    {sequence : ℕ} : compareQueueItem o outside context actual sequence = .ok s ↔
      sequence = s ∧ s < o.operations ∧ actual = queuePayload o s := by
  simp only [compareQueueItem, Check.bind_eq, Check.seq_eq_ok, Check.failIf_eq_ok, not_le,
    assertBytesEqual_eq_ok, Check.pure_eq, Except.ok.injEq]
  constructor
  · rintro ⟨hlt, hactual, rfl⟩
    exact ⟨rfl, hlt, hactual⟩
  · rintro ⟨rfl, hlt, hactual⟩
    exact ⟨hlt, hactual, rfl⟩

/-- The sequence at the start of an item has eight digits. -/
theorem lt_of_queueSequence? {isEnd : List Char → Bool} {text : List Char}
    (h : queueSequence? isEnd text = some s) : s < 10 ^ 8 := by
  obtain ⟨rest, -, hrest⟩ := Option.bind_eq_some_iff.mp h
  rw [Option.ite_none_right_eq_some] at hrest
  exact ((digits?_eq_some (by decide)).mp hrest.2).1

/-- An item that is verified is the payload of its sequence. -/
theorem QueueRedelivery.of_verifyQueueItem {body : List UInt8}
    (h : verifyQueueItem o body = .ok s) :
    s < 10 ^ 8 ∧ s < o.operations ∧ body = queuePayload o s := by
  unfold verifyQueueItem at h
  dsimp only at h
  cases hfound : queueSequence? isEnd (decode (body.take 20)) with
  | none =>
    rw [hfound] at h
    cases h
  | some sequence =>
    rw [hfound] at h
    obtain ⟨rfl, hitem⟩ := compareQueueItem_eq_ok.mp h
    exact ⟨lt_of_queueSequence? hfound, hitem⟩

/-- An item that is identified is the payload of its sequence. -/
theorem QueueLifecycle.of_identify {actual : List UInt8} (h : identify o actual = .ok s) :
    s < 10 ^ 8 ∧ s < o.operations ∧ actual = queuePayload o s := by
  unfold identify at h
  dsimp only at h
  cases hfound : queueSequence? isEnd (decode (actual.take (min actual.length 32))) with
  | none =>
    rw [hfound] at h
    cases h
  | some sequence =>
    rw [hfound] at h
    obtain ⟨rfl, hitem⟩ := compareQueueItem_eq_ok.mp h
    exact ⟨lt_of_queueSequence? hfound, hitem⟩

theorem QueueRedelivery.verifyQueueItem_eq_ok (hbytes : 32 ≤ o.payloadBytes)
    (hoperations : o.operations ≤ 10 ^ 8) {body : List UInt8} :
    verifyQueueItem o body = .ok s ↔ s < o.operations ∧ body = queuePayload o s := by
  constructor
  · exact fun hok => (of_verifyQueueItem hok).2
  · rintro ⟨hlt, rfl⟩
    have hs : s < 10 ^ 8 := hlt.trans_le hoperations
    obtain ⟨rest, hdecode, hrest⟩ := decode_queuePayload hbytes hs (Nat.le_refl 20)
    obtain rfl := hrest rfl
    have hfound : queueSequence? isEnd (decode ((queuePayload o s).take 20)) = some s := by
      rw [hdecode]
      exact queueSequence?_pad hs (decide_eq_true rfl)
    unfold verifyQueueItem
    dsimp only
    rw [hfound]
    exact compareQueueItem_eq_ok.mpr ⟨rfl, hlt, rfl⟩

theorem QueueLifecycle.identify_eq_ok (hbytes : 32 ≤ o.payloadBytes)
    (hoperations : o.operations ≤ 10 ^ 8) {actual : List UInt8} :
    identify o actual = .ok s ↔ s < o.operations ∧ actual = queuePayload o s := by
  constructor
  · exact fun hok => (of_identify hok).2
  · rintro ⟨hlt, rfl⟩
    have hs : s < 10 ^ 8 := hlt.trans_le hoperations
    have hlength : (queuePayload o s).length = o.payloadBytes :=
      length_deterministicPayload _ _ _ _ _
    obtain ⟨rest, hdecode, -⟩ :=
      @decode_queuePayload o s (min (queuePayload o s).length 32) hbytes hs (by omega)
    have hfound : queueSequence? isEnd
        (decode ((queuePayload o s).take (min (queuePayload o s).length 32))) = some s := by
      rw [hdecode]
      exact queueSequence?_pad hs (decide_eq_true rfl)
    unfold identify
    dsimp only
    rw [hfound]
    exact compareQueueItem_eq_ok.mpr ⟨rfl, hlt, rfl⟩

end Queue

/-- **Payloads identify their records.**  The payloads of different records are different, so each
routine returns a sequence iff the body is the payload of that sequence, and it is in range. -/
theorem payloads_identify :
    (∀ seed payloadBytes, 32 ≤ payloadBytes → ∀ domain domain' resource resource' entry entry',
      resource < 10 ^ 4 → resource' < 10 ^ 4 → entry < 10 ^ 8 → entry' < 10 ^ 8 →
        deterministicPayload seed payloadBytes domain resource entry =
          deterministicPayload seed payloadBytes domain' resource' entry' →
        domain = domain' ∧ resource = resource' ∧ entry = entry') ∧
    (∀ o : QueueOptions, 32 ≤ o.payloadBytes → o.operations ≤ 10 ^ 8 → ∀ body s,
      (QueueRedelivery.verifyQueueItem o body = .ok s ↔
        s < o.operations ∧ body = queuePayload o s) ∧
      (QueueLifecycle.identify o body = .ok s ↔ s < o.operations ∧ body = queuePayload o s)) ∧
    ∀ o : Durability.CrashCutOptions, 32 ≤ o.payloadBytes → o.iterations + 1 ≤ 10 ^ 8 →
      ∀ domain body s, Durability.identifyPayload o domain body = .ok s ↔
        s < o.iterations + 1 ∧ body = Durability.crashCutPayload o domain s :=
  ⟨fun _ _ hbytes _ _ _ _ _ _ => deterministicPayload_injective hbytes,
    fun _ hbytes hoperations _ _ => ⟨QueueRedelivery.verifyQueueItem_eq_ok hbytes hoperations,
      QueueLifecycle.identify_eq_ok hbytes hoperations⟩,
    fun _ hbytes hiterations _ _ _ => by
      rw [Nat.lt_succ_iff]
      exact Durability.identifyPayload_eq_ok hbytes hiterations⟩

end Workload

end FitzDestroyer
