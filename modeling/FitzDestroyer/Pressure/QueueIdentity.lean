import FitzDestroyer.Js.Ascii
import FitzDestroyer.Js.Rounding
import FitzDestroyer.Pressure.Values

/-!
# Identity of a queue item

The workers that drain a queue find out from the body of an item which operation enqueued it
(`workloads/pressure.ts`, `workloads/queue-overload.ts`).  They read the digits of the body with
`Number`, which reads much more than what was written.

* `QueueOverload.payload`, `QueueOverload.sequenceFromPayload` : the bodies of the overload;
* `Canonical` : the digits that are written;
* `WrittenBody`, `QueueOverload.WrittenBody` : the bodies that are refused, or read as written;
* `queueDecoders_exact_iff` : when the decoders are exact.
-/

namespace FitzDestroyer

namespace Pressure

open Js

namespace QueueOverload

/-- The start of the payloads of a worker. -/
def payloadStart (namespaceName worker : RouteSegment) : String :=
  namespaceName.text ++ ":" ++ worker.text ++ ":"

/-- The payload that the producer writes for a sequence. -/
def payload (namespaceName worker : RouteSegment) (payloadBytes sequence : ℕ) : Body :=
  let header := payloadStart namespaceName worker ++ String.ofList (pad sequence 12) ++ ":"
  encode (header ++ String.ofList (List.replicate (payloadBytes - header.length) 'x'))

/-- The sequence that the drainer reads.  A character that takes two units in JavaScript is no part
of a number, so that it does not matter where twelve of them end. -/
def sequenceFromPayload (namespaceName worker : RouteSegment) (body : Body) : Except Thrown ℕ :=
  match (payloadStart namespaceName worker).toList.isPrefixOf? (decode body) with
  | none => .error (newError s!"{worker.text} Queue payload had the wrong identity")
  | some rest =>
    match (Number.ofText (rest.take 12)).sequence? with
    | none => .error (newError s!"{worker.text} Queue payload had an invalid sequence")
    | some sequence => .ok sequence

end QueueOverload

/-! ### Digits that are written -/

/-- The digits of a number, with zeros before them up to twelve digits. -/
def Canonical (digits : List Char) : Prop :=
  (∀ c ∈ digits, c.isDigit) ∧
    (digits.length = 12 ∨ 12 < digits.length ∧ digits.head? ≠ some '0')

/-- The leading digit of a number tells how large it is. -/
theorem le_ofDigitChars {c : Char} {cs : List Char} (hc : c.isDigit = true) (hzero : c ≠ '0') :
    10 ^ cs.length ≤ Nat.ofDigitChars 10 (c :: cs) 0 := by
  have hdigit : 1 ≤ c.toNat - '0'.toNat := by
    have hrange := isDigit_iff.mp hc
    have hnot : c.toNat ≠ 48 := fun heq => hzero (Char.toNat_inj.mp heq)
    have : '0'.toNat = 48 := by decide
    omega
  rw [Nat.ofDigitChars_cons, Nat.ofDigitChars_eq_ofDigitChars_zero, Nat.mul_zero, Nat.zero_add]
  exact (Nat.le_mul_of_pos_right _ hdigit).trans (Nat.le_add_right _ _)

theorem length_pad_of_le {n width : ℕ} (h : width ≤ (Nat.toDigits 10 n).length) :
    pad n width = Nat.toDigits 10 n := by
  rw [pad, padStart, Nat.sub_eq_zero_of_le h]
  rfl

/-- **Which digits are written.** -/
theorem canonical_iff {digits : List Char} : Canonical digits ↔ ∃ n, digits = pad n 12 := by
  constructor
  · rintro ⟨hdigits, hlength | ⟨hlong, hzero⟩⟩
    · refine ⟨Nat.ofDigitChars 10 digits 0, eq_of_ofDigitChars_eq ?_ hdigits
        (fun c => isDigit_of_mem_pad) (ofDigitChars_pad _ _).symm⟩
      rw [hlength, length_pad (by decide) (hlength ▸ ofDigitChars_lt hdigits)]
    · obtain ⟨c, cs, rfl⟩ := List.exists_cons_of_length_pos (by omega : 0 < digits.length)
      have hsize := @le_ofDigitChars c cs (hdigits c List.mem_cons_self)
        fun heq => hzero (by rw [heq]; rfl)
      have hlarge : ¬(Nat.toDigits 10 (Nat.ofDigitChars 10 (c :: cs) 0)).length ≤ cs.length := by
        rw [Nat.length_toDigits_le_iff (by decide) (by rw [List.length_cons] at hlong; omega)]
        exact Nat.not_lt.mpr hsize
      have hsmall : (Nat.toDigits 10 (Nat.ofDigitChars 10 (c :: cs) 0)).length ≤
          (c :: cs).length := by
        rw [Nat.length_toDigits_le_iff (by decide) (by omega)]
        exact ofDigitChars_lt hdigits
      rw [List.length_cons] at hlong hsmall
      refine ⟨Nat.ofDigitChars 10 (c :: cs) 0, eq_of_ofDigitChars_eq ?_ hdigits
        (fun c => isDigit_of_mem_pad) (ofDigitChars_pad _ _).symm⟩
      rw [length_pad_of_le (by omega), List.length_cons]
      omega
  · rintro ⟨n, rfl⟩
    refine ⟨fun c => isDigit_of_mem_pad, ?_⟩
    by_cases hn : n < 10 ^ 12
    · exact .inl (length_pad (by decide) hn)
    · have hlong : ¬(Nat.toDigits 10 n).length ≤ 12 := by
        rwa [Nat.length_toDigits_le_iff (by decide) (by decide)]
      have hpad := @length_pad_of_le n 12 (by omega)
      refine .inr ⟨by rw [hpad]; omega, fun hzero => ?_⟩
      -- Without its leading zero, the number would have as many digits again.
      rw [hpad] at hzero
      obtain ⟨cs, hcs⟩ := List.head?_eq_some_iff.mp hzero
      have hdigits : ∀ c ∈ cs, c.isDigit := fun c hc =>
        @isDigit_of_mem_pad n 12 c (by rw [hpad, hcs]; exact .tail _ hc)
      have hvalue : n = Nat.ofDigitChars 10 cs 0 := by
        have := congrArg (fun ds => Nat.ofDigitChars 10 ds 0) hcs
        rwa [Nat.ofDigitChars_ten_toDigits, Nat.ofDigitChars_cons] at this
      have hlength := congrArg List.length hcs
      rw [List.length_cons] at hlength
      have hshort : (Nat.toDigits 10 n).length ≤ cs.length := by
        rw [Nat.length_toDigits_le_iff (by decide) (by omega)]
        exact hvalue ▸ ofDigitChars_lt hdigits
      omega

/-- A number that is too large for a safe integer is rounded to none. -/
theorem sequence?_round_large {n : ℕ} (h : maxSafeInteger < n) :
    (Number.round n).sequence? = none := by
  have hlarge : Number.round ((2 ^ 53 : ℕ) : ℚ) = .fin (2 ^ 53) := by decide +kernel
  have hmono := Number.round_mono (x := ((2 ^ 53 : ℕ) : ℚ)) (y := n) (Nat.cast_nonneg _)
    (by exact_mod_cast h)
  rw [hlarge] at hmono
  cases hround : Number.round n with
  | fin q =>
    rw [hround] at hmono
    have hq : (2 ^ 53 : ℚ) ≤ q := of_decide_eq_true hmono
    rw [Number.sequence?, if_neg]
    intro hsequence
    obtain ⟨m, hm, heq⟩ := Number.isSequence_iff.mp hsequence
    obtain rfl := Number.fin.inj heq
    have hcast : 2 ^ 53 ≤ m := by exact_mod_cast hq
    exact absurd hm (Nat.not_le.mpr hcast)
  | _ => rfl

/-- The sequence that digits are read as. -/
theorem sequence?_ofText_digits {cs : List Char} {s : ℕ} (hne : cs ≠ [])
    (h : ∀ c ∈ cs, c.isDigit) : (Number.ofText cs).sequence? = some s ↔
      Nat.ofDigitChars 10 cs 0 ≤ maxSafeInteger ∧ s = Nat.ofDigitChars 10 cs 0 := by
  by_cases hsafe : Nat.ofDigitChars 10 cs 0 ≤ maxSafeInteger
  · rw [Number.ofText_digits hne h hsafe, Number.sequence?_natCast_eq_some]
  · rw [Number.ofText_digits_eq_round hne h, sequence?_round_large (not_le.mp hsafe)]
    simp [hsafe]

theorem le_length_pad (n : ℕ) : 12 ≤ (pad n 12).length := by
  simp only [pad, padStart, List.length_append, List.length_replicate]
  omega

theorem pad_ne_nil (n : ℕ) : pad n 12 ≠ [] :=
  List.ne_nil_of_length_pos (Nat.lt_of_lt_of_le (by decide) (le_length_pad n))

theorem sequence?_ofText_pad {n s : ℕ} :
    (Number.ofText (pad n 12)).sequence? = some s ↔ n ≤ maxSafeInteger ∧ s = n := by
  rw [sequence?_ofText_digits (pad_ne_nil n) fun c => isDigit_of_mem_pad, ofDigitChars_pad]

/-! ### The queue of a pressure run -/

section Pressure

variable (namespaceName worker : RouteSegment)

/-- The bodies that are refused, and those that are read as they were written: the text after the
identity is no sequence, or has the digits that are written, and no byte order mark stands before
them. -/
def WrittenBody (body : Body) : Prop :=
  ∀ rest, decode body = (valueStart namespaceName worker .queue).toList ++ rest →
    (Number.ofText rest).IsSequence → Canonical rest ∧ ¬byteOrderMark <+: body

variable {namespaceName worker}

theorem decodePressureQueueSequence_eq_ok {body : Body} {s : ℕ} :
    decodePressureQueueSequence namespaceName worker body = .ok s ↔
      ∃ rest, decode body = (valueStart namespaceName worker .queue).toList ++ rest ∧
        (Number.ofText rest).sequence? = some s := by
  unfold decodePressureQueueSequence
  dsimp only
  cases hprefix : (valueStart namespaceName worker .queue).toList.isPrefixOf? (decode body) with
  | none =>
    simp only [reduceCtorEq, false_iff]
    rintro ⟨rest, hrest, -⟩
    rw [List.isPrefixOf?_eq_some_iff_append_eq.mpr hrest.symm] at hprefix
    cases hprefix
  | some rest =>
    have hrest := List.isPrefixOf?_eq_some_iff_append_eq.mp hprefix
    simp only [← hrest, List.append_cancel_left_eq, exists_eq_left']
    cases (Number.ofText rest).sequence? <;> simp

/-- **The decoder is exact** for the bodies that are refused, or read as written. -/
theorem decodePressureQueueSequence_exact_iff {body : Body} :
    (∀ s, decodePressureQueueSequence namespaceName worker body = .ok s ↔
      s ≤ maxSafeInteger ∧ body = pressureValue namespaceName worker .queue s) ↔
      WrittenBody namespaceName worker body := by
  have hascii : ∀ s, IsAscii (valueStart namespaceName worker .queue ++ String.ofList (pad s 12)) :=
    fun s => isAscii_append (isAscii_valueStart _) (isAscii_pad _ _)
  have hne : ∀ s, (valueStart namespaceName worker .queue ++
      String.ofList (pad s 12)).toList ≠ [] := by
    intro s hnil
    rw [String.toList_append, String.toList_ofList] at hnil
    exact pad_ne_nil s (List.append_eq_nil_iff.mp hnil).2
  constructor
  · intro hexact rest hrest hsequence
    obtain ⟨s, hs, hvalue⟩ := Number.sequence?_of_isSequence hsequence
    obtain ⟨-, rfl⟩ :=
      (hexact s).mp (decodePressureQueueSequence_eq_ok.mpr ⟨rest, hrest, hvalue⟩)
    rw [decode_pressureValue] at hrest
    refine ⟨canonical_iff.mpr ⟨s, (List.append_cancel_left hrest).symm⟩, ?_⟩
    exact not_mark_encode (hascii s) (hne s)
  · intro hwritten s
    constructor
    · intro hok
      obtain ⟨rest, hrest, hvalue⟩ := decodePressureQueueSequence_eq_ok.mp hok
      obtain ⟨hcanonical, hmark⟩ := hwritten rest hrest (Number.isSequence_of_sequence? hvalue).1
      obtain ⟨n, rfl⟩ := canonical_iff.mp hcanonical
      obtain ⟨hs, rfl⟩ := sequence?_ofText_pad.mp hvalue
      refine ⟨hs, eq_encode_of_decode (hascii s) (hne s) hmark ?_⟩
      rw [hrest, String.toList_append, String.toList_ofList]
    · rintro ⟨hs, rfl⟩
      exact decodePressureQueueSequence_pressureValue hs

end Pressure

/-! ### The queue of an overload -/

namespace QueueOverload

section Overload

variable (namespaceName worker : RouteSegment) (payloadBytes : ℕ)

/-- What stands after the digits of a payload with twelve digits. -/
def filler : List Char :=
  ':' :: List.replicate (payloadBytes - ((payloadStart namespaceName worker).length + 13)) 'x'

/-- The bodies that are refused, and those that are read as they were written: the twelve characters
after the identity are no sequence, or they are digits, and the rest is what fills the payload. -/
def WrittenBody (body : Body) : Prop :=
  ∀ rest, decode body = (payloadStart namespaceName worker).toList ++ rest →
    (Number.ofText (rest.take 12)).IsSequence →
      (rest.take 12).length = 12 ∧ (∀ c ∈ rest.take 12, c.isDigit) ∧
        rest.drop 12 = filler namespaceName worker payloadBytes ∧ ¬byteOrderMark <+: body

variable {namespaceName worker payloadBytes} {body : Body} {s : ℕ}

theorem sequenceFromPayload_eq_ok :
    sequenceFromPayload namespaceName worker body = .ok s ↔
      ∃ rest, decode body = (payloadStart namespaceName worker).toList ++ rest ∧
        (Number.ofText (rest.take 12)).sequence? = some s := by
  unfold sequenceFromPayload
  cases hprefix : (payloadStart namespaceName worker).toList.isPrefixOf? (decode body) with
  | none =>
    simp only [reduceCtorEq, false_iff]
    rintro ⟨rest, hrest, -⟩
    rw [List.isPrefixOf?_eq_some_iff_append_eq.mpr hrest.symm] at hprefix
    cases hprefix
  | some rest =>
    have hrest := List.isPrefixOf?_eq_some_iff_append_eq.mp hprefix
    simp only [← hrest, List.append_cancel_left_eq, exists_eq_left']
    cases (Number.ofText (rest.take 12)).sequence? <;> simp

/-- The text of a payload. -/
def payloadText (namespaceName worker : RouteSegment) (payloadBytes s : ℕ) : String :=
  let header := payloadStart namespaceName worker ++ String.ofList (pad s 12) ++ ":"
  header ++ String.ofList (List.replicate (payloadBytes - header.length) 'x')

theorem toList_payloadText : (payloadText namespaceName worker payloadBytes s).toList =
    (payloadStart namespaceName worker).toList ++ (pad s 12 ++ ':' :: List.replicate
      (payloadBytes - ((payloadStart namespaceName worker).length + (pad s 12).length + 1))
      'x') := by
  have hcolon : ":".length = 1 := rfl
  simp [payloadText, hcolon]

theorem isAscii_payloadText : IsAscii (payloadText namespaceName worker payloadBytes s) := by
  have hcolon : IsAscii ":" := by
    unfold IsAscii
    decide
  have hfill : ∀ n, IsAscii (String.ofList (List.replicate n 'x')) := by
    intro n c hc
    rw [String.toList_ofList] at hc
    rw [List.eq_of_mem_replicate hc]
    decide
  exact isAscii_append (isAscii_append (isAscii_append (isAscii_append (isAscii_append
    (isAscii_append namespaceName.isAscii hcolon) worker.isAscii) hcolon) (isAscii_pad _ _))
    hcolon) (hfill _)

theorem payloadText_ne_nil : (payloadText namespaceName worker payloadBytes s).toList ≠ [] := by
  rw [toList_payloadText]
  simp

theorem decode_payload : decode (payload namespaceName worker payloadBytes s) =
    (payloadText namespaceName worker payloadBytes s).toList := decode_encode isAscii_payloadText

/-- Twelve digits stand for a safe integer. -/
theorem ofDigitChars_le {cs : List Char} (hlength : cs.length = 12) (h : ∀ c ∈ cs, c.isDigit) :
    Nat.ofDigitChars 10 cs 0 ≤ maxSafeInteger := by
  have hlt := ofDigitChars_lt h
  rw [hlength] at hlt
  exact hlt.le.trans (by decide)

/-- **The decoder is exact** for the bodies that are refused, or read as written. -/
theorem sequenceFromPayload_exact_iff :
    (∀ s, sequenceFromPayload namespaceName worker body = .ok s ↔
      s ≤ maxSafeInteger ∧ body = payload namespaceName worker payloadBytes s) ↔
      WrittenBody namespaceName worker payloadBytes body := by
  -- Digits of which there are twelve are those of a sequence.
  have htwelve : ∀ cs : List Char, cs.length = 12 → (∀ c ∈ cs, c.isDigit) → ∀ s,
      (Number.ofText cs).sequence? = some s ↔ s = Nat.ofDigitChars 10 cs 0 := by
    intro cs hlength hdigits s
    have hne : cs ≠ [] := by
      rintro rfl
      cases hlength
    rw [sequence?_ofText_digits hne hdigits]
    exact and_iff_right (ofDigitChars_le hlength hdigits)
  -- The first twelve of the digits that are written.
  have htake : ∀ s tail, ((pad s 12 ++ tail).take 12).length = 12 ∧
      ∀ c ∈ (pad s 12 ++ tail).take 12, c.isDigit := by
    intro s tail
    rw [List.take_append_of_le_length (le_length_pad s)]
    exact ⟨List.length_take_of_le (le_length_pad s),
      fun c hc => isDigit_of_mem_pad (List.mem_of_mem_take hc)⟩
  constructor
  · intro hexact rest hrest hsequence
    obtain ⟨s, hs, hvalue⟩ := Number.sequence?_of_isSequence hsequence
    obtain ⟨-, rfl⟩ := (hexact s).mp (sequenceFromPayload_eq_ok.mpr ⟨rest, hrest, hvalue⟩)
    rw [decode_payload, toList_payloadText] at hrest
    obtain rfl := List.append_cancel_left hrest
    obtain ⟨hlength, hdigits⟩ := htake s (':' :: List.replicate
      (payloadBytes - ((payloadStart namespaceName worker).length + (pad s 12).length + 1)) 'x')
    have hsmall := ofDigitChars_lt hdigits
    rw [hlength, ← (htwelve _ hlength hdigits s).mp hvalue] at hsmall
    refine ⟨hlength, hdigits, ?_, not_mark_encode isAscii_payloadText payloadText_ne_nil⟩
    have hpad : (pad s 12).length = 12 := length_pad (by decide) hsmall
    rw [List.drop_append_of_le_length hpad.ge, List.drop_of_length_le hpad.le, hpad]
    rfl
  · intro hwritten s
    constructor
    · intro hok
      obtain ⟨rest, hrest, hvalue⟩ := sequenceFromPayload_eq_ok.mp hok
      obtain ⟨hlength, hdigits, hfiller, hmark⟩ :=
        hwritten rest hrest (Number.isSequence_of_sequence? hvalue).1
      obtain ⟨n, hn⟩ := canonical_iff.mp ⟨hdigits, .inl hlength⟩
      rw [hn] at hvalue hlength
      obtain ⟨hs, rfl⟩ := sequence?_ofText_pad.mp hvalue
      refine ⟨hs, ?_⟩
      show body = encode (payloadText namespaceName worker payloadBytes s)
      refine eq_encode_of_decode isAscii_payloadText payloadText_ne_nil hmark ?_
      rw [hrest, ← List.take_append_drop 12 rest, hn, hfiller, toList_payloadText, hlength]
      rfl
    · rintro ⟨hs, rfl⟩
      have hrest := @decode_payload namespaceName worker payloadBytes s
      rw [toList_payloadText] at hrest
      obtain ⟨hlength, hdigits⟩ := htake s (':' :: List.replicate
        (payloadBytes - ((payloadStart namespaceName worker).length + (pad s 12).length + 1)) 'x')
      have hvalue := (htwelve _ hlength hdigits _).mpr rfl
      obtain ⟨-, -, hfiller, -⟩ := hwritten _ hrest (Number.isSequence_of_sequence? hvalue).1
      -- A digit too many would stand where the filler starts.
      have hpad : (pad s 12).drop 12 = [] := by
        rw [List.drop_append_of_le_length (le_length_pad s)] at hfiller
        cases hdrop : (pad s 12).drop 12 with
        | nil => rfl
        | cons c cs =>
          rw [hdrop] at hfiller
          have hc : c = ':' := (List.cons.inj hfiller).1
          have hdigit := isDigit_of_mem_pad (List.mem_of_mem_drop (hdrop ▸ List.mem_cons_self))
          rw [hc] at hdigit
          cases hdigit
      have hlong : (pad s 12).length ≤ 12 := List.drop_eq_nil_iff.mp hpad
      refine sequenceFromPayload_eq_ok.mpr ⟨_, hrest, ?_⟩
      rw [List.take_append_of_le_length (le_length_pad s), List.take_of_length_le hlong]
      exact sequence?_ofText_pad.mpr ⟨hs, rfl⟩

end Overload

end QueueOverload

/-- **When the decoders of queue items are exact**: they return a sequence for exactly the bytes
that were written for it iff the body is refused, or has the digits, and in an overload the filler,
that were written, without a byte order mark. -/
theorem queueDecoders_exact_iff (namespaceName worker : RouteSegment) (body : Body)
    (payloadBytes : ℕ) :
    ((∀ s, decodePressureQueueSequence namespaceName worker body = .ok s ↔
      s ≤ maxSafeInteger ∧ body = pressureValue namespaceName worker .queue s) ↔
      WrittenBody namespaceName worker body) ∧
    ((∀ s, QueueOverload.sequenceFromPayload namespaceName worker body = .ok s ↔
      s ≤ maxSafeInteger ∧ body = QueueOverload.payload namespaceName worker payloadBytes s) ↔
      QueueOverload.WrittenBody namespaceName worker payloadBytes body) :=
  ⟨decodePressureQueueSequence_exact_iff, QueueOverload.sequenceFromPayload_exact_iff⟩

/-- The worker of the truncated bodies. -/
def truncatedWorker : RouteSegment := ⟨"worker-1", by decide⟩

/-- **A body that ends before its digits** is read as the first item. -/
theorem not_exact_truncated :
    (¬∀ s, decodePressureQueueSequence truncatedWorker truncatedWorker
        (encode (valueStart truncatedWorker truncatedWorker .queue)) = .ok s ↔
      s ≤ maxSafeInteger ∧ encode (valueStart truncatedWorker truncatedWorker .queue) =
        pressureValue truncatedWorker truncatedWorker .queue s) ∧
    ¬∀ s, QueueOverload.sequenceFromPayload truncatedWorker truncatedWorker
        (encode (QueueOverload.payloadStart truncatedWorker truncatedWorker)) = .ok s ↔
      s ≤ maxSafeInteger ∧ encode (QueueOverload.payloadStart truncatedWorker truncatedWorker) =
        QueueOverload.payload truncatedWorker truncatedWorker 64 s := by
  constructor
  · intro hexact
    have hbody := ((hexact 0).mp (by decide +kernel)).2
    exact absurd hbody (by decide +kernel)
  · intro hexact
    have hbody := ((hexact 0).mp (by decide +kernel)).2
    exact absurd hbody (by decide +kernel)

end Pressure

end FitzDestroyer
