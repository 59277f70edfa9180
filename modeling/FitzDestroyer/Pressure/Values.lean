import FitzDestroyer.Js.CodeUnits
import FitzDestroyer.Js.Error
import FitzDestroyer.Js.NumberText
import FitzDestroyer.Js.Utf8
import Mathlib.Data.List.Lemmas

/-!
# Values of pressure operations

The value of a pressure operation (`workloads/pressure.ts`) names the worker and counts its
operations, so that a queue item can be traced back to the operation that enqueued it.

* `pressureValue` : the value;
* `decodePressureQueueSequence` : the counter of a queue item;
* `decodePressureQueueSequence_pressureValue` : the counter is read back if it is a safe integer.
-/

namespace FitzDestroyer

namespace Pressure

open Js

/-- The domains of the broker. -/
inductive Domain where
  | queue
  | kv
  | stream
  | schedule
  | notice
  | lease
  | rpc
  deriving DecidableEq, Repr

def Domain.name : Domain → String
  | queue => "queue"
  | kv => "kv"
  | stream => "stream"
  | schedule => "schedule"
  | notice => "notice"
  | lease => "lease"
  | rpc => "rpc"

/-- A text that `routeSegment` returns. -/
structure RouteSegment where
  text : String
  chars : ∀ c ∈ text.toList, c.isDigit = true ∨ c.isLower = true ∨ c = '-'

/-- The body of a message. -/
abbrev Body := List UInt8

section Values

variable (namespaceName worker : RouteSegment)

/-- The start of the values of a worker in a domain. -/
def valueStart (domain : Domain) : String :=
  namespaceName.text ++ ":" ++ worker.text ++ ":" ++ domain.name ++ ":"

def pressureValue (domain : Domain) (counter : ℕ) : Body :=
  encode (valueStart namespaceName worker domain ++ String.ofList (pad counter 12))

def decodePressureQueueSequence (body : Body) : Except Thrown ℕ :=
  let value := decode body
  let start := valueStart namespaceName worker .queue
  match start.toList.isPrefixOf? value with
  | none =>
    let sample := sliceStart 160 (String.ofList value)
    .error (newError s!"{worker.text} queue payload '{sample}' has an unexpected identity")
  | some rest =>
    match (Number.ofText rest).sequence? with
    | none =>
      let text := String.ofList rest
      .error (newError s!"{worker.text} queue payload has invalid sequence '{text}'")
    | some sequence => .ok sequence

/-- The route and the offset of a stream write. -/
def pressureStreamWrite (expectedOffset : ℕ) : String × ℕ :=
  (s!"stream://destroyer/{namespaceName.text}/{worker.text}-stream", expectedOffset)

end Values

def nextPressureStreamOffset (latestOffset : Option ℕ) : ℕ :=
  match latestOffset with
  | none => 0
  | some offset => offset + 1

/-! ### Values are read back -/

variable {namespaceName worker : RouteSegment}

/-- The characters of the text are ASCII characters. -/
def IsAscii (text : String) : Prop := ∀ c ∈ text.toList, c.toNat < 128

theorem isAscii_append {s t : String} (hs : IsAscii s) (ht : IsAscii t) : IsAscii (s ++ t) := by
  intro c hc
  rw [String.toList_append, List.mem_append] at hc
  rcases hc with hc | hc
  · exact hs c hc
  · exact ht c hc

theorem RouteSegment.isAscii (segment : RouteSegment) : IsAscii segment.text := by
  intro c hc
  rcases segment.chars c hc with h | h | rfl
  · have := isDigit_iff.mp h
    omega
  · have hle : c.toNat ≤ 122 := of_decide_eq_true (Bool.and_eq_true_iff.mp h).2
    omega
  · decide

theorem Domain.isAscii_name (domain : Domain) : IsAscii domain.name := by
  unfold IsAscii
  cases domain <;> decide

theorem isAscii_pad (value width : ℕ) : IsAscii (String.ofList (pad value width)) := by
  intro c hc
  rw [String.toList_ofList] at hc
  have := isDigit_iff.mp (isDigit_of_mem_pad hc)
  omega

theorem isAscii_valueStart (domain : Domain) :
    IsAscii (valueStart namespaceName worker domain) := by
  have hcolon : IsAscii ":" := by
    unfold IsAscii
    decide
  exact isAscii_append (isAscii_append (isAscii_append (isAscii_append (isAscii_append
    namespaceName.isAscii hcolon) worker.isAscii) hcolon) domain.isAscii_name) hcolon

theorem decode_pressureValue (domain : Domain) (counter : ℕ) :
    decode (pressureValue namespaceName worker domain counter) =
      (valueStart namespaceName worker domain).toList ++ pad counter 12 := by
  rw [pressureValue, decode_encode (isAscii_append (isAscii_valueStart domain) (isAscii_pad _ _)),
    String.toList_append, String.toList_ofList]

/-- Different counters have different values. -/
theorem pressureValue_injective (domain : Domain) :
    Function.Injective (pressureValue namespaceName worker domain) := by
  intro i j h
  have hdecode := congrArg decode h
  rw [decode_pressureValue, decode_pressureValue] at hdecode
  have hpad := congrArg (fun cs => Nat.ofDigitChars 10 cs 0) (List.append_cancel_left hdecode)
  simpa using hpad

/-- **The counter of a value is read back** if it is a safe integer. -/
theorem decodePressureQueueSequence_pressureValue {counter : ℕ} (h : counter ≤ maxSafeInteger) :
    decodePressureQueueSequence namespaceName worker
      (pressureValue namespaceName worker .queue counter) = .ok counter := by
  have hdigits : ∀ c ∈ pad counter 12, c.isDigit := fun c hc => isDigit_of_mem_pad hc
  have hne : pad counter 12 ≠ [] := by
    intro hnil
    have hlength := congrArg List.length hnil
    simp only [pad, padStart, List.length_append, List.length_replicate, List.length_nil] at hlength
    omega
  have hnumber : Number.ofText (pad counter 12) = (counter : Number) := by
    have hread := Number.ofText_digits hne hdigits (by rwa [ofDigitChars_pad])
    rwa [ofDigitChars_pad] at hread
  have hrest : (valueStart namespaceName worker .queue).toList.isPrefixOf?
      (decode (pressureValue namespaceName worker .queue counter)) = some (pad counter 12) := by
    rw [List.isPrefixOf?_eq_some_iff_append_eq, decode_pressureValue]
  unfold decodePressureQueueSequence
  dsimp only
  rw [hrest]
  dsimp only
  rw [hnumber, Number.sequence?_natCast h]

end Pressure

end FitzDestroyer
