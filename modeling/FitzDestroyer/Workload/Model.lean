import FitzDestroyer.Check.Basic
import FitzDestroyer.Js.Ascii
import FitzDestroyer.Js.Error
import FitzDestroyer.Js.Text

/-!
# Payloads

The workloads generate payloads from a seed (`workloads/model.ts`), and check the bytes they get
back.

* `deterministicPayload` : the payload of an entry;
* `deterministicPayload_injective` : the payloads of different entries are different;
* `assertBytesEqual_eq_ok` : the check passes iff the bytes are the expected ones.
-/

namespace FitzDestroyer

namespace Workload

open Js

inductive DurableDomain where
  | queue
  | kv
  | stream
  | schedule
  deriving DecidableEq, Repr

def DurableDomain.name : DurableDomain → String
  | queue => "queue"
  | kv => "kv"
  | stream => "stream"
  | schedule => "schedule"

def fnv1a (value : String) : UInt32 :=
  (encode value).foldl (fun hash byte => (hash ^^^ byte.toUInt32) * 0x01000193) 0x811c9dc5

/-- One round of the generator. -/
def nextState (state : UInt32) : UInt32 :=
  let state := state ^^^ (state <<< 13)
  let state := state ^^^ (state >>> 17)
  state ^^^ (state <<< 5)

/-- The next bytes of the generator. -/
def stateBytes : ℕ → UInt32 → List UInt8
  | 0, _ => []
  | n + 1, state => (nextState state).toUInt8 :: stateBytes n (nextState state)

/-- The payload of an entry: a readable start, then generated bytes. -/
def deterministicPayload (seed payloadBytes : ℕ) (domain : DurableDomain) (resource entry : ℕ) :
    List UInt8 :=
  let identity := s!"{seed}:{domain.name}:{resource}:{entry}"
  let state := if fnv1a identity = 0 then 0x9e3779b9 else fnv1a identity
  let start := encode
    s!"{domain.name}:{String.ofList (pad resource 4)}:{String.ofList (pad entry 8)}:"
  start.take payloadBytes ++ stateBytes (payloadBytes - start.length) state

/-- The readable start of a payload. -/
def payloadStart (domain : DurableDomain) (resource entry : ℕ) : String :=
  s!"{domain.name}:{String.ofList (pad resource 4)}:{String.ofList (pad entry 8)}:"

/-- The first offset at which the bytes differ. -/
def firstMismatch : List UInt8 → List UInt8 → Option ℕ
  | x :: xs, y :: ys => if x ≠ y then some 0 else (firstMismatch xs ys).map (· + 1)
  | _, _ => none

def assertBytesEqual (actual expected : List UInt8) (context : String) : Except Thrown Unit :=
  if actual.length ≠ expected.length then
    .error (newError s!"{context}: byte length {actual.length} != {expected.length}")
  else
    match firstMismatch actual expected with
    | some index => .error (newError s!"{context}: byte mismatch at offset {index}")
    | none => .ok ()

theorem length_stateBytes (n : ℕ) (state : UInt32) : (stateBytes n state).length = n := by
  induction n generalizing state with
  | zero => rfl
  | succ n ih => rw [stateBytes, List.length_cons, ih]

theorem length_deterministicPayload (seed payloadBytes : ℕ) (domain : DurableDomain)
    (resource entry : ℕ) :
    (deterministicPayload seed payloadBytes domain resource entry).length = payloadBytes := by
  simp only [deterministicPayload, List.length_append, List.length_take, length_stateBytes]
  omega

theorem toList_payloadStart (domain : DurableDomain) (resource entry : ℕ) :
    (payloadStart domain resource entry).toList =
      domain.name.toList ++ ':' :: (pad resource 4 ++ ':' :: (pad entry 8 ++ [':'])) := by
  simp [payloadStart, toString]

theorem ascii_payloadStart (domain : DurableDomain) (resource entry : ℕ) :
    ∀ c ∈ (payloadStart domain resource entry).toList, c.toNat < 128 := by
  have hname : ∀ c ∈ domain.name.toList, c.toNat < 128 := by cases domain <;> decide
  have hcolon : ':'.toNat < 128 := by decide
  have hpad : ∀ value width, ∀ c ∈ pad value width, c.toNat < 128 := fun value width c hc => by
    have := isDigit_iff.mp (isDigit_of_mem_pad hc)
    omega
  rw [toList_payloadStart]
  simp only [List.forall_mem_append, List.forall_mem_cons]
  exact ⟨hname, hcolon, hpad _ _, hcolon, hpad _ _, hcolon, fun _ h => absurd h List.not_mem_nil⟩

/-- The start of a payload takes at most 23 bytes. -/
theorem length_payloadStart {domain : DurableDomain} {resource entry : ℕ}
    (hresource : resource < 10 ^ 4) (hentry : entry < 10 ^ 8) :
    (encode (payloadStart domain resource entry)).length = domain.name.length + 15 := by
  have hmap := congrArg List.length (map_toNat_encode (ascii_payloadStart domain resource entry))
  rw [List.length_map, List.length_map, toList_payloadStart] at hmap
  rw [hmap]
  simp only [List.length_append, List.length_cons, List.length_nil,
    length_pad (show 0 < 4 by decide) hresource, length_pad (show 0 < 8 by decide) hentry,
    String.length_toList]

theorem deterministicPayload_start (seed payloadBytes : ℕ) (domain : DurableDomain)
    (resource entry : ℕ) : ∃ rest, deterministicPayload seed payloadBytes domain resource entry =
      (encode (payloadStart domain resource entry)).take payloadBytes ++ rest := ⟨_, rfl⟩

theorem DurableDomain.name_injective : Function.Injective DurableDomain.name := by
  intro domain domain' h
  cases domain <;> cases domain' <;> first | rfl | exact absurd h (by decide)

theorem DurableDomain.takeWhile_name (domain : DurableDomain) (rest : List Char) :
    (domain.name.toList ++ ':' :: rest).takeWhile (· ≠ ':') = domain.name.toList := by
  have hcolon : ∀ c ∈ domain.name.toList, decide (c ≠ ':') = true := by
    cases domain <;> decide
  rw [List.takeWhile_append_of_pos hcolon]
  simp

section Start

variable {seed payloadBytes : ℕ} {domain : DurableDomain} {resource entry : ℕ}

theorem payloadStart_ne_nil : (payloadStart domain resource entry).toList ≠ [] := by
  rw [toList_payloadStart]
  simp

/-- The readable start of a payload is not cut off. -/
theorem deterministicPayload_eq_append (hbytes : 32 ≤ payloadBytes) (hresource : resource < 10 ^ 4)
    (hentry : entry < 10 ^ 8) : ∃ rest,
      deterministicPayload seed payloadBytes domain resource entry =
        encode (payloadStart domain resource entry) ++ rest := by
  have hname : domain.name.length ≤ 8 := by cases domain <;> decide
  obtain ⟨rest, hrest⟩ := deterministicPayload_start seed payloadBytes domain resource entry
  refine ⟨rest, ?_⟩
  rw [hrest, List.take_of_length_le]
  rw [length_payloadStart hresource hentry]
  omega

end Start

/-- **The payloads of different entries are different.** -/
theorem deterministicPayload_injective {seed payloadBytes : ℕ} {domain domain' : DurableDomain}
    {resource resource' entry entry' : ℕ} (hbytes : 32 ≤ payloadBytes)
    (hresource : resource < 10 ^ 4) (hresource' : resource' < 10 ^ 4) (hentry : entry < 10 ^ 8)
    (hentry' : entry' < 10 ^ 8)
    (h : deterministicPayload seed payloadBytes domain resource entry =
      deterministicPayload seed payloadBytes domain' resource' entry') :
    domain = domain' ∧ resource = resource' ∧ entry = entry' := by
  obtain ⟨rest, hrest⟩ := @deterministicPayload_eq_append seed _ domain _ _ hbytes hresource hentry
  obtain ⟨rest', hrest'⟩ :=
    @deterministicPayload_eq_append seed _ domain' _ _ hbytes hresource' hentry'
  have htext := congrArg decode (hrest.symm.trans (h.trans hrest'))
  rw [decode_encode_append (ascii_payloadStart _ _ _) payloadStart_ne_nil,
    decode_encode_append (ascii_payloadStart _ _ _) payloadStart_ne_nil, toList_payloadStart,
    toList_payloadStart] at htext
  simp only [List.append_assoc, List.cons_append] at htext
  obtain rfl : domain = domain' := by
    have hname := congrArg (List.takeWhile (· ≠ ':')) htext
    rw [DurableDomain.takeWhile_name, DurableDomain.takeWhile_name] at hname
    exact DurableDomain.name_injective (String.toList_inj.mp hname)
  have hfields := (List.cons.inj (List.append_cancel_left htext)).2
  obtain ⟨hpad, hfields⟩ := List.append_inj hfields
    (by rw [length_pad (by decide) hresource, length_pad (by decide) hresource'])
  obtain ⟨hpad', -⟩ := List.append_inj (List.cons.inj hfields).2
    (by rw [length_pad (by decide) hentry, length_pad (by decide) hentry'])
  exact ⟨rfl, pad_inj hpad, pad_inj hpad'⟩

theorem firstMismatch_eq_none {xs ys : List UInt8} (hlen : xs.length = ys.length) :
    firstMismatch xs ys = none ↔ xs = ys := by
  induction xs generalizing ys with
  | nil => simp [firstMismatch, (List.length_eq_zero_iff.mp hlen.symm)]
  | cons x xs ih =>
    cases ys with
    | nil => simp at hlen
    | cons y ys =>
      rw [firstMismatch, List.cons.injEq, ← ih (Nat.succ.inj hlen)]
      by_cases hxy : x = y <;> simp [hxy]

/-- The bytes pass iff they are the expected ones. -/
theorem assertBytesEqual_eq_ok {actual expected : List UInt8} {context : String} :
    assertBytesEqual actual expected context = .ok () ↔ actual = expected := by
  unfold assertBytesEqual
  by_cases hlen : actual.length = expected.length
  · rw [if_neg (not_not.mpr hlen), ← firstMismatch_eq_none hlen]
    rcases firstMismatch actual expected with _ | index <;> simp
  · rw [if_pos hlen]
    refine iff_of_false (by simp) ?_
    rintro rfl
    exact hlen rfl

end Workload

end FitzDestroyer
