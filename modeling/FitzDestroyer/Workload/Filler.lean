import FitzDestroyer.Contention.Model
import FitzDestroyer.Js.Bitwise

/-!
# The filler of payloads

After its readable start a payload is filled by a generator whose state is a word of 32 bits
(`workloads/model.ts`, `workloads/stream-replay.ts`).  A state of zero would stay zero.

* `xorshift`, `fnv1a`, `identityState`, `seedState` : the generator on numbers, with the operators
  of the source;
* `deterministicPayload_eq_states`, `boundaryPayload_eq_states` : the payloads are filled by it;
* `filler_nonzero` : no state is zero.
-/

namespace FitzDestroyer

namespace Workload

namespace Filler

open Js Bitwise

/-- `state ^= state << 13; state ^= state >>> 17; state ^= state << 5` -/
def xorshift (state : ℤ) : ℤ :=
  let state := Bitwise.xor state (shiftLeft state 13)
  let state := Bitwise.xor state (shiftRight state 17)
  Bitwise.xor state (shiftLeft state 5)

/-- The states after each of the rounds. -/
def states : ℕ → ℤ → List ℤ
  | 0, _ => []
  | n + 1, state => xorshift state :: states n (xorshift state)

/-- `payload[index] = state & 0xff` -/
def fillerByte (state : ℤ) : UInt8 := UInt8.ofNat (Bitwise.and state 0xff).toNat

def fnv1a (value : String) : ℤ :=
  let hash := (encode value).foldl (fun hash byte => imul (Bitwise.xor hash byte.toNat) 0x01000193)
    0x811c9dc5
  shiftRight hash 0

/-- `fnv1a(identity) || 0x9e37_79b9` -/
def identityState (identity : String) : ℤ :=
  if fnv1a identity = 0 then 0x9e3779b9 else fnv1a identity

/-- `seed || 0x9e37_79b9` -/
def seedState (seed : ℕ) : ℤ := if seed = 0 then 0x9e3779b9 else seed

/-! ### Words -/

/-- The generator on words. -/
def wordStep (x : BitVec 32) : BitVec 32 :=
  let x := x ^^^ x <<< 13
  let x := x ^^^ x >>> 17
  x ^^^ x <<< 5

@[simp] theorem word_xorshift (state : ℤ) : word (xorshift state) = wordStep (word state) := by
  simp [xorshift, wordStep]

theorem toBitVec_nextState (state : UInt32) :
    (nextState state).toBitVec = wordStep state.toBitVec := by
  simp [nextState, wordStep]

theorem wordStep_injective : Function.Injective wordStep := by
  intro x y h
  have h := xor_shiftLeft_injective (by decide) h
  have h := xor_shiftRight_injective (by decide) h
  exact xor_shiftLeft_injective (by decide) h

theorem wordStep_zero : wordStep 0 = 0 := by decide

theorem wordStep_eq_zero {x : BitVec 32} : wordStep x = 0 ↔ x = 0 := by
  constructor
  · intro h
    exact wordStep_injective (h.trans wordStep_zero.symm)
  · rintro rfl
    exact wordStep_zero

/-- A byte keeps the low bits of the word. -/
theorem fillerByte_eq {state : ℤ} {x : UInt32} (h : word state = x.toBitVec) :
    fillerByte state = x.toUInt8 := by
  have hlow : (word state &&& word 0xff).toNat = x.toNat % 2 ^ 8 := by
    rw [h, BitVec.toNat_and, ← Nat.and_two_pow_sub_one_eq_mod]
    rfl
  have hsmall : 2 * (word state &&& word 0xff).toNat < 2 ^ 32 := by
    rw [hlow]
    omega
  rw [fillerByte, Bitwise.and, BitVec.toInt_eq_toNat_of_lt hsmall, Int.toNat_natCast, hlow]
  apply UInt8.toNat_inj.mp
  simp

theorem stateBytes_eq_states {n : ℕ} {state : ℤ} {x : UInt32} (h : word state = x.toBitVec) :
    stateBytes n x = (states n state).map fillerByte := by
  induction n generalizing state x with
  | zero => rfl
  | succ n ih =>
    have hnext : word (xorshift state) = (nextState x).toBitVec := by
      rw [word_xorshift, h, toBitVec_nextState]
    rw [stateBytes, states, List.map_cons, fillerByte_eq hnext, ih hnext]

theorem word_byte (byte : UInt8) : word byte.toNat = byte.toUInt32.toBitVec := by
  rw [word, BitVec.ofInt_natCast, ← BitVec.toNat_inj]
  simp

theorem fnv1a_eq (value : String) : fnv1a value = ((Workload.fnv1a value).toNat : ℤ) := by
  have hfold : ∀ (bytes : List UInt8) (hash : ℤ) (x : UInt32), word hash = x.toBitVec →
      word (bytes.foldl (fun hash byte => imul (Bitwise.xor hash byte.toNat) 0x01000193) hash) =
        (bytes.foldl (fun hash byte => (hash ^^^ byte.toUInt32) * 0x01000193) x).toBitVec := by
    intro bytes
    induction bytes with
    | nil => exact fun _ _ h => h
    | cons byte bytes ih =>
      intro hash x h
      rw [List.foldl_cons, List.foldl_cons]
      apply ih
      rw [word_imul, word_xor, h, word_byte, UInt32.toBitVec_mul, UInt32.toBitVec_xor]
      rfl
  have hword := hfold (encode value) 0x811c9dc5 0x811c9dc5 rfl
  rw [fnv1a, shiftRight, Nat.zero_mod, BitVec.ushiftRight_zero, hword]
  rfl

theorem word_identityState (identity : String) : word (identityState identity) =
    (if Workload.fnv1a identity = 0 then 0x9e3779b9 else Workload.fnv1a identity).toBitVec := by
  by_cases h : Workload.fnv1a identity = 0
  · rw [if_pos h, identityState, fnv1a_eq, h]
    rfl
  · have hnumber : fnv1a identity ≠ 0 := by
      rw [fnv1a_eq]
      exact fun hzero => h (UInt32.toNat_inj.mp (by simpa using hzero))
    rw [if_neg h, identityState, if_neg hnumber, fnv1a_eq]
    exact word_toNat _

theorem word_seedState (seed : ℕ) : word (seedState seed) =
    (if seed = 0 then 0x9e3779b9 else UInt32.ofNat seed).toBitVec := by
  by_cases h : seed = 0
  · rw [if_pos h, seedState, if_pos h]
    rfl
  · rw [if_neg h, seedState, if_neg h, word, BitVec.ofInt_natCast]
    rfl

/-! ### Payloads -/

/-- The filler of a payload is what the generator makes from its identity. -/
theorem deterministicPayload_eq_states (seed payloadBytes : ℕ) (domain : DurableDomain)
    (resource entry : ℕ) : deterministicPayload seed payloadBytes domain resource entry =
      (encode (payloadStart domain resource entry)).take payloadBytes ++
        (states (payloadBytes - (encode (payloadStart domain resource entry)).length)
          (identityState s!"{seed}:{domain.name}:{resource}:{entry}")).map fillerByte := by
  rw [← stateBytes_eq_states (word_identityState _)]
  rfl

theorem boundaryPayload_eq_states (seed bytes : ℕ) :
    Contention.boundaryPayload seed bytes = (states bytes (seedState seed)).map fillerByte :=
  stateBytes_eq_states (word_seedState seed)

theorem word_identityState_ne_zero (identity : String) : word (identityState identity) ≠ 0 := by
  intro h
  rw [word_identityState] at h
  split_ifs at h with hzero
  · exact absurd h (by decide)
  · exact hzero (UInt32.toBitVec_inj.mp h)

theorem word_seedState_ne_zero {seed : ℕ} (hseed : seed < 2 ^ 32) :
    word (seedState seed) ≠ 0 := by
  by_cases h : seed = 0
  · rw [seedState, if_pos h]
    decide
  · rw [seedState, if_neg h, Ne, word_natCast_eq_zero hseed]
    exact h

/-- A round keeps a state from being zero. -/
theorem word_ne_zero_of_mem_states {n : ℕ} {state s : ℤ} (hstate : word state ≠ 0)
    (h : s ∈ states n state) : word s ≠ 0 := by
  induction n generalizing state with
  | zero => exact absurd h List.not_mem_nil
  | succ n ih =>
    have hnext : word (xorshift state) ≠ 0 := by
      rw [word_xorshift, Ne, wordStep_eq_zero]
      exact hstate
    rcases List.mem_cons.mp h with rfl | h
    · exact hnext
    · exact ih hnext h

/-- **The filler never degenerates.**  A round confuses no words and keeps zero apart; the
generators start with words that are not zero, and so are all states that fill a payload: every
byte behind its readable start, up to its whole length. -/
theorem filler_nonzero :
    (∀ a b, word (xorshift a) = word (xorshift b) → word a = word b) ∧
    (∀ a, word a ≠ 0 → word (xorshift a) ≠ 0) ∧
    (∀ identity, word (identityState identity) ≠ 0) ∧
    (∀ seed < 2 ^ 32, word (seedState seed) ≠ 0) ∧
    (∀ identity n, ∀ state ∈ states n (identityState identity), word state ≠ 0) ∧
    (∀ seed < 2 ^ 32, ∀ n, ∀ state ∈ states n (seedState seed), word state ≠ 0) ∧
    (∀ seed payloadBytes domain resource entry,
      deterministicPayload seed payloadBytes domain resource entry =
        (encode (payloadStart domain resource entry)).take payloadBytes ++
          (states (payloadBytes - (encode (payloadStart domain resource entry)).length)
            (identityState s!"{seed}:{domain.name}:{resource}:{entry}")).map fillerByte) ∧
    ∀ seed bytes,
      Contention.boundaryPayload seed bytes = (states bytes (seedState seed)).map fillerByte := by
  refine ⟨?_, ?_, word_identityState_ne_zero, fun _ => word_seedState_ne_zero, ?_, ?_,
    deterministicPayload_eq_states, boundaryPayload_eq_states⟩
  · intro a b h
    rw [word_xorshift, word_xorshift] at h
    exact wordStep_injective h
  · intro a ha
    rw [word_xorshift, Ne, wordStep_eq_zero]
    exact ha
  · exact fun identity n _ => word_ne_zero_of_mem_states (word_identityState_ne_zero identity)
  · exact fun seed hseed n _ => word_ne_zero_of_mem_states (word_seedState_ne_zero hseed)

end Filler

end Workload

end FitzDestroyer
