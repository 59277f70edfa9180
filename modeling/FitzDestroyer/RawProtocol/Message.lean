import FitzDestroyer.Js.Utf8
import FitzDestroyer.RawProtocol.Tlv

/-!
# Messages of the raw protocol

The fields of a message, and the response that the broker gives to most of them
(`workloads/raw-protocol.ts`).

* `encodeBytes`, `encodeString`, `encodeU32`, `encodeU64`, `readU32` : the fields;
* `decodeStandardResponse` : the response;
* `decodeTlvs_tlvBytes` : a frame of one record.
-/

namespace FitzDestroyer

namespace RawProtocol

open Js

/-! ### Fields -/

def encodeBytes (value : List UInt8) : List UInt8 := bigEndian 4 value.length ++ value

def encodeString (value : String) : List UInt8 := encodeBytes (encode value)

def encodeU64 (value : ℕ) : List UInt8 := bigEndian 8 value

def encodeU32 (value : Number) : Except Thrown (List UInt8) :=
  let invalid := newError s!"u32 value {numberText value} is invalid"
  match value.sequence? with
  | none => .error invalid
  | some n => if 0xffff_ffff < n then .error invalid else .ok (bigEndian 4 n)

def readU32 (bytes : List UInt8) (offset : ℕ) : Except Thrown ℕ :=
  if bytes.length < offset + 4 then .error (newError "u32 is truncated")
  else .ok (ofBigEndian ((bytes.drop offset).take 4))

@[simp] theorem length_encodeBytes (value : List UInt8) :
    (encodeBytes value).length = 4 + value.length := by
  rw [encodeBytes, List.length_append, length_bigEndian]

/-- The length of a field of bytes is read from its first four bytes. -/
theorem readU32_encodeBytes {value : List UInt8} (h : value.length < 2 ^ 32)
    (before after : List UInt8) :
    readU32 (before ++ (encodeBytes value ++ after)) before.length = .ok value.length := by
  have hlength : ¬(before ++ (encodeBytes value ++ after)).length < before.length + 4 := by
    simp only [List.length_append, length_encodeBytes]
    omega
  have htake : ((encodeBytes value ++ after).take 4) = bigEndian 4 value.length := by
    rw [encodeBytes, List.append_assoc]
    exact List.take_left' (length_bigEndian 4 value.length)
  rw [readU32, if_neg hlength, List.drop_left, htake, ofBigEndian_bigEndian h]

/-- What is read are the four bytes at the offset. -/
theorem readU32_eq_ok {bytes : List UInt8} {offset n : ℕ} : readU32 bytes offset = .ok n ↔
    n < 2 ^ 32 ∧ offset ≤ bytes.length ∧
      bytes.drop offset = bigEndian 4 n ++ bytes.drop (offset + 4) := by
  rw [readU32]
  split_ifs with h
  · simp only [false_iff, not_and]
    intro _ hoffset hdrop
    have hlength := congrArg List.length hdrop
    simp only [List.length_drop, List.length_append, length_bigEndian] at hlength
    omega
  · have hfour : ((bytes.drop offset).take 4).length = 4 := by
      rw [List.length_take, List.length_drop]
      omega
    rw [Except.ok.injEq]
    constructor
    · rintro rfl
      have hlt := ofBigEndian_lt ((bytes.drop offset).take 4)
      have hbytes := bigEndian_ofBigEndian ((bytes.drop offset).take 4)
      rw [hfour] at hlt hbytes
      rw [hbytes, ← List.drop_drop, List.take_append_drop]
      exact ⟨hlt, by omega, rfl⟩
    · rintro ⟨hlt, -, hdrop⟩
      rw [hdrop, List.take_left' (length_bigEndian 4 n), ofBigEndian_bigEndian hlt]

/-! ### Responses -/

structure StandardResponse where
  ok : Bool
  data : List UInt8
  errorCode : Option ℕ
  errorMessage : Option String

def decodeStandardResponse (payload : List UInt8) : Except Thrown StandardResponse :=
  match payload with
  | [] => .error (newError "standard response is empty")
  | status :: data =>
    if status = 0 then .ok ⟨true, data, none, none⟩
    else if status ≠ 1 ∨ payload.length < 9 then
      .error (newError s!"invalid standard response status {status}")
    else
      let errorCode := ofBigEndian ((payload.drop 1).take 4)
      let messageLength := ofBigEndian ((payload.drop 5).take 4)
      if payload.length < 9 + messageLength then
        .error (newError "standard response error is truncated")
      else
        let errorMessage := String.ofList (decode ((payload.drop 9).take messageLength))
        .ok ⟨false, [], some errorCode, some errorMessage⟩

/-! ### Frames -/

/-- A frame of one record is decoded. -/
theorem decodeTlvs_tlvBytes {type : ℕ} {payload : List UInt8} (htype : type ≤ 0xffff)
    (hpayload : payload.length ≤ 0xffff) :
    decodeTlvs (tlvBytes type payload) = .ok [⟨type, payload⟩] := by
  refine decodeTlvs_eq_ok.mpr ⟨List.cons_ne_nil _ _, [tlvBytes type payload], ?_, ?_⟩
  · exact .cons (isTlv_tlvBytes htype hpayload) .nil
  · exact (List.append_nil _).symm

end RawProtocol

end FitzDestroyer
