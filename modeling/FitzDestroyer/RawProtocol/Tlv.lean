import FitzDestroyer.Check.Basic
import FitzDestroyer.Js.DataView
import FitzDestroyer.Js.Error
import FitzDestroyer.Workload.Log

/-!
# TLV records

The frames of the raw protocol are lists of records: a type, a length and a payload
(`workloads/raw-protocol.ts`).  A type takes one byte, or the byte `0xff` and two more.

* `encodeTlv`, `decodeTlvs` : the codec;
* `IsTlv` : the bytes of a record, in either form of its type;
* `decodeTlvs_exact` : what is decoded, and from which bytes.
-/

namespace FitzDestroyer

namespace RawProtocol

open Js

structure RawProtocolRecord where
  type : ℕ
  payload : List UInt8
  deriving DecidableEq, Repr

/-! ### The codec -/

/-- The bytes of a record whose type and length have been checked. -/
def tlvBytes (type : ℕ) (payload : List UInt8) : List UInt8 :=
  (if type ≤ 0xfe then bigEndian 1 type else 0xff :: bigEndian 2 type) ++
    bigEndian 2 payload.length ++ payload

def encodeTlv (type : Number) (payload : List UInt8) : Except Thrown (List UInt8) :=
  match type.sequence? with
  | none => .error (newError s!"TLV type {numberText type} is outside u16")
  | some n =>
    if 0xffff < n then
      .error (newError s!"TLV type {numberText type} is outside u16")
    else if 0xffff < payload.length then
      .error (newError s!"TLV payload is too large: {payload.length}")
    else .ok (tlvBytes n payload)

/-- `concatBytes(...parts)`. -/
def concatBytes (parts : List (List UInt8)) : List UInt8 := parts.flatten

/-- The type of a record, after its first byte, and the bytes that follow. -/
def decodeType (marker : UInt8) (bytes : List UInt8) : Except Thrown (ℕ × List UInt8) :=
  if marker = 0xff then
    match bytes with
    | high :: low :: rest => .ok (ofBigEndian [high, low], rest)
    | _ => .error (newError "TLV frame ended in escaped type")
  else .ok (marker.toNat, bytes)

/-- The length and the payload of a record, and the bytes that follow. -/
def decodePayload (type : ℕ) (bytes : List UInt8) :
    Except Thrown (RawProtocolRecord × List UInt8) :=
  match bytes with
  | high :: low :: rest =>
    let length := ofBigEndian [high, low]
    if rest.length < length then
      .error (newError s!"TLV value is incomplete: need {length}, have {rest.length}")
    else .ok (⟨type, rest.take length⟩, rest.drop length)
  | _ => .error (newError "TLV frame ended in length")

/-- A record, and the bytes that follow. -/
def decodeTlv (marker : UInt8) (bytes : List UInt8) :
    Except Thrown (RawProtocolRecord × List UInt8) := do
  let (type, rest) ← decodeType marker bytes
  decodePayload type rest

theorem decodeType_short {marker : UInt8} (h : marker ≠ 0xff) (bytes : List UInt8) :
    decodeType marker bytes = .ok (marker.toNat, bytes) := by
  rw [decodeType.eq_def, if_neg h]

theorem decodeType_escaped (high low : UInt8) (rest : List UInt8) :
    decodeType 0xff (high :: low :: rest) = .ok (ofBigEndian [high, low], rest) := rfl

theorem decodeType_length {marker : UInt8} {bytes rest : List UInt8} {type : ℕ}
    (h : decodeType marker bytes = .ok (type, rest)) : rest.length ≤ bytes.length := by
  unfold decodeType at h
  split_ifs at h
  · split at h
    · obtain ⟨-, rfl⟩ := Prod.mk.inj (Except.ok.inj h)
      simp only [List.length_cons]
      omega
    · cases h
  · obtain ⟨-, rfl⟩ := Prod.mk.inj (Except.ok.inj h)
    exact le_rfl

theorem decodePayload_length {type : ℕ} {bytes rest : List UInt8} {record : RawProtocolRecord}
    (h : decodePayload type bytes = .ok (record, rest)) : rest.length ≤ bytes.length := by
  simp only [decodePayload] at h
  split at h
  · split_ifs at h
    obtain ⟨-, rfl⟩ := Prod.mk.inj (Except.ok.inj h)
    simp only [List.length_drop, List.length_cons]
    omega
  · cases h

theorem decodeTlv_length {marker : UInt8} {bytes rest : List UInt8} {record : RawProtocolRecord}
    (h : decodeTlv marker bytes = .ok (record, rest)) : rest.length ≤ bytes.length := by
  obtain ⟨⟨type, bytes'⟩, htype, hpayload⟩ := Check.bind_eq_ok.mp h
  exact (decodePayload_length hpayload).trans (decodeType_length htype)

/-- The loop of `decodeTlvs`. -/
def decodeRecords : List UInt8 → Except Thrown (List RawProtocolRecord)
  | [] => .ok []
  | marker :: bytes =>
    match _h : decodeTlv marker bytes with
    | .error error => .error error
    | .ok (record, rest) => do
      let records ← decodeRecords rest
      return record :: records
termination_by bytes => bytes.length
decreasing_by exact Nat.lt_succ_of_le (decodeTlv_length _h)

def decodeTlvs (frame : List UInt8) : Except Thrown (List RawProtocolRecord) := do
  let records ← decodeRecords frame
  Check.failIf (records = []) (newError "TLV frame is empty")
  return records

/-! ### The bytes of records -/

/-- The bytes of a record: its type in one byte below `0xff`, or after the byte `0xff` in two. -/
inductive IsTlv : RawProtocolRecord → List UInt8 → Prop
  | short (type : UInt8) (payload : List UInt8) (htype : type ≠ 0xff)
      (hpayload : payload.length < 2 ^ 16) :
      IsTlv ⟨type.toNat, payload⟩ (type :: (bigEndian 2 payload.length ++ payload))
  | escaped (type : ℕ) (payload : List UInt8) (htype : type < 2 ^ 16)
      (hpayload : payload.length < 2 ^ 16) :
      IsTlv ⟨type, payload⟩ (0xff :: (bigEndian 2 type ++ (bigEndian 2 payload.length ++ payload)))

/-- The bytes of a list of records, record by record. -/
def AreTlvs (records : List RawProtocolRecord) (parts : List (List UInt8)) : Prop :=
  List.Forall₂ IsTlv records parts

theorem isTlv_tlvBytes {type : ℕ} {payload : List UInt8} (htype : type ≤ 0xffff)
    (hpayload : payload.length ≤ 0xffff) : IsTlv ⟨type, payload⟩ (tlvBytes type payload) := by
  have hlength : payload.length < 2 ^ 16 := Nat.lt_succ_of_le hpayload
  unfold tlvBytes
  split_ifs with hshort
  · have hlt : type < 256 := by omega
    have hmarker : (UInt8.ofNat type).toNat = type := UInt8.toNat_ofNat_of_lt' hlt
    have hne : UInt8.ofNat type ≠ 0xff := by
      intro heq
      have := congrArg UInt8.toNat heq
      rw [hmarker] at this
      have h255 : (0xff : UInt8).toNat = 255 := by decide
      omega
    have htlv := IsTlv.short (UInt8.ofNat type) payload hne hlength
    rw [hmarker] at htlv
    simpa [bigEndian] using htlv
  · rw [List.append_assoc, List.cons_append]
    exact .escaped type payload (Nat.lt_succ_of_le htype) hlength

theorem ofBigEndian_two_lt (high low : UInt8) : ofBigEndian [high, low] < 2 ^ 16 := by
  have hlt := ofBigEndian_lt [high, low]
  norm_num at hlt ⊢
  exact hlt

theorem bigEndian_two (high low : UInt8) : bigEndian 2 (ofBigEndian [high, low]) = [high, low] :=
  bigEndian_ofBigEndian [high, low]

/-- Two bytes, from the integer they stand for. -/
theorem exists_two_bytes (n : ℕ) : ∃ high low, bigEndian 2 n = [high, low] := ⟨_, _, rfl⟩

theorem decodePayload_append {payload : List UInt8} (hpayload : payload.length < 2 ^ 16)
    (type : ℕ) (rest : List UInt8) :
    decodePayload type (bigEndian 2 payload.length ++ (payload ++ rest)) =
      .ok (⟨type, payload⟩, rest) := by
  have hread : ofBigEndian (bigEndian 2 payload.length) = payload.length :=
    ofBigEndian_bigEndian hpayload
  obtain ⟨high, low, hbytes⟩ := exists_two_bytes payload.length
  rw [hbytes] at hread ⊢
  simp only [List.cons_append, List.nil_append, decodePayload, hread]
  rw [if_neg (by rw [List.length_append]; omega), List.take_left, List.drop_left]

/-- The bytes of a record are decoded, whatever follows them. -/
theorem decodeRecords_append {record : RawProtocolRecord} {part : List UInt8}
    (h : IsTlv record part) (rest : List UInt8) :
    decodeRecords (part ++ rest) = (decodeRecords rest).map (record :: ·) := by
  have hstep : ∀ marker bytes, part = marker :: bytes →
      decodeTlv marker (bytes ++ rest) = .ok (record, rest) →
        decodeRecords (part ++ rest) = (decodeRecords rest).map (record :: ·) := by
    rintro marker bytes rfl htlv
    rw [List.cons_append, decodeRecords]
    split
    · rename_i error herror
      rw [htlv] at herror
      cases herror
    · rename_i record' rest' hok
      rw [htlv] at hok
      obtain ⟨rfl, rfl⟩ := Prod.mk.inj (Except.ok.inj hok)
      cases decodeRecords rest <;> rfl
  cases h with
  | short type payload htype hpayload =>
    refine hstep _ _ rfl ?_
    rw [List.append_assoc, decodeTlv, decodeType_short htype]
    exact decodePayload_append hpayload _ rest
  | escaped type payload htype hpayload =>
    refine hstep _ _ rfl ?_
    have hread : ofBigEndian (bigEndian 2 type) = type := ofBigEndian_bigEndian htype
    obtain ⟨high, low, hbytes⟩ := exists_two_bytes type
    rw [hbytes] at hread ⊢
    rw [List.append_assoc, List.append_assoc, List.cons_append, List.cons_append, List.nil_append,
      decodeTlv, decodeType_escaped, hread]
    exact decodePayload_append hpayload type rest

theorem decodeRecords_flatten {records : List RawProtocolRecord} {parts : List (List UInt8)}
    (h : AreTlvs records parts) : decodeRecords parts.flatten = .ok records := by
  induction h with
  | nil => rw [List.flatten_nil, decodeRecords]
  | cons hrecord _ ih => rw [List.flatten_cons, decodeRecords_append hrecord, ih]; rfl

/-- What is decoded as a record are the bytes of a record. -/
theorem isTlv_of_decodeTlv {marker : UInt8} {bytes rest : List UInt8} {record : RawProtocolRecord}
    (h : decodeTlv marker bytes = .ok (record, rest)) :
    ∃ part, IsTlv record part ∧ marker :: bytes = part ++ rest := by
  obtain ⟨⟨type, bytes'⟩, htype, hpayload⟩ := Check.bind_eq_ok.mp h
  -- The length and the payload.
  obtain ⟨payload, hlength, rfl, rfl⟩ : ∃ payload : List UInt8, payload.length < 2 ^ 16 ∧
      record = ⟨type, payload⟩ ∧ bytes' = bigEndian 2 payload.length ++ (payload ++ rest) := by
    simp only [decodePayload] at hpayload
    split at hpayload
    · rename_i high low tail
      split_ifs at hpayload with hlt
      obtain ⟨rfl, rfl⟩ := Prod.mk.inj (Except.ok.inj hpayload)
      have htake : (tail.take (ofBigEndian [high, low])).length = ofBigEndian [high, low] := by
        rw [List.length_take]
        omega
      refine ⟨_, htake.trans_lt (ofBigEndian_two_lt high low), rfl, ?_⟩
      rw [htake, bigEndian_two, List.take_append_drop]
      rfl
    · cases hpayload
  -- The type.
  unfold decodeType at htype
  split_ifs at htype with hmarker
  · split at htype
    · rename_i high low tail
      obtain ⟨rfl, rfl⟩ := Prod.mk.inj (Except.ok.inj htype)
      refine ⟨_, .escaped _ payload (ofBigEndian_two_lt high low) hlength, ?_⟩
      rw [bigEndian_two, hmarker]
      simp
    · cases htype
  · obtain ⟨rfl, rfl⟩ := Prod.mk.inj (Except.ok.inj htype)
    exact ⟨_, .short marker payload hmarker hlength, by simp⟩

theorem areTlvs_of_decodeRecords {bytes : List UInt8} {records : List RawProtocolRecord}
    (h : decodeRecords bytes = .ok records) :
    ∃ parts, AreTlvs records parts ∧ bytes = parts.flatten := by
  fun_induction decodeRecords bytes generalizing records with
  | case1 =>
    obtain rfl := Except.ok.inj h
    exact ⟨[], .nil, rfl⟩
  | case2 => cases h
  | case3 marker bytes record rest hrecord ih =>
    obtain ⟨records', hrecords, hok⟩ := Check.bind_eq_ok.mp h
    obtain rfl := Except.ok.inj hok
    obtain ⟨parts, hparts, rfl⟩ := ih hrecords
    obtain ⟨part, hpart, hbytes⟩ := isTlv_of_decodeTlv hrecord
    exact ⟨part :: parts, .cons hpart hparts, by rw [hbytes, List.flatten_cons]⟩

theorem decodeTlvs_eq_ok {frame : List UInt8} {records : List RawProtocolRecord} :
    decodeTlvs frame = .ok records ↔
      records ≠ [] ∧ ∃ parts, AreTlvs records parts ∧ frame = concatBytes parts := by
  rw [decodeTlvs, Check.bind_eq, Check.bind_eq_ok]
  simp only [Check.bind_eq, Check.seq_eq_ok, Check.failIf_eq_ok, Check.pure_eq, Except.ok.injEq]
  constructor
  · rintro ⟨_, hrecords, hne, rfl⟩
    exact ⟨hne, areTlvs_of_decodeRecords hrecords⟩
  · rintro ⟨hne, parts, hparts, rfl⟩
    exact ⟨records, decodeRecords_flatten hparts, hne, rfl⟩

theorem encodeTlv_eq_ok {type : ℕ} {payload : List UInt8} (htype : type ≤ 0xffff)
    (hpayload : payload.length ≤ 0xffff) :
    encodeTlv (type : Number) payload = .ok (tlvBytes type payload) := by
  have hsafe : type ≤ maxSafeInteger := htype.trans (by decide)
  simp only [encodeTlv, Number.sequence?_natCast hsafe]
  rw [if_neg (not_lt.mpr htype), if_neg (not_lt.mpr hpayload)]

/-- **The codec is exact**: the encodings of records are decoded as these records, and a frame is
decoded iff it is a concatenation of the bytes of records, at least one. -/
theorem decodeTlvs_exact :
    (∀ records : List RawProtocolRecord, records ≠ [] →
      (∀ r ∈ records, r.type ≤ 0xffff ∧ r.payload.length ≤ 0xffff) →
        ∃ parts, records.mapM (fun r => encodeTlv (r.type : Number) r.payload) = .ok parts ∧
          decodeTlvs (concatBytes parts) = .ok records) ∧
      (∀ frame records, decodeTlvs frame = .ok records ↔
        records ≠ [] ∧ ∃ parts, AreTlvs records parts ∧ frame = concatBytes parts) ∧
      ∀ frame, (∃ error, decodeTlvs frame = .error error) ↔
        ¬∃ records parts, records ≠ [] ∧ AreTlvs records parts ∧ frame = concatBytes parts := by
  refine ⟨fun records hne hrecords => ?_, fun _ _ => decodeTlvs_eq_ok, fun frame => ?_⟩
  · refine ⟨records.map fun r => tlvBytes r.type r.payload, ?_, ?_⟩
    · rw [Check.mapM_eq_ok, List.forall₂_map_right_iff, List.forall₂_same]
      exact fun r hr => encodeTlv_eq_ok (hrecords r hr).1 (hrecords r hr).2
    · refine decodeTlvs_eq_ok.mpr ⟨hne, _, ?_, rfl⟩
      rw [AreTlvs, List.forall₂_map_right_iff, List.forall₂_same]
      exact fun r hr => isTlv_tlvBytes (hrecords r hr).1 (hrecords r hr).2
  · rw [← Check.not_passes_iff, not_iff_not]
    constructor
    · rintro ⟨records, hrecords⟩
      obtain ⟨hne, parts, hparts, hframe⟩ := decodeTlvs_eq_ok.mp hrecords
      exact ⟨records, parts, hne, hparts, hframe⟩
    · rintro ⟨records, parts, hne, hparts, hframe⟩
      exact ⟨records, decodeTlvs_eq_ok.mpr ⟨hne, parts, hparts, hframe⟩⟩

/-- A record whose type takes one byte, and one whose type is escaped. -/
theorem decodeTlvs_two_forms : ∃ parts, [(⟨0xfe, [1]⟩ : RawProtocolRecord), ⟨0xff, []⟩].mapM
    (fun r => encodeTlv (r.type : Number) r.payload) = .ok parts ∧
      decodeTlvs (concatBytes parts) = .ok [⟨0xfe, [1]⟩, ⟨0xff, []⟩] :=
  decodeTlvs_exact.1 _ (by decide) (by decide)

end RawProtocol

end FitzDestroyer
