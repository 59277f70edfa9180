import FitzDestroyer.Js.WellFormed
import FitzDestroyer.ResponseState.Verdict

/-!
# Requests of the raw worker

The raw worker takes a request apart that the broker forwards to it
(`workloads/rpc-response-state-conformance.ts`).  A length is written in 32 bits, so `encodeBytes`
loses the length of a field of 2^32 bytes or more.

* `decodeRpcWorkerRequest_eq_ok` : what is decoded, and as what;
* `mem_errors` : what else is thrown;
* `decodeRpcWorkerRequest_exact` : the three together with the round trip.
-/

namespace FitzDestroyer

namespace ResponseState

open Js RawProtocol

/-- **A request is decoded** iff it consists of its three fields. -/
theorem decodeRpcWorkerRequest_eq_ok {payload : List UInt8} {request : RpcWorkerRequest} :
    decodeRpcWorkerRequest payload = .ok request ↔ ∃ route : List UInt8,
      request.correlation.length = 16 ∧ route.length < 2 ^ 32 ∧ request.body.length < 2 ^ 32 ∧
        payload = request.correlation ++ (encodeBytes route ++ encodeBytes request.body) ∧
          request.route = String.ofList (decode route) := by
  constructor
  · intro h
    rw [decodeRpcWorkerRequest, Check.bind_eq, Check.seq_eq_ok, Check.failIf_eq_ok, not_lt] at h
    simp only [Check.bind_eq, Check.bind_eq_ok, Check.pure_eq, Except.ok.injEq] at h
    obtain ⟨hlength, routeLength, hroute, _, hfits, bodyLength, hbody, _, hend, rfl⟩ := h
    have hfits := not_lt.mp (Check.failIf_eq_ok.mp hfits)
    have hend := not_not.mp (Check.failIf_eq_ok.mp hend)
    obtain ⟨hroutelt, -, hrouteField⟩ := readU32_eq_ok.mp hroute
    obtain ⟨hbodylt, -, hbodyField⟩ := readU32_eq_ok.mp hbody
    have hroute : (payload.take (20 + routeLength)).drop 20 =
        (payload.drop 20).take routeLength := by
      rw [List.drop_take, Nat.add_sub_cancel_left]
    have hroutelength : ((payload.drop 20).take routeLength).length = routeLength := by
      rw [List.length_take, List.length_drop]
      omega
    have hbodylength : (payload.drop (20 + routeLength + 4)).length = bodyLength := by
      rw [List.length_drop]
      omega
    -- The fields put together again are the payload.
    have hrest : (payload.drop 20).take routeLength ++ payload.drop (20 + routeLength) =
        payload.drop 20 := by
      rw [← List.drop_drop]
      exact List.take_append_drop _ _
    refine ⟨(payload.drop 20).take routeLength, ?_, ?_, ?_, ?_, by rw [hroute]⟩
    · rw [List.length_take]
      omega
    · rwa [hroutelength]
    · rwa [hbodylength]
    · calc payload = payload.take 16 ++ payload.drop 16 := (List.take_append_drop 16 _).symm
        _ = payload.take 16 ++ (bigEndian 4 routeLength ++ ((payload.drop 20).take routeLength ++
            payload.drop (20 + routeLength))) := by rw [hrest, hrouteField]
        _ = _ := by
          rw [hbodyField, encodeBytes, encodeBytes, hroutelength, hbodylength, List.append_assoc]
  · rintro ⟨route, hcorrelation, hroute, hbody, rfl, hdecoded⟩
    rw [← requestPayload, decodeRpcWorkerRequest_requestPayload hcorrelation hroute hbody,
      ← hdecoded]

/-- Every request that is not decoded fails a check of its lengths: nothing is read outside of the
payload. -/
theorem mem_errors {payload : List UInt8} {failure : Thrown}
    (h : decodeRpcWorkerRequest payload = .error failure) :
    failure ∈ [newError "RPC worker request is truncated",
      newError "RPC worker request route is truncated",
      newError "RPC worker request body is malformed"] := by
  have hread : ∀ offset, offset + 4 ≤ payload.length →
      ∃ n, readU32 payload offset = .ok n := by
    intro offset hoffset
    exact ⟨_, by rw [readU32, if_neg (not_lt.mpr hoffset)]⟩
  rw [decodeRpcWorkerRequest] at h
  by_cases hshort : payload.length < 24
  · rw [Check.failIf, if_pos hshort] at h
    cases h
    exact List.mem_cons_self
  · obtain ⟨routeLength, hroute⟩ := hread 16 (by omega)
    rw [Check.failIf, if_neg hshort, hroute] at h
    simp only [Check.bind_eq, Except.bind] at h
    by_cases hfits : payload.length < 20 + routeLength + 4
    · rw [Check.failIf, if_pos hfits] at h
      cases h
      simp
    · obtain ⟨bodyLength, hbody⟩ := hread (20 + routeLength) (not_lt.mp hfits)
      rw [Check.failIf, if_neg hfits, hbody] at h
      simp only [Check.failIf] at h
      split_ifs at h
      · cases h
        simp
      · cases h

/-- A text is read back from its bytes, unless it starts with a byte order mark. -/
theorem decode_encode_of_no_mark {text : String} (h : text.toList.head? ≠ some '\uFEFF') :
    decode (encode text) = text.toList := by
  have hmark : String.utf8EncodeChar '\uFEFF' = [0xEF, 0xBB, 0xBF] := by decide
  have htext : decodeFrom none (encode text) = text.toList := by
    have happend := decodeFrom_append text.toList []
    rwa [List.append_nil, ← encode_eq_flatMap, decodeFrom, List.append_nil] at happend
  have hno : ¬[0xEF, 0xBB, 0xBF].isPrefixOf (encode text) = true := by
    intro hstart
    obtain ⟨rest, hrest⟩ := List.isPrefixOf_iff_prefix.mp hstart
    rw [← hrest, ← hmark, decodeFrom_char] at htext
    exact h (by rw [← htext]; rfl)
  rw [decode, if_neg hno, htext]

/-- **The decoder is exact.**  It returns iff the payload consists of a correlation, a route and a
body, and returns these; every other payload fails a check of the lengths.  A request for a
well-formed route without a mark is taken apart into what it was made from. -/
theorem decodeRpcWorkerRequest_exact :
    (∀ payload request, decodeRpcWorkerRequest payload = .ok request ↔ ∃ route : List UInt8,
      request.correlation.length = 16 ∧ route.length < 2 ^ 32 ∧ request.body.length < 2 ^ 32 ∧
        payload = request.correlation ++ (encodeBytes route ++ encodeBytes request.body) ∧
          request.route = String.ofList (decode route)) ∧
    (∀ payload failure, decodeRpcWorkerRequest payload = .error failure →
      failure ∈ [newError "RPC worker request is truncated",
        newError "RPC worker request route is truncated",
        newError "RPC worker request body is malformed"]) ∧
    ∀ (correlation : List UInt8) (route : String) (body : List UInt8), correlation.length = 16 →
      (encode route).length < 2 ^ 32 → body.length < 2 ^ 32 →
        route.toList.head? ≠ some '\uFEFF' →
          decodeRpcWorkerRequest (correlation ++ (encodeString route ++ encodeBytes body)) =
            .ok ⟨correlation, route, body⟩ := by
  refine ⟨fun _ _ => decodeRpcWorkerRequest_eq_ok, fun _ _ => mem_errors, ?_⟩
  intro correlation route body hcorrelation hroute hbody hmark
  rw [decodeRpcWorkerRequest_eq_ok]
  refine ⟨encode route, hcorrelation, hroute, hbody, rfl, ?_⟩
  rw [decode_encode_of_no_mark hmark, String.ofList_toList]

/-- A route whose length does not fit in 32 bits is not decoded. -/
theorem not_decoded_of_long_route : ¬∀ payload, (∃ request, decodeRpcWorkerRequest payload =
    .ok request) ↔ ∃ correlation route body : List UInt8, correlation.length = 16 ∧
      payload = correlation ++ (encodeBytes route ++ encodeBytes body) := by
  intro h
  have hlength : (List.replicate (2 ^ 32) (0 : UInt8)).length = 2 ^ 32 := List.length_replicate
  generalize List.replicate (2 ^ 32) (0 : UInt8) = route at hlength
  obtain ⟨request, hok⟩ := (h _).mpr ⟨List.replicate 16 0, route, [], List.length_replicate, rfl⟩
  obtain ⟨route', hcorrelation, hroute, hbody, hpayload, -⟩ := decodeRpcWorkerRequest_eq_ok.mp hok
  have htotal := congrArg List.length hpayload
  obtain ⟨-, hfields⟩ := List.append_inj hpayload (by rw [hcorrelation, List.length_replicate])
  simp only [encodeBytes, List.append_assoc] at hfields
  have hprefix := (List.append_inj hfields (by rw [length_bigEndian, length_bigEndian])).1
  have hzero : route'.length = 0 := by
    rw [hlength, ← bigEndian_mod 4 (2 ^ 32)] at hprefix
    rw [← ofBigEndian_bigEndian (show route'.length < 256 ^ 4 from hroute), ← hprefix]
    rfl
  simp only [List.length_append, length_encodeBytes, List.length_replicate, hcorrelation, hlength,
    hzero, List.length_nil] at htotal
  omega

end ResponseState

end FitzDestroyer
