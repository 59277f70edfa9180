import FitzDestroyer.Js.Ascii
import FitzDestroyer.Js.IntegerText
import FitzDestroyer.Live.RpcStream

/-!
# Live payloads

A live payload starts with a header, the fields of its identity between bars.  The rest of its
bytes is filler, or the pattern of `rpcStreamFramePayload`, in which a bar or bytes that are no
text may stand.

* `Field` : a field of an identity, a string or a number;
* `parseLivePayload_header` : the fields are read back, whatever follows the header;
* `livePayload_eq` : payloads of one tag and size have the same fields;
* `rpcStreamFramePayload_inj` : so have the frames of a stream.
-/

namespace FitzDestroyer

namespace Live

open Js

/-- `string | number`, where the numbers are non-negative integers. -/
inductive Field where
  | string (value : String)
  | number (value : Integer)

/-- `fields.join("|")` writes each field so. -/
def Field.text : Field → String
  | string value => value
  | number value => value.text

/-! ### The texts of a header -/

/-- No field, and an empty field, are written in the same way. -/
def headerTexts (fields : List String) : List String := if fields = [] then [""] else fields

theorem headerTexts_ne_nil (fields : List String) : headerTexts fields ≠ [] := by
  unfold headerTexts
  split_ifs with h
  · exact List.cons_ne_nil _ _
  · exact h

theorem headerTexts_eq {fields fields' : List String} :
    headerTexts fields = headerTexts fields' ↔ fields = fields' ∨
      (fields = [] ∧ fields' = [""]) ∨ (fields = [""] ∧ fields' = []) := by
  unfold headerTexts
  split_ifs with h h' h' <;> simp_all [eq_comm]

theorem mem_headerTexts {fields : List String} {c : Char}
    (h : ∀ field ∈ fields, c ∉ field.toList) : ∀ field ∈ headerTexts fields, c ∉ field.toList := by
  unfold headerTexts
  split_ifs
  · simp
  · exact h

/-- The text of a header. -/
theorem livePayloadHeader_eq (tag : String) (fields : List String) :
    livePayloadHeader tag fields = (tag.toList ++
      '|' :: (['|'].intercalate ((headerTexts fields).map String.toList) ++ ['|'])).flatMap
        String.utf8EncodeChar := by
  have hjoin : ("|".intercalate fields).toList =
      ['|'].intercalate ((headerTexts fields).map String.toList) := by
    rw [String.toList_intercalate]
    unfold headerTexts
    split_ifs with h
    · rw [h]
      rfl
    · rfl
  rw [livePayloadHeader, encode_eq_flatMap, ← hjoin]
  simp [String.toList_append, toString]

/-- Texts between bars are the texts that are split off. -/
theorem splitOn_intercalate_append {texts : List (List Char)} (hne : texts ≠ [])
    (h : ∀ text ∈ texts, '|' ∉ text) (rest : List Char) :
    (['|'].intercalate texts ++ '|' :: rest).splitOn '|' = texts ++ rest.splitOn '|' := by
  induction texts with
  | nil => exact absurd rfl hne
  | cons text texts ih =>
    obtain ⟨htext, htexts⟩ := List.forall_mem_cons.mp h
    by_cases hlast : texts = []
    · rw [hlast, List.intercalate_singleton, List.splitOn_append_cons_self_of_not_mem htext]
      rfl
    · rw [List.intercalate_cons_of_ne_nil hlast, List.append_assoc, List.append_assoc,
        List.singleton_append, List.splitOn_append_cons_self_of_not_mem htext, ih hlast htexts]
      rfl

/-! ### Reading a header -/

/-- A tag that `parseLivePayload` can find. -/
structure Tag (tag : String) : Prop where
  ne_nil : tag.toList ≠ []
  ascii : ∀ c ∈ tag.toList, c.toNat < 128
  no_bar : '|' ∉ tag.toList

section Header

variable {tag : String} {fields : List String}

/-- **The parts of a body** that starts with a header. -/
theorem splitOn_header (htag : Tag tag) (h : ∀ field ∈ fields, '|' ∉ field.toList)
    (rest : List UInt8) :
    (((decode (livePayloadHeader tag fields ++ rest)).splitOn '|').map String.ofList) =
      tag :: (headerTexts fields ++ ((decodeFrom none rest).splitOn '|').map String.ofList) := by
  obtain ⟨c, cs, hcs⟩ := List.exists_cons_of_ne_nil htag.ne_nil
  have hbar : ∀ text ∈ (headerTexts fields).map String.toList, '|' ∉ text := by
    intro text htext
    obtain ⟨field, hfield, rfl⟩ := List.mem_map.mp htext
    exact mem_headerTexts h field hfield
  have hdecode : decode (livePayloadHeader tag fields ++ rest) = tag.toList ++
      '|' :: (['|'].intercalate ((headerTexts fields).map String.toList) ++
        '|' :: decodeFrom none rest) := by
    rw [livePayloadHeader_eq, hcs, List.cons_append,
      decode_cons_append (htag.ascii c (hcs ▸ List.mem_cons_self))]
    simp
  rw [hdecode, List.splitOn_append_cons_self_of_not_mem htag.no_bar,
    splitOn_intercalate_append (by simpa using headerTexts_ne_nil fields) hbar, List.map_cons,
    List.map_append, List.map_map, String.ofList_toList]
  have hid : (headerTexts fields).map (String.ofList ∘ String.toList) = headerTexts fields :=
    List.map_id'' (fun _ => String.ofList_toList) _
  rw [hid]

/-- **The fields are read back**, whatever follows the header. -/
theorem parseLivePayload_header (htag : Tag tag) (h : ∀ field ∈ fields, '|' ∉ field.toList)
    (rest : List UInt8) :
    parseLivePayload (livePayloadHeader tag fields ++ rest) tag fields.length = .ok fields := by
  have hlength : fields.length ≤ (headerTexts fields).length := by
    unfold headerTexts
    split_ifs with hnil
    · simp [hnil]
    · exact Nat.le_refl _
  have htake : ∀ texts : List String, (headerTexts fields ++ texts).take fields.length =
      fields := by
    intro texts
    unfold headerTexts
    split_ifs with hnil
    · rw [hnil]
      rfl
    · exact List.take_left
  -- Something follows the last bar, though it may be empty.
  have hrest := List.length_pos_iff.mpr (List.splitOn_ne_nil '|' (decodeFrom none rest))
  unfold parseLivePayload
  dsimp only
  rw [splitOn_header htag h, if_neg]
  · rw [List.drop_one, List.tail_cons, htake]
  · simp only [List.head?_cons, not_true_eq_false, ne_eq, false_or, List.length_cons,
      List.length_append, List.length_map]
    omega

end Header

/-! ### Payloads -/

theorem livePayload_eq_ok {tag : String} {fields : List String} {size : ℕ} {body : List UInt8} :
    livePayload tag fields size = .ok body ↔ (livePayloadHeader tag fields).length ≤ size ∧
      body = livePayloadHeader tag fields ++
        List.replicate (size - (livePayloadHeader tag fields).length) 0x78 := by
  unfold livePayload
  dsimp only
  split_ifs with h
  · simp [Nat.not_le.mpr h]
  · simp [Nat.not_lt.mp h, eq_comm]

/-- The fields of a payload. -/
theorem parseLivePayload_payload {tag : String} (htag : Tag tag) {fields : List String}
    (h : ∀ field ∈ fields, '|' ∉ field.toList) {size : ℕ} {body : List UInt8}
    (hbody : livePayload tag fields size = .ok body) :
    parseLivePayload body tag fields.length = .ok fields := by
  obtain ⟨-, rfl⟩ := livePayload_eq_ok.mp hbody
  exact parseLivePayload_header htag h _

/-- There is no bar in the filler. -/
theorem splitOn_filler (n : ℕ) :
    (decodeFrom none (List.replicate n 0x78)).splitOn '|' = [List.replicate n 'x'] := by
  have hdecode : decodeFrom none (List.replicate n 0x78) = List.replicate n 'x' := by
    induction n with
    | zero => rfl
    | succ n ih => rw [List.replicate_succ, List.replicate_succ, ← ih]; rfl
  rw [hdecode]
  exact List.splitOn_eq_singleton fun hmem =>
    absurd (List.eq_of_mem_replicate hmem) (by decide)

/-- **Payloads of one tag and size** have the same fields. -/
theorem livePayload_eq {tag : String} (htag : Tag tag) {fields fields' : List String}
    (h : ∀ field ∈ fields, '|' ∉ field.toList) (h' : ∀ field ∈ fields', '|' ∉ field.toList)
    {size : ℕ} {body : List UInt8} (hbody : livePayload tag fields size = .ok body)
    (hbody' : livePayload tag fields' size = .ok body) :
    headerTexts fields = headerTexts fields' := by
  obtain ⟨-, heq⟩ := livePayload_eq_ok.mp hbody
  obtain ⟨-, heq'⟩ := livePayload_eq_ok.mp hbody'
  have hparts := splitOn_header htag h
    (List.replicate (size - (livePayloadHeader tag fields).length) 0x78)
  rw [← heq, heq', splitOn_header htag h', splitOn_filler, splitOn_filler] at hparts
  exact ((List.append_inj' (List.cons.inj hparts).2 rfl).1).symm

/-! ### Frames -/

/-- A frame starts with its header. -/
theorem rpcStreamFramePayload_eq_append {workerId : String} {callerId call frame size : ℕ}
    {body : List UInt8} (h : rpcStreamFramePayload workerId callerId call frame size = .ok body) :
    ∃ rest, body =
      livePayloadHeader "s" [workerId, s!"{callerId}", s!"{call}", s!"{frame}"] ++ rest := by
  unfold rpcStreamFramePayload at h
  dsimp only at h
  obtain ⟨result, hresult, hbody⟩ := Check.bind_eq_ok.mp h
  obtain ⟨-, rfl⟩ := livePayload_eq_ok.mp hresult
  rw [List.take_left] at hbody
  exact ⟨_, (Except.ok.inj hbody).symm⟩

/-- The text of a natural number has no bar. -/
theorem no_bar_toString (n : ℕ) : '|' ∉ (toString n).toList := by
  rw [Nat.toString_eq_ofList_toDigits, String.toList_ofList]
  exact fun hmem => absurd (isDigit_of_mem_toDigits hmem) (by decide)

/-- The tags of the live payloads. -/
theorem tag_letter {tag : String} (h : tag ∈ ["n", "q", "r", "h", "s"]) : Tag tag := by
  simp only [List.mem_cons, List.not_mem_nil, or_false] at h
  rcases h with rfl | rfl | rfl | rfl | rfl <;> exact ⟨by decide, by decide, by decide⟩

/-- The fields of a frame are read back, whatever its pattern. -/
theorem parseLivePayload_frame {workerId : String} (hworker : '|' ∉ workerId.toList)
    {callerId call frame size : ℕ} {body : List UInt8}
    (h : rpcStreamFramePayload workerId callerId call frame size = .ok body) :
    parseLivePayload body "s" 4 = .ok [workerId, s!"{callerId}", s!"{call}", s!"{frame}"] := by
  obtain ⟨rest, rfl⟩ := rpcStreamFramePayload_eq_append h
  refine parseLivePayload_header (tag_letter (by simp)) ?_ rest
  simp only [List.forall_mem_cons]
  exact ⟨hworker, no_bar_toString _, no_bar_toString _, no_bar_toString _, by simp⟩

/-- **The frames of a stream** are different. -/
theorem rpcStreamFramePayload_inj {workerId workerId' : String}
    (hworker : '|' ∉ workerId.toList) (hworker' : '|' ∉ workerId'.toList)
    {callerId callerId' call call' frame frame' size : ℕ} {body : List UInt8}
    (h : rpcStreamFramePayload workerId callerId call frame size = .ok body)
    (h' : rpcStreamFramePayload workerId' callerId' call' frame' size = .ok body) :
    workerId = workerId' ∧ callerId = callerId' ∧ call = call' ∧ frame = frame' := by
  have hfields := (parseLivePayload_frame hworker h).symm.trans (parseLivePayload_frame hworker' h')
  simp only [Except.ok.injEq, List.cons.injEq, and_true] at hfields
  obtain ⟨hworker, hcaller, hcall, hframe⟩ := hfields
  exact ⟨hworker, toString_injective hcaller, toString_injective hcall, toString_injective hframe⟩

end Live

end FitzDestroyer
