import FitzDestroyer.Js.DataView
import FitzDestroyer.RawProtocol

/-!
# Frames of a TCP connection

TCP delivers bytes in segments of any size.  The data handler of `openRawTcp` keeps the bytes of
an incomplete frame, so that the frames it extracts do not depend on the segments.

* `encodeTcpFrame` : a frame, after its length;
* `takeFrames_append` : what the handler extracts from bytes that arrive in two parts;
* `Reassembled` : the frames that have arrived completely, and the bytes left;
* `run_openRawTcp_reassembled` : the frames and the buffer after any run.
-/

namespace FitzDestroyer

namespace RawProtocol

open Js

def encodeTcpFrame (frame : Frame) : List UInt8 := bigEndian 4 frame.length ++ frame

theorem length_encodeTcpFrame (frame : Frame) :
    (encodeTcpFrame frame).length = 4 + frame.length := by
  rw [encodeTcpFrame, List.length_append, length_bigEndian]

theorem getUint32_eq (a b c d : UInt8) : getUint32 a b c d = ofBigEndian [a, b, c, d] := by
  simp only [getUint32, ofBigEndian, List.length_cons, List.length_nil]
  omega

/-! ### The loop of the data handler -/

/-- A frame is incomplete: its length is, or its bytes are. -/
def Incomplete (buffer : List UInt8) : Prop :=
  ∀ header rest, buffer = header ++ rest → header.length = 4 → rest.length < ofBigEndian header

theorem takeFrames_of_incomplete {buffer : List UInt8} (h : Incomplete buffer) :
    takeFrames buffer = ([], buffer) := by
  unfold takeFrames
  split
  · rename_i a b c d rest
    have hlt := h [a, b, c, d] rest rfl rfl
    rw [← getUint32_eq] at hlt
    rw [if_pos hlt]
  · rfl

theorem incomplete_of_short {buffer : List UInt8} (h : buffer.length < 4) : Incomplete buffer := by
  rintro header rest rfl hheader
  rw [List.length_append] at h
  omega

/-- A complete frame at the start of the buffer. -/
theorem takeFrames_frame {header body : List UInt8} (hheader : header.length = 4)
    (hbody : body.length = ofBigEndian header) (rest : List UInt8) :
    takeFrames (header ++ (body ++ rest)) =
      (body :: (takeFrames rest).1, (takeFrames rest).2) := by
  match header, hheader with
  | [a, b, c, d], _ =>
    rw [← getUint32_eq] at hbody
    have hlength : ¬(body ++ rest).length < getUint32 a b c d := by
      rw [List.length_append]
      omega
    simp only [List.cons_append, List.nil_append]
    rw [takeFrames, if_neg hlength, ← hbody, List.take_left, List.drop_left]

/-- A buffer is incomplete, or it starts with a complete frame. -/
theorem incomplete_or_frame (buffer : List UInt8) : Incomplete buffer ∨
    ∃ header body rest, buffer = header ++ (body ++ rest) ∧ header.length = 4 ∧
      body.length = ofBigEndian header := by
  by_cases h : Incomplete buffer
  · exact .inl h
  · simp only [Incomplete, not_forall, not_lt] at h
    obtain ⟨header, rest, hbuffer, hheader, hle⟩ := h
    refine .inr ⟨header, rest.take (ofBigEndian header), rest.drop (ofBigEndian header), ?_,
      hheader, ?_⟩
    · rw [List.take_append_drop, hbuffer]
    · rw [List.length_take]
      omega

/-- The bytes left are an incomplete frame. -/
theorem incomplete_takeFrames (buffer : List UInt8) : Incomplete (takeFrames buffer).2 := by
  induction hn : buffer.length using Nat.strongRecOn generalizing buffer with
  | _ n ih =>
    obtain h | ⟨header, body, rest, rfl, hheader, hbody⟩ := incomplete_or_frame buffer
    · rw [takeFrames_of_incomplete h]
      exact h
    · rw [takeFrames_frame hheader hbody]
      refine ih rest.length ?_ rest rfl
      simp only [List.length_append] at hn
      omega

/-- **Bytes that arrive in two parts**: the bytes left by the first part wait for the second. -/
theorem takeFrames_append (first second : List UInt8) : takeFrames (first ++ second) =
    ((takeFrames first).1 ++ (takeFrames ((takeFrames first).2 ++ second)).1,
      (takeFrames ((takeFrames first).2 ++ second)).2) := by
  induction hn : first.length using Nat.strongRecOn generalizing first with
  | _ n ih =>
    obtain h | ⟨header, body, rest, rfl, hheader, hbody⟩ := incomplete_or_frame first
    · rw [takeFrames_of_incomplete h]
      rfl
    · have hrest : rest.length < n := by
        simp only [List.length_append] at hn
        omega
      rw [List.append_assoc, List.append_assoc, takeFrames_frame hheader hbody,
        takeFrames_frame hheader hbody, ih rest.length hrest rest rfl]
      rfl

/-! ### Sessions -/

/-- The bytes that events deliver. -/
def received : List Event → List UInt8
  | [] => []
  | .data chunk :: es => chunk ++ received es
  | _ :: es => received es

theorem received_append (es es' : List Event) :
    received (es ++ es') = received es ++ received es' := by
  induction es with
  | nil => rfl
  | cons e es ih =>
    cases e with
    | data chunk => rw [List.cons_append, received, received, ih, List.append_assoc]
    | receive timeoutMs => exact ih
    | expire i => exact ih

namespace Session

theorem arrived_foldl_deliver (frames : List Frame) (s : Session) :
    (frames.foldl deliver s).arrived = s.arrived ++ frames ∧
      (frames.foldl deliver s).client.buffer = s.client.buffer := by
  induction frames generalizing s with
  | nil => exact ⟨(List.append_nil _).symm, rfl⟩
  | cons frame frames ih =>
    obtain ⟨harrived, hbuffer⟩ := ih (s.deliver frame)
    rw [List.foldl_cons]
    refine ⟨?_, ?_⟩
    · rw [harrived, deliver, List.append_assoc, List.singleton_append]
    · rw [hbuffer]
      simp only [deliver, RawClient.deliver]
      split <;> rfl

/-- The frames that arrived, and the buffer, are those of the bytes so far. -/
def Extracted (s : Session) (bytes : List UInt8) : Prop :=
  takeFrames bytes = (s.arrived, s.client.buffer)

theorem Extracted.onEvent {s : Session} {bytes : List UInt8} (h : s.Extracted bytes) (e : Event) :
    (s.onEvent .tcp e).Extracted (bytes ++ received [e]) := by
  cases e with
  | data chunk =>
    unfold Extracted at h
    have hdeliver := arrived_foldl_deliver (takeFrames (s.client.buffer ++ chunk)).1
      { s with client := { s.client with buffer := (takeFrames (s.client.buffer ++ chunk)).2 } }
    have hevent : s.onEvent .tcp (.data chunk) = (takeFrames (s.client.buffer ++ chunk)).1.foldl
        deliver { s with client :=
          { s.client with buffer := (takeFrames (s.client.buffer ++ chunk)).2 } } := rfl
    rw [Extracted, received, received, List.append_nil, takeFrames_append, h, hevent, hdeliver.1,
      hdeliver.2]
  | receive timeoutMs =>
    have hnone : received [.receive timeoutMs] = [] := rfl
    rw [hnone, List.append_nil]
    unfold Extracted at h ⊢
    rw [h]
    simp only [Session.onEvent, receive, RawClient.receive]
    split <;> rfl
  | expire i =>
    have hnone : received [.expire i] = [] := rfl
    rw [hnone, List.append_nil]
    exact h

end Session

/-- The frames and the buffer of a run are those of the bytes it delivers. -/
theorem run_openRawTcp_extracted {es : List Event} {s : Session}
    (hr : openRawTcp.run .init es = some s) : s.Extracted (received es) := by
  induction es using List.reverseRecOn generalizing s with
  | nil =>
    obtain rfl := Option.some.inj hr
    exact takeFrames_of_incomplete (incomplete_of_short (by decide))
  | append_singleton es e ih =>
    rw [openRawTcp, EventSys.ofTotal_run, Option.some.injEq, List.foldl_append] at hr
    subst hr
    rw [received_append]
    exact (ih (EventSys.ofTotal_run _ _ _)).onEvent e

/-! ### Frames of a list -/

/-- The frames that have arrived, and the bytes left, when the given bytes of a list of frames
have arrived. -/
structure Reassembled (frames : List Frame) (bytes : List UInt8) (arrived : List Frame)
    (buffer : List UInt8) : Prop where
  /-- The frames arrive in order, each once. -/
  order : arrived <+: frames
  /-- A frame has arrived if all its bytes have. -/
  complete : ∀ sent, sent <+: frames → sent.flatMap encodeTcpFrame <+: bytes → sent <+: arrived
  /-- The bytes left are those that no frame has consumed. -/
  consumed : arrived.flatMap encodeTcpFrame ++ buffer = bytes

theorem takeFrames_encodeTcpFrame {frame : Frame} (h : frame.length < 2 ^ 32)
    (rest : List UInt8) : takeFrames (encodeTcpFrame frame ++ rest) =
      (frame :: (takeFrames rest).1, (takeFrames rest).2) := by
  rw [encodeTcpFrame, List.append_assoc]
  exact takeFrames_frame (length_bigEndian 4 _) (ofBigEndian_bigEndian h).symm rest

/-- The first bytes of a frame are an incomplete frame. -/
theorem incomplete_of_isPrefix {frame : Frame} (h : frame.length < 2 ^ 32) {bytes : List UInt8}
    (hbytes : bytes <+: encodeTcpFrame frame) (hlt : bytes.length < (encodeTcpFrame frame).length) :
    Incomplete bytes := by
  rintro header rest rfl hheader
  obtain ⟨more, hmore⟩ := hbytes
  rw [encodeTcpFrame, List.append_assoc] at hmore
  have hlength : header = bigEndian 4 frame.length :=
    (List.append_inj hmore (by rw [hheader, length_bigEndian])).1
  rw [hlength, ofBigEndian_bigEndian h]
  rw [length_encodeTcpFrame, List.length_append] at hlt
  omega

/-- The loop of the data handler extracts the complete frames of a list of frames. -/
theorem reassembled_takeFrames {frames : List Frame} (hframes : ∀ f ∈ frames, f.length < 2 ^ 32)
    {bytes : List UInt8} (hbytes : bytes <+: frames.flatMap encodeTcpFrame) :
    Reassembled frames bytes (takeFrames bytes).1 (takeFrames bytes).2 := by
  induction frames generalizing bytes with
  | nil =>
    obtain rfl := List.prefix_nil.mp hbytes
    rw [takeFrames_of_incomplete (incomplete_of_short (by decide))]
    exact ⟨List.prefix_rfl, fun sent hsent _ => hsent, rfl⟩
  | cons frame frames ih =>
    obtain ⟨hframe, hframes⟩ := List.forall_mem_cons.mp hframes
    rw [List.flatMap_cons] at hbytes
    by_cases hlt : bytes.length < (encodeTcpFrame frame).length
    · -- The first frame has not arrived completely.
      have hpre : bytes <+: encodeTcpFrame frame :=
        List.prefix_of_prefix_length_le hbytes (List.prefix_append _ _) hlt.le
      rw [takeFrames_of_incomplete (incomplete_of_isPrefix hframe hpre hlt)]
      refine ⟨List.nil_prefix, fun sent hsent hfits => ?_, rfl⟩
      cases sent with
      | nil => exact List.prefix_rfl
      | cons frame' sent =>
        obtain ⟨rfl, -⟩ := List.cons_prefix_cons.mp hsent
        have hle := hfits.length_le
        rw [List.flatMap_cons, List.length_append] at hle
        omega
    · obtain ⟨rest, rfl⟩ : encodeTcpFrame frame <+: bytes :=
        List.prefix_of_prefix_length_le (List.prefix_append _ _) hbytes (not_lt.mp hlt)
      have hrest := ih hframes ((List.prefix_append_right_inj _).mp hbytes)
      rw [takeFrames_encodeTcpFrame hframe]
      refine ⟨List.cons_prefix_cons.mpr ⟨rfl, hrest.order⟩, fun sent hsent hfits => ?_, ?_⟩
      · cases sent with
        | nil => exact List.nil_prefix
        | cons frame' sent =>
          obtain ⟨rfl, htail⟩ := List.cons_prefix_cons.mp hsent
          rw [List.flatMap_cons, List.prefix_append_right_inj] at hfits
          exact List.cons_prefix_cons.mpr ⟨rfl, hrest.complete sent htail hfits⟩
      · rw [List.flatMap_cons, List.append_assoc, hrest.consumed]

/-- **Frames do not depend on segments**: whatever the segments in which the bytes of a list of
frames arrive, and whatever else happens on the connection, the frames that have been extracted
are those that have arrived completely, and the buffer holds the other bytes. -/
theorem run_openRawTcp_reassembled {frames : List Frame}
    (hframes : ∀ f ∈ frames, f.length < 2 ^ 32) {es : List Event}
    (hreceived : received es <+: frames.flatMap encodeTcpFrame) {s : Session}
    (hr : openRawTcp.run .init es = some s) :
    Reassembled frames (received es) s.arrived s.client.buffer := by
  have hextracted : takeFrames (received es) = (s.arrived, s.client.buffer) :=
    run_openRawTcp_extracted hr
  have hreassembled := reassembled_takeFrames hframes hreceived
  rwa [hextracted] at hreassembled

/-- Segments that split the headers of two frames, the first of which is empty. -/
def splitSegments : List Event :=
  [.data [0, 0], .receive 5, .data [], .data [0, 0, 0, 0, 0], .data [2, 7]]

theorem reassembled_splitSegments : ∃ s, openRawTcp.run .init splitSegments = some s ∧
    Reassembled [[], [7, 9]] [0, 0, 0, 0, 0, 0, 0, 2, 7] s.arrived s.client.buffer :=
  ⟨_, rfl, @run_openRawTcp_reassembled [[], [7, 9]] (by decide) splitSegments
    (by decide) _ rfl⟩

end RawProtocol

end FitzDestroyer
