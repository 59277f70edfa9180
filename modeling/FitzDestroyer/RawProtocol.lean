import FitzDestroyer.Run.Basic
import Mathlib.Data.List.Nodup

/-!
# Raw protocol connections

`openRawTcp` and `openRawWebSocket` hand out the frames a broker sends through `receive(timeout)`.
A call is answered from the `frames` queue, or it joins the `waiters` list and its promise races
a timer (`withTimeout`).  When the timer wins, the promise is rejected, but the waiter stays in
the list.

* `RawClient` : the state of a connection, with `RawClient.deliver`, `RawClient.receive` and
  `RawClient.expire` as the two openers run them;
* `Session` : a connection together with what an observer has seen arrive and be handed out;
* `Session.Accounted` : no frame is lost or duplicated;
* `accounted_iff_headsLive` : along every run, every frame is accounted for **iff** no frame
  arrives while the waiter at the head of the list has timed out.
-/

namespace FitzDestroyer

namespace RawProtocol

/-- The bytes of one frame. -/
abbrev Frame := List UInt8

/-- The promise a `receive` call returned. -/
inductive Receipt where
  /-- Neither the frame nor the timer has settled it. -/
  | pending (timeoutMs : ℕ)
  /-- A frame was handed to the call. -/
  | resolved (frame : Frame)
  /-- The timer rejected it. -/
  | rejected (error : String)
  deriving DecidableEq, Repr

/-- `waiter.resolve(frame)`: a promise that is already settled ignores it. -/
def Receipt.resolve (frame : Frame) : Receipt → Receipt
  | .pending _ => .resolved frame
  | settled => settled

/-- The timer of `withTimeout`: it is cleared once the promise has settled. -/
def Receipt.expire (label : String) : Receipt → Receipt
  | .pending timeoutMs => .rejected s!"{label} timed out after {timeoutMs}ms"
  | settled => settled

/-- The mutable state of a connection: calls of `receive` are numbered, `receipts` holds their
promises and `waiters` the numbers of the calls that wait for a frame. -/
structure RawClient where
  /-- Bytes of an incomplete frame (TCP only). -/
  buffer : List UInt8
  /-- Frames that no call has taken yet. -/
  frames : List Frame
  /-- The calls waiting for a frame, oldest first. -/
  waiters : List ℕ
  /-- The promise of every call. -/
  receipts : List Receipt
  deriving DecidableEq, Repr

namespace RawClient

/-- A connection that has just been opened. -/
def init : RawClient := ⟨[], [], [], []⟩

/-- The promise of call `i` is still pending. -/
def Live (c : RawClient) (i : ℕ) : Prop := ∃ timeoutMs, c.receipts[i]? = some (.pending timeoutMs)

instance (c : RawClient) (i : ℕ) : Decidable (c.Live i) :=
  match h : c.receipts[i]? with
  | some (.pending t) => isTrue ⟨t, h⟩
  | some (.resolved _) => isFalse fun ⟨_, h'⟩ => by simp [h] at h'
  | some (.rejected _) => isFalse fun ⟨_, h'⟩ => by simp [h] at h'
  | none => isFalse fun ⟨_, h'⟩ => by simp [h] at h'

/-- A complete frame arrives: the first waiter takes it, else it is queued. -/
def deliver (c : RawClient) (frame : Frame) : RawClient :=
  match c.waiters with
  | waiter :: rest =>
    { c with waiters := rest, receipts := c.receipts.modify waiter (Receipt.resolve frame) }
  | [] => { c with frames := c.frames ++ [frame] }

/-- A call of `receive`: it takes the first queued frame, else it waits. -/
def receive (c : RawClient) (timeoutMs : ℕ) : RawClient :=
  match c.frames with
  | frame :: rest => { c with frames := rest, receipts := c.receipts ++ [.resolved frame] }
  | [] => { c with
      waiters := c.waiters ++ [c.receipts.length]
      receipts := c.receipts ++ [.pending timeoutMs] }

/-- The timer of call `i` fires. -/
def expire (c : RawClient) (label : String) (i : ℕ) : RawClient :=
  { c with receipts := c.receipts.modify i (Receipt.expire label) }

end RawClient

/-! ### Framing -/

/-- `DataView.getUint32`: four bytes, most significant first. -/
def getUint32 (a b c d : UInt8) : ℕ :=
  ((a.toNat * 256 + b.toNat) * 256 + c.toNat) * 256 + d.toNat

/-- The loop of the TCP data handler: the complete frames of the buffer, and the bytes left. -/
def takeFrames (buffer : List UInt8) : List Frame × List UInt8 :=
  match buffer with
  | a :: b :: c :: d :: rest =>
    let length := getUint32 a b c d
    if rest.length < length then (([], a :: b :: c :: d :: rest))
    else
      let (frames, remaining) := takeFrames (rest.drop length)
      (rest.take length :: frames, remaining)
  | short => ([], short)
termination_by buffer.length
decreasing_by simp only [List.length_drop, List.length_cons]; omega

/-- The transport of a connection. -/
inductive Transport where
  | tcp
  | ws
  deriving DecidableEq, Repr

/-- The label of the timeouts of `receive`. -/
def Transport.label : Transport → String
  | .tcp => "TCP receive"
  | .ws => "WebSocket receive"

/-- The frames a socket event completes, and the new buffer: a WebSocket message is one frame,
a TCP segment is appended to the buffer. -/
def Transport.incoming : Transport → List UInt8 → List UInt8 → List Frame × List UInt8
  | .tcp, buffer, chunk => takeFrames (buffer ++ chunk)
  | .ws, buffer, chunk => ([chunk], buffer)

/-! ### Sessions -/

/-- What can happen on an open connection. -/
inductive Event where
  /-- The socket delivers bytes: a message (WebSocket) or a segment (TCP). -/
  | data (chunk : List UInt8)
  /-- The workload calls `receive(timeoutMs)`. -/
  | receive (timeoutMs : ℕ)
  /-- The timeout of the `i`-th call of `receive` expires. -/
  | expire (i : ℕ)
  deriving DecidableEq, Repr

/-- A connection and what was observed on it. -/
structure Session where
  /-- The connection. -/
  client : RawClient
  /-- The frames that arrived, in order. -/
  arrived : List Frame
  /-- The frames handed to a call, with the call, in order. -/
  handed : List (ℕ × Frame)
  /-- The frames given to a call that had already timed out. -/
  wasted : List (ℕ × Frame)
  deriving DecidableEq, Repr

namespace Session

/-- Nothing has happened yet. -/
def init : Session := ⟨.init, [], [], []⟩

/-- A frame arrives. -/
def deliver (s : Session) (frame : Frame) : Session where
  client := s.client.deliver frame
  arrived := s.arrived ++ [frame]
  handed := s.handed ++ (s.client.waiters.head?.filter (s.client.Live ·)).toList.map (·, frame)
  wasted := s.wasted ++ (s.client.waiters.head?.filter (¬ s.client.Live ·)).toList.map (·, frame)

/-- The workload calls `receive`. -/
def receive (s : Session) (timeoutMs : ℕ) : Session :=
  { s with
    client := s.client.receive timeoutMs
    handed := s.handed ++ s.client.frames.head?.toList.map (s.client.receipts.length, ·) }

/-- One event on a connection with transport `t`. -/
def onEvent (t : Transport) (s : Session) : Event → Session
  | .data chunk =>
    let (frames, buffer) := t.incoming s.client.buffer chunk
    frames.foldl deliver { s with client := { s.client with buffer := buffer } }
  | .receive timeoutMs => s.receive timeoutMs
  | .expire i => { s with client := s.client.expire t.label i }

/-- **No frame is lost or duplicated.** -/
structure Accounted (s : Session) : Prop where
  /-- The frames handed out, then the queued ones, are the frames that arrived, in order. -/
  order : s.handed.map Prod.snd ++ s.client.frames = s.arrived
  /-- No call is handed two frames. -/
  once : (s.handed.map Prod.fst).Nodup
  /-- A frame is handed to a call exactly when it resolves the promise of the call. -/
  genuine : ∀ i f, (i, f) ∈ s.handed ↔ s.client.receipts[i]? = some (.resolved f)
  /-- Frames are not queued while a call waits. -/
  exclusive : s.client.frames = [] ∨ ∀ w ∈ s.client.waiters, ¬ s.client.Live w
  /-- No frame was consumed by a call that had timed out. -/
  kept : s.wasted = []

end Session

/-- A connection opened by `openRawTcp`. -/
def openRawTcp : EventSys Session Event := .ofTotal (Session.onEvent .tcp)

/-- A connection opened by `openRawWebSocket`. -/
def openRawWebSocket : EventSys Session Event := .ofTotal (Session.onEvent .ws)

/-- The connection of either opener. -/
def Transport.open : Transport → EventSys Session Event
  | .tcp => openRawTcp
  | .ws => openRawWebSocket

/-- The waiters that take the frames an event completes have not timed out. -/
def HeadsLive (t : Transport) (s : Session) : Event → Prop
  | .data chunk =>
    ∀ w ∈ s.client.waiters.take (t.incoming s.client.buffer chunk).1.length, s.client.Live w
  | _ => True

/-! ### The invariant -/

namespace RawClient

variable {c : RawClient} {w i : ℕ} {f : Frame}

theorem getElem?_deliver_cons {rest : List ℕ} (hw : c.waiters = w :: rest) :
    (c.deliver f).receipts[i]? =
      if w = i then c.receipts[i]?.map (Receipt.resolve f) else c.receipts[i]? := by
  simp only [deliver, hw, List.getElem?_modify]
  split_ifs <;> simp

theorem waiters_deliver : (c.deliver f).waiters = c.waiters.tail := by
  unfold deliver
  split <;> simp_all

theorem live_deliver_of_ne (h : c.waiters.head? ≠ some i) :
    (c.deliver f).Live i ↔ c.Live i := by
  cases hw : c.waiters with
  | nil => simp [Live, deliver, hw]
  | cons w rest =>
    have hwi : w ≠ i := by simpa [hw] using h
    simp [Live, getElem?_deliver_cons hw, hwi]

end RawClient

namespace Session

/-- The invariant behind `Accounted`: a call waits only while nothing is queued, and the waiting
calls are distinct calls that no frame has resolved. -/
structure Inv (s : Session) : Prop extends Accounted s where
  idle : s.client.frames = [] ∨ s.client.waiters = []
  distinct : s.client.waiters.Nodup
  known : ∀ w ∈ s.client.waiters, w < s.client.receipts.length
  unresolved : ∀ w ∈ s.client.waiters, ∀ f, s.client.receipts[w]? ≠ some (.resolved f)

theorem inv_init : init.Inv where
  order := rfl
  once := List.nodup_nil
  genuine i f := by simp [init, RawClient.init]
  exclusive := .inl rfl
  kept := rfl
  idle := .inl rfl
  distinct := List.nodup_nil
  known w hw := absurd hw (by simp [init, RawClient.init])
  unresolved w hw := absurd hw (by simp [init, RawClient.init])

/-- A frame that finds no waiter is queued. -/
theorem Inv.deliver_nil {s : Session} (h : s.Inv) (hw : s.client.waiters = []) (f : Frame) :
    (s.deliver f).Inv := by
  have hc : s.client.deliver f = { s.client with frames := s.client.frames ++ [f] } := by
    simp [RawClient.deliver, hw]
  constructor
  case toAccounted =>
    refine ⟨?_, ?_, ?_, .inr ?_, ?_⟩ <;> simp only [deliver, hc, hw, List.head?_nil,
      Option.filter_none, Option.toList_none, List.map_nil, List.append_nil]
    · rw [← List.append_assoc, h.order]
    · exact h.once
    · exact h.genuine
    · simp
    · exact h.kept
  case idle => exact .inr (by simp [deliver, hc, hw])
  case distinct => simp [deliver, hc, hw]
  case known => simp [deliver, hc, hw]
  case unresolved => simp [deliver, hc, hw]

/-- A frame that finds a live waiter is handed to it. -/
theorem Inv.deliver_cons {s : Session} (h : s.Inv) {w : ℕ} {rest : List ℕ}
    (hw : s.client.waiters = w :: rest) (hlive : s.client.Live w) (f : Frame) :
    (s.deliver f).Inv := by
  obtain ⟨timeoutMs, hpending⟩ := id hlive
  -- While a receiver waits, no frame does.
  have hframes : s.client.frames = [] := h.idle.resolve_right (by simp [hw])
  have hdistinct : w ∉ rest ∧ rest.Nodup := by simpa [hw] using h.distinct
  have hfree : ∀ f', (w, f') ∉ s.handed := fun f' hf' => by
    have := (h.genuine w f').1 hf'
    simp [hpending] at this
  have hhanded : (s.deliver f).handed = s.handed ++ [(w, f)] := by
    simp [deliver, hw, hlive]
  have hwasted : (s.deliver f).wasted = s.wasted := by
    simp [deliver, hw, hlive]
  have hqueue : (s.deliver f).client.frames = [] := by
    simp [deliver, RawClient.deliver, hw, hframes]
  have hwaiters : (s.deliver f).client.waiters = rest := by
    simp [deliver, RawClient.waiters_deliver, hw]
  -- The first receiver gets the frame, the others keep their receipts.
  have hreceipts : ∀ i, (s.deliver f).client.receipts[i]? =
      if w = i then some (.resolved f) else s.client.receipts[i]? := fun i => by
    simp only [deliver, RawClient.getElem?_deliver_cons hw]
    split_ifs with hwi
    · subst hwi; simp [hpending, Receipt.resolve]
    · rfl
  constructor
  case toAccounted =>
    refine ⟨?_, ?_, fun i f' => ?_, .inl hqueue, hwasted.trans h.kept⟩
    · rw [hhanded, hqueue, show (s.deliver f).arrived = s.arrived ++ [f] from rfl, ← h.order,
        hframes]
      simp
    · rw [hhanded, List.map_append, List.nodup_append]
      refine ⟨h.once, by simp, ?_⟩
      rintro i hi _ hj rfl
      obtain ⟨⟨j, f'⟩, hmem, rfl⟩ := List.mem_map.1 hi
      obtain rfl : j = w := by simpa using hj
      exact hfree f' hmem
    · rw [hhanded, hreceipts, List.mem_append, h.genuine]
      split_ifs with hwi
      · subst hwi; simp [hpending, eq_comm]
      · simp [Ne.symm hwi]
  case idle => exact .inl hqueue
  case distinct => exact hwaiters ▸ hdistinct.2
  case known =>
    intro v hv
    have hv' : v ∈ s.client.waiters := by rw [hw]; exact .tail _ (hwaiters ▸ hv)
    simpa [deliver, RawClient.deliver, hw] using h.known v hv'
  case unresolved =>
    intro v hv f'
    rw [hwaiters] at hv
    have hwv : w ≠ v := fun e => hdistinct.1 (e ▸ hv)
    rw [hreceipts, if_neg hwv]
    exact h.unresolved v (by rw [hw]; exact .tail _ hv) f'

theorem Inv.deliver {s : Session} (h : s.Inv) (f : Frame)
    (hlive : ∀ w, s.client.waiters.head? = some w → s.client.Live w) : (s.deliver f).Inv := by
  cases hw : s.client.waiters with
  | nil => exact h.deliver_nil hw f
  | cons w rest => exact h.deliver_cons hw (hlive w (by simp [hw])) f

/-- The frames of one event, each finding a live waiter or none. -/
theorem Inv.foldl_deliver {s : Session} (h : s.Inv) {frames : List Frame}
    (hlive : ∀ w ∈ s.client.waiters.take frames.length, s.client.Live w) :
    (frames.foldl Session.deliver s).Inv := by
  induction frames generalizing s with
  | nil => exact h
  | cons f frames ih =>
    have hhead : ∀ w, s.client.waiters.head? = some w → s.client.Live w := fun w hw =>
      hlive w (by cases hs : s.client.waiters <;> simp_all)
    refine ih (h.deliver f hhead) fun w hw => ?_
    change w ∈ (s.client.deliver f).waiters.take _ at hw
    rw [RawClient.waiters_deliver] at hw
    cases hs : s.client.waiters with
    | nil => simp [hs] at hw
    | cons v rest =>
      rw [hs, List.tail_cons] at hw
      have hvw : v ≠ w := by
        rintro rfl
        exact (List.nodup_cons.1 (hs ▸ h.distinct)).1 (List.mem_of_mem_take hw)
      refine (RawClient.live_deliver_of_ne (by simpa [hs] using hvw)).2 (hlive w ?_)
      simpa [hs] using .inr hw

/-- Frames given to a timed-out call are never taken back. -/
theorem wasted_foldl_deliver {s : Session} (h : s.wasted ≠ []) (frames : List Frame) :
    (frames.foldl Session.deliver s).wasted ≠ [] := by
  induction frames generalizing s with
  | nil => exact h
  | cons f frames ih => exact ih (by simp [Session.deliver, h])

/-- If one of the frames of an event finds a waiter that has timed out, it is wasted. -/
theorem Inv.wasted_of_not_live {s : Session} (h : s.Inv) {frames : List Frame}
    (hdead : ¬ ∀ w ∈ s.client.waiters.take frames.length, s.client.Live w) :
    (frames.foldl Session.deliver s).wasted ≠ [] := by
  induction frames generalizing s with
  | nil => simp at hdead
  | cons f frames ih =>
    cases hw : s.client.waiters with
    | nil => simp [hw] at hdead
    | cons w rest =>
      by_cases hlive : s.client.Live w
      · refine ih (h.deliver_cons hw hlive f) fun hall => hdead fun v hv => ?_
        rw [hw, List.length_cons, List.take_succ_cons, List.mem_cons] at hv
        obtain rfl | hv := hv
        · exact hlive
        have hwv : w ≠ v := by
          rintro rfl
          exact (List.nodup_cons.1 (hw ▸ h.distinct)).1 (List.mem_of_mem_take hv)
        refine (RawClient.live_deliver_of_ne (f := f) (by simpa [hw] using hwv)).1 (hall v ?_)
        simpa [Session.deliver, RawClient.waiters_deliver, hw] using hv
      · refine wasted_foldl_deliver ?_ frames
        simp [Session.deliver, hw, hlive]

/-- A call of `receive` that finds a queued frame. -/
theorem Inv.receive_cons {s : Session} (h : s.Inv) {f : Frame} {rest : List Frame}
    (hf : s.client.frames = f :: rest) (timeoutMs : ℕ) : (s.receive timeoutMs).Inv := by
  have hwaiters : s.client.waiters = [] := h.idle.resolve_left (by simp [hf])
  have hnew : ∀ f', (s.client.receipts.length, f') ∉ s.handed := fun f' hmem => by
    have := (h.genuine _ f').1 hmem
    simp at this
  constructor
  case toAccounted =>
    refine ⟨?_, ?_, fun i f' => ?_, .inr (by simp [receive, RawClient.receive, hf, hwaiters]),
      h.kept⟩
    · rw [show (s.receive timeoutMs).arrived = s.arrived from rfl, ← h.order]
      simp [receive, RawClient.receive, hf]
    · simp only [receive, hf, List.head?_cons, Option.toList_some, List.map_cons, List.map_nil,
        List.map_append, List.nodup_append]
      refine ⟨h.once, by simp, ?_⟩
      rintro i hi _ hj rfl
      obtain ⟨⟨j, f'⟩, hmem, rfl⟩ := List.mem_map.1 hi
      obtain rfl : j = s.client.receipts.length := by simpa using hj
      exact hnew f' hmem
    · simp only [receive, RawClient.receive, hf, List.head?_cons, Option.toList_some,
        List.map_cons, List.map_nil, List.mem_append, h.genuine, List.mem_singleton,
        Prod.mk.injEq]
      rw [List.getElem?_append, List.getElem?_singleton]
      split_ifs with hi hi'
      · simp [hi.ne]
      · obtain rfl : i = s.client.receipts.length := by omega
        simp [eq_comm]
      · simp [show i ≠ s.client.receipts.length by omega, List.getElem?_eq_none (not_lt.1 hi)]
  case idle => exact .inr (by simp [receive, RawClient.receive, hf, hwaiters])
  case distinct => simp [receive, RawClient.receive, hf, hwaiters]
  case known => simp [receive, RawClient.receive, hf, hwaiters]
  case unresolved => simp [receive, RawClient.receive, hf, hwaiters]

/-- A call of `receive` that has to wait. -/
theorem Inv.receive_nil {s : Session} (h : s.Inv) (hf : s.client.frames = [])
    (timeoutMs : ℕ) : (s.receive timeoutMs).Inv := by
  have hc : s.client.receive timeoutMs = { s.client with
      waiters := s.client.waiters ++ [s.client.receipts.length]
      receipts := s.client.receipts ++ [.pending timeoutMs] } := by
    simp [RawClient.receive, hf]
  have hresolved : ∀ (i : ℕ) (f : Frame),
      (s.client.receipts ++ [.pending timeoutMs])[i]? = some (.resolved f) ↔
        s.client.receipts[i]? = some (.resolved f) := fun i f => by
    rw [List.getElem?_append, List.getElem?_singleton]
    split_ifs <;> simp [*]
  constructor
  case toAccounted =>
    refine ⟨?_, ?_, fun i f => ?_, .inl ?_, h.kept⟩ <;>
      simp only [receive, hc, hf, List.head?_nil, Option.toList_none, List.map_nil,
        List.append_nil]
    · rw [← h.order, hf, List.append_nil]
    · exact h.once
    · rw [hresolved, h.genuine]
  case idle => exact .inl (by simp [receive, hc, hf])
  case distinct =>
    simp only [receive, hc, List.nodup_append, h.distinct, List.nodup_singleton,
      List.mem_singleton, true_and]
    rintro w hw _ rfl rfl
    exact (h.known _ hw).false
  case known =>
    intro w hw
    simp only [receive, hc, List.mem_append, List.mem_singleton] at hw
    simp only [receive, hc, List.length_append, List.length_singleton]
    obtain hw | rfl := hw
    · exact (h.known w hw).trans (Nat.lt_succ_self _)
    · exact Nat.lt_succ_self _
  case unresolved =>
    intro w hw f
    simp only [receive, hc, List.mem_append, List.mem_singleton] at hw
    simp only [receive, hc, ne_eq, hresolved]
    obtain hw | rfl := hw
    · exact h.unresolved w hw f
    · simp

/-- A timeout settles a promise without handing it a frame. -/
theorem Inv.expire {s : Session} (h : s.Inv) (label : String) (i : ℕ) :
    Inv { s with client := s.client.expire label i } := by
  have hresolved : ∀ (j : ℕ) (f : Frame),
      (s.client.expire label i).receipts[j]? = some (.resolved f) ↔
        s.client.receipts[j]? = some (.resolved f) := fun j f => by
    simp only [RawClient.expire, List.getElem?_modify]
    cases hj : s.client.receipts[j]? with
    | none => simp
    | some r => split_ifs <;> cases r <;> simp [Receipt.expire]
  constructor
  case toAccounted =>
    refine ⟨h.order, h.once, fun j f => (h.genuine j f).trans (hresolved j f).symm, ?_, h.kept⟩
    exact h.idle.imp id fun hw w hmem => absurd hmem (by simp [RawClient.expire, hw])
  case idle => exact h.idle
  case distinct => exact h.distinct
  case known => simpa [RawClient.expire] using h.known
  case unresolved => exact fun w hw f => (hresolved w f).not.2 (h.unresolved w hw f)

theorem Inv.withBuffer {s : Session} (h : s.Inv) (buffer : List UInt8) :
    Inv { s with client := { s.client with buffer := buffer } } :=
  ⟨⟨h.order, h.once, h.genuine, h.exclusive, h.kept⟩, h.idle, h.distinct, h.known,
    h.unresolved⟩

theorem onEvent_data (t : Transport) (s : Session) (chunk : List UInt8) :
    s.onEvent t (.data chunk) = (t.incoming s.client.buffer chunk).1.foldl deliver
      { s with client := { s.client with buffer := (t.incoming s.client.buffer chunk).2 } } :=
  rfl

theorem Inv.onEvent {t : Transport} {s : Session} {e : Event} (h : s.Inv)
    (hg : HeadsLive t s e) : (s.onEvent t e).Inv := by
  cases e with
  | data chunk => exact (h.withBuffer _).foldl_deliver hg
  | receive timeoutMs =>
    cases hf : s.client.frames with
    | nil => exact h.receive_nil hf timeoutMs
    | cons f rest => exact h.receive_cons hf timeoutMs
  | expire i => exact h.expire t.label i

theorem Inv.not_accounted_onEvent {t : Transport} {s : Session} {e : Event} (h : s.Inv)
    (hg : ¬ HeadsLive t s e) : ¬ (s.onEvent t e).Accounted := by
  cases e with
  | data chunk =>
    intro h'
    rw [onEvent_data] at h'
    exact (h.withBuffer (t.incoming _ chunk).2).wasted_of_not_live hg h'.kept
  | receive => exact absurd trivial hg
  | expire => exact absurd trivial hg

end Session

theorem Transport.open_step (t : Transport) (s : Session) (e : Event) :
    t.open.step s e = some (s.onEvent t e) := by
  cases t <;> rfl

/-- **Every frame is accounted for all along a run iff no frame arrives for a waiter that has
timed out.** -/
theorem accounted_iff_headsLive (t : Transport) (es : List Event) :
    (∀ es' s, es' <+: es → t.open.run .init es' = some s → s.Accounted) ↔
      t.open.Guarded (HeadsLive t) .init es := by
  have hrun : ∃ s, t.open.run .init es = some s := by
    cases t <;> exact ⟨_, EventSys.ofTotal_run _ _ _⟩
  obtain ⟨s, hs⟩ := hrun
  refine EventSys.forall_prefix_iff_guarded (I := Session.Inv) ?_ (fun s h => h.toAccounted) ?_
    Session.inv_init hs
  · intro s e s' h hg hst
    rw [t.open_step, Option.some.injEq] at hst
    exact hst ▸ h.onEvent hg
  · intro s e s' h hg hst
    rw [t.open_step, Option.some.injEq] at hst
    exact hst ▸ h.not_accounted_onEvent hg

/-- A call times out, a frame arrives afterwards: the frame is neither queued nor handed out. -/
theorem not_accounted_after_timeout :
    ∃ s, openRawWebSocket.run .init [.receive 5, .expire 0, .data [1]] = some s ∧
      s.arrived = [[1]] ∧ s.client.frames = [] ∧ s.handed = [] ∧ ¬ s.Accounted :=
  ⟨_, EventSys.ofTotal_run _ _ _, rfl, rfl, rfl, fun h => absurd h.order (by decide)⟩

end RawProtocol

end FitzDestroyer
