import FitzDestroyer.StorageProxy.Model

/-!
# The latency mode of the fault proxy

In `latency` mode the chunks of a connection wait for their timers, but the `end` of a socket
does not wait for them: the handler of `forward` ends the other socket at once.

* `latencyProxy` : the proxy while it stays in `latency` mode and no socket errs;
* `Delivered` : a socket that has been ended, or closed, has been given every chunk read for it;
* `Drained` : a socket ends only when no chunk is delayed, and nothing is read for an ended one;
* `delivered_iff_drained` : along every run, all connections deliver **iff** the events meet
  `Drained`.
-/

namespace FitzDestroyer

namespace StorageProxy

open Js

/-- The events while the mode stays `latency` and no socket errs. -/
def StaysLatency : Event → Prop
  | .put body => ∀ fault ∈ acceptedFault body, fault.mode = .latency
  | .connection _ .error => False
  | _ => True

instance (e : Event) : Decidable (StaysLatency e) :=
  match e with
  | .put body => inferInstanceAs (Decidable (∀ fault ∈ acceptedFault body, fault.mode = .latency))
  | .connection _ .error => isFalse id
  | .connection _ .connect | .connection _ (.data _ _) | .connection _ .fire
  | .connection _ (.ended _) | .connection _ (.close _) | .tick _ | .accept => isTrue trivial

/-- The proxy in `latency` mode. -/
def latencyProxy : EventSys Proxy Event := proxy.restrict fun _ => StaysLatency

/-- A proxy without connections in `latency` mode. -/
def latencyStart (latencyMs : ℕ) : Proxy := ⟨⟨.latency, latencyMs, fun h => absurd rfl h⟩, 0, []⟩

/-- Every chunk read for a socket that has been ended, or is closed, has been written to it. -/
def Delivered (c : Connection) : Prop :=
  ∀ direction, c.closed = true ∨ c.writableEnded direction.destination = true →
    (c.read direction).Subperm (c.written direction)

/-- A socket ends only when no chunk of its connection is delayed, and no chunk is read for a
socket that has been ended. -/
def Drained (_ : Fault) (_ : ℕ) (c : Connection) : ConnectionEvent → Prop
  | .data direction _ => c.writableEnded direction.destination = false
  | .ended _ => c.timers = []
  | _ => True

instance (fault : Fault) (now : ℕ) (c : Connection) (event : ConnectionEvent) :
    Decidable (Drained fault now c event) :=
  match event with
  | .data _ _ => inferInstanceAs (Decidable (_ = _))
  | .ended _ => inferInstanceAs (Decidable (_ = _))
  | .connect | .fire | .close _ | .error => isTrue trivial

/-! ### The invariant -/

/-- The invariant of a connection: every chunk read is written or delayed, and none is delayed
for a socket that has been ended or closed. -/
structure Accounted (c : Connection) : Prop where
  read : ∀ direction, (c.read direction).Perm
    (c.written direction ++ (c.pending direction).map (·.task.2))
  pending : ∀ direction, c.closed = true ∨ c.writableEnded direction.destination = true →
    c.pending direction = []
  ended : ∀ side, c.readEnded side = true → ∀ side', c.writableEnded side' = true

variable {c c' : Connection}

theorem Accounted.delivered (h : Accounted c) : Delivered c := by
  intro direction hend
  have hread := h.read direction
  rw [h.pending direction hend] at hread
  simpa using hread.subperm

theorem accounted_init : Accounted .init :=
  ⟨fun _ => .refl _, fun _ _ => rfl, fun _ h => by cases h⟩

/-- A connection without delayed chunks may be closed. -/
theorem Accounted.close (h : Accounted c) (hnil : ∀ direction, c.pending direction = []) :
    Accounted c.close := by
  unfold Connection.close
  split_ifs
  · exact h
  · refine ⟨fun direction => ?_, fun _ _ => rfl, h.ended⟩
    have hread := h.read direction
    rw [hnil direction] at hread
    exact hread

theorem accounted_accept (fault : Fault) : Accounted (.accept fault) := by
  unfold Connection.accept
  split_ifs
  · exact accounted_init.close fun _ => rfl
  · exact accounted_init
  · exact ⟨accounted_init.read, accounted_init.pending, accounted_init.ended⟩

theorem Accounted.applyDownstreamReadState (fault : Fault) (h : Accounted c) :
    Accounted (c.applyDownstreamReadState fault) := by
  unfold Connection.applyDownstreamReadState
  split_ifs
  · exact h
  · exact ⟨h.read, h.pending, h.ended⟩

/-- A chunk for a socket that has not been ended is delayed. -/
theorem Accounted.delay {due : ℕ} {direction : Direction} {chunk : Chunk} (h : Accounted c)
    (hopen : c.closed = false) (hend : c.writableEnded direction.destination = false) :
    Accounted ((c.receive direction chunk).delay due direction chunk) := by
  refine ⟨fun direction' => ?_, fun direction' hend' => ?_, h.ended⟩
  · rw [pending_delay, pending_receive]
    by_cases hd : direction = direction'
    · subst hd
      simpa [Connection.delay, Connection.receive] using (h.read direction).append_right [chunk]
    · simpa [Connection.delay, Connection.receive, hd, Function.update_of_ne (Ne.symm hd)]
        using h.read direction'
  · rw [pending_delay, pending_receive]
    have hd : direction ≠ direction' := by
      rintro rfl
      rcases hend' with h' | h'
      · exact absurd (hopen.symm.trans h') (by decide)
      · exact absurd (hend.symm.trans h') (by decide)
    rw [if_neg hd, List.append_nil]
    exact h.pending direction' hend'

/-- A chunk for a socket that has not been ended is written. -/
theorem Accounted.receive_write {direction : Direction} {chunk : Chunk} (h : Accounted c)
    (hopen : c.closed = false) (hend : c.writableEnded direction.destination = false) :
    Accounted ((c.receive direction chunk).write direction chunk) := by
  have hwrite : (c.receive direction chunk).write direction chunk =
      (c.receive direction chunk).append direction chunk := by
    simp [Connection.write, Connection.receive, hopen, hend]
  rw [hwrite]
  refine ⟨fun direction' => ?_, h.pending, h.ended⟩
  rw [pending_append, pending_receive]
  by_cases hd : direction' = direction
  · subst hd
    have hread := (h.read direction').append_right [chunk]
    simp only [Connection.append, Connection.receive, Function.update_self]
    refine hread.trans ?_
    rw [List.append_assoc, List.append_assoc]
    exact List.Perm.append_left _ List.perm_append_comm
  · simpa [Connection.append, Connection.receive, Function.update_of_ne hd] using h.read direction'

/-- A timer that fires writes its chunk. -/
theorem Accounted.fire {timer : Timer (Direction × Chunk)}
    {rest : List (Timer (Direction × Chunk))} (h : Accounted c)
    (ht : takeDue c.timers = some (timer, rest)) :
    Accounted ({ c with timers := rest }.write timer.task.1 timer.task.2) := by
  have hperm := takeDue_perm ht
  have hmem : timer ∈ c.pending timer.task.1 :=
    mem_pending.mpr ⟨hperm.mem_iff.mpr List.mem_cons_self, rfl⟩
  have hnotend : ¬(c.closed = true ∨ c.writableEnded timer.task.1.destination = true) := by
    intro hend
    rw [h.pending _ hend] at hmem
    cases hmem
  obtain ⟨hopen, hend⟩ := not_or.mp hnotend
  have hwrite : { c with timers := rest }.write timer.task.1 timer.task.2 =
      { c with timers := rest }.append timer.task.1 timer.task.2 := by
    simp [Connection.write, hopen, hend]
  rw [hwrite]
  refine ⟨fun direction => ?_, fun direction hend' => ?_, h.ended⟩
  · have hread := h.read direction
    have hp : (c.pending direction).Perm
        ((timer :: rest).filter fun t => t.task.1 = direction) := hperm.filter _
    by_cases hd : direction = timer.task.1
    · subst hd
      rw [List.filter_cons_of_pos (by simp)] at hp
      refine hread.trans (((hp.map _).append_left _).trans ?_)
      simp [Connection.append, Connection.pending]
    · rw [List.filter_cons_of_neg (by simpa using Ne.symm hd)] at hp
      refine hread.trans (((hp.map _).append_left _).trans ?_)
      simp [Connection.append, Connection.pending, Function.update_of_ne hd]
  · have hsub : ((rest.filter fun t => t.task.1 = direction)).Sublist (c.pending direction) :=
      (takeDue_sublist ht).filter _
    rw [h.pending direction hend'] at hsub
    exact List.sublist_nil.mp hsub

/-- Both sockets are ended when no chunk is delayed. -/
theorem Accounted.onEnd (side : Side) (h : Accounted c) (hnil : c.timers = []) :
    Accounted (c.onEnd side) := by
  refine ⟨h.read, fun direction _ => by simp [Connection.pending, Connection.onEnd, hnil], ?_⟩
  intro side' _ side''
  cases side <;> cases side'' <;> simp [Connection.onEnd, Side.other, Function.update]

/-! ### Steps -/

/-- An event of a connection in `latency` mode. -/
theorem Accounted.step {fault : Fault} {now : ℕ} {event : ConnectionEvent} (h : Accounted c)
    (hmode : fault.mode = .latency) (hnoerror : event ≠ .error)
    (hg : Drained fault now c event) (hs : c.step fault now event = some c') : Accounted c' := by
  cases event with
  | connect =>
    simp only [Connection.step, Option.ite_none_right_eq_some, Option.some.injEq] at hs
    obtain ⟨-, rfl⟩ := hs
    refine Accounted.applyDownstreamReadState fault ?_
    exact ⟨h.read, h.pending, h.ended⟩
  | data direction chunk =>
    simp only [Connection.step, Option.ite_none_right_eq_some, Option.some.injEq] at hs
    obtain ⟨hflow, rfl⟩ := hs
    unfold Connection.onData
    rw [if_neg (by simp [hmode]), if_neg (by simp [Mode.Discards, hmode])]
    split_ifs
    · exact h.delay hflow.2.1 hg
    · exact h.receive_write hflow.2.1 hg
  | fire =>
    simp only [Connection.step] at hs
    split at hs
    · rename_i timer rest ht
      rw [Option.ite_none_right_eq_some, Option.some.injEq] at hs
      obtain ⟨-, rfl⟩ := hs
      exact h.fire ht
    · cases hs
  | ended side =>
    simp only [Connection.step, Option.ite_none_right_eq_some, Option.some.injEq] at hs
    obtain ⟨-, rfl⟩ := hs
    exact h.onEnd side hg
  | close side =>
    simp only [Connection.step, Option.ite_none_right_eq_some, Option.some.injEq] at hs
    obtain ⟨⟨-, hended⟩, rfl⟩ := hs
    -- The socket has ended, so both have been, and nothing is delayed.
    exact h.close fun direction => h.pending direction (.inr (h.ended side hended _))
  | error => exact absurd rfl hnoerror

/-- More chunks have been read than written. -/
theorem not_delivered_of_length {direction : Direction}
    (hend : c.closed = true ∨ c.writableEnded direction.destination = true)
    (hlen : (c.written direction).length < (c.read direction).length) : ¬Delivered c := by
  intro h
  have := (h direction hend).length_le
  omega

/-- An event outside the guard loses a chunk. -/
theorem Accounted.not_delivered_of_step {fault : Fault} {now : ℕ} {event : ConnectionEvent}
    (h : Accounted c) (hmode : fault.mode = .latency) (hg : ¬Drained fault now c event)
    (hs : c.step fault now event = some c') : ¬Delivered c' := by
  cases event with
  | data direction chunk =>
    simp only [Connection.step, Option.ite_none_right_eq_some, Option.some.injEq] at hs
    obtain ⟨hflow, rfl⟩ := hs
    have hopen := hflow.2.1
    -- The chunk is read, but its destination takes no more: it is never written.
    have hend : c.writableEnded direction.destination = true := by simpa [Drained] using hg
    have hlen : (c.written direction).length = (c.read direction).length := by
      have hread := (h.read direction).length_eq
      rw [h.pending direction (.inr hend)] at hread
      simpa using hread.symm
    unfold Connection.onData
    rw [if_neg (by simp [hmode]), if_neg (by simp [Mode.Discards, hmode])]
    split_ifs
    · exact not_delivered_of_length (.inr hend)
        (by simp [Connection.delay, Connection.receive, hlen])
    · have hwrite : (c.receive direction chunk).write direction chunk =
          (c.receive direction chunk).close := by
        simp [Connection.write, Connection.receive, hopen, hend]
      rw [hwrite]
      refine @not_delivered_of_length _ direction (.inl (closed_close _)) ?_
      rw [written_close, read_close]
      simp [Connection.receive, hlen]
  | ended side =>
    simp only [Connection.step, Option.ite_none_right_eq_some, Option.some.injEq] at hs
    obtain ⟨-, rfl⟩ := hs
    -- The chunk of a pending timer has been read and will not be written.
    obtain ⟨timer, ht⟩ := List.exists_mem_of_ne_nil c.timers hg
    have hmem : timer ∈ c.pending timer.task.1 := mem_pending.mpr ⟨ht, rfl⟩
    have hpos := List.length_pos_of_mem hmem
    have hread := (h.read timer.task.1).length_eq
    rw [List.length_append, List.length_map] at hread
    have hend : (c.onEnd side).writableEnded timer.task.1.destination = true := by
      cases side <;> cases timer.task.1.destination <;>
        simp [Connection.onEnd, Side.other, Function.update]
    refine not_delivered_of_length (.inr hend) ?_
    change (c.written timer.task.1).length < (c.read timer.task.1).length
    omega
  | connect => exact absurd trivial hg
  | fire => exact absurd trivial hg
  | close side => exact absurd trivial hg
  | error => exact absurd trivial hg

theorem mode_of_staysLatency {s s' : Proxy} {e : Event} (hmode : s.fault.mode = .latency)
    (hallow : StaysLatency e) (hs : proxy.step s e = some s') : s'.fault.mode = .latency := by
  cases e with
  | put body =>
    obtain rfl := Option.some.inj hs
    unfold Proxy.onPut
    split
    · exact hallow _ ‹_›
    · exact hmode
  | tick milliseconds =>
    obtain rfl := Option.some.inj hs
    exact hmode
  | accept =>
    obtain rfl := Option.some.inj hs
    exact hmode
  | connection i event =>
    obtain ⟨c, -, rfl⟩ := Option.map_eq_some_iff.mp hs
    exact hmode

theorem Accounted.onFault {fault : Fault} (hmode : fault.mode = .latency) (h : Accounted c) :
    Accounted (c.onFault fault) := by
  unfold Connection.onFault
  simp only [hmode, reduceCtorEq, or_self, if_false]
  exact h.applyDownstreamReadState fault

/-- **`latency` mode delivers every chunk** all along a run **iff** each socket ends only when no
chunk of its connection is delayed, and nothing is read for a socket that has been ended. -/
theorem delivered_iff_drained {latencyMs : ℕ} {es : List Event} {s : Proxy}
    (hr : latencyProxy.run (latencyStart latencyMs) es = some s) :
    (∀ es' t, es' <+: es → latencyProxy.run (latencyStart latencyMs) es' = some t →
        ∀ c ∈ t.connections, Delivered c) ↔
      latencyProxy.Guarded (ConnectionGuard Drained) (latencyStart latencyMs) es := by
  refine EventSys.forall_prefix_iff_guarded
    (I := fun s : Proxy => s.fault.mode = .latency ∧ ∀ c ∈ s.connections, Accounted c)
    (P := fun s : Proxy => ∀ c ∈ s.connections, Delivered c)
    ?_ (fun s h c hc => (h.2 c hc).delivered) ?_ ⟨rfl, fun c hc => by cases hc⟩ hr
  · rintro s e s' ⟨hmode, h⟩ hg hs
    obtain ⟨hallow, hs⟩ := EventSys.restrict_step_eq_some.mp hs
    have hmode' := mode_of_staysLatency hmode hallow hs
    have hg' : ConnectionGuard (fun fault now c event => Drained fault now c event ∧
        event ≠ .error) s e := by
      cases e with
      | connection i event =>
        intro c hi
        refine ⟨hg c hi, ?_⟩
        rintro rfl
        exact hallow
      | put body => trivial
      | tick milliseconds => trivial
      | accept => trivial
    exact ⟨hmode', forall_connections_step (accounted_accept s.fault)
      (fun _ hc => hc.onFault hmode')
      (fun _ _ _ _ hc hgc hsc => hc.step hmode hgc.2 hgc.1 hsc) h hg' hs⟩
  · rintro s e s' ⟨hmode, h⟩ hg hs hP
    obtain ⟨-, hs⟩ := EventSys.restrict_step_eq_some.mp hs
    obtain ⟨c, event, c', hc, hgc, hstep, hc'⟩ := exists_of_not_connectionGuard hg hs
    exact (h c hc).not_delivered_of_step hmode hgc hstep (hP c' hc')

/-- A client sends a chunk, and its timer fires before the client half-closes its socket. -/
def sendWaitEnd : List Event :=
  [.accept, .connection 0 .connect, .connection 0 (.data .upstream [1]), .tick 10,
    .connection 0 .fire, .connection 0 (.ended .client)]

theorem delivered_iff_drained_sendWaitEnd :
    ∃ s, latencyProxy.run (latencyStart 10) sendWaitEnd = some s ∧
      ∀ c ∈ s.connections, Delivered c := by
  have hg : latencyProxy.Guarded (ConnectionGuard Drained) (latencyStart 10) sendWaitEnd := by
    decide
  exact ⟨_, rfl, (delivered_iff_drained rfl).mpr hg _ _ List.prefix_rfl rfl⟩

/-- The client does not wait: the upstream socket is ended while the chunk is delayed. -/
def sendThenEnd : List Event :=
  [.accept, .connection 0 .connect, .connection 0 (.data .upstream [1]),
    .connection 0 (.ended .client)]

theorem not_delivered_of_sendThenEnd :
    ¬∀ latencyMs es s, latencyProxy.run (latencyStart latencyMs) es = some s →
      ∀ c ∈ s.connections, Delivered c := by
  intro hall
  have hdelivered := hall 10 sendThenEnd _ rfl _ List.mem_cons_self .upstream (.inr rfl)
  exact absurd hdelivered.length_le (by decide)

end StorageProxy

end FitzDestroyer
