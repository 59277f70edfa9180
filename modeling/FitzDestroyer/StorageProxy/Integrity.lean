import FitzDestroyer.StorageProxy.Model

/-!
# The byte streams of the fault proxy

The bytes written to the destination of a direction should at all times be a prefix of the bytes
read from its source.  A mode that discards chunks may be followed by one that forwards them, and
a chunk may be delayed less than the one before it.

* `Integral` : the written bytes are a prefix of the read bytes, in both directions;
* `MayForward` : the chunk that arrives can be forwarded in order;
* `integral_of_mayForward` : along a run whose chunks meet `MayForward`, all connections are
  integral;
* `not_integral_after_latency` : a shorter latency reorders chunks, and chunks that follow
  discarded ones leave a gap.
-/

namespace FitzDestroyer

namespace StorageProxy

open Js

/-- The bytes written are a prefix of the bytes read. -/
def Integral (c : Connection) : Prop :=
  ∀ direction, (c.written direction).flatten <+: (c.read direction).flatten

/-- A chunk that is forwarded, to a socket that has not been ended, follows no discarded chunk of
its direction, and overtakes no delayed one. -/
def MayForward (fault : Fault) (now : ℕ) (c : Connection) : ConnectionEvent → Prop
  | .data direction _ => fault.mode ≠ .reset → ¬fault.mode.Discards direction →
    c.writableEnded direction.destination = false →
      (c.read direction).length = (c.written direction).length + (c.pending direction).length ∧
      ∀ timer ∈ c.pending direction, 0 < fault.latencyMs ∧ timer.due ≤ now + fault.latencyMs
  | _ => True

instance (fault : Fault) (now : ℕ) (c : Connection) (event : ConnectionEvent) :
    Decidable (MayForward fault now c event) :=
  match event with
  | .data _ _ => inferInstanceAs (Decidable (_ → _ → _ → _ ∧ _))
  | .connect | .fire | .ended _ | .close _ | .error => isTrue trivial

/-! ### The invariant -/

/-- The chunks of a direction, written and delayed, are the first ones read, in order. -/
def Queued (c : Connection) (direction : Direction) : Prop :=
  InDueOrder (c.pending direction) ∧
    c.written direction ++ (c.pending direction).map (·.task.2) <+: c.read direction

/-- The invariant of a connection. -/
structure Ordered (c : Connection) : Prop where
  timers : c.closed = true → c.timers = []
  written : ∀ direction, c.written direction <+: c.read direction
  queued : ∀ direction, c.closed = false → c.writableEnded direction.destination = false →
    Queued c direction

variable {c c' : Connection}

theorem Ordered.integral (h : Ordered c) : Integral c := by
  intro direction
  obtain ⟨rest, hrest⟩ := h.written direction
  exact ⟨rest.flatten, by rw [← hrest, List.flatten_append]⟩

theorem ordered_init : Ordered .init := by
  refine ⟨fun _ => rfl, fun _ => List.prefix_rfl, fun direction _ _ => ⟨?_, List.prefix_rfl⟩⟩
  exact List.Pairwise.nil

theorem Ordered.close (h : Ordered c) : Ordered c.close := by
  unfold Connection.close
  split_ifs with hc
  · exact h
  · exact ⟨fun _ => rfl, h.written, fun _ hopen => by simp at hopen⟩

theorem Ordered.accept (fault : Fault) : Ordered (.accept fault) := by
  unfold Connection.accept
  split_ifs
  · exact ordered_init.close
  · exact ordered_init
  · exact ⟨ordered_init.timers, ordered_init.written, ordered_init.queued⟩

theorem Ordered.applyDownstreamReadState (fault : Fault) (h : Ordered c) :
    Ordered (c.applyDownstreamReadState fault) := by
  unfold Connection.applyDownstreamReadState
  split_ifs
  · exact h
  · exact ⟨h.timers, h.written, h.queued⟩

theorem Ordered.onFault (fault : Fault) (h : Ordered c) : Ordered (c.onFault fault) := by
  unfold Connection.onFault
  dsimp only
  split_ifs
  · exact (h.applyDownstreamReadState fault).close
  · exact h.applyDownstreamReadState fault

theorem Ordered.onEnd (side : Side) (h : Ordered c) : Ordered (c.onEnd side) := by
  refine ⟨h.timers, h.written, fun direction hopen hend => h.queued direction hopen ?_⟩
  -- A side that has not been ended after the event was not ended before.
  by_contra hended
  simp only [Bool.not_eq_false] at hended
  cases side <;> cases direction <;>
    simp_all [Connection.onEnd, Direction.destination, Side.other, Function.update]

/-! ### Chunks -/

theorem prefix_receive (c : Connection) (direction direction' : Direction) (chunk : Chunk) :
    c.read direction' <+: (c.receive direction chunk).read direction' := by
  unfold Connection.receive
  by_cases h : direction' = direction
  · subst h
    simp
  · simp [Function.update_of_ne h]

theorem Ordered.receive (direction : Direction) (chunk : Chunk) (h : Ordered c) :
    Ordered (c.receive direction chunk) := by
  refine ⟨h.timers, fun direction' => ?_, fun direction' hopen hend => ?_⟩
  · exact (h.written direction').trans (prefix_receive c direction direction' chunk)
  · obtain ⟨hdue, hpre⟩ := h.queued direction' hopen hend
    exact ⟨hdue, hpre.trans (prefix_receive c direction direction' chunk)⟩

/-- When nothing of a direction has been discarded, its queue is what has been read. -/
theorem Queued.eq_read {direction : Direction} (h : Queued c direction)
    (hlen : (c.read direction).length =
      (c.written direction).length + (c.pending direction).length) :
    c.read direction = c.written direction ++ (c.pending direction).map (·.task.2) :=
  (h.2.eq_of_length (by simp [hlen])).symm

/-- A chunk that is delayed joins the queue of its direction. -/
theorem Ordered.delay {due : ℕ} {direction : Direction} {chunk : Chunk} (h : Ordered c)
    (hopen : c.closed = false)
    (hg : c.writableEnded direction.destination = false →
      (c.read direction).length = (c.written direction).length + (c.pending direction).length ∧
      ∀ timer ∈ c.pending direction, timer.due ≤ due) :
    Ordered ((c.receive direction chunk).delay due direction chunk) := by
  have hr := h.receive direction chunk
  refine ⟨fun hclosed => absurd (hopen.symm.trans hclosed) (by decide), hr.written,
    fun direction' hopen' hend => ?_⟩
  unfold Queued
  rw [pending_delay]
  by_cases hd : direction = direction'
  · subst hd
    obtain ⟨hlen, hdue⟩ := hg hend
    have hq := h.queued direction hopen hend
    refine ⟨?_, ?_⟩
    · rw [if_pos rfl]
      exact List.pairwise_append.mpr ⟨hq.1, List.pairwise_singleton _ _, fun timer ht u hu => by
        rw [List.mem_singleton.mp hu]
        exact hdue timer ht⟩
    · have hread : ((c.receive direction chunk).delay due direction chunk).read direction =
          c.read direction ++ [chunk] := by
        simp [Connection.delay, Connection.receive]
      rw [hread, hq.eq_read hlen, if_pos rfl]
      simp [Connection.delay, Connection.receive, Connection.pending]
  · rw [if_neg hd, List.append_nil]
    exact hr.queued direction' hopen' hend

/-- A chunk that is written at once is the next one of its direction. -/
theorem Ordered.receive_write {direction : Direction} {chunk : Chunk} (h : Ordered c)
    (hg : c.writableEnded direction.destination = false →
      (c.read direction).length = (c.written direction).length + (c.pending direction).length ∧
      c.pending direction = []) :
    Ordered ((c.receive direction chunk).write direction chunk) := by
  have hr := h.receive direction chunk
  unfold Connection.write
  split_ifs with hclosed hended
  · exact hr
  · exact hr.close
  · have hopen : c.closed = false := by simpa [Connection.receive] using hclosed
    have hend : c.writableEnded direction.destination = false := by
      simpa [Connection.receive] using hended
    obtain ⟨hlen, hnil⟩ := hg hend
    have heq : c.read direction = c.written direction := by
      simpa [hnil] using (h.queued direction hopen hend).eq_read hlen
    refine ⟨hr.timers, fun direction' => ?_, fun direction' hopen' hend' => ?_⟩
    · by_cases hd : direction' = direction
      · subst hd
        simp [Connection.append, Connection.receive, heq]
      · simpa [Connection.append, Function.update_of_ne hd] using hr.written direction'
    · have hq := hr.queued direction' hopen' hend'
      refine ⟨hq.1, ?_⟩
      rw [pending_append, pending_receive]
      by_cases hd : direction' = direction
      · subst hd
        rw [hnil]
        simp [Connection.append, Connection.receive, heq]
      · simpa [Connection.append, Function.update_of_ne hd, pending_receive] using hq.2

/-- A timer that fires writes the first delayed chunk of its direction. -/
theorem Ordered.fire {timer : Timer (Direction × Chunk)} {rest : List (Timer (Direction × Chunk))}
    (h : Ordered c) (ht : takeDue c.timers = some (timer, rest)) :
    Ordered ({ c with timers := rest }.write timer.task.1 timer.task.2) := by
  have hne : c.timers ≠ [] := by
    intro hnil
    simp [hnil, takeDue] at ht
  have hopen : c.closed = false := by
    by_contra hc
    exact hne (h.timers (by simpa using hc))
  unfold Connection.write
  rw [if_neg (by simp [hopen])]
  have hpending : ∀ direction, c.closed = false → c.writableEnded direction.destination = false →
      c.pending direction = if timer.task.1 = direction
        then timer :: rest.filter (·.task.1 = direction)
        else rest.filter (·.task.1 = direction) := by
    intro direction _ hend
    have hfilter := filter_takeDue (fun t : Timer (Direction × Chunk) =>
      decide (t.task.1 = direction)) ht (h.queued direction hopen hend).1
    simpa only [Connection.pending, decide_eq_true_eq] using hfilter
  split_ifs with hended
  · -- The destination has been ended: the write closes the connection.
    unfold Connection.close
    rw [if_neg (by simp [hopen])]
    exact ⟨fun _ => rfl, h.written, fun _ hc => by simp at hc⟩
  · have hend : c.writableEnded timer.task.1.destination = false := by simpa using hended
    refine ⟨fun hc => absurd (hopen.symm.trans hc) (by decide), fun direction => ?_,
      fun direction _ hend' => ?_⟩
    · by_cases hd : direction = timer.task.1
      · subst hd
        have hq := (h.queued _ hopen hend).2
        rw [hpending _ hopen hend, if_pos rfl] at hq
        obtain ⟨tail, htail⟩ := hq
        exact ⟨(rest.filter (·.task.1 = timer.task.1)).map (·.task.2) ++ tail,
          by simp [Connection.append, ← htail]⟩
      · simpa [Connection.append, Function.update_of_ne hd] using h.written direction
    · obtain ⟨hdue, hq⟩ := h.queued direction hopen hend'
      rw [hpending _ hopen hend'] at hdue hq
      by_cases hd : direction = timer.task.1
      · subst hd
        rw [if_pos rfl] at hdue hq
        refine ⟨(List.pairwise_cons.mp hdue).2, ?_⟩
        simpa [Connection.append, Connection.pending] using hq
      · rw [if_neg (Ne.symm hd)] at hdue hq
        refine ⟨hdue, ?_⟩
        simpa [Connection.append, Connection.pending, Function.update_of_ne hd] using hq

/-! ### Runs -/

/-- An event of a connection keeps the invariant, if its chunk may be forwarded. -/
theorem Ordered.step {fault : Fault} {now : ℕ} {event : ConnectionEvent} (h : Ordered c)
    (hg : MayForward fault now c event) (hs : c.step fault now event = some c') : Ordered c' := by
  cases event with
  | connect =>
    simp only [Connection.step, Option.ite_none_right_eq_some, Option.some.injEq] at hs
    obtain ⟨-, rfl⟩ := hs
    refine Ordered.applyDownstreamReadState fault ?_
    exact ⟨h.timers, h.written, h.queued⟩
  | data direction chunk =>
    simp only [Connection.step, Option.ite_none_right_eq_some, Option.some.injEq] at hs
    obtain ⟨hflow, rfl⟩ := hs
    unfold Connection.onData
    -- A chunk is discarded with the connection, discarded alone, delayed or written.
    split_ifs with hreset hdiscard hdelay
    · exact (h.receive direction chunk).close
    · exact h.receive direction chunk
    · refine h.delay hflow.2.1 fun hend => ?_
      obtain ⟨hlen, hdue⟩ := hg hreset hdiscard hend
      exact ⟨hlen, fun timer ht => (hdue timer ht).2⟩
    · refine h.receive_write fun hend => ?_
      obtain ⟨hlen, hdue⟩ := hg hreset hdiscard hend
      -- Without a delay, no timer may be left that is due later.
      have hzero : fault.latencyMs = 0 := by
        by_cases hmode : fault.mode = .latency
        · simpa [hmode] using hdelay
        · exact fault.latencyMs_eq_zero hmode
      refine ⟨hlen, List.eq_nil_iff_forall_not_mem.mpr fun timer ht => ?_⟩
      have := (hdue timer ht).1
      omega
  | fire =>
    simp only [Connection.step] at hs
    split at hs
    · rename_i timer rest ht
      rw [Option.ite_none_right_eq_some, Option.some.injEq] at hs
      obtain ⟨-, rfl⟩ := hs
      exact h.fire ht
    · cases hs
  | ended side =>
    simp only [Connection.step, Option.ite_none_right_eq_some, Option.some.injEq] at hs
    obtain ⟨-, rfl⟩ := hs
    exact h.onEnd side
  | close side =>
    simp only [Connection.step, Option.ite_none_right_eq_some, Option.some.injEq] at hs
    obtain ⟨-, rfl⟩ := hs
    exact h.close
  | error =>
    simp only [Connection.step, Option.ite_none_right_eq_some, Option.some.injEq] at hs
    obtain ⟨-, rfl⟩ := hs
    exact h.close

theorem ordered_of_mayForward {es : List Event} {s : Proxy}
    (hg : proxy.Guarded (ConnectionGuard MayForward) .init es)
    (hr : proxy.run .init es = some s) : ∀ c ∈ s.connections, Ordered c := by
  refine EventSys.invariant_of_guarded (I := fun s : Proxy => ∀ c ∈ s.connections, Ordered c)
    ?_ (fun c hc => by cases hc) hg hr
  intro s e s' h hg hs
  exact forall_connections_step (.accept s.fault) (fun _ hc => hc.onFault s'.fault)
    (fun _ _ _ _ hc hgc hsc => hc.step hgc hsc) h hg hs

/-- **The proxy preserves the byte streams** of all connections in every state of a run in which
each chunk may be forwarded when it arrives: a chunk that the mode of the proxy forwards to a
socket that has not been ended follows no discarded chunk of its direction, and no delayed one
that is due later. -/
theorem integral_of_mayForward {es es' : List Event} {s : Proxy}
    (hg : proxy.Guarded (ConnectionGuard MayForward) .init es) (hpre : es' <+: es)
    (hr : proxy.run .init es' = some s) : ∀ c ∈ s.connections, Integral c :=
  fun c hc => (ordered_of_mayForward (hg.of_prefix hpre) hr c hc).integral

/-- `PUT /fault` with a mode, and a latency. -/
def putFault (mode : Mode) (latencyMs : ℕ) : Event :=
  .put (some ⟨some mode.name, .number (latencyMs : Number)⟩)

/-- A client that is connected to the upstream server while the proxy has a fault. -/
def connected (mode : Mode) (latencyMs : ℕ) : List Event :=
  [putFault mode latencyMs, .accept, .connection 0 .connect]

/-- Bytes that the client sends. -/
def clientSends (bytes : Chunk) : Event := .connection 0 (.data .upstream bytes)

/-- The chunks of the first connection that go upstream: those written, and those read. -/
def upstreamChunks (es : List Event) : Option (List Chunk × List Chunk) :=
  (proxy.run .init es).bind fun s => s.connections.head?.map fun c =>
    (c.written .upstream, c.read .upstream)

theorem integral_of_mayForward_latency :
    ∃ s, proxy.run .init (connected .latency 10 ++ [clientSends [1], clientSends [2], .tick 10,
        .connection 0 .fire, .connection 0 .fire]) = some s ∧
      ∀ c ∈ s.connections, Integral c := by
  have hg : proxy.Guarded (ConnectionGuard MayForward) .init (connected .latency 10 ++
      [clientSends [1], clientSends [2], .tick 10, .connection 0 .fire, .connection 0 .fire]) := by
    decide
  exact ⟨_, rfl, integral_of_mayForward hg List.prefix_rfl rfl⟩

/-- The second chunk overtakes the first one when the latency has become shorter, and follows a
gap when the first one fell into a black hole. -/
theorem not_integral_after_latency :
    ¬(∀ es s, proxy.run .init es = some s → ∀ c ∈ s.connections, Integral c) ∧
    upstreamChunks (connected .latency 1000 ++ [clientSends [1], putFault .latency 10,
      clientSends [2], .tick 10, .connection 0 .fire]) = some ([[2]], [[1], [2]]) ∧
    upstreamChunks (connected .blackhole 0 ++ [clientSends [1], putFault .latency 0,
      clientSends [2]]) = some ([[2]], [[1], [2]]) := by
  refine ⟨fun hall => ?_, by decide, by decide⟩
  have hgap := hall (connected .blackhole 0 ++ [clientSends [1], putFault .latency 0,
    clientSends [2]]) _ rfl _ List.mem_cons_self .upstream
  exact absurd hgap (by decide)

end StorageProxy

end FitzDestroyer
