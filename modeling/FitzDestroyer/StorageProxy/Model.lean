import FitzDestroyer.Js.Number
import FitzDestroyer.Js.Timers
import FitzDestroyer.Run.Basic

/-!
# The fault proxy

`storage-proxy.mjs` forwards the bytes of TCP connections between clients and an upstream server.
A control server sets the fault the proxy injects; in `latency` mode every chunk waits for a timer
of its own.

* `parseFault` : the body of a `PUT /fault`;
* `Connection` : a proxied connection, with the chunks read and written in each direction;
* `proxy` : the event system of the proxy;
* `forall_connections_step` : what each connection keeps, all connections keep.
-/

namespace FitzDestroyer

namespace StorageProxy

open Js

/-! ### Faults -/

inductive Mode where
  | healthy
  | latency
  | reset
  | partition
  | blackhole
  | downstreamDrop
  | downstreamPause
  deriving DecidableEq, Repr

def Mode.name : Mode → String
  | healthy => "healthy"
  | latency => "latency"
  | reset => "reset"
  | partition => "partition"
  | blackhole => "blackhole"
  | downstreamDrop => "downstream-drop"
  | downstreamPause => "downstream-pause"

/-- The modes a request may name. -/
def modes : List Mode :=
  [.healthy, .latency, .reset, .partition, .blackhole, .downstreamDrop, .downstreamPause]

/-- The fault of the proxy: only `latency` has a delay. -/
structure Fault where
  mode : Mode
  latencyMs : ℕ
  latencyMs_eq_zero : mode ≠ .latency → latencyMs = 0

/-- The `latencyMs` of a request. -/
inductive LatencyField where
  /-- It is `null` or not there. -/
  | absent
  | number (value : Number)
  /-- It is not a number. -/
  | other
  deriving DecidableEq

/-- The body of a request, as far as it is read: `mode` is `none` unless it is a string. -/
structure FaultRequest where
  mode : Option String
  latencyMs : LatencyField

/-- `body?.latencyMs ?? 0`, if it is an integer between 0 and 60000. -/
def LatencyField.value : LatencyField → Option ℕ
  | .absent => some 0
  | .number x =>
    if x.isSafeInteger && !x.isNegative then
      match x with
      | .fin q => if q.num.toNat ≤ 60000 then some q.num.toNat else none
      | _ => none
    else none
  | .other => none

/-- The fault a request asks for, or the error of the response. -/
def parseFault (body : FaultRequest) : Except String Fault :=
  match modes.find? fun mode => body.mode == some mode.name with
  | none => .error ("mode must be healthy, latency, reset, partition, blackhole, " ++
      "downstream-drop, or downstream-pause")
  | some mode =>
    match body.latencyMs.value with
    | none => .error "latencyMs must be an integer between 0 and 60000"
    | some latencyMs => .ok
      ⟨mode, if mode = .latency then latencyMs else 0, fun h => if_neg h⟩

/-! ### Connections -/

/-- The two sockets of a connection. -/
inductive Side where
  | client
  | upstream
  deriving DecidableEq, Repr

/-- The side at the other end. -/
def Side.other : Side → Side
  | client => upstream
  | upstream => client

inductive Direction where
  | upstream
  | downstream
  deriving DecidableEq, Repr

/-- The socket a direction reads from. -/
def Direction.source : Direction → Side
  | upstream => .client
  | downstream => .upstream

/-- The socket a direction writes to. -/
def Direction.destination : Direction → Side
  | upstream => .upstream
  | downstream => .client

abbrev Chunk := List UInt8

/-- A proxied connection. -/
structure Connection where
  /-- `connection.upstream !== undefined`. -/
  hasUpstream : Bool
  /-- The upstream socket is connected, and both directions are forwarded. -/
  connected : Bool
  /-- `closeConnection` has run: both sockets are destroyed. -/
  closed : Bool
  /-- The upstream socket is paused. -/
  paused : Bool
  /-- The socket has emitted `end`. -/
  readEnded : Side → Bool
  /-- `end()` has been called on the socket. -/
  writableEnded : Side → Bool
  /-- The delayed chunks, in the order they were delayed. -/
  timers : List (Timer (Direction × Chunk))
  /-- The chunks read from the source and written to the destination. -/
  read : Direction → List Chunk
  written : Direction → List Chunk

namespace Connection

/-- A connection before any event. -/
def init : Connection where
  hasUpstream := false
  connected := false
  closed := false
  paused := false
  readEnded := fun _ => false
  writableEnded := fun _ => false
  timers := []
  read := fun _ => []
  written := fun _ => []

/-- `closeConnection`: the timers are cleared and both sockets are destroyed. -/
def close (c : Connection) : Connection :=
  if c.closed then c else { c with closed := true, timers := [] }

/-- The handler of a client that connects. -/
def accept (fault : Fault) : Connection :=
  if fault.mode = .reset then init.close
  else if fault.mode = .partition then init
  else { init with hasUpstream := true }

/-- `applyDownstreamReadState`. -/
def applyDownstreamReadState (fault : Fault) (c : Connection) : Connection :=
  if !c.hasUpstream || c.closed then c
  else { c with paused := fault.mode = .downstreamPause }

/-- The chunk is written to the destination. -/
def append (c : Connection) (direction : Direction) (chunk : Chunk) : Connection :=
  { c with written := Function.update c.written direction (c.written direction ++ [chunk]) }

/-- `if (!destination.destroyed) destination.write(chunk)`.  A write to a socket that `end()` has
been called on is an error of the socket, and an error closes the connection. -/
def write (c : Connection) (direction : Direction) (chunk : Chunk) : Connection :=
  if c.closed then c
  else if c.writableEnded direction.destination then c.close
  else c.append direction chunk

end Connection

/-- The mode drops the chunks of the direction. -/
def Mode.Discards (mode : Mode) (direction : Direction) : Prop :=
  mode = .partition ∨ mode = .blackhole ∨
    ((mode = .downstreamDrop ∨ mode = .downstreamPause) ∧ direction = .downstream)

instance (mode : Mode) (direction : Direction) : Decidable (mode.Discards direction) :=
  inferInstanceAs (Decidable (_ ∨ _ ∨ _))

namespace Connection

/-- The source of a direction has emitted a chunk. -/
def receive (c : Connection) (direction : Direction) (chunk : Chunk) : Connection :=
  { c with read := Function.update c.read direction (c.read direction ++ [chunk]) }

/-- `setTimeout(.., fault.latencyMs)`. -/
def delay (c : Connection) (due : ℕ) (direction : Direction) (chunk : Chunk) : Connection :=
  { c with timers := c.timers ++ [⟨due, direction, chunk⟩] }

/-- The `data` handler of `forward`. -/
def onData (c : Connection) (fault : Fault) (now : ℕ) (direction : Direction) (chunk : Chunk) :
    Connection :=
  if fault.mode = .reset then (c.receive direction chunk).close
  else if fault.mode.Discards direction then c.receive direction chunk
  else if fault.mode = .latency ∧ 0 < fault.latencyMs then
    (c.receive direction chunk).delay (now + fault.latencyMs) direction chunk
  else (c.receive direction chunk).write direction chunk

/-- A socket emits `end`: the other one is ended by the `end` handler of `forward`, and the socket
itself by Node, since `allowHalfOpen` is off. -/
def onEnd (c : Connection) (side : Side) : Connection :=
  { c with
    readEnded := Function.update c.readEnded side true
    writableEnded := Function.update (Function.update c.writableEnded side.other true) side true }

end Connection

/-- The delayed chunks of a direction, with their timers. -/
def Connection.pending (c : Connection) (direction : Direction) :
    List (Timer (Direction × Chunk)) :=
  c.timers.filter fun timer => timer.task.1 = direction

/-- What can happen to a connection. -/
inductive ConnectionEvent where
  /-- The upstream socket is connected. -/
  | connect
  /-- The source of the direction emits a chunk. -/
  | data (direction : Direction) (chunk : Chunk)
  /-- The timer that is due next fires. -/
  | fire
  /-- The socket emits `end`. -/
  | ended (side : Side)
  /-- The socket, done with reading and writing, emits `close`. -/
  | close (side : Side)
  /-- A socket emits `error`. -/
  | error

/-- The socket is read from: it is forwarded, it has not ended, and it is not paused. -/
def Connection.Flowing (c : Connection) (side : Side) : Prop :=
  c.connected = true ∧ c.closed = false ∧ c.readEnded side = false ∧
    (side = .upstream → c.paused = false)

instance (c : Connection) (side : Side) : Decidable (c.Flowing side) :=
  inferInstanceAs (Decidable (_ ∧ _ ∧ _ ∧ (_ → _)))

/-- A connection after an event, or `none` when the event cannot happen. -/
def Connection.step (c : Connection) (fault : Fault) (now : ℕ) :
    ConnectionEvent → Option Connection
  | .connect =>
    if c.hasUpstream ∧ !c.connected ∧ !c.closed then
      some ({ c with connected := true }.applyDownstreamReadState fault)
    else none
  | .data direction chunk =>
    if c.Flowing direction.source then some (c.onData fault now direction chunk) else none
  | .fire =>
    match takeDue c.timers with
    | some (timer, rest) =>
      if timer.due ≤ now then
        some ({ c with timers := rest }.write timer.task.1 timer.task.2)
      else none
    | none => none
  | .ended side => if c.Flowing side then some (c.onEnd side) else none
  | .close side => if c.closed = false ∧ c.readEnded side then some c.close else none
  | .error => if c.closed = false then some c.close else none

/-! ### The proxy -/

/-- The state of the proxy, with the clock of its timers. -/
structure Proxy where
  fault : Fault
  now : ℕ
  connections : List Connection

/-- The proxy when it starts. -/
def Proxy.init : Proxy := ⟨⟨.healthy, 0, fun _ => rfl⟩, 0, []⟩

/-- What a new fault does to a connection. -/
def Connection.onFault (fault : Fault) (c : Connection) : Connection :=
  let c := c.applyDownstreamReadState fault
  if fault.mode = .reset ∨ fault.mode = .partition ∨ fault.mode = .healthy then c.close else c

/-- What can happen to the proxy. -/
inductive Event where
  /-- `PUT /fault`; the body is `none` when it cannot be read. -/
  | put (body : Option FaultRequest)
  /-- Time passes. -/
  | tick (milliseconds : ℕ)
  /-- A client connects. -/
  | accept
  /-- An event of the `i`-th connection. -/
  | connection (i : ℕ) (event : ConnectionEvent)

/-- The new fault of a request, if it is accepted. -/
def acceptedFault (body : Option FaultRequest) : Option Fault :=
  body.bind fun body => (parseFault body).toOption

/-- `PUT /fault`: a request that is not accepted changes nothing. -/
def Proxy.onPut (s : Proxy) (body : Option FaultRequest) : Proxy :=
  match acceptedFault body with
  | some fault => { s with fault := fault, connections := s.connections.map (·.onFault fault) }
  | none => s

/-- The proxy. -/
def proxy : EventSys Proxy Event where
  step s
    | .put body => some (s.onPut body)
    | .tick milliseconds => some { s with now := s.now + milliseconds }
    | .accept => some { s with connections := s.connections ++ [.accept s.fault] }
    | .connection i event =>
      (s.connections[i]?.bind fun c => c.step s.fault s.now event).map fun c =>
        { s with connections := s.connections.set i c }

/-! ### All connections -/

/-- A guard on the events of a connection, as a guard on the events of the proxy. -/
def ConnectionGuard (g : Fault → ℕ → Connection → ConnectionEvent → Prop) (s : Proxy) :
    Event → Prop
  | .connection i event => ∀ c, s.connections[i]? = some c → g s.fault s.now c event
  | _ => True

instance (g : Fault → ℕ → Connection → ConnectionEvent → Prop)
    [∀ fault now c event, Decidable (g fault now c event)] (s : Proxy) (e : Event) :
    Decidable (ConnectionGuard g s e) :=
  match e with
  | .connection i event =>
    match h : s.connections[i]? with
    | some c => decidable_of_iff (g s.fault s.now c event)
        ⟨fun hg c' hc' => by rw [h] at hc'; exact Option.some.inj hc' ▸ hg, fun hg => hg c h⟩
    | none => isTrue fun c hc => by simp [h] at hc
  | .put _ | .tick _ | .accept => isTrue trivial

/-- What holds of new connections, survives a new fault and is kept by the events of a connection
holds of all connections after a step of the proxy. -/
theorem forall_connections_step {I : Connection → Prop}
    {g : Fault → ℕ → Connection → ConnectionEvent → Prop} {s s' : Proxy} {e : Event}
    (haccept : I (.accept s.fault)) (hfault : ∀ c, I c → I (c.onFault s'.fault))
    (hstep : ∀ now c event c', I c → g s.fault now c event →
      c.step s.fault now event = some c' → I c')
    (h : ∀ c ∈ s.connections, I c) (hg : ConnectionGuard g s e) (hs : proxy.step s e = some s') :
    ∀ c ∈ s'.connections, I c := by
  intro c' hc'
  cases e with
  | put body =>
    obtain rfl := Option.some.inj hs
    unfold Proxy.onPut at hfault hc'
    rcases hf : acceptedFault body with _ | fault
    · rw [hf] at hc'
      exact h c' hc'
    · rw [hf] at hc' hfault
      obtain ⟨c, hc, rfl⟩ := List.mem_map.mp hc'
      exact hfault c (h c hc)
  | tick milliseconds =>
    obtain rfl := Option.some.inj hs
    exact h c' hc'
  | accept =>
    obtain rfl := Option.some.inj hs
    rcases List.mem_append.mp hc' with hc | hc
    · exact h c' hc
    · rw [List.mem_singleton.mp hc]
      exact haccept
  | connection i event =>
    obtain ⟨c₁, hc₁, rfl⟩ := Option.map_eq_some_iff.mp hs
    obtain ⟨c, hi, hc⟩ := Option.bind_eq_some_iff.mp hc₁
    rcases List.mem_or_eq_of_mem_set hc' with hmem | rfl
    · exact h c' hmem
    · exact hstep s.now c event c' (h c (List.mem_of_getElem? hi)) (hg c hi) hc

/-- A step outside the guard is a step of a connection outside its guard. -/
theorem exists_of_not_connectionGuard {g : Fault → ℕ → Connection → ConnectionEvent → Prop}
    {s s' : Proxy} {e : Event} (hg : ¬ConnectionGuard g s e) (hs : proxy.step s e = some s') :
    ∃ c event c', c ∈ s.connections ∧ ¬g s.fault s.now c event ∧
      c.step s.fault s.now event = some c' ∧ c' ∈ s'.connections := by
  cases e with
  | put body => exact absurd trivial hg
  | tick milliseconds => exact absurd trivial hg
  | accept => exact absurd trivial hg
  | connection i event =>
    obtain ⟨c', hc', rfl⟩ := Option.map_eq_some_iff.mp hs
    obtain ⟨c, hi, hc⟩ := Option.bind_eq_some_iff.mp hc'
    refine ⟨c, event, c', List.mem_of_getElem? hi, fun hgc => hg fun c₁ hc₁ => ?_, hc, ?_⟩
    · rw [hi] at hc₁
      exact Option.some.inj hc₁ ▸ hgc
    · exact List.mem_set (List.getElem?_eq_some_iff.mp hi).1 c'

theorem written_close (c : Connection) : c.close.written = c.written := by
  unfold Connection.close; split_ifs <;> rfl

theorem read_close (c : Connection) : c.close.read = c.read := by
  unfold Connection.close; split_ifs <;> rfl

theorem closed_close (c : Connection) : c.close.closed = true := by
  unfold Connection.close
  split_ifs with h
  · exact h
  · rfl

/-! ### Delayed chunks -/

section Pending

variable {c : Connection}

theorem pending_delay (due : ℕ) (direction direction' : Direction) (chunk : Chunk) :
    (c.delay due direction chunk).pending direction' = c.pending direction' ++
      if direction = direction' then [⟨due, direction, chunk⟩] else [] := by
  unfold Connection.delay Connection.pending
  by_cases h : direction = direction' <;> simp [h]

theorem pending_receive (direction direction' : Direction) (chunk : Chunk) :
    (c.receive direction chunk).pending direction' = c.pending direction' := rfl

theorem pending_append (direction direction' : Direction) (chunk : Chunk) :
    (c.append direction chunk).pending direction' = c.pending direction' := rfl

theorem mem_pending {timer : Timer (Direction × Chunk)} {direction : Direction} :
    timer ∈ c.pending direction ↔ timer ∈ c.timers ∧ timer.task.1 = direction := by
  simp [Connection.pending]

end Pending

end StorageProxy

end FitzDestroyer
