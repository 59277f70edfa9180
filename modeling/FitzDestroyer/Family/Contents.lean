import FitzDestroyer.Family.Model
import FitzDestroyer.Js.Refine

/-!
# What a broker is expected to do

The broker is not part of the repository.  This file says what the scripts expect of its requests:
the contents of a broker that chooses a space for each family, in each domain, and what each request
does to them.

* `Contents` : what is in the spaces;
* `Rules` : the choices that are up to a broker, and with them the spaces;
* `Rules.broker` : the broker that has nothing but its contents;
* `Broker.Keeps` : **a broker does for each request what its rules say**, as far as contents show.
-/

namespace FitzDestroyer

namespace Family

open Js Workload Pressure

/-! ### Contents -/

/-- A place of the broker: a space, and a route in it. -/
abbrev Key := ℕ × String

/-- The items of a queue: those that wait, and those that have been reserved. -/
structure Items where
  ready : List Bytes
  reserved : List Bytes
  deriving DecidableEq, Repr

structure Contents where
  kv : Key × Bytes → Option Bytes
  queue : Key → Items
  stream : Key → List Bytes
  schedules : ℕ → List ScheduleEntry
  subscribers : Key → List Owner
  workers : Key → List Owner
  leases : Key → Option Owner
  /-- How many queries still find the lease of a session that has ended. -/
  lingering : Key → ℕ
  calls : ℕ

namespace Contents

def empty : Contents where
  kv := fun _ => none
  queue := fun _ => ⟨[], []⟩
  stream := fun _ => []
  schedules := fun _ => []
  subscribers := fun _ => []
  workers := fun _ => []
  leases := fun _ => none
  lingering := fun _ => 0
  calls := 0

@[simps] def setKv (c : Contents) (key : Key) (k value : Bytes) : Contents :=
  { c with kv := Function.update c.kv (key, k) (some value) }

@[simps] def setQueue (c : Contents) (key : Key) (items : Items) : Contents :=
  { c with queue := Function.update c.queue key items }

@[simp] theorem setQueue_setQueue (c : Contents) (key : Key) (items items' : Items) :
    (c.setQueue key items).setQueue key items' = c.setQueue key items' := by
  rw [setQueue, setQueue, setQueue, Function.update_idem]

@[simps] def setStream (c : Contents) (key : Key) (records : List Bytes) : Contents :=
  { c with stream := Function.update c.stream key records }

@[simps] def setSchedules (c : Contents) (space : ℕ) (entries : List ScheduleEntry) : Contents :=
  { c with schedules := Function.update c.schedules space entries }

@[simps] def setSubscribers (c : Contents) (key : Key) (owners : List Owner) : Contents :=
  { c with subscribers := Function.update c.subscribers key owners }

@[simp] theorem setSubscribers_setSubscribers (c : Contents) (key : Key)
    (owners owners' : List Owner) :
    (c.setSubscribers key owners).setSubscribers key owners' = c.setSubscribers key owners' := by
  rw [setSubscribers, setSubscribers, setSubscribers, Function.update_idem]

@[simps] def setWorkers (c : Contents) (key : Key) (owners : List Owner) : Contents :=
  { c with workers := Function.update c.workers key owners }

@[simp] theorem setWorkers_setWorkers (c : Contents) (key : Key) (owners owners' : List Owner) :
    (c.setWorkers key owners).setWorkers key owners' = c.setWorkers key owners' := by
  rw [setWorkers, setWorkers, setWorkers, Function.update_idem]

@[simps] def setLease (c : Contents) (key : Key) (owner : Option Owner) : Contents :=
  { c with leases := Function.update c.leases key owner }

@[simp] theorem setLease_setLease (c : Contents) (key : Key) (owner owner' : Option Owner) :
    (c.setLease key owner).setLease key owner' = c.setLease key owner' := by
  rw [setLease, setLease, setLease, Function.update_idem]

@[simps] def called (c : Contents) : Contents := { c with calls := c.calls + 1 }

@[simp] theorem called_setWorkers (c : Contents) (key : Key) (owners : List Owner) :
    c.called.setWorkers key owners = (c.setWorkers key owners).called := rfl

/-- Whether a query finds the lease. -/
def isHeld (c : Contents) (key : Key) : Bool :=
  (c.leases key).isSome || decide (c.lingering key ≠ 0)

@[simp] theorem isHeld_setSubscribers (c : Contents) (key key' : Key) (owners : List Owner) :
    (c.setSubscribers key owners).isHeld key' = c.isHeld key' := rfl

@[simp] theorem isHeld_setWorkers (c : Contents) (key key' : Key) (owners : List Owner) :
    (c.setWorkers key owners).isHeld key' = c.isHeld key' := rfl

@[simps] def setLingering (c : Contents) (key : Key) (queries : ℕ) : Contents :=
  { c with lingering := Function.update c.lingering key queries }

@[simp] theorem setLingering_setLingering (c : Contents) (key : Key) (queries queries' : ℕ) :
    (c.setLingering key queries).setLingering key queries' = c.setLingering key queries' := by
  rw [setLingering, setLingering, setLingering, Function.update_idem]

end Contents

/-! ### Rules -/

structure Rules where
  /-- The space of a family.  Families with one space see what the other one has written. -/
  space : Domain → RouteFamilyIdentity → ℕ
  /-- The create of a schedule that is there replaces it, or else is refused. -/
  replaces : Bool
  /-- Which of the workers gets a call. -/
  worker : ℕ → ℕ
  /-- How many queries still find the lease of a session when it has ended. -/
  delay : ℕ
  /-- What a request that is refused throws. -/
  refusal : Thrown

namespace Rules

variable (p : Rules)

/-- Where the broker has what a family writes to a route. -/
def key (domain : Domain) (identity : RouteFamilyIdentity) (route : String) : Key :=
  (p.space domain identity, route)

/-- The schedules of a space when one has been created, unless the create is refused. -/
def created (entry : ScheduleEntry) (entries : List ScheduleEntry) :
    Option (List ScheduleEntry) :=
  if ∃ other ∈ entries, other.route = entry.route then
    if p.replaces then
      some (entries.map fun other => if other.route = entry.route then entry else other)
    else none
  else some (entries ++ [entry])

/-- The schedules that a selector selects. -/
def selected (selector : String) (entries : List ScheduleEntry) : List ScheduleEntry :=
  entries.filter fun entry => (selector ++ "/").toList <+: entry.route.toList

/-- The worker that gets the next call to a route. -/
def chosen (c : Contents) (key : Key) : Option Owner :=
  (c.workers key)[p.worker c.calls % (c.workers key).length]?

variable {α : Type}

def refuse : Proc Contents Thrown α := Proc.throw p.refusal

/-! Each request, as the scripts expect it. -/

/-- What is put is what a get finds from then on. -/
def putKv (identity : RouteFamilyIdentity) (route : String) (key value : Bytes) :
    Proc Contents Thrown Unit :=
  Proc.modify fun c => c.setKv (p.key .kv identity route) key value

def getKv (identity : RouteFamilyIdentity) (route : String) (key : Bytes) :
    Proc Contents Thrown (Option Bytes) := do
  let c ← Proc.get
  return c.kv (p.key .kv identity route, key)

/-- A queue is first in, first out. -/
def enqueue (identity : RouteFamilyIdentity) (route : String) (body : Bytes) :
    Proc Contents Thrown Unit :=
  Proc.modify fun c =>
    let items := c.queue (p.key .queue identity route)
    c.setQueue (p.key .queue identity route) { items with ready := items.ready ++ [body] }

/-- Nobody else gets the item: it is completed before its lease expires. -/
def reserve (identity : RouteFamilyIdentity) (route : String) :
    Proc Contents Thrown (List Bytes) := do
  let c ← Proc.get
  let items := c.queue (p.key .queue identity route)
  -- The batch is empty if nothing waits.
  Proc.modify fun c => c.setQueue (p.key .queue identity route)
    ⟨items.ready.drop 1, items.ready.take 1 ++ items.reserved⟩
  return items.ready.take 1

def complete (identity : RouteFamilyIdentity) (route : String) (item : Bytes) :
    Proc Contents Thrown Unit := do
  let c ← Proc.get
  let items := c.queue (p.key .queue identity route)
  if item ∈ items.reserved then
    Proc.modify fun c => c.setQueue (p.key .queue identity route)
      { items with reserved := items.reserved.erase item }
  else p.refuse

/-- A record is appended where it is expected to be, or not at all. -/
def append (identity : RouteFamilyIdentity) (route : String) (expectedOffset : ℕ) (body : Bytes) :
    Proc Contents Thrown Unit := do
  let c ← Proc.get
  let records := c.stream (p.key .stream identity route)
  if records.length ≠ expectedOffset then p.refuse
  else Proc.modify fun c => c.setStream (p.key .stream identity route) (records ++ [body])

def peek (identity : RouteFamilyIdentity) (route : String) :
    Proc Contents Thrown (Option (ℕ × Bytes)) := do
  let c ← Proc.get
  let records := c.stream (p.key .stream identity route)
  return records.getLast?.map fun body => (records.length - 1, body)

def create (identity : RouteFamilyIdentity) (entry : ScheduleEntry) :
    Proc Contents Thrown Unit := do
  let c ← Proc.get
  match p.created entry (c.schedules (p.space .schedule identity)) with
  | none => p.refuse
  | some entries => Proc.modify fun c => c.setSchedules (p.space .schedule identity) entries

def entries (identity : RouteFamilyIdentity) (selector : String) :
    Proc Contents Thrown (List ScheduleEntry) := do
  let c ← Proc.get
  return selected selector (c.schedules (p.space .schedule identity))

def subscribe (owner : Owner) (route : String) : Proc Contents Thrown Unit :=
  Proc.modify fun c =>
    let key := p.key .notice owner.identity route
    c.setSubscribers key (c.subscribers key ++ [owner])

def unsubscribe (owner : Owner) (route : String) : Proc Contents Thrown Unit :=
  Proc.modify fun c =>
    let key := p.key .notice owner.identity route
    c.setSubscribers key ((c.subscribers key).filter (· ≠ owner))

/-- A notice reaches every subscription to its route in time. -/
def publish (identity : RouteFamilyIdentity) (route : String) (_body : Bytes) :
    Proc Contents Thrown (List Owner) := do
  let c ← Proc.get
  return c.subscribers (p.key .notice identity route)

def acquire (owner : Owner) (route : String) : Proc Contents Thrown Unit := do
  let c ← Proc.get
  -- `waitSeconds: 0`
  if c.isHeld (p.key .lease owner.identity route) then p.refuse
  else Proc.modify fun c => c.setLease (p.key .lease owner.identity route) (some owner)

def release (owner : Owner) (route : String) : Proc Contents Thrown Unit := do
  let c ← Proc.get
  if c.leases (p.key .lease owner.identity route) = some owner then
    Proc.modify fun c => c.setLease (p.key .lease owner.identity route) none
  else p.refuse

def query (identity : RouteFamilyIdentity) (route : String) : Proc Contents Thrown Bool := do
  let c ← Proc.get
  let key := p.key .lease identity route
  Proc.modify fun c => c.setLingering key (c.lingering key - 1)
  return c.isHeld key

def registerWorker (owner : Owner) (route : String) : Proc Contents Thrown Unit :=
  Proc.modify fun c =>
    let key := p.key .rpc owner.identity route
    c.setWorkers key (c.workers key ++ [owner])

def unregisterWorker (owner : Owner) (route : String) : Proc Contents Thrown Unit :=
  Proc.modify fun c =>
    let key := p.key .rpc owner.identity route
    c.setWorkers key ((c.workers key).filter (· ≠ owner))

/-- One worker gets a call and responds to it; without a worker, the call fails. -/
def call (identity : RouteFamilyIdentity) (route : String) (response : Owner → Bytes)
    (c : Contents) : Answers × Contents :=
  match p.chosen c (p.key .rpc identity route) with
  | none => (⟨none, [], true⟩, c)
  | some owner => (⟨owner, [response owner], false⟩, c.called)

/-- The session of an owner ends: its subscriptions and workers are gone, and its lease is released
when some queries have still found it. -/
@[simps] def leave (owner : Owner) (c : Contents) : Contents :=
  { c with
    subscribers := fun key => (c.subscribers key).filter (· ≠ owner)
    workers := fun key => (c.workers key).filter (· ≠ owner)
    leases := fun key => if c.leases key = some owner then none else c.leases key
    lingering := fun key => if c.leases key = some owner then p.delay else c.lingering key }

/-- A broker that has nothing but its contents. -/
@[simps] def broker : Broker Contents where
  putKv := p.putKv
  getKv := p.getKv
  enqueue := p.enqueue
  reserve := p.reserve
  complete := p.complete
  append := p.append
  peek := p.peek
  create := p.create
  entries := p.entries
  subscribe := p.subscribe
  unsubscribe := p.unsubscribe
  publish := p.publish
  acquire := p.acquire
  release := p.release
  query := p.query
  registerWorker := p.registerWorker
  unregisterWorker := p.unregisterWorker
  call := p.call
  leave := p.leave

end Rules

/-! ### Brokers that keep their rules -/

/-- The broker does for each request what the rules say: when its state has some contents, the
request returns what it would return for them, or throws, and leaves what it would leave. -/
structure Broker.Keeps {σ : Type} (b : Broker σ) (p : Rules) (R : σ → Contents → Prop) : Prop where
  putKv : ∀ identity route key value,
    (b.putKv identity route key value).Refines R (p.putKv identity route key value)
  getKv : ∀ identity route key, (b.getKv identity route key).Refines R (p.getKv identity route key)
  enqueue : ∀ identity route body,
    (b.enqueue identity route body).Refines R (p.enqueue identity route body)
  reserve : ∀ identity route, (b.reserve identity route).Refines R (p.reserve identity route)
  complete : ∀ identity route item,
    (b.complete identity route item).Refines R (p.complete identity route item)
  append : ∀ identity route expectedOffset body,
    (b.append identity route expectedOffset body).Refines R
      (p.append identity route expectedOffset body)
  peek : ∀ identity route, (b.peek identity route).Refines R (p.peek identity route)
  create : ∀ identity entry, (b.create identity entry).Refines R (p.create identity entry)
  entries : ∀ identity selector,
    (b.entries identity selector).Refines R (p.entries identity selector)
  subscribe : ∀ owner route, (b.subscribe owner route).Refines R (p.subscribe owner route)
  unsubscribe : ∀ owner route, (b.unsubscribe owner route).Refines R (p.unsubscribe owner route)
  publish : ∀ identity route body,
    (b.publish identity route body).Refines R (p.publish identity route body)
  acquire : ∀ owner route, (b.acquire owner route).Refines R (p.acquire owner route)
  release : ∀ owner route, (b.release owner route).Refines R (p.release owner route)
  query : ∀ identity route, (b.query identity route).Refines R (p.query identity route)
  registerWorker : ∀ owner route,
    (b.registerWorker owner route).Refines R (p.registerWorker owner route)
  unregisterWorker : ∀ owner route,
    (b.unregisterWorker owner route).Refines R (p.unregisterWorker owner route)
  call : ∀ identity route response s c, R s c →
    (b.call identity route response s).1 = (p.call identity route response c).1 ∧
      R (b.call identity route response s).2 (p.call identity route response c).2
  leave : ∀ owner s c, R s c → R (b.leave owner s) (p.leave owner c)

/-- A broker that has nothing but its contents keeps its rules. -/
theorem Rules.keeps_broker (p : Rules) : p.broker.Keeps p Eq := by
  constructor
  -- These two do not throw, so they are compared as they are.
  case call | leave =>
    intros
    subst_vars
    trivial
  all_goals
    intros
    exact .refl _

end Family

end FitzDestroyer
