import FitzDestroyer.Family.Contents

/-!
# What the scripts of a family do

For each script, with a broker that has nothing but its contents: when the script returns, and what
the contents and the holders are then (`src/workloads/route-family-isolation-matrix.ts`).

* `seedKv_returns`, `verifyKv_returns` and so on : one lemma for each script.
-/

namespace FitzDestroyer

namespace Family

open Js Workload Pressure

@[simp] theorem Owner.identity_holder {identity : RouteFamilyIdentity} :
    (Owner.holder identity).identity = identity := rfl

@[simp] theorem Owner.identity_probe {identity : RouteFamilyIdentity} :
    (Owner.probe identity).identity = identity := rfl

theorem returns_request {σ α : Type} {x : Proc σ Thrown α} {w w' : World σ} {a : α} :
    (request x).Returns w a w' ↔ ∃ s, x.Returns w.broker a s ∧ w' = w.withBroker s := by
  unfold Proc.Returns request
  rcases x w.broker with ⟨e | b, s⟩ <;> simp [eq_comm]

@[simp] theorem settle_modify {σ : Type} {f : σ → σ} {w : World σ} :
    settle (Proc.modify f) w = w.withBroker (f w.broker) := rfl

namespace Options

variable {p : Rules} {o : Options} {w w' : World Contents} {u : Unit}

/-- Where the broker has what the role writes. -/
def key (o : Options) (p : Rules) (domain : Domain) : Key :=
  p.key domain o.identity (o.route domain)

@[simp] theorem key_route {domain : Domain} :
    p.key domain o.identity (o.route domain) = o.key p domain := rfl

@[simp] theorem fail_returns {α : Type} {message : String} {a : α} :
    ¬(o.fail message : Script Contents α).Returns w a w' := Proc.returns_throw

@[simp] theorem refuse_returns {α : Type} {a : α} {c c' : Contents} :
    ¬(p.refuse : Proc Contents Thrown α).Returns c a c' := Proc.returns_throw

@[simp] theorem assertPayload_returns {actual : Bytes} {marker what : String} :
    (o.assertPayload actual marker what).Returns w u w' ↔ actual = o.payload marker ∧ w' = w := by
  rw [assertPayload, Proc.returns_lift, assertBytesEqual_eq_ok]

/-! #### KV -/

theorem verifyKv_returns : (o.verifyKv p.broker).Returns w u w' ↔
    w.broker.kv (o.key p .kv, kvKey) = some (o.payload "kv") ∧ w' = w := by
  have hget : ∀ value w'', (request (p.broker.getKv o.identity (o.route .kv) kvKey)).Returns w value
      w'' ↔ value = w.broker.kv (o.key p .kv, kvKey) ∧ w'' = w := by
    simp [returns_request, Rules.getKv]
  simp only [verifyKv, Proc.returns_bind, hget]
  rcases h : w.broker.kv (o.key p .kv, kvKey) with _ | value <;> simp

theorem seedKv_returns : (o.seedKv p.broker).Returns w u w' ↔
    w' = w.withBroker (w.broker.setKv (o.key p .kv) kvKey (o.payload "kv")) := by
  simp [seedKv, returns_request, Rules.putKv, verifyKv_returns]

/-! #### Queue -/

theorem enqueue_returns {marker : String} : (o.enqueue p.broker marker).Returns w u w' ↔
    w' = w.withBroker (w.broker.setQueue (o.key p .queue)
      ⟨(w.broker.queue (o.key p .queue)).ready ++ [o.payload marker],
        (w.broker.queue (o.key p .queue)).reserved⟩) := by
  simp [enqueue, returns_request, Rules.enqueue]

theorem reserveOne_returns {item : Bytes} : (o.reserveOne p.broker).Returns w item w' ↔
    ∃ ready, (w.broker.queue (o.key p .queue)).ready = item :: ready ∧
      w' = w.withBroker (w.broker.setQueue (o.key p .queue)
        ⟨ready, item :: (w.broker.queue (o.key p .queue)).reserved⟩) := by
  have hreserve : ∀ items w'', (request (p.broker.reserve o.identity (o.route .queue))).Returns w
      items w'' ↔ items = (w.broker.queue (o.key p .queue)).ready.take 1 ∧
        w'' = w.withBroker (w.broker.setQueue (o.key p .queue)
          ⟨(w.broker.queue (o.key p .queue)).ready.drop 1,
            items ++ (w.broker.queue (o.key p .queue)).reserved⟩) := by
    intro items w''
    simp only [returns_request, Rules.broker_reserve, Rules.reserve, Proc.returns_get_bind]
    simp
    grind
  simp only [reserveOne, Proc.returns_bind, hreserve]
  rcases h : (w.broker.queue (o.key p .queue)).ready with _ | ⟨first, ready⟩
  · simp
  · simp
    grind

theorem verifyQueue_returns : (o.verifyQueue p.broker).Returns w u w' ↔
    ∃ ready, (w.broker.queue (o.key p .queue)).ready = o.payload "queue-survivor" :: ready ∧
      w' = w.withBroker (w.broker.setQueue (o.key p .queue)
        ⟨ready, (w.broker.queue (o.key p .queue)).reserved⟩) := by
  simp [verifyQueue, reserveOne_returns, returns_request, Rules.complete]

theorem seedQueue_returns : (o.seedQueue p.broker).Returns w u w' ↔
    ∃ ready, (w.broker.queue (o.key p .queue)).ready ++ [o.payload "queue-seed"] =
        o.payload "queue-seed" :: ready ∧
      w' = w.withBroker (w.broker.setQueue (o.key p .queue)
        ⟨ready ++ [o.payload "queue-survivor"], (w.broker.queue (o.key p .queue)).reserved⟩) := by
  simp [seedQueue, enqueue_returns, reserveOne_returns, returns_request, Rules.complete]

/-! #### Stream -/

theorem verifyStream_returns : (o.verifyStream p.broker).Returns w u w' ↔
    w.broker.stream (o.key p .stream) = [o.payload "stream"] ∧ w' = w := by
  have hpeek : ∀ found w'', (request (p.broker.peek o.identity (o.route .stream))).Returns w found
      w'' ↔ found = (w.broker.stream (o.key p .stream)).getLast?.map
        (fun body => ((w.broker.stream (o.key p .stream)).length - 1, body)) ∧ w'' = w := by
    simp [returns_request, Rules.peek]
  simp only [verifyStream, Proc.returns_bind, hpeek]
  -- The newest record is at offset zero iff it is the only one.
  rcases w.broker.stream (o.key p .stream) with _ | ⟨first, _ | ⟨second, records⟩⟩ <;>
    simp [List.getLast?_cons]

theorem seedStream_returns : (o.seedStream p.broker).Returns w u w' ↔
    w.broker.stream (o.key p .stream) = [] ∧
      w' = w.withBroker (w.broker.setStream (o.key p .stream) [o.payload "stream"]) := by
  by_cases h : w.broker.stream (o.key p .stream) = [] <;>
    simp [seedStream, returns_request, Rules.append, verifyStream_returns, h]

/-! #### Schedule -/

theorem scheduleEntry_eq {entry : ScheduleEntry} : entry = o.scheduleEntry ↔
    entry.route = o.route .schedule ∧ entry.cron = scheduleCron ∧ entry.deliveryMode = "Single" ∧
      entry.payload = o.payload "schedule" := ScheduleEntry.ext_iff

theorem verifySchedule_returns : (o.verifySchedule p.broker).Returns w u w' ↔
    Rules.selected (selectorOf (o.route .schedule))
      (w.broker.schedules (p.space .schedule o.identity)) = [o.scheduleEntry] ∧ w' = w := by
  have hentries : ∀ entries w'', (request (p.broker.entries o.identity
      (selectorOf (o.route .schedule)))).Returns w entries w'' ↔
        entries = Rules.selected (selectorOf (o.route .schedule))
          (w.broker.schedules (p.space .schedule o.identity)) ∧ w'' = w := by
    simp [returns_request, Rules.entries]
  simp only [verifySchedule, Proc.returns_bind, hentries]
  -- Only a listing of one entry is looked into.
  rcases Rules.selected (selectorOf (o.route .schedule))
    (w.broker.schedules (p.space .schedule o.identity)) with _ | ⟨entry, _ | ⟨second, entries⟩⟩
  · simp
  · simp [scheduleEntry_eq, and_assoc]
  · simp

theorem seedSchedule_returns : (o.seedSchedule p.broker).Returns w u w' ↔
    ∃ entries, p.created o.scheduleEntry (w.broker.schedules (p.space .schedule o.identity)) =
        some entries ∧
      Rules.selected (selectorOf (o.route .schedule)) entries = [o.scheduleEntry] ∧
      w' = w.withBroker (w.broker.setSchedules (p.space .schedule o.identity) entries) := by
  have hcreate : ∀ u c, (p.create o.identity o.scheduleEntry).Returns w.broker u c ↔
      ∃ entries, p.created o.scheduleEntry (w.broker.schedules (p.space .schedule o.identity)) =
        some entries ∧ c = w.broker.setSchedules (p.space .schedule o.identity) entries := by
    intro u c
    rw [Rules.create, Proc.returns_get_bind]
    rcases p.created o.scheduleEntry (w.broker.schedules (p.space .schedule o.identity)) with
      _ | entries <;> simp
  simp only [seedSchedule, Proc.returns_bind, returns_request, Rules.broker_create, hcreate,
    verifySchedule_returns]
  simp

/-! #### Notice -/

theorem publish_returns {marker : String} : (o.publish p.broker marker).Returns w u w' ↔
    w' = w.deliver (o.payload marker) (w.broker.subscribers (o.key p .notice)) := by
  simp [publish, returns_request, Rules.publish]

theorem awaited_returns {body : Bytes} {delivered : Option Bytes} :
    (o.awaited delivered : Script Contents Bytes).Returns w body w' ↔
      delivered = some body ∧ w' = w := by
  rcases delivered with _ | body' <;> simp [awaited, eq_comm]

/-- The world when a probe has got its notice, and has unsubscribed. -/
@[simps!] def noticed (o : Options) (p : Rules) (w : World Contents) : World Contents :=
  let owners := w.broker.subscribers (o.key p .notice) ++ [.probe o.identity]
  (w.awaitDelivery.deliver (o.payload "probe") owners).withBroker
    (w.broker.setSubscribers (o.key p .notice) (owners.filter (· ≠ .probe o.identity)))

theorem verifyNotice_returns : (o.verifyNotice p.broker).Returns w u w' ↔ w' = o.noticed p w := by
  -- The probe has subscribed itself, so that it gets its own notice.
  simp [verifyNotice, returns_request, Rules.subscribe, publish_returns, awaited_returns,
    Owner.isProbe, Rules.unsubscribe, noticed]

/-! #### Lease -/

theorem isHeld_eq_false {c : Contents} {key : Key} :
    c.isHeld key = false ↔ c.leases key = none ∧ c.lingering key = 0 := by
  simp [Contents.isHeld]

theorem isHeld_of_leases {c : Contents} {key : Key} {owner : Owner}
    (h : c.leases key = some owner) : c.isHeld key = true := by
  simp [Contents.isHeld, h]

/-- The world when the role has asked for its lease. -/
@[simps!] def asked (o : Options) (p : Rules) (w : World Contents) : World Contents :=
  w.withBroker (w.broker.setLingering (o.key p .lease) (w.broker.lingering (o.key p .lease) - 1))

theorem query_returns {isHeld : Bool} :
    (request (p.query o.identity (o.route .lease))).Returns w isHeld w' ↔
      isHeld = w.broker.isHeld (o.key p .lease) ∧ w' = o.asked p w := by
  simp [returns_request, Rules.query, asked, and_comm]

theorem verifyLeaseState_returns {expectedHeld isHeld : Bool} :
    (o.verifyLeaseState p.broker expectedHeld).Returns w isHeld w' ↔
      w.broker.isHeld (o.key p .lease) = expectedHeld ∧ isHeld = expectedHeld ∧
        w' = o.asked p w := by
  simp only [verifyLeaseState, Proc.returns_bind, Rules.broker_query, query_returns]
  by_cases h : w.broker.isHeld (o.key p .lease) = expectedHeld
  · simp [h]
  · simp [h]

/-- The world when the role has asked until the lease was released. -/
@[simps!] def freed (o : Options) (p : Rules) (w : World Contents) : World Contents :=
  w.withBroker (w.broker.setLingering (o.key p .lease) 0)

/-- The loop returns iff nobody holds the lease, and it asks often enough. -/
theorem pollLease_returns {polls : ℕ} {isHeld : Bool} :
    (o.pollLease p.broker (polls + 1)).Returns w isHeld w' ↔
      w.broker.leases (o.key p .lease) = none ∧ w.broker.lingering (o.key p .lease) ≤ polls ∧
        isHeld = false ∧ w' = o.freed p w := by
  induction polls generalizing w with
  | zero =>
    -- There is only one query.
    rw [pollLease]
    rcases h : w.broker.isHeld (o.key p .lease) with _ | _
    · obtain ⟨hlease, hlingering⟩ := isHeld_eq_false.mp h
      simp [query_returns, h, hlease, hlingering, asked, freed]
    · have hheld : ¬(w.broker.leases (o.key p .lease) = none ∧
          w.broker.lingering (o.key p .lease) = 0) := by
        simp [← isHeld_eq_false, h]
      simpa [query_returns, h, pollLease] using fun hlease hlingering =>
        (hheld ⟨hlease, hlingering⟩).elim
  | succ polls ih =>
    rw [pollLease]
    rcases h : w.broker.isHeld (o.key p .lease) with _ | _
    · obtain ⟨hlease, hlingering⟩ := isHeld_eq_false.mp h
      simp [query_returns, h, hlease, hlingering, asked, freed]
    · -- The loop goes on where one query fewer finds the lease.
      simp [query_returns, h, ih, asked, freed]

theorem waitForLeaseRelease_returns {isHeld : Bool} :
    (o.waitForLeaseRelease p.broker).Returns w isHeld w' ↔
      w.broker.leases (o.key p .lease) = none ∧ w.broker.lingering (o.key p .lease) ≤ o.polls ∧
        isHeld = false ∧ w' = o.freed p w := pollLease_returns

/-! #### RPC -/

theorem call_of_chosen {owner : Owner} (h : p.chosen w.broker (o.key p .rpc) = some owner) :
    o.call p.broker w =
      (.ok ⟨owner, [response owner], false⟩, (w.withBroker w.broker.called).handle owner) := by
  simp [call, Rules.call, h]

theorem call_of_none (h : p.chosen w.broker (o.key p .rpc) = none) :
    o.call p.broker w = (.ok ⟨none, [], true⟩, w) := by
  simp [call, Rules.call, h, World.handle]

/-- The world when a worker has answered a call. -/
@[simps!] def answered (w : World Contents) (owner : Owner) : World Contents :=
  (w.withBroker w.broker.called).handle owner

theorem call_returns {answers : Answers} : (o.call p.broker).Returns w answers w' ↔
    (p.chosen w.broker (o.key p .rpc) = none ∧ answers = ⟨none, [], true⟩ ∧ w' = w) ∨
    ∃ owner, p.chosen w.broker (o.key p .rpc) = some owner ∧
      answers = ⟨owner, [response owner], false⟩ ∧ w' = answered w owner := by
  rcases h : p.chosen w.broker (o.key p .rpc) with _ | owner
  · simp [Proc.Returns, call_of_none h, eq_comm]
  · simp [Proc.Returns, call_of_chosen h, answered, eq_comm]

theorem response_eq_payload {owner : Owner} :
    response owner = o.payload "rpc-response" ↔ owner.identity = o.identity := by
  simp [response, payload, routeFamilyPayload_inj]

theorem verifyRpc_returns {responses : ℕ} : (o.verifyRpc p.broker).Returns w responses w' ↔
    ∃ owner, p.chosen w.broker (o.key p .rpc) = some owner ∧ owner.identity = o.identity ∧
      responses = 1 ∧ w' = answered w owner := by
  simp only [verifyRpc, Proc.returns_bind, call_returns]
  -- Without a worker the call fails, and with one it has one response.
  rcases h : p.chosen w.broker (o.key p .rpc) with _ | owner
  · simp
  · simp [Check.exists_unit, assertBytesEqual_eq_ok, response_eq_payload]

theorem chosen_of_workers {c : Contents} {key : Key} {owner : Owner}
    (h : c.workers key = [owner]) : p.chosen c key = some owner := by
  simp [Rules.chosen, h, Nat.mod_one]

theorem chosen_eq_none {c : Contents} {key : Key} :
    p.chosen c key = none ↔ c.workers key = [] := by
  rw [Rules.chosen, List.getElem?_eq_none_iff]
  constructor
  · intro h
    by_contra hne
    exact absurd h (not_le.mpr (Nat.mod_lt _ (List.length_pos_iff.mpr hne)))
  · rintro h
    simp [h]

theorem verifyRpcUnavailable_returns {unavailable : Bool} :
    (o.verifyRpcUnavailable p.broker).Returns w unavailable w' ↔
      w.broker.workers (o.key p .rpc) = [] ∧ unavailable = true ∧ w' = w := by
  simp only [← @chosen_eq_none p, verifyRpcUnavailable, Proc.returns_bind, call_returns]
  rcases h : p.chosen w.broker (o.key p .rpc) with _ | owner
  · simp
  · -- A worker has answered.
    simp

end Options

end Family

end FitzDestroyer
