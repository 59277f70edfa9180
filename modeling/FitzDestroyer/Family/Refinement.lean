import FitzDestroyer.Family.Matrix

/-!
# Scripts do not tell brokers apart

A broker that keeps its rules is to the scripts what a broker is that has nothing but its contents:
every request of a script is answered alike, and so is the next one.

* `World.Related` : two worlds that look the same to the clients;
* `seedKv_refines` and so on : one lemma for each script;
* `runRouteFamilyIsolationMatrixScenario_refines` : **and so the whole scenario**.
-/

namespace FitzDestroyer

namespace Family

open Js Workload Pressure

/-- The worlds of two brokers, of which only the state of the broker differs. -/
structure World.Related {σ τ : Type} (R : σ → τ → Prop) (w : World σ) (v : World τ) : Prop where
  broker : R w.broker v.broker
  holders : w.holders = v.holders
  delivered : w.delivered = v.delivered

section Related

variable {σ τ α : Type} {R : σ → τ → Prop} {w : World σ} {v : World τ}

theorem World.Related.withBroker (h : w.Related R v) {s : σ} {t : τ} (hst : R s t) :
    (w.withBroker s).Related R (v.withBroker t) := ⟨hst, h.holders, h.delivered⟩

theorem World.Related.updateHolder (h : w.Related R v) (identity : RouteFamilyIdentity)
    (f : Holder → Holder) : (w.updateHolder identity f).Related R (v.updateHolder identity f) :=
  ⟨h.broker, by rw [World.updateHolder, World.updateHolder, h.holders], h.delivered⟩

theorem World.Related.deliver (h : w.Related R v) (body : Bytes) (owners : List Owner) :
    (w.deliver body owners).Related R (v.deliver body owners) :=
  ⟨h.broker, by rw [World.deliver, World.deliver, h.holders], by simp [h.delivered]⟩

theorem World.Related.handle (h : w.Related R v) (owner : Option Owner) :
    (w.handle owner).Related R (v.handle owner) :=
  ⟨h.broker, by rw [World.handle, World.handle, h.holders], h.delivered⟩

theorem World.Related.awaitDelivery (h : w.Related R v) :
    w.awaitDelivery.Related R v.awaitDelivery := ⟨h.broker, h.holders, rfl⟩

theorem request_refines {x : Proc σ Thrown α} {y : Proc τ Thrown α} (h : x.Refines R y) :
    (request x).Refines (World.Related R) (request y) := fun _ _ hrel =>
  ⟨(h _ _ hrel.broker).1, hrel.withBroker (h _ _ hrel.broker).2⟩

theorem World.Related.settle (hrel : w.Related R v) {x : Proc σ Thrown Unit}
    {y : Proc τ Thrown Unit} (h : x.Refines R y) : (settle x w).Related R (settle y v) :=
  hrel.withBroker (h _ _ hrel.broker).2

theorem updateHolder_refines (identity : RouteFamilyIdentity) (f : Holder → Holder) :
    Proc.Refines (ε := Thrown) (World.Related R) (Proc.modify (·.updateHolder identity f))
      (Proc.modify (·.updateHolder identity f)) :=
  .modify fun _ _ hrel => hrel.updateHolder identity f

end Related

namespace Options

section Scripts

variable {σ : Type} {b : Broker σ} {p : Rules} {R : σ → Contents → Prop} (h : b.Keeps p R)
  (o : Options)

theorem assertPayload_refines (actual : Bytes) (marker what : String) :
    (o.assertPayload actual marker what).Refines (World.Related R)
      (o.assertPayload actual marker what) := .lift _

include h

theorem verifyKv_refines : (o.verifyKv b).Refines (World.Related R) (o.verifyKv p.broker) := by
  refine (request_refines (h.getKv _ _ _)).bind ?_
  rintro (_ | value)
  · exact .throw _ _
  · exact o.assertPayload_refines _ _ _

theorem seedKv_refines : (o.seedKv b).Refines (World.Related R) (o.seedKv p.broker) :=
  (request_refines (h.putKv _ _ _ _)).bind fun _ => o.verifyKv_refines h

theorem enqueue_refines (marker : String) :
    (o.enqueue b marker).Refines (World.Related R) (o.enqueue p.broker marker) :=
  request_refines (h.enqueue _ _ _)

theorem reserveOne_refines :
    (o.reserveOne b).Refines (World.Related R) (o.reserveOne p.broker) := by
  refine (request_refines (h.reserve _ _)).bind ?_
  rintro (_ | ⟨item, items⟩)
  · exact .throw _ _
  · exact .pure item

theorem seedQueue_refines : (o.seedQueue b).Refines (World.Related R) (o.seedQueue p.broker) := by
  refine (o.enqueue_refines h _).bind fun _ => (o.reserveOne_refines h).bind fun seed => ?_
  refine (o.assertPayload_refines _ _ _).bind fun _ => ?_
  exact (request_refines (h.complete _ _ _)).bind fun _ => o.enqueue_refines h _

theorem verifyQueue_refines :
    (o.verifyQueue b).Refines (World.Related R) (o.verifyQueue p.broker) := by
  refine (o.reserveOne_refines h).bind fun item => ?_
  exact (o.assertPayload_refines _ _ _).bind fun _ => request_refines (h.complete _ _ _)

theorem verifyStream_refines :
    (o.verifyStream b).Refines (World.Related R) (o.verifyStream p.broker) := by
  refine (request_refines (h.peek _ _)).bind ?_
  rintro (_ | ⟨offset, body⟩)
  · exact .throw _ _
  · exact .ite (.throw _ _) (o.assertPayload_refines _ _ _)

theorem seedStream_refines :
    (o.seedStream b).Refines (World.Related R) (o.seedStream p.broker) :=
  (request_refines (h.append _ _ _ _)).bind fun _ => o.verifyStream_refines h

theorem verifySchedule_refines :
    (o.verifySchedule b).Refines (World.Related R) (o.verifySchedule p.broker) := by
  refine (request_refines (h.entries _ _)).bind ?_
  rintro (_ | ⟨entry, _ | ⟨second, entries⟩⟩)
  · exact .throw _ _
  · exact .ite (.throw _ _) (.ite (.throw _ _) (o.assertPayload_refines _ _ _))
  · exact .throw _ _

theorem seedSchedule_refines :
    (o.seedSchedule b).Refines (World.Related R) (o.seedSchedule p.broker) :=
  (request_refines (h.create _ _)).bind fun _ => o.verifySchedule_refines h

theorem publish_refines (marker : String) :
    (o.publish b marker).Refines (World.Related R) (o.publish p.broker marker) :=
  (request_refines (h.publish _ _ _)).bind fun _ => .modify fun _ _ hrel => hrel.deliver _ _

omit h in
theorem awaited_refines {α : Type} (awaited : Option α) :
    (o.awaited awaited).Refines (World.Related R) (o.awaited awaited) := by
  rcases awaited with _ | a
  · exact .throw _ _
  · exact .pure a

theorem verifyNotice_refines :
    (o.verifyNotice b).Refines (World.Related R) (o.verifyNotice p.broker) := by
  refine .bind (.modify fun _ _ hrel => hrel.awaitDelivery) fun _ => ?_
  refine (request_refines (h.subscribe _ _)).bind fun _ => .tryFinally ?_ ?_
  · -- Both subscriptions have got the same notice.
    refine (o.publish_refines h _).bind fun _ => .get_bind fun w v hrel => ?_
    rw [hrel.delivered]
    exact (o.awaited_refines _).bind fun body => o.assertPayload_refines _ _ _
  · exact fun _ _ hrel => hrel.settle (h.unsubscribe _ _)

theorem verifyLeaseState_refines (expectedHeld : Bool) :
    (o.verifyLeaseState b expectedHeld).Refines (World.Related R)
      (o.verifyLeaseState p.broker expectedHeld) :=
  (request_refines (h.query _ _)).bind fun _ => .ite (.throw _ _) (.pure _)

theorem pollLease_refines : ∀ polls,
    (o.pollLease b polls).Refines (World.Related R) (o.pollLease p.broker polls)
  | 0 => .throw _ _
  | polls + 1 =>
    (request_refines (h.query _ _)).bind fun _ => .ite (pollLease_refines polls) (.pure _)

theorem waitForLeaseRelease_refines :
    (o.waitForLeaseRelease b).Refines (World.Related R) (o.waitForLeaseRelease p.broker) :=
  o.pollLease_refines h _

theorem call_refines : (o.call b).Refines (World.Related R) (o.call p.broker) := by
  intro w v hrel
  obtain ⟨hanswers, hcontents⟩ := h.call o.identity (o.route .rpc) response _ _ hrel.broker
  refine ⟨congrArg some hanswers, ?_⟩
  simp only [call, Rules.broker_call, hanswers]
  exact (hrel.withBroker hcontents).handle _

theorem verifyRpc_refines : (o.verifyRpc b).Refines (World.Related R) (o.verifyRpc p.broker) := by
  refine (o.call_refines h).bind fun answers => .bind (.lift _) fun _ => ?_
  exact .ite (.throw _ _) (.ite (.throw _ _) (.pure _))

theorem verifyRpcUnavailable_refines :
    (o.verifyRpcUnavailable b).Refines (World.Related R) (o.verifyRpcUnavailable p.broker) :=
  (o.call_refines h).bind fun _ => .ite (.throw _ _) (.pure _)

/-! ### Roles -/

omit h in
theorem log_refines (line : LogLine) :
    (o.log line).Refines (World.Related R) (o.log line) := updateHolder_refines _ _

omit h in
theorem awaitInitialNotice_refines :
    (o.awaitInitialNotice).Refines (World.Related R) o.awaitInitialNotice := by
  refine .get_bind fun w v hrel => ?_
  rw [hrel.holders]
  exact o.awaited_refines _

theorem runHolder_refines : (o.runHolder b).Refines (World.Related R) (o.runHolder p.broker) := by
  refine .bind (updateHolder_refines _ _) fun _ => ?_
  refine (request_refines (h.subscribe _ _)).bind fun _ => ?_
  refine (request_refines (h.registerWorker _ _)).bind fun _ => ?_
  refine (request_refines (h.acquire _ _)).bind fun _ => ?_
  refine (o.seedKv_refines h).bind fun _ => (o.seedQueue_refines h).bind fun _ => ?_
  refine (o.seedStream_refines h).bind fun _ => (o.seedSchedule_refines h).bind fun _ => ?_
  refine (o.publish_refines h _).bind fun _ => o.awaitInitialNotice_refines.bind fun _ => ?_
  refine (o.verifyLeaseState_refines h _).bind fun _ => (o.verifyRpc_refines h).bind fun _ => ?_
  exact .bind (updateHolder_refines _ _) fun _ => o.log_refines _

theorem finishHolder_refines :
    (o.finishHolder b).Refines (World.Related R) (o.finishHolder p.broker) := by
  refine .bind (.modify fun _ _ hrel => hrel.settle (h.unregisterWorker _ _)) fun _ => ?_
  refine .bind (.modify fun _ _ hrel => hrel.settle (h.unsubscribe _ _)) fun _ => ?_
  refine .bind (.modify fun _ _ hrel => hrel.settle (h.release _ _)) fun _ => ?_
  refine .get_bind fun w v hrel => ?_
  rw [hrel.holders]
  exact (o.log_refines _).bind fun _ => .ite (.throw _ _) (.pure _)

theorem verifyLive_refines (action : ProbeAction) :
    (o.verifyLive b action).Refines (World.Related R) (o.verifyLive p.broker action) := by
  cases action with
  | verifySurvivor => exact (o.verifyRpc_refines h).bind fun _ => .pure _
  | verifyClosed =>
    refine (request_refines (h.acquire _ _)).bind fun _ => ?_
    refine (request_refines (h.release _ _)).bind fun _ => ?_
    refine (request_refines (h.registerWorker _ _)).bind fun _ => .tryFinally ?_ ?_
    · exact (o.verifyRpc_refines h).bind fun _ => .pure _
    · exact fun _ _ hrel => hrel.settle (h.unregisterWorker _ _)

theorem runProbe_refines (action : ProbeAction) :
    (o.runProbe b action).Refines (World.Related R) (o.runProbe p.broker action) := by
  have hlease : (o.leaseHeldBeforeProbe b action).Refines (World.Related R)
      (o.leaseHeldBeforeProbe p.broker action) :=
    .ite (o.verifyLeaseState_refines h _) (o.waitForLeaseRelease_refines h)
  have hrpc : (o.rpcUnavailableBeforeProbe b action).Refines (World.Related R)
      (o.rpcUnavailableBeforeProbe p.broker action) :=
    .ite (o.verifyRpcUnavailable_refines h) (.pure _)
  refine hlease.bind fun _ => hrpc.bind fun _ => ?_
  refine (o.verifyKv_refines h).bind fun _ => (o.verifyQueue_refines h).bind fun _ => ?_
  refine (o.verifyStream_refines h).bind fun _ => (o.verifySchedule_refines h).bind fun _ => ?_
  refine (o.verifyNotice_refines h).bind fun _ => (o.verifyLive_refines h _).bind fun _ => ?_
  exact .pure _

end Scripts

end Options

/-! ### The scenario -/

section Scenario

variable {σ : Type} {b : Broker σ} {p : Rules} {R : σ → Contents → Prop} (h : b.Keeps p R)

include h

theorem probed_refines (o : Options) (action : ProbeAction) :
    (probed b o action).Refines (World.Related R) (probed p.broker o action) :=
  (o.runProbe_refines h action).bind fun _ => .bind (.lift _) fun _ => .lift _

/-- **The scenario takes a broker that keeps its rules for one that has only its contents.** -/
theorem runRouteFamilyIsolationMatrixScenario_refines (common : LiveCommonOptions) :
    (runRouteFamilyIsolationMatrixScenario b common).Refines (World.Related R)
      (runRouteFamilyIsolationMatrixScenario p.broker common) := by
  refine ((familyA common).runHolder_refines h).bind fun _ => ?_
  refine ((familyB common).runHolder_refines h).bind fun _ => .get_bind fun w v hrel => ?_
  -- The host reads nothing but logs, which are the same.
  rw [hrel.holders]
  refine .bind (.lift _) fun _ => .bind (.lift _) fun _ => .bind (.lift _) fun _ => ?_
  refine .bind (.modify fun _ _ hrel => hrel.withBroker (h.leave _ _ _ hrel.broker)) fun _ => ?_
  refine (probed_refines h _ _).bind fun _ => (probed_refines h _ _).bind fun _ => ?_
  refine ((familyB common).finishHolder_refines h).bind fun _ => .get_bind fun w v hrel => ?_
  rw [hrel.holders]
  exact .bind (.lift _) fun _ => .bind (.lift _) fun _ => .pure _

end Scenario

end Family

end FitzDestroyer
