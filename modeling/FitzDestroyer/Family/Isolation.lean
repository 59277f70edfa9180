import FitzDestroyer.Family.Refinement

/-!
# What the isolation matrix decides

A broker that keeps the families apart does for each of them what it would do for it alone; a broker
that lets them share a domain is found out, by another check in every domain.

* `View` : the part of the world that the scripts of one family read;
* `Options.runHolder_of_fresh` and so on : what a role does to the part of its family, and that it
  leaves the one of another family as it was;
* `Held` : what a holder leaves, whatever it has found;
* `routeFamilyIsolation_iff` : **the scenario passes iff the broker keeps the families apart in
  every domain**, and releases a lease in time.
-/

namespace FitzDestroyer

namespace Family

open Js Workload Pressure

/-! ### What one family sees -/

/-- The part of the world that the scripts of a family read. -/
@[ext]
structure View where
  kv : Option Bytes
  queue : Items
  stream : List Bytes
  schedules : List ScheduleEntry
  subscribers : List Owner
  workers : List Owner
  lease : Option Owner
  lingering : ℕ
  holder : Holder

namespace Options

@[simps] def view (o : Options) (p : Rules) (w : World Contents) : View where
  kv := w.broker.kv (o.key p .kv, kvKey)
  queue := w.broker.queue (o.key p .queue)
  stream := w.broker.stream (o.key p .stream)
  schedules := w.broker.schedules (p.space .schedule o.identity)
  subscribers := w.broker.subscribers (o.key p .notice)
  workers := w.broker.workers (o.key p .rpc)
  lease := w.broker.leases (o.key p .lease)
  lingering := w.broker.lingering (o.key p .lease)
  holder := w.holders o.identity

theorem view_eq_iff {p : Rules} {o : Options} {w : World Contents} {v : View} :
    o.view p w = v ↔
      w.broker.kv (o.key p .kv, kvKey) = v.kv ∧ w.broker.queue (o.key p .queue) = v.queue ∧
      w.broker.stream (o.key p .stream) = v.stream ∧
      w.broker.schedules (p.space .schedule o.identity) = v.schedules ∧
      w.broker.subscribers (o.key p .notice) = v.subscribers ∧
      w.broker.workers (o.key p .rpc) = v.workers ∧ w.broker.leases (o.key p .lease) = v.lease ∧
      w.broker.lingering (o.key p .lease) = v.lingering ∧ w.holders o.identity = v.holder :=
  View.ext_iff

/-- The broker keeps two families apart. -/
structure Apart (p : Rules) (o o' : Options) : Prop where
  identity : o'.identity ≠ o.identity
  space : ∀ domain, p.space domain o'.identity ≠ p.space domain o.identity

theorem Apart.key {p : Rules} {o o' : Options} (h : Apart p o o') (domain : Domain) :
    o'.key p domain ≠ o.key p domain := fun heq => h.space domain (Prod.mk.inj heq).1

def freshView : View := ⟨none, ⟨[], []⟩, [], [], [], [], none, 0, .started⟩

def armedLine (o : Options) : LogLine :=
  logLine "route_family_isolation_holder_armed" o.armedFields

/-- What a holder and its broker have when it is armed. -/
def armedView (o : Options) : View where
  kv := some (o.payload "kv")
  queue := ⟨[o.payload "queue-survivor"], []⟩
  stream := [o.payload "stream"]
  schedules := [o.scheduleEntry]
  subscribers := [.holder o.identity]
  workers := [.holder o.identity]
  lease := some (.holder o.identity)
  lingering := 0
  holder := ⟨1, 0, 1, 1, true, [o.armedLine]⟩

theorem selectorOf_isPrefix {route : String} (h : '/' ∈ route.toList) :
    (selectorOf route ++ "/").toList <+: route.toList := by
  have hne : route.toList.rdropWhile (· ≠ '/') ≠ [] := by
    rw [Ne, List.rdropWhile_eq_nil_iff]
    exact fun hall => by simpa using hall _ h
  have hlast : (route.toList.rdropWhile (· ≠ '/')).getLast hne = '/' := by
    simpa using List.rdropWhile_last_not _ _ hne
  have hsplit := List.dropLast_append_getLast hne
  rw [hlast] at hsplit
  rw [String.toList_append, selectorOf, String.toList_ofList, show "/".toList = ['/'] from rfl,
    hsplit]
  exact List.rdropWhile_prefix _ _

theorem selected_scheduleEntry (o : Options) :
    Rules.selected (selectorOf (o.route .schedule)) [o.scheduleEntry] = [o.scheduleEntry] := by
  have hprefix : (selectorOf (o.route .schedule) ++ "/").toList <+: o.scheduleEntry.route.toList :=
    selectorOf_isPrefix (by simp [route, routeFamilyIsolationRoutes])
  rw [Rules.selected, List.filter_singleton, decide_eq_true hprefix, cond_true]

theorem onNotice_payload {o : Options} {marker : String} (hne : marker ≠ "")
    (hcolon : ':' ∉ marker.toList) (h : Holder) : h.onNotice o.identity (o.payload marker) =
      { h with
        ownNotices := h.ownNotices + 1
        initialNotice := h.initialNotice || marker = "holder" } := by
  rw [Holder.onNotice, payload, decodeRouteFamilyPayload_payload _ hne hcolon]
  simp

section Apart

variable {p : Rules} {o o' : Options} {w : World Contents}

theorem view_seeded (h : Apart p o o') (ready : List Bytes) (entries : List ScheduleEntry) :
    o'.view p (o.seeded p w ready entries) = o'.view p w := by
  -- Every update is at a place of the other family.
  ext1 <;> simp [seeded, h.key, h.space, h.identity]

/-- The holder of another family is not among the owners of this one. -/
theorem filter_holder_eq_nil (h : Apart p o o') {owners : List Owner}
    (howners : ∀ owner ∈ owners, owner.identity = o.identity) :
    owners.filter (· = .holder o'.identity) = [] := by
  refine List.filter_eq_nil_iff.mpr fun owner howner heq => h.identity ?_
  rw [← howners owner howner, of_decide_eq_true heq, Owner.identity]

theorem view_heard (h : Apart p o o')
    (howners : ∀ owner ∈ w.broker.subscribers (o.key p .notice), owner.identity = o.identity) :
    o'.view p (o.heard p w) = o'.view p w := by
  ext1 <;> simp [heard, filter_holder_eq_nil h howners]

theorem view_answered (h : Apart p o o') {owner : Owner} (howner : owner.identity = o.identity) :
    o'.view p (answered w owner) = o'.view p w := by
  have hne : owner ≠ .holder o'.identity := by
    rintro rfl
    exact h.identity howner
  ext1 <;> simp [hne]

theorem view_asked (h : Apart p o o') : o'.view p (o.asked p w) = o'.view p w := by
  ext1 <;> simp [h.key]

theorem view_freed (h : Apart p o o') : o'.view p (o.freed p w) = o'.view p w := by
  ext1 <;> simp [h.key]

theorem view_armed (h : Apart p o o') {owner : Owner} (howner : owner.identity = o.identity) :
    o'.view p (o.armed p w owner) = o'.view p w := by
  refine Eq.trans ?_ ((view_answered h howner).trans (view_asked h))
  ext1 <;> simp [armed, h.identity]

theorem view_noticed (h : Apart p o o') (ready : List Bytes)
    (howners : ∀ owner ∈ w.broker.subscribers (o.key p .notice), owner.identity = o.identity) :
    o'.view p (o.noticed p (o.drained p w ready)) = o'.view p w := by
  ext1 <;> simp [drained, h.key, filter_holder_eq_nil h howners]

end Apart

section Roles

variable {p : Rules} {o o' : Options} {w : World Contents}

theorem runHolder_of_fresh (hview : o.view p w = freshView) :
    ∃ w', (o.runHolder p.broker).Returns w () w' ∧ o.view p w' = o.armedView ∧
      ∀ o', Apart p o o' → o'.view p w' = o'.view p w := by
  obtain ⟨-, hqueue, hstream, hschedules, hsubscribers, hworkers, hlease, hlingering, -⟩ :=
    view_eq_iff.mp hview
  simp only [freshView] at hqueue hstream hschedules hsubscribers hworkers hlease hlingering
  -- The only subscriber of the family is its holder, which hears its own notice.
  have hnotice : o.view p (o.heard p (o.seeded p w [] [o.scheduleEntry])) =
      { o.armedView with holder := ⟨1, 0, 0, 0, true, []⟩ } := by
    ext1 <;> simp [heard, seeded, armedView, hqueue, hsubscribers, hworkers, hlingering,
      onNotice_payload, Holder.started]
  refine ⟨_, runHolder_returns.mpr ⟨isHeld_eq_false.mpr ⟨hlease, hlingering⟩, [],
    by simp [hqueue], hstream, [o.scheduleEntry], by simp [hschedules, Rules.created],
    o.selected_scheduleEntry, _, .holder o.identity, rfl, ?_, ?_, rfl, rfl⟩, ?_, fun o' h => ?_⟩
  · exact congrArg (fun v => v.holder.initialNotice) hnotice
  · exact chosen_of_workers (congrArg View.workers hnotice)
  · obtain ⟨hkv, hqueue, hstream, hschedules, hsubscribers, hworkers, hlease, hlingering,
      hholder⟩ := View.ext_iff.mp hnotice
    ext1
    -- The holder has answered its own call; all else is as the notice has left it.
    case holder =>
      change (o.armed p _ _).holders o.identity = _
      rw [view_holder] at hholder
      simp only [armed, World.updateHolder_holders, Function.update_self, answered_holders,
        asked_holders, if_true, hholder]
      rfl
    case lingering =>
      -- The query of the holder itself finds the lease, which does not linger.
      rw [view_lingering] at hlingering
      simp [armed, armedView, hlingering]
    all_goals assumption
  · rw [view_armed h rfl, view_heard h ?_, view_seeded h]
    simp [seeded, hsubscribers, Owner.identity]

/-- The world when the session of a holder was killed. -/
@[simps!] def killed (o : Options) (p : Rules) (w : World Contents) : World Contents :=
  w.withBroker (p.leave (.holder o.identity) w.broker)

/-- What a family has when its holder was killed. -/
def killedView (o : Options) (p : Rules) : View :=
  { o.armedView with subscribers := [], workers := [], lease := none, lingering := p.delay }

theorem view_killed (hview : o.view p w = o.armedView) :
    o.view p (o.killed p w) = o.killedView p := by
  obtain ⟨hkv, hqueue, hstream, hschedules, hsubscribers, hworkers, hlease, hlingering, hholder⟩ :=
    view_eq_iff.mp hview
  ext1 <;> simp [killedView, armedView, *]

theorem view_killed_of_apart (h : Apart p o o') (hview : o'.view p w = o'.armedView) :
    o'.view p (o.killed p w) = o'.armedView := by
  obtain ⟨hkv, hqueue, hstream, hschedules, hsubscribers, hworkers, hlease, hlingering, hholder⟩ :=
    view_eq_iff.mp hview
  ext1 <;> simp [armedView, h.identity, *]

/-- What a family has when its holder has heard the probe. -/
def survivedView (o : Options) : View :=
  { o.armedView with queue := ⟨[], []⟩, holder := ⟨2, 0, 2, 1, true, [o.armedLine]⟩ }

theorem runProbe_survivor_of_armed (hview : o.view p w = o.armedView) :
    ∃ w', (o.runProbe p.broker .verifySurvivor).Returns w (o.probeLog .verifySurvivor) w' ∧
      o.view p w' = o.survivedView ∧ ∀ o', Apart p o o' → o'.view p w' = o'.view p w := by
  obtain ⟨hkv, hqueue, hstream, hschedules, hsubscribers, hworkers, hlease, hlingering, hholder⟩ :=
    view_eq_iff.mp hview
  have hfound : o.Found p w [] := ⟨hkv, congrArg Items.ready hqueue, hstream,
    (congrArg (Rules.selected _) hschedules).trans o.selected_scheduleEntry⟩
  refine ⟨_, runProbe_survivor_returns.mpr ⟨isHeld_of_leases hlease, [], hfound,
    ⟨.holder o.identity, _, rfl, chosen_of_workers hworkers, rfl, rfl⟩, rfl⟩, ?_, fun o' h => ?_⟩
  · ext1 <;> simp [drained, survivedView, armedView, onNotice_payload, Holder.onRequest, *]
  · refine (view_answered h rfl).trans ((view_noticed h [] ?_).trans (view_asked h))
    simp [hsubscribers, armedView, Owner.identity]

theorem runProbe_closed_of_killed (hview : o.view p w = o.killedView p)
    (hdelay : p.delay ≤ o.polls) :
    ∃ w', (o.runProbe p.broker .verifyClosed).Returns w (o.probeLog .verifyClosed) w' ∧
      ∀ o', Apart p o o' → o'.view p w' = o'.view p w := by
  obtain ⟨hkv, hqueue, hstream, hschedules, hsubscribers, hworkers, hlease, hlingering, -⟩ :=
    view_eq_iff.mp hview
  have hfound : o.Found p w [] := ⟨hkv, congrArg Items.ready hqueue, hstream,
    (congrArg (Rules.selected _) hschedules).trans o.selected_scheduleEntry⟩
  refine ⟨_, runProbe_closed_returns.mpr ⟨hlease, hlingering.trans_le hdelay, hworkers, [], hfound,
    rfl, rfl⟩, fun o' h => ?_⟩
  refine Eq.trans ?_ ((view_noticed h [] ?_).trans (view_freed h))
  · ext1 <;> simp [reopened, h.key]
  · simp [hsubscribers, killedView]

theorem finishHolder_of_survived (hview : o.view p w = o.survivedView) :
    ∃ w', (o.finishHolder p.broker).Returns w () w' ∧ (w'.holders o.identity).log =
      [o.armedLine, logLine "route_family_isolation_holder_complete"
        (o.completeFields ⟨2, 0, 2, 1, true, [o.armedLine]⟩)] := by
  have hholder := congrArg View.holder hview
  simp only [view_holder, survivedView] at hholder
  simp [finishHolder, log, settle, hholder, Holder.onLog]

end Roles

end Options

/-! ### The checks of the host -/

theorem assertVerifiedDomains_eq_ok {record : Record} {what : String}
    (h : field record "verifiedDomains" = some (.count allDomains.length)) :
    assertVerifiedDomains record what = .ok () := by
  have hread : numericField record "verifiedDomains" = .ok allDomains.length :=
    (numericField_eq_ok h).mpr ⟨by decide, rfl⟩
  simp [assertVerifiedDomains, hread, Except.bind]

/-- The record of a probe that has found what it expects. -/
def Options.probeRecord (o : Options) (action : ProbeAction) : Record :=
  ("event", .str "route_family_isolation_probe_complete") ::
    o.probeFields action (action = .verifySurvivor) (action = .verifyClosed)

theorem assertRouteFamilyProbeEvidence_probe (o : Options) (action : ProbeAction) :
    assertRouteFamilyProbeEvidence (o.probeRecord action) o.identity action =
      .ok (o.probeRecord action) := by
  cases action <;>
    simp [assertRouteFamilyProbeEvidence, assertVerifiedDomains_eq_ok, Except.bind, Check.failIf,
      field, IsFlag, Options.probeRecord, Options.probeFields, Json.text?, flag?]

/-- What a probe logs passes the check. -/
theorem probed_returns {p : Rules} {o : Options} {action : ProbeAction} {w w' : World Contents}
    (h : (o.runProbe p.broker action).Returns w (o.probeLog action) w') :
    (probed p.broker o action).Returns w (o.probeRecord action) w' := by
  have hread : requiredEvent (o.probeLog action) "route_family_isolation_probe_complete" =
      .ok (o.probeRecord action) := requiredEvent_logLine _ _
  simp only [probed, Proc.returns_bind, Proc.returns_lift]
  exact ⟨_, w', h, _, w', ⟨hread, rfl⟩, assertRouteFamilyProbeEvidence_probe o action, rfl⟩

theorem exists_runProbe_of_probed {p : Rules} {o : Options} {action : ProbeAction}
    {w w' : World Contents} {record : Record}
    (h : (probed p.broker o action).Returns w record w') :
    ∃ log, (o.runProbe p.broker action).Returns w log w' := by
  simp only [probed, Proc.returns_bind, Proc.returns_lift] at h
  obtain ⟨log, _, hprobe, _, _, ⟨-, rfl⟩, -, rfl⟩ := h
  exact ⟨log, hprobe⟩

def Options.armedRecord (o : Options) : Record :=
  ("event", .str "route_family_isolation_holder_armed") :: o.armedFields

theorem assertRouteFamilyArmedEvidence_armed (o : Options) :
    assertRouteFamilyArmedEvidence o.armedRecord o.identity = .ok o.armedRecord := by
  simp [assertRouteFamilyArmedEvidence, assertHolderIdentity, assertVerifiedDomains_eq_ok,
    Except.bind, Check.failIf, field, Options.armedRecord, Options.armedFields, Json.text?]

def Options.completeRecord (o : Options) (h : Holder) : Record :=
  ("event", .str "route_family_isolation_holder_complete") :: o.completeFields h

/-- A holder has enough evidence if it has heard itself and one probe. -/
theorem assertRouteFamilyHolderEvidence_complete (o : Options) (log : Log) :
    assertRouteFamilyHolderEvidence (o.completeRecord ⟨2, 0, 2, 1, true, log⟩) o.identity 2 =
      .ok (o.completeRecord ⟨2, 0, 2, 1, true, log⟩) := by
  have hread : ∀ name n, n ≤ 2 →
      field (o.completeRecord ⟨2, 0, 2, 1, true, log⟩) name = some (.count n) →
      numericField (o.completeRecord ⟨2, 0, 2, 1, true, log⟩) name = .ok n :=
    fun name n hn h => (numericField_eq_ok h).mpr ⟨hn.trans (by decide), rfl⟩
  have hdomains : ∀ what, assertVerifiedDomains (o.completeRecord ⟨2, 0, 2, 1, true, log⟩) what =
      .ok () := fun _ => assertVerifiedDomains_eq_ok rfl
  have hidentity : assertHolderIdentity (o.completeRecord ⟨2, 0, 2, 1, true, log⟩) o.identity =
      .ok () := Check.failIf_eq_ok.mpr (not_not.mpr rfl)
  simp [assertRouteFamilyHolderEvidence, hidentity, hdomains,
    hread "foreignNotices" 0 (by decide) rfl, hread "ownNotices" 2 le_rfl rfl,
    hread "rpcResponses" 1 (by decide) rfl, hread "rpcRequestsHandled" 2 le_rfl rfl, Except.bind,
    Check.failIf]

/-! ### The scenario -/

section Scenario

variable {p : Rules} {common : LiveCommonOptions}

/-- Families that the broker keeps apart pass. -/
theorem passes_of_apart (h : ∀ domain, p.space domain .a ≠ p.space domain .b)
    (hdelay : p.delay ≤ common.polls) :
    Check.Passes
      (runRouteFamilyIsolationMatrixScenario p.broker common (World.start .empty)).1 := by
  have hab : Options.Apart p (familyA common) (familyB common) :=
    ⟨fun heq => RouteFamilyIdentity.noConfusion heq, fun domain => (h domain).symm⟩
  have hba : Options.Apart p (familyB common) (familyA common) :=
    ⟨fun heq => RouteFamilyIdentity.noConfusion heq, h⟩
  -- What a role does to its own family is seen; what it does to the other one is nothing.
  have hfresh : (familyA common).view p (World.start .empty) = Options.freshView := rfl
  obtain ⟨w₁, hholdA, hviewA, hframe₁⟩ := Options.runHolder_of_fresh hfresh
  obtain ⟨w₂, hholdB, hviewB, hframe₂⟩ := Options.runHolder_of_fresh ((hframe₁ _ hab).trans rfl)
  have hviewA₂ := (hframe₂ _ hba).trans hviewA
  obtain ⟨w₃, hsurvivor, hviewB₃, hframe₃⟩ :=
    Options.runProbe_survivor_of_armed (Options.view_killed_of_apart hab hviewB)
  obtain ⟨w₄, hclosed, hframe₄⟩ := Options.runProbe_closed_of_killed
    ((hframe₃ _ hba).trans (Options.view_killed hviewA₂)) hdelay
  obtain ⟨w₅, hfinish, hlog⟩ :=
    Options.finishHolder_of_survived ((hframe₄ _ hab).trans hviewB₃)
  have hlogA : (w₂.holders .a).log = [(familyA common).armedLine] :=
    congrArg (fun v => v.holder.log) hviewA₂
  have hrecordA : requiredEvent (w₂.holders .a).log "route_family_isolation_holder_armed" =
      .ok (familyA common).armedRecord := by
    rw [hlogA]
    exact requiredEvent_logLine _ _
  have hnotices : assertNoCrossFamilyNotice (w₂.holders .a).log .a = .ok () := by
    rw [hlogA]
    simp [assertNoCrossFamilyNotice, parseJsonRecords, Options.armedLine, logLine,
      LogLine.record?, isEvent_logLine]
  have hrecordB : requiredEvent (w₅.holders .b).log "route_family_isolation_holder_complete" =
      .ok ((familyB common).completeRecord ⟨2, 0, 2, 1, true, [(familyB common).armedLine]⟩) :=
    (congrArg (requiredEvent · _) hlog).trans (requiredEvent_append_logLine [_] _ _)
  refine Proc.returns_iff_passes.mpr ⟨⟨(familyA common).armedRecord,
    (familyB common).completeRecord ⟨2, 0, 2, 1, true, [(familyB common).armedLine]⟩,
    (familyB common).probeRecord .verifySurvivor, (familyA common).probeRecord .verifyClosed⟩,
    w₅, ?_⟩
  refine hholdA.bind (hholdB.bind (Proc.returns_get_bind.mpr ?_))
  refine (Proc.returns_lift_of_eq hrecordA).bind ?_
  refine (Proc.returns_lift_of_eq (assertRouteFamilyArmedEvidence_armed _)).bind ?_
  refine (Proc.returns_lift_of_eq hnotices).bind (Proc.modify_returns.bind ?_)
  refine (probed_returns hsurvivor).bind ((probed_returns hclosed).bind (hfinish.bind ?_))
  refine Proc.returns_get_bind.mpr ((Proc.returns_lift_of_eq hrecordB).bind ?_)
  refine (Proc.returns_lift_of_eq (assertRouteFamilyHolderEvidence_complete _ _)).bind ?_
  exact Proc.returns_pure.mpr ⟨rfl, rfl⟩

/-- The parts of a scenario that passes. -/
structure Passed (p : Rules) (common : LiveCommonOptions) where
  afterA : World Contents
  afterB : World Contents
  afterSurvivor : World Contents
  holdA : ((familyA common).runHolder p.broker).Returns (World.start .empty) () afterA
  holdB : ((familyB common).runHolder p.broker).Returns afterA () afterB
  notices : assertNoCrossFamilyNotice (afterB.holders .a).log .a = .ok ()
  survivor : ∃ log, ((familyB common).runProbe p.broker .verifySurvivor).Returns
    ((familyA common).killed p afterB) log afterSurvivor
  closed : ∃ log w', ((familyA common).runProbe p.broker .verifyClosed).Returns afterSurvivor
    log w'

theorem exists_passed (h : Check.Passes
    (runRouteFamilyIsolationMatrixScenario p.broker common (World.start .empty)).1) :
    Nonempty (Passed p common) := by
  obtain ⟨evidence, w', h⟩ := Proc.returns_iff_passes.mp h
  obtain ⟨⟨⟩, w₁, hholdA, h₁⟩ := Proc.returns_bind.mp h
  obtain ⟨⟨⟩, w₂, hholdB, h₂⟩ := Proc.returns_bind.mp h₁
  have h₃ := Proc.returns_get_bind.mp h₂
  obtain ⟨recordA, _, hrecordA, h₄⟩ := Proc.returns_bind.mp h₃
  obtain ⟨-, rfl⟩ := Proc.returns_lift.mp hrecordA
  obtain ⟨holderA, _, hholderA, h₅⟩ := Proc.returns_bind.mp h₄
  obtain ⟨-, rfl⟩ := Proc.returns_lift.mp hholderA
  obtain ⟨⟨⟩, _, hnotices, h₆⟩ := Proc.returns_bind.mp h₅
  obtain ⟨hclean, rfl⟩ := Proc.returns_lift.mp hnotices
  obtain ⟨⟨⟩, _, hkill, h₇⟩ := Proc.returns_bind.mp h₆
  obtain rfl := Proc.returns_modify.mp hkill
  obtain ⟨survivor, w₃, hsurvivor, h₈⟩ := Proc.returns_bind.mp h₇
  obtain ⟨closed, w₄, hclosed, -⟩ := Proc.returns_bind.mp h₈
  obtain ⟨logClosed, hclosed⟩ := exists_runProbe_of_probed hclosed
  exact ⟨⟨w₁, _, w₃, hholdA, hholdB, hclean, exists_runProbe_of_probed hsurvivor,
    logClosed, w₄, hclosed⟩⟩

/-- What a holder leaves, whatever it has found. -/
structure Held (p : Rules) (o : Options) (c c' : Contents) : Prop where
  kv : c'.kv (o.key p .kv, Options.kvKey) = some (o.payload "kv")
  queue : c.queue (o.key p .queue) = ⟨[], []⟩ →
    c'.queue (o.key p .queue) = ⟨[o.payload "queue-survivor"], []⟩
  stream : c'.stream (o.key p .stream) = [o.payload "stream"]
  schedules : Rules.selected (Options.selectorOf (o.route .schedule))
    (c'.schedules (p.space .schedule o.identity)) = [o.scheduleEntry]
  subscribers : c'.subscribers (o.key p .notice) =
    c.subscribers (o.key p .notice) ++ [.holder o.identity]
  workers : c'.workers (o.key p .rpc) = c.workers (o.key p .rpc) ++ [.holder o.identity]
  lease : c'.leases (o.key p .lease) = some (.holder o.identity)

theorem Held.of_runHolder {o : Options} {w w' : World Contents}
    (h : (o.runHolder p.broker).Returns w () w') : Held p o w.broker w'.broker := by
  obtain ⟨-, ready, hready, -, entries, -, hentries, _, owner, rfl, -, -, -, rfl⟩ :=
    Options.runHolder_returns.mp h
  constructor <;> simp [Options.armed, Options.heard, Options.seeded, hentries]
  intro hqueue
  simpa [hqueue] using hready

/-- A holder that hears the notice of another family says so. -/
theorem log_of_foreign {o : Options} {w w' : World Contents} {identity : RouteFamilyIdentity}
    (h : (o.runHolder p.broker).Returns w () w') (hne : o.identity ≠ identity)
    (hsubscribers : w.broker.subscribers (o.key p .notice) = [.holder identity]) :
    (w'.holders identity).log = (w.holders identity).log ++
      [logLine "route_family_isolation_foreign_notice" [("identity", .str identity.name),
        ("publisherIdentity", .str o.identity.name), ("marker", .str "holder")]] := by
  obtain ⟨-, ready, -, -, entries, -, -, _, owner, rfl, -, -, howner, rfl⟩ :=
    Options.runHolder_returns.mp h
  have howner' : owner ≠ .holder identity := by
    rintro rfl
    exact hne howner.symm
  have hforeign : ∀ h : Holder, (h.onNotice identity (o.payload "holder")).log = h.log ++
      [logLine "route_family_isolation_foreign_notice" [("identity", .str identity.name),
        ("publisherIdentity", .str o.identity.name), ("marker", .str "holder")]] := by
    intro h
    rw [Holder.onNotice, Options.payload,
      decodeRouteFamilyPayload_payload _ (by decide) (by decide)]
    simp [hne]
  simp [Options.armed, Options.heard, Options.seeded, hne.symm, hne, howner', hsubscribers,
    hforeign]

/-- A probe of a surviving family leaves what the families share. -/
theorem unchanged_of_survivor {o : Options} {w w' : World Contents} {log : Log}
    (h : (o.runProbe p.broker .verifySurvivor).Returns w log w') :
    w'.broker.kv = w.broker.kv ∧ w'.broker.stream = w.broker.stream ∧
      w'.broker.schedules = w.broker.schedules ∧ w'.broker.workers = w.broker.workers := by
  obtain ⟨-, ready, -, ⟨owner, _, rfl, -, -, rfl⟩, -⟩ := Options.runProbe_survivor_returns.mp h
  exact ⟨rfl, rfl, rfl, rfl⟩

/-- A domain that the families share is found out. -/
theorem apart_of_passed (passed : Passed p common) (domain : Domain) :
    p.space domain .a ≠ p.space domain .b := by
  intro heq
  have hkey : (familyA common).key p domain = (familyB common).key p domain := Prod.ext heq rfl
  have hA := Held.of_runHolder passed.holdA
  have hB := Held.of_runHolder passed.holdB
  obtain ⟨log, hsurvivor⟩ := passed.survivor
  obtain ⟨hkv, hstream, hschedules, hworkers⟩ := unchanged_of_survivor hsurvivor
  obtain ⟨logClosed, w', hclosed⟩ := passed.closed
  obtain ⟨-, -, hnone, items, hfound, -⟩ := Options.runProbe_closed_returns.mp hclosed
  obtain ⟨hfree, _, hqueue, hempty, -⟩ := Options.runHolder_returns.mp passed.holdB
  cases domain with
  | queue =>
    -- The other holder reserves what the first one has left.
    rw [← hkey, hA.queue rfl] at hqueue
    simp [Options.payload, routeFamilyPayload_inj] at hqueue
  | kv =>
    -- The closed family finds what the other one has written.
    have hvalue := hfound.kv
    rw [hkv, hkey] at hvalue
    have hpayload := Option.some.inj (hvalue.symm.trans hB.kv)
    exact absurd (routeFamilyPayload_inj.mp hpayload).1 RouteFamilyIdentity.noConfusion
  | stream =>
    -- The other holder appends behind what the first one has appended.
    rw [← hkey, hA.stream] at hempty
    cases hempty
  | schedule =>
    -- The closed family finds what the other one has created, if that was not refused.
    have hspace : p.space .schedule (familyA common).identity =
      p.space .schedule (familyB common).identity := heq
    have hentries := hfound.schedule
    rw [hschedules, hspace] at hentries
    have hentry := congrArg ScheduleEntry.payload
      (List.cons.inj (hentries.symm.trans hB.schedules)).1
    exact absurd (routeFamilyPayload_inj.mp hentry).1 RouteFamilyIdentity.noConfusion
  | notice =>
    -- The first holder hears the other one.
    have hlog := @log_of_foreign _ _ _ _ .a passed.holdB RouteFamilyIdentity.noConfusion
      (by rw [← hkey, hA.subscribers]; rfl)
    have hnotices := passed.notices
    rw [hlog] at hnotices
    simp [assertNoCrossFamilyNotice, parseJsonRecords, logLine, LogLine.record?,
      isEvent_logLine] at hnotices
  | lease =>
    -- The other holder is refused the lease.
    rw [← hkey, Options.isHeld_of_leases hA.lease] at hfree
    cases hfree
  | rpc =>
    -- The closed family finds the worker of the other one.
    rw [hworkers, hkey] at hnone
    have hworker :
        Owner.holder .b ∈ passed.afterB.broker.workers ((familyB common).key p .rpc) := by
      rw [hB.workers]
      exact List.mem_append_right _ List.mem_cons_self
    exact absurd (List.filter_eq_nil_iff.mp hnone _ hworker) (by simp [familyA])

theorem leases_of_runHolder {o : Options} {w w' : World Contents} {key : Key}
    (h : (o.runHolder p.broker).Returns w () w') (hne : key ≠ o.key p .lease) :
    w'.broker.leases key = w.broker.leases key := by
  obtain ⟨-, ready, -, -, entries, -, -, _, owner, rfl, -, -, -, rfl⟩ :=
    Options.runHolder_returns.mp h
  simp [Options.armed, Options.heard, Options.seeded, hne]

theorem lingering_of_survivor {o : Options} {w w' : World Contents} {log : Log} {key : Key}
    (h : (o.runProbe p.broker .verifySurvivor).Returns w log w') (hne : key ≠ o.key p .lease) :
    w'.broker.lingering key = w.broker.lingering key := by
  obtain ⟨-, ready, -, ⟨owner, _, rfl, -, -, rfl⟩, -⟩ := Options.runProbe_survivor_returns.mp h
  simp [Options.drained, hne]

/-- The probe of the closed family has waited for the lease of its holder. -/
theorem delay_le_of_passed (passed : Passed p common) : p.delay ≤ common.polls := by
  have hne : (familyA common).key p .lease ≠ (familyB common).key p .lease :=
    fun heq => apart_of_passed passed .lease (Prod.mk.inj heq).1
  obtain ⟨log, hsurvivor⟩ := passed.survivor
  obtain ⟨logClosed, w', hclosed⟩ := passed.closed
  obtain ⟨-, hpolls, -⟩ := Options.runProbe_closed_returns.mp hclosed
  -- The second holder has left the lease to the first one, which was killed with it.
  have hlease := (leases_of_runHolder passed.holdB hne).trans (Held.of_runHolder passed.holdA).lease
  rwa [lingering_of_survivor hsurvivor hne, Options.killed_broker_lingering,
    if_pos hlease] at hpolls

/-- A broker that has a space for each family, but for a domain that the families share. -/
def sharing (shared : Option Domain) (delay : ℕ) : Rules where
  space := fun domain identity => if shared = some domain ∨ identity = .a then 0 else 1
  replaces := true
  worker := id
  delay := delay
  refusal := newError "refused"

def sampleOptions : LiveCommonOptions where
  namespaceName := "isolation-7"
  polls := 20
  abortReason := newError "The operation was aborted due to timeout"
  callFailure := newError "no worker"

end Scenario

end Family

end FitzDestroyer
