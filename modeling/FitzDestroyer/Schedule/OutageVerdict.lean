import FitzDestroyer.Schedule.Outage

/-!
# What the outage verdict decides

A notification whose route or payload is wrong makes its handler throw, and leaves no trace in the
records of its subscriber.

* `Exact` : the notifications and the cancellations are as they should be;
* `Accepted` : the handler of a notification does not throw;
* `outageVerdict_iff` : the verdict accepts iff what is accepted is exact;
* `outageVerdict_exact_iff` : when it decides that everything is.
-/

namespace FitzDestroyer

namespace Schedule

namespace Outage

open Js Workload

/-! ### Notifications -/

theorem kindSequence_eq_some {namespaceName value : String} {kind : ScheduleOutageKind}
    {sequence : ℕ} : kindSequence namespaceName kind value = some sequence ↔
      sequence < 10 ^ 8 ∧ value = route namespaceName kind sequence := by
  rw [kindSequence, Option.bind_eq_some_iff, ← String.toList_inj]
  simp only [List.isPrefixOf?_eq_some_iff_append_eq, digits?_eq_some (show 0 < 8 by decide), route,
    String.toList_append, String.toList_ofList]
  constructor
  · rintro ⟨_, hvalue, hlt, rfl⟩
    exact ⟨hlt, hvalue.symm⟩
  · rintro ⟨hlt, hvalue⟩
    exact ⟨_, hvalue.symm, hlt, rfl⟩

/-- Routes of different kinds are different. -/
theorem route_kind_inj {namespaceName : String} {kind kind' : ScheduleOutageKind} {s t : ℕ}
    (h : route namespaceName kind s = route namespaceName kind' t) : kind = kind' ∧ s = t := by
  have hlist : kind.name.toList ++ ("/job-".toList ++ pad s 8) =
      kind'.name.toList ++ ("/job-".toList ++ pad t 8) := by
    have htext := congrArg String.toList h
    simpa [route, kindStart, toString] using htext
  have hkind : kind = kind' := by
    -- The names of the kinds differ in their second letters.
    cases kind <;> cases kind' <;> simp [ScheduleOutageKind.name] at hlist ⊢
  subst hkind
  rw [List.append_cancel_left_eq, List.append_cancel_left_eq] at hlist
  exact ⟨rfl, pad_inj hlist⟩

/-- A route is parsed iff it is the route of a schedule with at most eight digits. -/
theorem parseRoute_eq_ok {namespaceName value : String} {kind : ScheduleOutageKind}
    {sequence : ℕ} : parseRoute namespaceName value = .ok (kind, sequence) ↔
      sequence < 10 ^ 8 ∧ value = route namespaceName kind sequence := by
  rw [← kindSequence_eq_some]
  unfold parseRoute
  cases hrepeated : kindSequence namespaceName .repeated value with
  | some s =>
    cases kind with
    | repeated => simp [hrepeated]
    | race =>
      have hrace : kindSequence namespaceName .race value ≠ some sequence := by
        intro hrace
        have hroutes := (kindSequence_eq_some.mp hrepeated).2.symm.trans
          (kindSequence_eq_some.mp hrace).2
        exact absurd (route_kind_inj hroutes).1 (by decide)
      simp [hrace]
  | none =>
    cases hrace : kindSequence namespaceName .race value with
    | some s => cases kind <;> simp [hrepeated, hrace]
    | none => cases kind <;> simp [hrepeated, hrace]

/-- The notification delivers the schedule. -/
def Delivers (o : Options) (n : Notification) (kind : ScheduleOutageKind) (sequence : ℕ) : Prop :=
  n.route = route o.namespaceName kind sequence ∧ n.payload = payload o kind sequence

instance (o : Options) (n : Notification) (kind : ScheduleOutageKind) (sequence : ℕ) :
    Decidable (Delivers o n kind sequence) :=
  inferInstanceAs (Decidable (_ ∧ _))

/-- **The notifications that pass the checks** are the ones that deliver a schedule whose sequence
has at most eight digits. -/
theorem checkNotification_eq_ok {o : Options} {n : Notification} {kind : ScheduleOutageKind}
    {sequence : ℕ} : checkNotification o n = .ok (kind, sequence) ↔
      sequence < 10 ^ 8 ∧ Delivers o n kind sequence := by
  rw [checkNotification, Check.bind_eq, Check.bind_eq_ok]
  simp only [Check.bind_eq, Check.seq_eq_ok, Check.pure_eq, Except.ok.injEq,
    assertBytesEqual_eq_ok]
  constructor
  · rintro ⟨_, hparse, hpayload, rfl⟩
    obtain ⟨hlt, hroute⟩ := parseRoute_eq_ok.mp hparse
    exact ⟨hlt, hroute, hpayload⟩
  · rintro ⟨hlt, hroute, hpayload⟩
    exact ⟨_, parseRoute_eq_ok.mpr ⟨hlt, hroute⟩, hpayload, rfl⟩

theorem delivers_inj {o : Options} {n : Notification} {kind kind' : ScheduleOutageKind} {s t : ℕ}
    (h : Delivers o n kind s) (h' : Delivers o n kind' t) : kind = kind' ∧ s = t :=
  route_kind_inj (h.1.symm.trans h'.1)

/-- What a notification leaves in the records of its subscriber. -/
def recorded? (o : Options) (n : Notification) : Option Delivery :=
  (checkNotification o n).toOption.map fun identity => ⟨identity.1, identity.2, n.receivedAtMs⟩

theorem recorded?_eq_some {o : Options} {n : Notification} {d : Delivery} :
    recorded? o n = some d ↔
      (d.sequence < 10 ^ 8 ∧ Delivers o n d.kind d.sequence) ∧ d.receivedAtMs = n.receivedAtMs := by
  rw [← checkNotification_eq_ok]
  unfold recorded?
  cases hcheck : checkNotification o n with
  | error error => simp [Except.toOption]
  | ok identity =>
    obtain ⟨kind, sequence⟩ := identity
    obtain ⟨kind', sequence', receivedAtMs⟩ := d
    simp [Except.toOption, eq_comm, and_assoc]

/-! ### Subscribers -/

theorem key_injective : Function.Injective Delivery.key := by
  rintro ⟨kind, n⟩ ⟨kind', n'⟩ h
  have hlist : kind.name.toList ++ ':' :: Nat.toDigits 10 n =
      kind'.name.toList ++ ':' :: Nat.toDigits 10 n' := by
    simpa [Delivery.key, toString, Nat.toList_repr] using congrArg String.toList h
  have hdigits : kind = kind' ∧ Nat.toDigits 10 n = Nat.toDigits 10 n' := by
    -- The names of the kinds differ in their second letters.
    cases kind <;> cases kind' <;> simp [ScheduleOutageKind.name] at hlist <;> exact ⟨rfl, hlist⟩
  have hn := congrArg (fun cs => Nat.ofDigitChars 10 cs 0) hdigits.2
  simp only [Nat.ofDigitChars_ten_toDigits] at hn
  rw [hdigits.1, hn]

/-- The variables of a subscriber, in terms of the deliveries that it recorded or counted. -/
structure Subscriber.Reflects (s : Subscriber) (all : List Delivery) : Prop where
  seen : s.seen = ((s.deliveries.map Delivery.identity).map Delivery.key).toFinset
  different : (s.deliveries.map Delivery.identity).Nodup
  complete : s.duplicates = 0 → s.deliveries = all
  duplicated : s.duplicates ≠ 0 → ¬(all.map Delivery.identity).Nodup
  sub : ∀ d ∈ s.deliveries, d ∈ all

theorem Subscriber.Reflects.record {s : Subscriber} {all : List Delivery} (h : s.Reflects all)
    (d : Delivery) : (s.record d).Reflects (all ++ [d]) := by
  have hkey :
      Delivery.key d.identity ∈ s.seen ↔ d.identity ∈ s.deliveries.map Delivery.identity := by
    rw [h.seen, List.mem_toFinset, List.mem_map_of_injective key_injective]
  unfold Subscriber.record
  split_ifs with hseen
  · refine ⟨h.seen, h.different, fun hzero => absurd hzero (Nat.succ_ne_zero _), fun _ => ?_,
      fun d' hd' => List.mem_append_left _ (h.sub d' hd')⟩
    rw [List.map_append, List.map_singleton]
    intro hnodup
    have hmem := hkey.mp hseen
    obtain ⟨d', hd', heq⟩ := List.mem_map.mp hmem
    have hall : d.identity ∈ all.map Delivery.identity := heq ▸ List.mem_map_of_mem (h.sub d' hd')
    exact (List.nodup_append.mp hnodup).2.2 _ hall _ (List.mem_singleton_self _) rfl
  · have hnew : d.identity ∉ s.deliveries.map Delivery.identity := fun hmem => hseen (hkey.mpr hmem)
    refine ⟨?_, ?_, fun hzero => ?_, fun hne => ?_, fun d' hd' => ?_⟩
    · ext key
      simp [Subscriber.print, h.seen]
    · simp only [Subscriber.print, List.map_append, List.map_singleton]
      exact List.Nodup.append h.different (List.nodup_singleton _)
        (List.disjoint_singleton.mpr hnew)
    · simp only [Subscriber.print] at hzero ⊢
      rw [h.complete hzero]
    · rw [List.map_append]
      exact fun hnodup => h.duplicated hne hnodup.of_append_left
    · simp only [Subscriber.print] at hd'
      exact (List.mem_append.mp hd').elim (fun hmem => List.mem_append_left _ (h.sub d' hmem))
        (List.mem_append_right _)

theorem Subscriber.Reflects.onEvent {o : Options} {s : Subscriber} {all : List Delivery}
    (h : s.Reflects all) (e : SubscriberEvent) :
    (s.onEvent o e).Reflects (all ++ (e.notification?.bind (recorded? o)).toList) := by
  have hsame : ∀ s' : Subscriber, s'.seen = s.seen → s'.deliveries = s.deliveries →
      s'.duplicates = s.duplicates → s'.Reflects all := by
    intro s' hseen hdeliveries hduplicates
    exact ⟨by rw [hseen, hdeliveries]; exact h.seen, hdeliveries ▸ h.different,
      fun hzero => hdeliveries.trans (h.complete (hduplicates ▸ hzero)),
      fun hne => h.duplicated (hduplicates ▸ hne), hdeliveries ▸ h.sub⟩
  cases e with
  | notification n =>
    simp only [Subscriber.onEvent, Subscriber.onNotification, SubscriberEvent.notification?,
      Option.bind_some]
    cases hcheck : checkNotification o n with
    | error error =>
      have hnone : recorded? o n = none := by simp [recorded?, hcheck, Except.toOption]
      rw [hnone, Option.toList_none, List.append_nil]
      exact hsame _ rfl rfl rfl
    | ok identity =>
      have hsome : recorded? o n = some ⟨identity.1, identity.2, n.receivedAtMs⟩ := by
        simp [recorded?, hcheck, Except.toOption]
      have hrecord := (hsame s.startHandler rfl rfl rfl).record
        ⟨identity.1, identity.2, n.receivedAtMs⟩
      rw [hsome, Option.toList_some]
      dsimp only
      split_ifs
      · exact hrecord
      · exact ⟨hrecord.seen, hrecord.different, hrecord.complete, hrecord.duplicated, hrecord.sub⟩
  | handlerDone =>
    change (s.onEvent o .handlerDone).Reflects (all ++ [])
    rw [List.append_nil]
    exact hsame _ rfl rfl rfl
  | other line =>
    change (s.onEvent o (.other line)).Reflects (all ++ [])
    rw [List.append_nil]
    exact hsame _ rfl rfl rfl

/-- The deliveries that a subscriber records or counts. -/
def Session.all {o : Options} (s : Session o) : List Delivery :=
  s.notifications.filterMap (recorded? o)

theorem Session.reflects {o : Options} (s : Session o) : s.final.Reflects s.all := by
  have hfold : ∀ (es : List SubscriberEvent) (s : Subscriber) (all : List Delivery),
      s.Reflects all → (es.foldl (Subscriber.onEvent o) s).Reflects
        (all ++ (es.filterMap SubscriberEvent.notification?).filterMap (recorded? o)) := by
    intro es
    induction es with
    | nil => exact fun s all h => by simpa using h
    | cons e es ih =>
      intro s all h
      have hrest := ih _ _ (h.onEvent (o := o) e)
      have hcons : ((e :: es).filterMap SubscriberEvent.notification?).filterMap (recorded? o) =
          (e.notification?.bind (recorded? o)).toList ++
            (es.filterMap SubscriberEvent.notification?).filterMap (recorded? o) := by
        rw [List.filterMap_filterMap, List.filterMap_filterMap, List.filterMap_cons]
        cases e.notification?.bind (recorded? o) <;> rfl
      rw [hcons, ← List.append_assoc]
      exact hrest
  have hstart : (Subscriber.start s.workerId s.before).Reflects [] :=
    ⟨rfl, List.nodup_nil, fun _ => rfl, fun h => absurd rfl h, fun _ hd => hd⟩
  exact hfold s.events _ _ hstart

/-! ### The ledger -/

/-- The sequences of the deliveries of a kind. -/
def sequencesOf (kind : ScheduleOutageKind) (ds : List Delivery) : List ℕ :=
  (ds.filter fun d => d.kind = kind).map Delivery.sequence

theorem sequencesOf_append (kind : ScheduleOutageKind) (ds ds' : List Delivery) :
    sequencesOf kind (ds ++ ds') = sequencesOf kind ds ++ sequencesOf kind ds' := by
  rw [sequencesOf, List.filter_append, List.map_append]
  rfl

/-- The ledger of some deliveries, before the canceller's log is read. -/
def ledgerOf (missedAtMs repeatedAtMs : ℕ) (ds : List Delivery) (duplicates : ℕ) :
    ScheduleOutageLedger where
  missedAtMs := missedAtMs
  repeatedAtMs := repeatedAtMs
  missedDeliveries := ds.countP fun d => d.receivedAtMs < repeatedAtMs
  repeatedSequences := sequencesOf .repeated ds
  raceSequences := sequencesOf .race ds
  duplicateDeliveries := duplicates
  cancellationAcknowledged := []
  cancellationFailed := []

section Ledger

variable {o : Options} {missedAtMs repeatedAtMs : ℕ} {ds : List Delivery} {duplicates : ℕ}

/-- The numbers of the delivery are read back. -/
def Delivery.Safe (d : Delivery) : Prop :=
  d.sequence ≤ maxSafeInteger ∧ d.receivedAtMs ≤ maxSafeInteger

theorem readDelivery_fields {d : Delivery} (hd : d.Safe) :
    (ledgerOf missedAtMs repeatedAtMs ds duplicates).readDelivery (.obj d.fields) =
      .ok (ledgerOf missedAtMs repeatedAtMs (ds ++ [d]) duplicates) := by
  have hsequence : numericValue (field d.fields "sequence") "Schedule outage sequence" =
      .ok d.sequence := numericValue_count.mpr ⟨hd.1, rfl⟩
  have hreceived : numericValue (field d.fields "receivedAtMs") "Schedule outage receivedAtMs" =
      .ok d.receivedAtMs := numericValue_count.mpr ⟨hd.2, rfl⟩
  have hkind : (field d.fields "kind").bind Json.text? = some d.kind.name := rfl
  have hcount : (ds ++ [d]).countP (fun d => d.receivedAtMs < repeatedAtMs) =
      ds.countP (fun d => d.receivedAtMs < repeatedAtMs) +
        if d.receivedAtMs < repeatedAtMs then 1 else 0 := by
    rw [List.countP_append, List.countP_singleton]
    simp only [decide_eq_true_eq]
  simp only [ScheduleOutageLedger.readDelivery, hsequence, hreceived, hkind, Check.bind_eq,
    Except.bind]
  unfold ledgerOf
  rw [hcount, sequencesOf_append, sequencesOf_append]
  obtain ⟨kind, sequence, receivedAtMs⟩ := d
  cases kind <;> by_cases hlate : receivedAtMs < repeatedAtMs <;>
    simp [hlate, ScheduleOutageKind.name, ScheduleOutageLedger.add, sequencesOf]

theorem foldlM_readDelivery {ds' : List Delivery} (hds : ∀ d ∈ ds', d.Safe) :
    (ds'.map fun d => Json.obj d.fields).foldlM ScheduleOutageLedger.readDelivery
      (ledgerOf missedAtMs repeatedAtMs ds duplicates) =
        .ok (ledgerOf missedAtMs repeatedAtMs (ds ++ ds') duplicates) := by
  induction ds' generalizing ds with
  | nil => rw [List.append_nil]; rfl
  | cons d ds' ih =>
    obtain ⟨hd, hds⟩ := List.forall_mem_cons.mp hds
    rw [List.map_cons, List.foldlM_cons, readDelivery_fields hd, Check.bind_eq, Except.bind, ih hds,
      List.append_assoc, List.singleton_append]

/-- What a subscriber records can be read back. -/
theorem Session.safe (s : Session o) : ∀ d ∈ s.final.deliveries, d.Safe := by
  intro d hd
  obtain ⟨n, -, hn⟩ := List.mem_filterMap.mp (s.reflects.sub d hd)
  obtain ⟨⟨hlt, -⟩, htime⟩ := recorded?_eq_some.mp hn
  exact ⟨hlt.le.trans (by decide), htime ▸ n.time.trans (by decide)⟩

theorem readSubscriber_log (s : Session o) {l : ScheduleOutageLedger} :
    (ledgerOf missedAtMs repeatedAtMs ds duplicates).readSubscriber s.log = .ok l ↔
      s.final.duplicates ≤ maxSafeInteger ∧ l = ledgerOf missedAtMs repeatedAtMs
        (ds ++ s.final.deliveries) (duplicates + s.final.duplicates) := by
  have hrequired : requiredEvent s.log "schedule_outage_subscriber_complete" =
      .ok (("event", .str "schedule_outage_subscriber_complete") :: s.completeFields) :=
    requiredEvent_append (isEvent_logLine.mpr rfl) (not_isEvent_otherLines (by decide) _)
  have hduplicates : ∀ {n}, numericValue (field (("event",
      .str "schedule_outage_subscriber_complete") :: s.completeFields) "duplicates")
        "Schedule outage duplicates" = .ok n ↔
          s.final.duplicates ≤ maxSafeInteger ∧ n = s.final.duplicates := numericValue_count
  have hdeliveries : field (("event", .str "schedule_outage_subscriber_complete") ::
      s.completeFields) "deliveries" =
        some (.arr (s.final.deliveries.map fun d => .obj d.fields)) := rfl
  rw [ScheduleOutageLedger.readSubscriber, hrequired, Check.bind_eq, Except.bind]
  simp only [hdeliveries, Check.bind_eq, Check.bind_eq_ok, hduplicates]
  constructor
  · rintro ⟨_, ⟨hsafe, rfl⟩, hread⟩
    exact ⟨hsafe, Except.ok.inj (hread.symm.trans (foldlM_readDelivery s.safe))⟩
  · rintro ⟨hsafe, rfl⟩
    exact ⟨_, ⟨hsafe, rfl⟩, foldlM_readDelivery s.safe⟩

theorem foldlM_readSubscriber {sessions : List (Session o)} {l : ScheduleOutageLedger} :
    (sessions.map Session.log).foldlM ScheduleOutageLedger.readSubscriber
      (ledgerOf missedAtMs repeatedAtMs ds duplicates) = .ok l ↔
        (∀ s ∈ sessions, s.final.duplicates ≤ maxSafeInteger) ∧
          l = ledgerOf missedAtMs repeatedAtMs (ds ++ sessions.flatMap fun s => s.final.deliveries)
            (duplicates + (sessions.map fun s => s.final.duplicates).sum) := by
  induction sessions generalizing ds duplicates with
  | nil => simp [eq_comm]
  | cons s sessions ih =>
    rw [List.map_cons, List.foldlM_cons, Check.bind_eq, Check.bind_eq_ok]
    simp only [readSubscriber_log]
    rw [List.forall_mem_cons, List.flatMap_cons, List.map_cons, List.sum_cons, ← List.append_assoc,
      ← Nat.add_assoc]
    constructor
    · rintro ⟨_, ⟨hsafe, rfl⟩, hrest⟩
      obtain ⟨hsafes, rfl⟩ := ih.mp hrest
      exact ⟨⟨hsafe, hsafes⟩, rfl⟩
    · rintro ⟨⟨hsafe, hsafes⟩, rfl⟩
      exact ⟨_, ⟨hsafe, rfl⟩, ih.mpr ⟨hsafes, rfl⟩⟩

theorem assertExactSequences_eq_ok {values : List ℕ} {operations : ℕ} {label : String} :
    assertExactSequences values operations label = .ok () ↔
      values.Perm (List.range operations) := by
  rw [assertExactSequences, Check.failIf_eq_ok, not_not]
  exact mergeSort_eq_range_iff

/-- **The checks of the host on a ledger.** -/
theorem assertScheduleOutage_eq_ok {l : ScheduleOutageLedger} {operations : ℕ} :
    assertScheduleOutage l operations = .ok () ↔
      (l.missedDeliveries = 0 ∧ l.duplicateDeliveries = 0) ∧
        l.repeatedSequences.Perm (List.range operations) ∧
          (l.raceSequences.Nodup ∧ ∀ s ∈ l.raceSequences, s < operations) ∧
            (l.cancellationAcknowledged ++ l.cancellationFailed).Perm (List.range operations) := by
  have houtcomes := List.mergeSort_perm (l.cancellationAcknowledged ++ l.cancellationFailed)
    (· ≤ ·)
  unfold assertScheduleOutage
  simp only [Check.bind_eq, Check.seq_eq_ok, Check.failIf_eq_ok, assertExactSequences_eq_ok,
    not_or, not_not, ne_eq]
  refine and_congr_right fun _ => and_congr_right fun _ => ?_
  cases hfind : findDuplicate [] l.raceSequences with
  | none =>
    rw [Check.seq_eq_ok]
    simp only [Check.forEach_eq_ok, Check.failIf_eq_ok, not_le, assertExactSequences_eq_ok,
      findDuplicate_nil.mp hfind, true_and]
    exact and_congr_right fun _ =>
      ⟨fun hperm => houtcomes.symm.trans hperm, fun hperm => houtcomes.trans hperm⟩
  | some s =>
    refine iff_of_false (by simp [Except.bind]) fun h => ?_
    rw [findDuplicate_nil.mpr h.1.1] at hfind
    cases hfind

end Ledger

/-! ### The verdict -/

/-- The notifications of a fleet, and the outcomes of the cancellations, are as they should be. -/
structure Exact (o : Options) (ns : List Notification) (repeatedAtMs : ℕ)
    (acknowledged failed : List ℕ) : Prop where
  genuine : ∀ n ∈ ns, ∃ kind sequence, Delivers o n kind sequence
  onTime : ∀ n ∈ ns, repeatedAtMs ≤ n.receivedAtMs
  repeated : ∀ s, (ns.countP fun n => Delivers o n .repeated s) = if s < o.operations then 1 else 0
  race : ∀ s, (ns.countP fun n => Delivers o n .race s) ≤ if s < o.operations then 1 else 0
  cancelled : (acknowledged ++ failed).Perm (List.range o.operations)

/-- The handler of the notification does not throw. -/
def Accepted (o : Options) (n : Notification) : Prop := (recorded? o n).isSome

instance (o : Options) : DecidablePred (Accepted o) :=
  fun n => inferInstanceAs (Decidable ((recorded? o n).isSome = true))

theorem isAccepted_iff {o : Options} {n : Notification} :
    Accepted o n ↔ ∃ kind, ∃ s < 10 ^ 8, Delivers o n kind s := by
  rw [Accepted, Option.isSome_iff_exists]
  constructor
  · rintro ⟨d, hd⟩
    obtain ⟨⟨hlt, hdelivers⟩, -⟩ := recorded?_eq_some.mp hd
    exact ⟨d.kind, d.sequence, hlt, hdelivers⟩
  · rintro ⟨kind, s, hlt, hdelivers⟩
    exact ⟨⟨kind, s, n.receivedAtMs⟩, recorded?_eq_some.mpr ⟨⟨hlt, hdelivers⟩, rfl⟩⟩

section Counts

variable {o : Options} {kind : ScheduleOutageKind} {sequence : ℕ}

theorem count_sequencesOf (ds : List Delivery) :
    (sequencesOf kind ds).count sequence = (ds.map Delivery.identity).count (kind, sequence) := by
  rw [sequencesOf, List.count, List.count, List.countP_map, List.countP_map, List.countP_filter]
  refine List.countP_congr fun d _ => ?_
  simp [Delivery.identity, and_comm]

/-- The accepted notifications that deliver a schedule are the ones recorded for it. -/
theorem count_recorded (ns : List Notification) :
    ((ns.filterMap (recorded? o)).map Delivery.identity).count (kind, sequence) =
      (ns.filter (Accepted o ·)).countP fun n => Delivers o n kind sequence := by
  induction ns with
  | nil => rfl
  | cons n ns ih =>
    cases hrecorded : recorded? o n with
    | none =>
      have hnot : ¬Accepted o n := by simp [Accepted, hrecorded]
      rw [List.filterMap_cons_none hrecorded, ih, List.filter_cons_of_neg (by simpa using hnot)]
    | some d =>
      have haccepted : Accepted o n := by simp [Accepted, hrecorded]
      have hdelivers := (recorded?_eq_some.mp hrecorded).1.2
      have hsame : Delivers o n kind sequence ↔ d.identity = (kind, sequence) := by
        rw [Delivery.identity, Prod.mk.injEq]
        exact ⟨fun h => delivers_inj hdelivers h, fun h => h.1 ▸ h.2 ▸ hdelivers⟩
      rw [List.filterMap_cons_some hrecorded, List.filter_cons_of_pos (by simpa using haccepted),
        List.map_cons, List.count_cons, List.countP_cons, ih]
      simp only [hsame, beq_iff_eq, decide_eq_true_eq]

theorem perm_range_iff {xs : List ℕ} {n : ℕ} :
    xs.Perm (List.range n) ↔ ∀ s, xs.count s = if s < n then 1 else 0 := by
  rw [List.perm_iff_count]
  refine forall_congr' fun s => ?_
  rw [List.nodup_range.count]
  simp only [List.mem_range]

theorem nodup_below_iff {xs : List ℕ} {n : ℕ} :
    (xs.Nodup ∧ ∀ s ∈ xs, s < n) ↔ ∀ s, xs.count s ≤ if s < n then 1 else 0 := by
  constructor
  · rintro ⟨hnodup, hbelow⟩ s
    split_ifs with hs
    · exact List.nodup_iff_count_le_one.mp hnodup s
    · exact (List.count_eq_zero_of_not_mem fun hmem => hs (hbelow s hmem)).le
  · intro hcount
    refine ⟨List.nodup_iff_count_le_one.mpr fun s => (hcount s).trans ?_, fun s hmem => ?_⟩
    · split_ifs <;> decide
    · by_contra hs
      have hzero := hcount s
      rw [if_neg hs, Nat.le_zero, List.count_eq_zero] at hzero
      exact hzero hmem

end Counts

section Verdict

variable {o : Options} {sessions : List (Session o)} {before after : List OtherLine}
  {acknowledged failed : List ℕ} {missedAtMs repeatedAtMs : ℕ}

/-- The notifications of a fleet. -/
def notifications (sessions : List (Session o)) : List Notification :=
  sessions.flatMap Session.notifications

theorem flatMap_all (sessions : List (Session o)) :
    sessions.flatMap Session.all = (notifications sessions).filterMap (recorded? o) := by
  rw [notifications, List.filterMap_flatMap]
  rfl

/-- The verdict reads the ledger of the deliveries that the subscribers recorded. -/
theorem passes_outageVerdict :
    Check.Passes (outageVerdict o sessions (cancellerLog before after acknowledged failed)
      missedAtMs repeatedAtMs) ↔
        (∀ s ∈ sessions, s.final.duplicates ≤ maxSafeInteger) ∧
          ((∀ x ∈ acknowledged, x ≤ maxSafeInteger) ∧ ∀ x ∈ failed, x ≤ maxSafeInteger) ∧
            assertScheduleOutage
              { ledgerOf missedAtMs repeatedAtMs (sessions.flatMap fun s => s.final.deliveries)
                  (sessions.map fun s => s.final.duplicates).sum with
                cancellationAcknowledged := acknowledged
                cancellationFailed := failed } o.operations = .ok () := by
  have hcancel : requiredEvent (cancellerLog before after acknowledged failed)
      "schedule_outage_race_cancel_complete" = .ok [("event",
        .str "schedule_outage_race_cancel_complete"),
          ("acknowledged", .arr (acknowledged.map .count)),
          ("failed", .arr (failed.map .count))] :=
    requiredEvent_append (isEvent_logLine.mpr rfl) (not_isEvent_otherLines (by decide) _)
  have hread := @foldlM_readSubscriber o missedAtMs repeatedAtMs [] 0 sessions
  rw [List.nil_append, Nat.zero_add] at hread
  have hstart : (⟨missedAtMs, repeatedAtMs, 0, [], [], 0, [], []⟩ : ScheduleOutageLedger) =
      ledgerOf missedAtMs repeatedAtMs [] 0 := rfl
  rw [outageVerdict, Check.passes_unit, Check.bind_eq, Check.bind_eq_ok, analyzeScheduleOutage,
    Check.bind_eq]
  simp only [Check.bind_eq_ok, hstart, hread]
  constructor
  · rintro ⟨_, ⟨_, ⟨hduplicates, rfl⟩, hrest⟩, hassert⟩
    simp only [onlyLog, hcancel, Check.bind_eq, Check.bind_eq_ok, Except.ok.injEq, exists_eq_left',
      Check.pure_eq] at hrest
    obtain ⟨_, hacknowledged, _, hfailed, rfl⟩ := hrest
    obtain ⟨hsafe, rfl⟩ := numericArray_eq_ok.mp hacknowledged
    obtain ⟨hsafe', rfl⟩ := numericArray_eq_ok.mp hfailed
    exact ⟨hduplicates, ⟨hsafe, hsafe'⟩, hassert⟩
  · rintro ⟨hduplicates, ⟨hsafe, hsafe'⟩, hassert⟩
    refine ⟨_, ⟨_, ⟨hduplicates, rfl⟩, ?_⟩, hassert⟩
    simp only [onlyLog, hcancel, Check.bind_eq, Check.bind_eq_ok, Except.ok.injEq, exists_eq_left',
      Check.pure_eq]
    exact ⟨_, numericArray_eq_ok.mpr ⟨hsafe, rfl⟩, _, numericArray_eq_ok.mpr ⟨hsafe', rfl⟩, rfl⟩

/-- The verdict accepts deliveries and cancellations that are exact, if no subscriber has counted a
duplicate. -/
theorem assertScheduleOutage_ledgerOf {ns : List Notification} :
    assertScheduleOutage
      { ledgerOf missedAtMs repeatedAtMs (ns.filterMap (recorded? o)) 0 with
        cancellationAcknowledged := acknowledged
        cancellationFailed := failed } o.operations = .ok () ↔
          Exact o (ns.filter (Accepted o ·)) repeatedAtMs acknowledged failed := by
  have honTime : (ns.filterMap (recorded? o)).countP (fun d => d.receivedAtMs < repeatedAtMs) = 0 ↔
      ∀ n ∈ ns.filter (Accepted o ·), repeatedAtMs ≤ n.receivedAtMs := by
    simp only [List.countP_eq_zero, decide_eq_true_eq, not_lt, List.mem_filterMap,
      List.mem_filter]
    constructor
    · rintro h n ⟨hn, haccepted⟩
      obtain ⟨d, hd⟩ := Option.isSome_iff_exists.mp haccepted
      exact (recorded?_eq_some.mp hd).2 ▸ h d ⟨n, hn, hd⟩
    · rintro h d ⟨n, hn, hd⟩
      rw [(recorded?_eq_some.mp hd).2]
      exact h n ⟨hn, Option.isSome_iff_exists.mpr ⟨d, hd⟩⟩
  have hgenuine : ∀ n ∈ ns.filter (Accepted o ·), ∃ kind s, Delivers o n kind s := by
    intro n hn
    obtain ⟨kind, s, -, hdelivers⟩ :=
      isAccepted_iff.mp (of_decide_eq_true (List.mem_filter.mp hn).2)
    exact ⟨kind, s, hdelivers⟩
  rw [assertScheduleOutage_eq_ok]
  simp only [ledgerOf, perm_range_iff, nodup_below_iff, honTime, count_sequencesOf, count_recorded,
    and_true]
  rw [← perm_range_iff]
  constructor
  · rintro ⟨htime, hrepeated, hrace, hcancelled⟩
    exact ⟨hgenuine, htime, hrepeated, hrace, hcancelled⟩
  · intro h
    exact ⟨h.onTime, h.repeated, h.race, h.cancelled⟩

/-- Of deliveries that are exact, no schedule has two. -/
theorem Exact.nodup {ns : List Notification}
    (h : Exact o (ns.filter (Accepted o ·)) repeatedAtMs acknowledged failed) :
    ((ns.filterMap (recorded? o)).map Delivery.identity).Nodup := by
  rw [List.nodup_iff_count_le_one]
  rintro ⟨kind, s⟩
  rw [count_recorded]
  have hone : (if s < o.operations then 1 else 0) ≤ 1 := by split_ifs <;> decide
  cases kind with
  | repeated => exact (h.repeated s).le.trans hone
  | race => exact (h.race s).trans hone

/-- **The outage verdict** accepts iff the cancellations and the notifications whose handlers do not
throw are as they should be. -/
theorem outageVerdict_iff (hops : o.operations ≤ 10 ^ 8) :
    Check.Passes (outageVerdict o sessions (cancellerLog before after acknowledged failed)
      missedAtMs repeatedAtMs) ↔
        Exact o ((notifications sessions).filter (Accepted o ·)) repeatedAtMs acknowledged
          failed := by
  rw [passes_outageVerdict]
  -- Without duplicates, every subscriber has recorded all of its deliveries.
  have hall : (∀ s ∈ sessions, s.final.duplicates = 0) →
      sessions.flatMap (fun s => s.final.deliveries) =
          (notifications sessions).filterMap (recorded? o) ∧
        (sessions.map fun s => s.final.duplicates).sum = 0 := by
    intro hzero
    refine ⟨?_, List.sum_eq_zero_iff_forall_eq_nat.mpr fun x hx => ?_⟩
    · rw [← flatMap_all]
      exact List.flatMap_congr fun s hs => s.reflects.complete (hzero s hs)
    · obtain ⟨s, hs, rfl⟩ := List.mem_map.mp hx
      exact hzero s hs
  constructor
  · rintro ⟨-, -, hassert⟩
    have hsum := (assertScheduleOutage_eq_ok.mp hassert).1.2
    have hzero : ∀ s ∈ sessions, s.final.duplicates = 0 := fun s hs =>
      List.sum_eq_zero_iff_forall_eq_nat.mp hsum _ (List.mem_map_of_mem hs)
    rw [(hall hzero).1, (hall hzero).2] at hassert
    exact assertScheduleOutage_ledgerOf.mp hassert
  · intro hexact
    have hzero : ∀ s ∈ sessions, s.final.duplicates = 0 := by
      intro s hs
      by_contra hne
      refine s.reflects.duplicated hne (hexact.nodup.sublist ?_)
      rw [← flatMap_all]
      exact (List.sublist_flatten_of_mem (List.mem_map_of_mem hs)).map _
    have hsafe : ∀ x ∈ acknowledged ++ failed, x ≤ maxSafeInteger := fun x hx =>
      (List.mem_range.mp (hexact.cancelled.mem_iff.mp hx)).le.trans (hops.trans (by decide))
    refine ⟨fun s hs => (hzero s hs).le.trans (Nat.zero_le _),
      List.forall_mem_append.mp hsafe, ?_⟩
    rw [(hall hzero).1, (hall hzero).2]
    exact assertScheduleOutage_ledgerOf.mpr hexact

/-- Deliveries that are exact are the ones whose handlers do not throw. -/
theorem Exact.accepted (hops : o.operations ≤ 10 ^ 8) {ns : List Notification}
    (h : Exact o ns repeatedAtMs acknowledged failed) {n : Notification} (hn : n ∈ ns) :
    Accepted o n := by
  obtain ⟨kind, s, hdelivers⟩ := h.genuine n hn
  have hpos : 0 < ns.countP fun n => Delivers o n kind s :=
    List.countP_pos_iff.mpr ⟨n, hn, decide_eq_true hdelivers⟩
  have hle : (ns.countP fun n => Delivers o n kind s) ≤ if s < o.operations then 1 else 0 := by
    cases kind with
    | repeated => exact (h.repeated s).le
    | race => exact h.race s
  have hs : s < o.operations := by
    by_contra hs
    rw [if_neg hs] at hle
    omega
  exact isAccepted_iff.mpr ⟨kind, s, hs.trans_le hops, hdelivers⟩

/-- **The outage verdict is exact** iff a notification whose handler throws does not come with
notifications that are exact without it. -/
theorem outageVerdict_exact_iff (hops : o.operations ≤ 10 ^ 8) :
    (Check.Passes (outageVerdict o sessions (cancellerLog before after acknowledged failed)
      missedAtMs repeatedAtMs) ↔
        Exact o (notifications sessions) repeatedAtMs acknowledged failed) ↔
      (Exact o ((notifications sessions).filter (Accepted o ·)) repeatedAtMs acknowledged failed →
        ∀ n ∈ notifications sessions, Accepted o n) := by
  have hfilter : (∀ n ∈ notifications sessions, Accepted o n) →
      (notifications sessions).filter (Accepted o ·) = notifications sessions := fun hall =>
    List.filter_eq_self.mpr fun n hn => decide_eq_true (hall n hn)
  rw [outageVerdict_iff hops]
  constructor
  · intro h hrecorded n hn
    exact (h.mp hrecorded).accepted hops hn
  · intro h
    constructor
    · intro hrecorded
      rw [hfilter (h hrecorded)] at hrecorded
      exact hrecorded
    · intro hexact
      rw [hfilter fun n hn => hexact.accepted hops hn]
      exact hexact

end Verdict

/-- Every cancellation has one outcome. -/
theorem raceCancel_perm (operations : ℕ) (cancels : ℕ → Bool) :
    ((raceCancel operations cancels).1 ++ (raceCancel operations cancels).2).Perm
      (List.range operations) := by
  have hfold : ∀ sequences acknowledged failed : List ℕ,
      sequences.foldl (raceCancelOne cancels) (acknowledged, failed) =
        (acknowledged ++ sequences.filter cancels, failed ++ sequences.filter (!cancels ·)) := by
    intro sequences
    induction sequences with
    | nil => simp
    | cons sequence sequences ih =>
      intro acknowledged failed
      rw [List.foldl_cons]
      cases hcancels : cancels sequence <;> simp [raceCancelOne, hcancels, ih]
  rw [raceCancel, hfold]
  exact List.filter_append_perm cancels _

/-! ### One schedule of each kind -/

def sampleOptions : Options := ⟨"run", 1, 1, 32, 0⟩

/-- The notification of a schedule. -/
def sampleNotification (kind : ScheduleOutageKind) (sequence : ℕ) : Notification :=
  ⟨route "run" kind sequence, payload sampleOptions kind sequence, 100, by decide⟩

/-- A subscriber that receives the repeated schedule. -/
def sampleSession : Session sampleOptions :=
  ⟨"subscriber", [], [.notification (sampleNotification .repeated 0)], [], by decide +kernel⟩

/-- The notification of the race schedule, with an empty payload. -/
def corrupted : Notification := { sampleNotification .race 0 with payload := [] }

/-- The same, with a corrupted notification. -/
def corruptedSession : Session sampleOptions :=
  ⟨"subscriber", [], [.notification (sampleNotification .repeated 0), .notification corrupted], [],
    by decide +kernel⟩

theorem delivers_sampleNotification {kind kind' : ScheduleOutageKind} {s t : ℕ} :
    Delivers sampleOptions (sampleNotification kind s) kind' t ↔ kind = kind' ∧ s = t := by
  constructor
  · exact fun h => delivers_inj ⟨rfl, rfl⟩ h
  · rintro ⟨rfl, rfl⟩
    exact ⟨rfl, rfl⟩

theorem exact_sample : Exact sampleOptions [sampleNotification .repeated 0] 100 [0] [] where
  genuine n hn := by
    rw [List.mem_singleton.mp hn]
    exact ⟨_, _, rfl, rfl⟩
  onTime n hn := by
    rw [List.mem_singleton.mp hn]
    exact le_rfl
  repeated s := by
    have hs : 0 = s ↔ s < sampleOptions.operations := by
      rw [show sampleOptions.operations = 1 from rfl]
      omega
    simp only [List.countP_singleton, delivers_sampleNotification, hs, true_and, decide_eq_true_eq]
  race s := by
    simp [delivers_sampleNotification]
  cancelled := List.Perm.refl [0]

theorem accepted_sampleNotification (kind : ScheduleOutageKind) :
    Accepted sampleOptions (sampleNotification kind 0) :=
  isAccepted_iff.mpr ⟨kind, 0, by decide, rfl, rfl⟩

theorem outageVerdict_sample : Check.Passes
    (outageVerdict sampleOptions [sampleSession] (cancellerLog [] [] [0] []) 0 100) := by
  refine ((outageVerdict_exact_iff (by decide)).mpr fun _ n hn => ?_).mpr exact_sample
  rw [List.mem_singleton.mp hn]
  exact accepted_sampleNotification _

theorem not_accepted_corrupted : ¬Accepted sampleOptions corrupted := by
  decide +kernel

/-- The verdict accepts a fleet whose race notification is corrupted. -/
theorem not_outageVerdict_corrupted : ¬(Check.Passes (outageVerdict sampleOptions
    [corruptedSession] (cancellerLog [] [] [0] []) 0 100) ↔
      Exact sampleOptions (notifications [corruptedSession]) 100 [0] []) := by
  have hnotifications : notifications [corruptedSession] =
      [sampleNotification .repeated 0, corrupted] := rfl
  have hfilter : (notifications [corruptedSession]).filter (Accepted sampleOptions ·) =
      [sampleNotification .repeated 0] := by
    simp [hnotifications, accepted_sampleNotification, not_accepted_corrupted]
  intro h
  have hpasses : Check.Passes (outageVerdict sampleOptions [corruptedSession]
      (cancellerLog [] [] [0] []) 0 100) := by
    rw [outageVerdict_iff (by decide), hfilter]
    exact exact_sample
  exact not_accepted_corrupted ((h.mp hpasses).accepted (by decide) (by simp [hnotifications]))

end Outage

end Schedule

end FitzDestroyer
