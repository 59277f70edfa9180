import FitzDestroyer.Schedule.Delivery

/-!
# What the host reads from the log of a subscriber

The variables of a subscriber are those of the schedules it received: each is counted once, and
has one record.  The tally of the host is the same for every log with the same schedules and
client events.

* `identities` : the schedules that the events of a subscriber deliver;
* `Reflects` : the variables of a subscriber in terms of them, with `reflects_foldl`;
* `tallyLog_eq_ok` : the tally of the host after the log of a subscriber.
-/

namespace FitzDestroyer

namespace Schedule

open Js Workload

/-! ### What a subscriber logs -/

section Subscriber

variable {o : Options} {workerId : String}

/-- The schedule a notification delivers. -/
def identity? (o : Options) (n : Notification) : Option (DeliveryKind × ℕ) :=
  (checkNotification o n).toOption.map Prod.fst

/-- The schedules that events deliver, in order. -/
def identities (o : Options) (es : List SubscriberEvent) : List (DeliveryKind × ℕ) :=
  (es.filterMap SubscriberEvent.notification?).filterMap (identity? o)

theorem identity?_eq_some {n : Notification} {id : DeliveryKind × ℕ} :
    identity? o n = some id ↔ Delivers o n id.1 id.2 := by
  unfold identity?
  rcases h : checkNotification o n with error | ⟨id', latenessMs⟩
  · simp only [Except.toOption, Option.map_none, reduceCtorEq, false_iff]
    intro hd
    have hok := checkNotification_eq_ok.mpr ⟨hd, rfl⟩
    rw [h] at hok
    cases hok
  · simp only [Except.toOption, Option.map_some, Option.some.injEq]
    have hd := (checkNotification_eq_ok.mp h).1
    constructor
    · rintro rfl
      exact hd
    · intro hd'
      have hok := checkNotification_eq_ok.mpr ⟨hd', rfl⟩
      rw [h] at hok
      exact (Prod.mk.inj (Except.ok.inj hok)).1

theorem key_injective : Function.Injective Subscriber.key := by
  rintro ⟨kind, n⟩ ⟨kind', n'⟩ h
  have hlist : kind.name.toList ++ ':' :: Nat.toDigits 10 n =
      kind'.name.toList ++ ':' :: Nat.toDigits 10 n' := by
    simpa [Subscriber.key, toString, Nat.toList_repr] using congrArg String.toList h
  have hdigits : kind = kind' ∧ Nat.toDigits 10 n = Nat.toDigits 10 n' := by
    -- The names of two kinds differ in their first letters.
    cases kind <;> cases kind' <;> simp [DeliveryKind.name] at hlist <;> exact ⟨rfl, hlist⟩
  have hn := congrArg (fun cs => Nat.ofDigitChars 10 cs 0) hdigits.2
  simp only [Nat.ofDigitChars_ten_toDigits] at hn
  rw [hdigits.1, hn]

end Subscriber

/-- A tally after the records of one worker: the schedules it received, and its client events. -/
def Tally.after (t : Tally) (workerId : String) (ids : List (DeliveryKind × ℕ))
    (clients : List String) : Tally :=
  { t with
    broadcastWorkers := fun sequence =>
      if (.broadcast, sequence) ∈ ids then insert workerId (t.broadcastWorkers sequence)
      else t.broadcastWorkers sequence
    singleCounts := fun sequence => t.singleCounts sequence + ids.count (.single, sequence)
    clientEventCounts := clients.foldl Dict.bump t.clientEventCounts
    clientHandlerSaturations := (clients.filter (· = handlerSaturated)).foldl
      (fun d _ => d.bump workerId) t.clientHandlerSaturations }

section Records

variable {t : Tally} {workerId : String} {ids : List (DeliveryKind × ℕ)} {clients : List String}

@[simp] theorem after_nil : t.after workerId [] [] = t := by
  simp [Tally.after]

theorem after_client (name : String) :
    (t.after workerId ids clients).onClientEvent workerId name =
      t.after workerId ids (clients ++ [name]) := by
  by_cases h : name = handlerSaturated <;>
    simp [Tally.after, Tally.onClientEvent, List.filter_append, h]

theorem after_broadcast (sequence : ℕ) :
    (t.after workerId ids clients).onBroadcast workerId sequence =
      t.after workerId (ids ++ [(.broadcast, sequence)]) clients := by
  have hworkers : ((t.after workerId ids clients).onBroadcast workerId sequence).broadcastWorkers =
      (t.after workerId (ids ++ [(.broadcast, sequence)]) clients).broadcastWorkers := by
    funext sequence'
    by_cases hs : sequence' = sequence
    · subst hs
      by_cases hmem : (DeliveryKind.broadcast, sequence') ∈ ids <;>
        simp [Tally.after, Tally.onBroadcast, hmem]
    · simp [Tally.after, Tally.onBroadcast, hs]
  simp only [Tally.after, Tally.onBroadcast, Tally.mk.injEq, true_and] at hworkers ⊢
  refine ⟨hworkers, ?_, trivial⟩
  funext sequence'
  simp

theorem after_single (sequence : ℕ) :
    (t.after workerId ids clients).onSingle sequence =
      t.after workerId (ids ++ [(.single, sequence)]) clients := by
  simp only [Tally.after, Tally.onSingle, Tally.mk.injEq, true_and]
  refine ⟨?_, ?_, trivial⟩
  · funext sequence'
    simp
  · funext sequence'
    by_cases hs : sequence' = sequence
    · subst hs
      simp [Nat.add_assoc]
    · simp [Function.update_of_ne hs, Ne.symm hs]

theorem after_cancelled (sequence : ℕ) :
    t.after workerId ids clients =
      t.after workerId (ids ++ [(.cancelled, sequence)]) clients := by
  simp [Tally.after]

/-- The record of a delivery. -/
theorem tallyRecord_received {o : Options} {n : Notification} {id : DeliveryKind × ℕ}
    {latenessMs : ℤ} (h : Delivers o n id.1 id.2) :
    tallyRecord o.operations workerId (t.after workerId ids clients)
        (("event", .str "schedule_notification_received") ::
          Subscriber.receivedFields o workerId n id latenessMs) =
      .ok (t.after workerId (ids ++ [id]) clients) := by
  have hsafe : id.2 ≤ maxSafeInteger := by
    have := h.digits
    simp only [maxSafeInteger]
    omega
  have hsequence : numericValue (field (("event", .str "schedule_notification_received") ::
      Subscriber.receivedFields o workerId n id latenessMs) "sequence")
      "schedule notification sequence" = .ok id.2 :=
    numericValue_count.mpr ⟨hsafe, rfl⟩
  have hkind : (field (("event", .str "schedule_notification_received") ::
      Subscriber.receivedFields o workerId n id latenessMs) "kind").bind Json.text? =
        some id.1.name := rfl
  unfold tallyRecord
  rw [if_neg (by simp [isEvent_logLine]), if_neg (by simp [isEvent_logLine]), hsequence, hkind]
  have hrange : Check.failIf (o.operations ≤ id.2) (newError
      s!"Schedule notification sequence {id.2} exceeds {(o.operations : ℤ) - 1}") = .ok () :=
    Check.failIf_eq_ok.mpr (not_le.mpr h.range)
  simp only [Check.bind_eq, Except.bind, hrange]
  obtain ⟨kind, sequence⟩ := id
  dsimp only
  cases kind with
  | broadcast => rw [if_pos (by decide), after_broadcast]
  | single => rw [if_neg (by decide), if_pos (by decide), after_single]
  | cancelled =>
    rw [if_neg (by decide), if_neg (by decide), if_pos (by decide), ← after_cancelled]

/-- A record that is neither a delivery nor a client event. -/
theorem tallyRecord_other {firesPerMode : ℕ} {record : Record}
    (hclient : ¬IsEvent record "fitz_client_event")
    (hreceived : ¬IsEvent record "schedule_notification_received") :
    tallyRecord firesPerMode workerId t record = .ok t := by
  unfold tallyRecord
  rw [if_neg hclient, if_pos hreceived]

/-- A line of the client. -/
theorem tally_line {firesPerMode : ℕ} (line : OtherLine) :
    (parseJsonRecords [line.line]).foldlM (tallyRecord firesPerMode workerId)
        (t.after workerId ids clients) =
      .ok (t.after workerId ids (clients ++ line.clientEvent?.toList)) := by
  cases line with
  | clientEvent level name fields =>
    have hrecord : tallyRecord firesPerMode workerId (t.after workerId ids clients)
        (("event", .str "fitz_client_event") :: [("level", .str level),
          ("clientEvent", .str name), ("fields", fields)]) =
        .ok ((t.after workerId ids clients).onClientEvent workerId name) := by
      unfold tallyRecord
      rw [if_pos (isEvent_logLine.mpr rfl)]
      rfl
    simp [parseJsonRecords, OtherLine.line, logLine, LogLine.record?, OtherLine.clientEvent?,
      hrecord, after_client]
  | noise text =>
    rw [OtherLine.clientEvent?, Option.toList_none, List.append_nil]
    rfl

/-- The records of a log, after those of another. -/
theorem tally_append {firesPerMode : ℕ} {t' : Tally} {log log' : Log}
    (h : (parseJsonRecords log).foldlM (tallyRecord firesPerMode workerId) t = .ok t') :
    (parseJsonRecords (log ++ log')).foldlM (tallyRecord firesPerMode workerId) t =
      (parseJsonRecords log').foldlM (tallyRecord firesPerMode workerId) t' := by
  rw [parseJsonRecords, List.filterMap_append, List.foldlM_append]
  change ((parseJsonRecords log).foldlM _ t >>= fun t' => (parseJsonRecords log').foldlM _ t') = _
  rw [h]
  rfl

/-- The lines of the client. -/
theorem tally_lines {firesPerMode : ℕ} (lines : List OtherLine) :
    (parseJsonRecords (lines.map OtherLine.line)).foldlM (tallyRecord firesPerMode workerId)
        (t.after workerId ids clients) =
      .ok (t.after workerId ids (clients ++ lines.filterMap OtherLine.clientEvent?)) := by
  induction lines generalizing clients with
  | nil => simp [parseJsonRecords]
  | cons line lines ih =>
    have happend : (line :: lines).map OtherLine.line = [line.line] ++ lines.map OtherLine.line :=
      rfl
    rw [happend, tally_append (tally_line line), ih]
    rcases hc : line.clientEvent? with _ | name <;> simp [hc]

end Records

/-! ### What a subscriber counts -/

section Counts

variable {o : Options} {workerId : String} {before : List OtherLine}

/-- The variables of a subscriber after its events, in terms of the schedules they delivered. -/
structure Reflects (o : Options) (workerId : String) (before : List OtherLine)
    (es : List SubscriberEvent) (s : Subscriber) : Prop where
  seen : s.seen = (identities o es).toFinset.image Subscriber.key
  counts : ∀ kind, s.counts kind = ((identities o es).toFinset.filter (·.1 = kind)).card
  duplicates : s.duplicates + (identities o es).toFinset.card = (identities o es).length
  invalid : s.invalid + (identities o es).length =
    (es.filterMap SubscriberEvent.notification?).length
  lateness : s.maxLatenessMs ≤ 1000
  log : ∀ t : Tally, (parseJsonRecords s.log).foldlM (tallyRecord o.operations workerId) t =
    .ok (t.after workerId (identities o es)
      (before.filterMap OtherLine.clientEvent? ++ es.filterMap SubscriberEvent.clientEvent?))

theorem reflects_start : Reflects o workerId before [] (.start o workerId before) := by
  refine ⟨by simp [Subscriber.start, identities], by simp [Subscriber.start, identities],
    by simp [Subscriber.start, identities], by simp [Subscriber.start, identities],
    Nat.zero_le _, fun t => ?_⟩
  have hlines : (parseJsonRecords (before.map OtherLine.line)).foldlM
      (tallyRecord o.operations workerId) (t.after workerId [] []) =
        .ok (t.after workerId [] ([] ++ before.filterMap OtherLine.clientEvent?)) :=
    tally_lines before
  rw [after_nil] at hlines
  rw [Subscriber.start, tally_append hlines]
  simp [parseJsonRecords, logLine, LogLine.record?, identities,
    tallyRecord_other (isEvent_logLine.not.mpr (by decide : "schedule_subscriber_ready" ≠
      "fitz_client_event")) (isEvent_logLine.not.mpr (by decide : "schedule_subscriber_ready" ≠
      "schedule_notification_received"))]

theorem identities_append_of_none {es : List SubscriberEvent} {e : SubscriberEvent}
    (h : e.notification?.bind (identity? o) = none) :
    identities o (es ++ [e]) = identities o es := by
  rcases hn : e.notification? with _ | n
  · simp [identities, List.filterMap_append, hn]
  · rw [hn] at h
    simp [identities, List.filterMap_append, hn, show identity? o n = none from h]

/-- An event that is not a notification changes neither the counters nor the schedules. -/
theorem Reflects.of_not_notification {es : List SubscriberEvent} {e : SubscriberEvent}
    {s s' : Subscriber} (h : Reflects o workerId before es s) (he : e.notification? = none)
    (hseen : s'.seen = s.seen) (hcounts : s'.counts = s.counts)
    (hduplicates : s'.duplicates = s.duplicates) (hinvalid : s'.invalid = s.invalid)
    (hlateness : s'.maxLatenessMs = s.maxLatenessMs)
    (hlog : ∀ t : Tally, (parseJsonRecords s'.log).foldlM (tallyRecord o.operations workerId) t =
      .ok (t.after workerId (identities o es) (before.filterMap OtherLine.clientEvent? ++
        (es ++ [e]).filterMap SubscriberEvent.clientEvent?))) :
    Reflects o workerId before (es ++ [e]) s' := by
  have hids : identities o (es ++ [e]) = identities o es :=
    identities_append_of_none (by rw [he]; rfl)
  refine ⟨?_, ?_, ?_, ?_, ?_, ?_⟩
  · rw [hids, hseen, h.seen]
  · rw [hids, hcounts]
    exact h.counts
  · rw [hids, hduplicates]
    exact h.duplicates
  · rw [hids, hinvalid, List.filterMap_append]
    simpa [he] using h.invalid
  · rw [hlateness]
    exact h.lateness
  · rw [hids]
    exact hlog

/-- A notification that is not valid. -/
theorem Reflects.invalidNotification {es : List SubscriberEvent} {s : Subscriber}
    {n : Notification} {error : Thrown} (h : Reflects o workerId before es s)
    (hcheck : checkNotification o n = .error error) :
    Reflects o workerId before (es ++ [.notification n]) (s.onNotification o workerId n) := by
  have hid : identity? o n = none := by simp [identity?, hcheck, Except.toOption]
  have hids : identities o (es ++ [.notification n]) = identities o es :=
    identities_append_of_none hid
  unfold Subscriber.onNotification
  rw [hcheck]
  refine ⟨?_, ?_, ?_, ?_, h.lateness, fun t => ?_⟩
  · rw [hids]
    exact h.seen
  · rw [hids]
    exact h.counts
  · rw [hids]
    exact h.duplicates
  · have hinvalid := h.invalid
    simp only [hids, List.filterMap_append, List.length_append]
    simp only [Subscriber.finishHandler, Subscriber.print, Subscriber.startHandler,
      List.filterMap_cons, SubscriberEvent.notification?, List.filterMap_nil, List.length_cons,
      List.length_nil]
    omega
  · rw [hids, List.filterMap_append, List.filterMap_cons_none rfl, List.filterMap_nil,
      List.append_nil]
    refine (tally_append (h.log t)).trans ?_
    simp [parseJsonRecords, logLine, LogLine.record?,
      tallyRecord_other (isEvent_logLine.not.mpr (by decide : "schedule_notification_invalid" ≠
        "fitz_client_event")) (isEvent_logLine.not.mpr (by decide :
        "schedule_notification_invalid" ≠ "schedule_notification_received"))]

/-- A schedule is counted once. -/
theorem Subscriber.count_spec {ids : List (DeliveryKind × ℕ)} {s : Subscriber}
    (hseen : s.seen = ids.toFinset.image key)
    (hcounts : ∀ kind, s.counts kind = (ids.toFinset.filter (·.1 = kind)).card)
    (hduplicates : s.duplicates + ids.toFinset.card = ids.length) (id : DeliveryKind × ℕ) :
    (s.count id).seen = (ids ++ [id]).toFinset.image key ∧
      (∀ kind, (s.count id).counts kind =
        ((ids ++ [id]).toFinset.filter (·.1 = kind)).card) ∧
      (s.count id).duplicates + (ids ++ [id]).toFinset.card = (ids ++ [id]).length := by
  have hfin : (ids ++ [id]).toFinset = insert id ids.toFinset := by
    ext x
    simp
  have hkey : key id ∈ s.seen ↔ id ∈ ids := by
    rw [hseen, key_injective.mem_finset_image, List.mem_toFinset]
  rw [hfin]
  by_cases hmem : id ∈ ids
  · -- The schedule has been seen.
    have hcount : s.count id = { s with duplicates := s.duplicates + 1 } := if_pos (hkey.mpr hmem)
    rw [hcount, Finset.insert_eq_of_mem (List.mem_toFinset.mpr hmem)]
    refine ⟨hseen, hcounts, ?_⟩
    simp only [List.length_append, List.length_singleton]
    omega
  · have hcount : s.count id = { s with
        seen := insert (key id) s.seen
        counts := Function.update s.counts id.1 (s.counts id.1 + 1) } :=
      if_neg fun h => hmem (hkey.mp h)
    have hmem' : id ∉ ids.toFinset := fun h => hmem (List.mem_toFinset.mp h)
    rw [hcount]
    refine ⟨by rw [hseen, Finset.image_insert], fun kind => ?_, ?_⟩
    · by_cases hk : kind = id.1
      · subst hk
        rw [Finset.filter_insert, if_pos rfl, Finset.card_insert_of_notMem
          fun h => hmem' (Finset.mem_of_mem_filter _ h)]
        simp [hcounts]
      · rw [Finset.filter_insert, if_neg (Ne.symm hk)]
        simpa [Function.update_of_ne hk] using hcounts kind
    · simp only [List.length_append, List.length_singleton]
      rw [Finset.card_insert_of_notMem hmem']
      omega

/-- A notification that delivers a schedule. -/
theorem Reflects.validNotification {es : List SubscriberEvent} {s : Subscriber}
    {n : Notification} {id : DeliveryKind × ℕ} {latenessMs : ℤ}
    (h : Reflects o workerId before es s) (hcheck : checkNotification o n = .ok (id, latenessMs)) :
    Reflects o workerId before (es ++ [.notification n]) (s.onNotification o workerId n) := by
  obtain ⟨hdelivers, hlate⟩ := checkNotification_eq_ok.mp hcheck
  have hids : identities o (es ++ [.notification n]) = identities o es ++ [id] := by
    simp [identities, SubscriberEvent.notification?, identity?, hcheck, Except.toOption]
  obtain ⟨hseen, hcounts, hduplicates⟩ := Subscriber.count_spec h.seen h.counts h.duplicates id
  -- The counters of the handler are those of `count`, whether the handler waits or not.
  obtain ⟨active, maxActive, hs⟩ : ∃ active maxActive, s.onNotification o workerId n =
      { s.count id with
        activeHandlers := active
        maxActiveHandlers := maxActive
        maxLatenessMs := max s.maxLatenessMs latenessMs.toNat
        log := s.log ++ [logLine "schedule_notification_received"
          (Subscriber.receivedFields o workerId n id latenessMs)] } := by
    unfold Subscriber.onNotification
    rw [hcheck]
    by_cases hmem : Subscriber.key id ∈ s.seen <;> by_cases hdelay : 0 < o.handlerDelayMs <;>
      simp only [Subscriber.count, Subscriber.startHandler, Subscriber.print,
        Subscriber.finishHandler, hmem, hdelay, if_true, if_false] <;>
      exact ⟨_, _, rfl⟩
  rw [hs]
  refine ⟨?_, ?_, ?_, ?_, ?_, fun t => ?_⟩
  · rw [hids]
    exact hseen
  · rw [hids]
    exact hcounts
  · rw [hids]
    exact hduplicates
  · have hinvalid : (s.count id).invalid = s.invalid := by
      unfold Subscriber.count
      split_ifs <;> rfl
    have := h.invalid
    simp only [hids, hinvalid, List.filterMap_append, List.length_append, List.filterMap_cons,
      SubscriberEvent.notification?, List.filterMap_nil, List.length_cons, List.length_nil]
    omega
  · have hbound := hdelivers.lateness
    rw [← hlate] at hbound
    have := h.lateness
    simp only [deliveryToleranceMs] at hbound
    simp only [sup_le_iff]
    omega
  · rw [hids, List.filterMap_append, List.filterMap_cons_none rfl, List.filterMap_nil,
      List.append_nil]
    refine (tally_append (h.log t)).trans ?_
    simp [parseJsonRecords, logLine, LogLine.record?, tallyRecord_received hdelivers]

/-- The variables of a subscriber reflect the schedules its events delivered. -/
theorem reflects_foldl (es : List SubscriberEvent) : Reflects o workerId before es
    (es.foldl (Subscriber.onEvent o workerId) (.start o workerId before)) := by
  induction es using List.reverseRecOn with
  | nil => exact reflects_start
  | append_singleton es e ih =>
    rw [List.foldl_append, List.foldl_cons, List.foldl_nil]
    cases e with
    | notification n =>
      rcases hcheck : checkNotification o n with error | ⟨id, latenessMs⟩
      · exact ih.invalidNotification hcheck
      · exact ih.validNotification hcheck
    | handlerDone =>
      refine ih.of_not_notification rfl rfl rfl rfl rfl rfl fun t => ?_
      rw [List.filterMap_append, List.filterMap_cons_none rfl, List.filterMap_nil, List.append_nil]
      exact ih.log t
    | other line =>
      refine ih.of_not_notification rfl rfl rfl rfl rfl rfl fun t => ?_
      refine (tally_append (ih.log t)).trans ((tally_line line).trans ?_)
      rw [List.filterMap_append, List.append_assoc]
      rcases hc : line.clientEvent? with _ | name <;> simp [SubscriberEvent.clientEvent?, hc]

end Counts

/-! ### The log of a subscriber -/

section SessionLog

variable {o : Options} {workerId : String} (s : Session o workerId)

/-- The counters a subscriber logs when it completes. -/
def Session.counters : ScheduleDeliverySummary :=
  ⟨s.subscriber.counts .broadcast, s.subscriber.counts .single, s.subscriber.counts .cancelled,
    s.subscriber.duplicates, s.subscriber.invalid, s.subscriber.maxLatenessMs⟩

/-- The counters are safe integers. -/
def ScheduleDeliverySummary.Safe (c : ScheduleDeliverySummary) : Prop :=
  c.broadcastDeliveries ≤ maxSafeInteger ∧ c.singleDeliveries ≤ maxSafeInteger ∧
    c.cancelledDeliveries ≤ maxSafeInteger ∧ c.duplicates ≤ maxSafeInteger ∧
    c.invalid ≤ maxSafeInteger ∧ c.maxLatenessMs ≤ maxSafeInteger

/-- The tally after the log of a subscriber. -/
def Tally.addSession (t : Tally) : Tally :=
  (t.addComplete workerId s.counters).after workerId (identities o s.events) s.clientEvents

theorem reflects_subscriber : Reflects o workerId s.before s.events s.subscriber :=
  reflects_foldl s.events

theorem requiredEvent_log : requiredEvent s.log "schedule_subscriber_complete" =
    .ok (("event", .str "schedule_subscriber_complete") ::
      s.subscriber.completeFields workerId s.elapsedMs) := by
  exact requiredEvent_append (isEvent_logLine.mpr rfl) (not_isEvent_otherLines (by decide) _)

theorem tally_sessionLog (t : Tally) :
    (parseJsonRecords s.log).foldlM (tallyRecord o.operations workerId) t =
      .ok (t.after workerId (identities o s.events) s.clientEvents) := by
  have hcomplete : ∀ t : Tally, (parseJsonRecords [logLine "schedule_subscriber_complete"
      (s.subscriber.completeFields workerId s.elapsedMs)]).foldlM
        (tallyRecord o.operations workerId) t = .ok t := by
    intro t
    simp [parseJsonRecords, logLine, LogLine.record?,
      tallyRecord_other (isEvent_logLine.not.mpr (by decide : "schedule_subscriber_complete" ≠
        "fitz_client_event")) (isEvent_logLine.not.mpr (by decide :
        "schedule_subscriber_complete" ≠ "schedule_notification_received"))]
  refine (tally_append ((reflects_subscriber s).log t)).trans ?_
  exact (tally_append (hcomplete _)).trans (tally_lines s.after)

/-- The log of a subscriber is read iff its counters are safe integers. -/
theorem tallyLog_eq_ok {t t' : Tally} :
    tallyLog o.operations t (workerId, s.log) = .ok t' ↔
      s.counters.Safe ∧ t' = t.addSession s := by
  let complete := ("event", Json.str "schedule_subscriber_complete") ::
    s.subscriber.completeFields workerId s.elapsedMs
  have hbroadcast : field complete "broadcast" = some (.count s.counters.broadcastDeliveries) := rfl
  have hsingle : field complete "single" = some (.count s.counters.singleDeliveries) := rfl
  have hcancelled : field complete "cancelled" = some (.count s.counters.cancelledDeliveries) := rfl
  have hduplicates : field complete "duplicates" = some (.count s.counters.duplicates) := rfl
  have hinvalid : field complete "invalid" = some (.count s.counters.invalid) := rfl
  have hlateness : field complete "maxLatenessMs" = some (.count s.counters.maxLatenessMs) := rfl
  unfold tallyLog
  rw [requiredEvent_log]
  change (_ : Except Thrown Record).bind _ = _ ↔ _
  rw [Except.bind]
  simp only [Check.bind_eq, Check.bind_eq_ok]
  constructor
  · rintro ⟨b, hb, si, hsi, c, hc, d, hd, i, hi, l, hl, h⟩
    obtain ⟨hb', rfl⟩ := (numericField_eq_ok hbroadcast).mp hb
    obtain ⟨hsi', rfl⟩ := (numericField_eq_ok hsingle).mp hsi
    obtain ⟨hc', rfl⟩ := (numericField_eq_ok hcancelled).mp hc
    obtain ⟨hd', rfl⟩ := (numericField_eq_ok hduplicates).mp hd
    obtain ⟨hi', rfl⟩ := (numericField_eq_ok hinvalid).mp hi
    obtain ⟨hl', rfl⟩ := (numericField_eq_ok hlateness).mp hl
    rw [tally_sessionLog] at h
    exact ⟨⟨hb', hsi', hc', hd', hi', hl'⟩, (Except.ok.inj h).symm⟩
  · rintro ⟨⟨hb, hsi, hc, hd, hi, hl⟩, rfl⟩
    refine ⟨_, (numericField_eq_ok hbroadcast).mpr ⟨hb, rfl⟩, _,
      (numericField_eq_ok hsingle).mpr ⟨hsi, rfl⟩, _,
      (numericField_eq_ok hcancelled).mpr ⟨hc, rfl⟩, _,
      (numericField_eq_ok hduplicates).mpr ⟨hd, rfl⟩, _,
      (numericField_eq_ok hinvalid).mpr ⟨hi, rfl⟩, _,
      (numericField_eq_ok hlateness).mpr ⟨hl, rfl⟩, tally_sessionLog s _⟩

end SessionLog

end Schedule

end FitzDestroyer
