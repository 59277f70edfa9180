import FitzDestroyer.Reliability.Saturation

/-!
# Progress while others are cleaned up

The host reads the logs of all saturators twice, at any times: a log may end in the middle of a
line, and the saturators go on between the readings.

* `Container` : a container that runs a saturator, with what it prints;
* `Readings` : two readings of its log;
* `saturationProgressDelta_eq` : **the delta of a domain is the number of its operations that are
  fulfilled between the last progress lines of the readings**;
* `assertControlLaneCleanupUnderSaturation_passes` : what a ledger that passes says of the lanes.
-/

namespace FitzDestroyer

namespace Reliability

namespace Saturation

open Js Workload Pressure Check

/-! ### Containers -/

/-- A container that runs a saturator. -/
structure Container where
  workerId : String
  lanesPerDomain : ℕ
  /-- What is printed until the saturator is ready. -/
  started : List Output
  events : List Event
  final : Saturator
  run : saturateNormalLanes.run (init lanesPerDomain) events = some final
  valid_started : ∀ o ∈ started, o.Valid
  quiet_started : progressRecords started = []
  elapsed_le : ∀ timestamp elapsedMs, .complete timestamp elapsedMs ∈ events →
    elapsedMs ≤ maxSafeInteger

namespace Container

variable (c : Container)

def outputs : List Output := c.started ++ printed c.workerId (init c.lanesPerDomain) c.events

/-- The log, as it is read when so many characters have been written. -/
def reading (n : ℕ) : String := String.ofList ((text c.outputs).take n)

/-- The length of the log up to the lines of a part of the run. -/
def lengthUpto (es : List Event) : ℕ :=
  EventSys.size Output.width c.started +
    EventSys.size Output.width (printed c.workerId (init c.lanesPerDomain) es)

/-- The part of the run that the reading shows. -/
def seen (n : ℕ) : List Event :=
  saturateNormalLanes.cutRun (emit c.workerId) Output.width
    (n - EventSys.size Output.width c.started) (init c.lanesPerDomain) c.events

/-- The part up to the last progress line of the reading. -/
def told (n : ℕ) : List Event := uptoProgress (c.seen n)

end Container

/-- Two readings of the log of a container.  The host has waited for a progress line. -/
structure Readings where
  container : Container
  first : ℕ
  second : ℕ
  le : first ≤ second
  progress : container.told first ≠ []

namespace Readings

variable (r : Readings)

def before : String := r.container.reading r.first

def after : String := r.container.reading r.second

/-- The events between the last progress lines of the readings. -/
def between : List Event :=
  (r.container.told r.second).drop (r.container.told r.first).length

end Readings

/-! ### One reading -/

theorem uptoProgress_mono {es es' : List Event} (h : es <+: es') :
    uptoProgress es <+: uptoProgress es' := by
  obtain ⟨rest, rfl⟩ := h
  unfold uptoProgress List.rdropWhile
  rw [List.reverse_append, List.dropWhile_append]
  split_ifs
  · exact List.prefix_refl _
  · rw [List.reverse_append, List.reverse_reverse]
    exact (List.rdropWhile_prefix (fun e : Event => !e.isProgress) es).trans
      (List.prefix_append _ _)

theorem uptoProgress_prefix_self (es : List Event) : uptoProgress es <+: es :=
  List.rdropWhile_prefix _ _

namespace Container

variable (c : Container)

theorem seen_prefix (n : ℕ) : c.seen n <+: c.events := EventSys.cutRun_prefix c.run _

theorem told_mono {n m : ℕ} (h : n ≤ m) : c.told n <+: c.told m :=
  uptoProgress_mono (EventSys.cutRun_mono c.run (Nat.sub_le_sub_right h _))

theorem told_prefix_events (n : ℕ) : c.told n <+: c.events :=
  (uptoProgress_prefix_self _).trans (c.seen_prefix n)

/-- The state after a part of the run. -/
theorem run_prefix {es : List Event} (h : es <+: c.events) :
    ∃ s, saturateNormalLanes.run (init c.lanesPerDomain) es = some s := by
  obtain ⟨rest, hrest⟩ := h
  have hrun := c.run
  rw [← hrest] at hrun
  obtain ⟨s, hs, -⟩ := EventSys.run_append_eq_some.mp hrun
  exact ⟨s, hs⟩

variable {c}

/-- A progress line that has been printed is told. -/
theorem told_ne_nil {es rest : List Event} {e : Event} (h : c.events = es ++ [e] ++ rest)
    (he : e.isProgress = true) {n : ℕ} (hn : c.lengthUpto (es ++ [e]) ≤ n) : c.told n ≠ [] := by
  have hrun := c.run
  rw [h] at hrun
  obtain ⟨t, ht, -⟩ := EventSys.run_append_eq_some.mp hrun
  have hseen : es ++ [e] <+: c.seen n := by
    rw [seen, h]
    exact EventSys.prefix_cutRun ht rest (by rw [lengthUpto, printed] at hn; omega)
  have hupto : uptoProgress (es ++ [e]) = es ++ [e] :=
    List.rdropWhile_concat_neg _ _ _ (by simp [he])
  have hmono := uptoProgress_mono hseen
  rw [hupto] at hmono
  intro hnil
  rw [told] at hnil
  rw [hnil] at hmono
  exact absurd (List.prefix_nil.mp hmono) (by simp)

/-- Counters do not leave the safe integers. -/
theorem totals_le (hsafe : c.events.length ≤ maxSafeInteger) {es : List Event} {s : Saturator}
    (h : es <+: c.events) (hs : saturateNormalLanes.run (init c.lanesPerDomain) es = some s)
    (domain : Domain) : (s.totals domain).success ≤ maxSafeInteger ∧
      (s.totals domain).error ≤ maxSafeInteger := by
  have hsuccess := success_run hs domain
  have herror := error_run hs domain
  have hle := fulfilledIn_le_length domain es
  have hlength := h.length_le
  rw [show (init c.lanesPerDomain).totals domain = ⟨0, 0⟩ from rfl] at hsuccess herror
  dsimp only at hsuccess herror
  constructor <;> omega

theorem valid_printed (hsafe : c.events.length ≤ maxSafeInteger) :
    ∀ o ∈ printed c.workerId (init c.lanesPerDomain) c.events, o.Valid ∧ 0 < o.width := by
  -- Every output is printed after a part of the run.
  have hall : ∀ (es es' : List Event) (s : Saturator), es ++ es' = c.events →
      saturateNormalLanes.run (init c.lanesPerDomain) es = some s →
      ∀ o ∈ printed c.workerId s es', o.Valid ∧ 0 < o.width := by
    intro es es'
    induction es' generalizing es with
    | nil => exact fun s _ _ o ho => absurd ho List.not_mem_nil
    | cons e es' ih =>
      intro s hes hs o ho
      have hprefix : es ++ [e] <+: c.events := ⟨es', by simpa using hes⟩
      obtain ⟨t, ht⟩ := c.run_prefix hprefix
      obtain ⟨s', hs', hstep⟩ := EventSys.run_append_eq_some.mp ht
      obtain rfl : s = s' := Option.some.inj (hs.symm.trans hs')
      obtain ⟨t', hst, ht'⟩ := EventSys.run_cons_eq_some.mp hstep
      obtain rfl := Option.some.inj ht'
      rw [printed, EventSys.emissions_cons hst, List.mem_append, Option.mem_toList] at ho
      rcases ho with ho | ho
      · refine ⟨valid_emit (totals_le hsafe ⟨_, hes⟩ hs) ?_ ho, width_emit ho⟩
        rintro timestamp elapsedMs rfl
        exact c.elapsed_le timestamp elapsedMs (hes ▸ by simp)
      · exact ih (es ++ [e]) t' (by simpa using hes) ht o ho
  exact hall [] c.events _ rfl rfl

/-- **What a reading tells** are the totals at its last progress line. -/
theorem exists_told (hsafe : c.events.length ≤ maxSafeInteger) {n : ℕ} (hne : c.told n ≠ []) :
    ∃ s record, saturateNormalLanes.run (init c.lanesPerDomain) (c.told n) = some s ∧
      ((Text.parseJsonRecords (c.reading n)).filter fun record =>
        IsEvent record progressEvent).getLast? = some record ∧
      field record "totals" = some (countersJson s.totals) := by
  obtain ⟨u, hu⟩ := c.run_prefix (c.seen_prefix n)
  have hvalid : ∀ o ∈ c.outputs, o.Valid := fun o ho =>
    (List.mem_append.mp ho).elim (c.valid_started o) fun h => (valid_printed hsafe o h).1
  obtain ⟨s, record, hs, hlast, hfield⟩ := getLast?_progressRecords c.workerId hu hne
  refine ⟨s, record, hs, ?_, hfield⟩
  have hstarted : progressRecords (EventSys.cut Output.width n c.started) = [] := by
    rw [List.eq_nil_iff_forall_not_mem]
    intro record hrecord
    obtain ⟨hrecord, hevent⟩ := List.mem_filter.mp hrecord
    obtain ⟨o, ho, hrecord⟩ := List.mem_filterMap.mp hrecord
    have hmem : record ∈ progressRecords c.started := List.mem_filter.mpr
      ⟨List.mem_filterMap.mpr ⟨o, (EventSys.cut_prefix _ _).mem ho, hrecord⟩, hevent⟩
    rw [c.quiet_started] at hmem
    exact absurd hmem List.not_mem_nil
  have hrecords : (Text.parseJsonRecords (c.reading n)).filter (fun record =>
      IsEvent record progressEvent) =
      progressRecords (printed c.workerId (init c.lanesPerDomain) (c.seen n)) := by
    rw [Text.parseJsonRecords, reading, String.toList_ofList, recordsOf_take hvalid, outputs,
      EventSys.cut_append _ fun o ho => (valid_printed hsafe o ho).2, EventSys.cut_emissions c.run]
    show progressRecords (_ ++ _) = _
    rw [progressRecords_append, hstarted]
    rfl
  rw [hrecords]
  exact hlast

end Container

/-! ### The host -/

section Host

variable {k : Domain → ℕ} {counters : Counters}

/-- The totals of some domains are added. -/
theorem foldlM_addTotal (hsafe : ∀ domain, k domain + (counters domain).success ≤ maxSafeInteger)
    {domains : List Domain} (hdomains : domains.Nodup) :
    domains.foldlM (addTotal (allDomains.map fun d => (d.name, (counters d).toJson)))
      (fun d => (k d : Number)) = .ok fun d =>
        if d ∈ domains then ((k d + (counters d).success : ℕ) : Number) else (k d : Number) := by
  induction domains using List.reverseRecOn with
  | nil => simp
  | append_singleton domains domain ih =>
    rw [List.nodup_append] at hdomains
    have hnot : domain ∉ domains := fun hmem => hdomains.2.2 domain hmem domain (by simp) rfl
    have hread : Durability.recordField (allDomains.map fun d => (d.name, (counters d).toJson))
        domain.name = .ok [("success", .count (counters domain).success),
          ("error", .count (counters domain).error)] := by
      rw [Durability.recordField, field_domains, if_pos (mem_allDomains domain)]
      rfl
    have hsuccess : numericField [("success", .count (counters domain).success),
        ("error", .count (counters domain).error)] "success" = .ok (counters domain).success := by
      rw [numericField_eq_ok (n := (counters domain).success) rfl]
      exact ⟨(Nat.le_add_left _ _).trans (hsafe domain), rfl⟩
    rw [List.foldlM_append, ih hdomains.1]
    simp only [bind_eq, Except.bind, List.foldlM_cons, List.foldlM_nil, addTotal, hread, hsuccess,
      if_neg hnot, pure_eq, Number.add_natCast (hsafe domain)]
    congr 1
    funext d
    by_cases hd : d = domain
    · subst hd
      simp
    · simp [hd]

/-- One log. -/
theorem addLog_eq {log : String} {record : Record}
    (hsafe : ∀ domain, k domain + (counters domain).success ≤ maxSafeInteger)
    (hlast : ((Text.parseJsonRecords log).filter fun record =>
      IsEvent record progressEvent).getLast? = some record)
    (htotals : field record "totals" = some (countersJson counters)) :
    addLog (fun d => (k d : Number)) log =
      .ok fun d => ((k d + (counters d).success : ℕ) : Number) := by
  have hread : Durability.recordField record "totals" =
      .ok (allDomains.map fun d => (d.name, (counters d).toJson)) := by
    rw [Durability.recordField, htotals]
    rfl
  rw [addLog, hlast]
  simp only [bind_eq, hread, Except.bind]
  rw [foldlM_addTotal hsafe (by decide)]
  simp only [mem_allDomains, if_true]

end Host

/-- The operations of a domain that readings tell. -/
def toldIn (domain : Domain) (parts : List (List Event)) : ℕ :=
  (parts.map (fulfilledIn domain)).sum

/-- **All logs.** -/
theorem aggregate_eq (readings : List (Container × ℕ))
    (hne : ∀ p ∈ readings, p.1.told p.2 ≠ [])
    (hsafe : (readings.map fun p => p.1.events.length).sum ≤ maxSafeInteger) :
    aggregateLatestSaturationTotals (readings.map fun p => p.1.reading p.2) =
      .ok fun domain => (toldIn domain (readings.map fun p => p.1.told p.2) : Number) := by
  unfold aggregateLatestSaturationTotals
  induction readings using List.reverseRecOn with
  | nil => rfl
  | append_singleton readings p ih =>
    rw [List.map_append, List.sum_append, List.map_singleton, List.sum_singleton] at hsafe
    have hlength : p.1.events.length ≤ maxSafeInteger := (Nat.le_add_left _ _).trans hsafe
    obtain ⟨s, record, hs, hlast, htotals⟩ :=
      Container.exists_told hlength (hne p (by simp))
    have hsuccess : ∀ domain, (s.totals domain).success = fulfilledIn domain (p.1.told p.2) :=
      fun domain => (success_run hs domain).trans (Nat.zero_add _)
    have hsum : ∀ domain, toldIn domain (readings.map fun p => p.1.told p.2) ≤
        (readings.map fun p => p.1.events.length).sum := by
      intro domain
      rw [toldIn, List.map_map]
      refine List.sum_le_sum fun q _ => ?_
      exact (fulfilledIn_le_length _ _).trans (q.1.told_prefix_events q.2).length_le
    rw [List.map_append, List.foldlM_append,
      ih (fun q hq => hne q (List.mem_append_left _ hq)) ((Nat.le_add_right _ _).trans hsafe)]
    simp only [bind_eq, Except.bind, List.map_singleton, List.foldlM_cons, List.foldlM_nil, pure_eq]
    rw [addLog_eq (fun domain => ?_) hlast htotals]
    · refine congrArg Except.ok (funext fun domain => ?_)
      simp [toldIn, hsuccess]
    · rw [hsuccess]
      have hle := (fulfilledIn_le_length domain _).trans (p.1.told_prefix_events p.2).length_le
      have := hsum domain
      omega

theorem foldlM_laneDelta {a b : Domain → ℕ} (hle : ∀ domain, a domain ≤ b domain)
    (hsafe : ∀ domain, b domain ≤ maxSafeInteger) (domains : List Domain)
    (deltas : List (Domain × Number)) :
    domains.foldlM (laneDelta (fun d => (a d : Number)) fun d => (b d : Number)) deltas =
      .ok (deltas ++ domains.map fun d => (d, ((b d - a d : ℕ) : Number))) := by
  induction domains generalizing deltas with
  | nil => simp
  | cons domain domains ih =>
    have hsub : ((b domain : Number)).sub (a domain : Number) =
        ((b domain - a domain : ℕ) : Number) := by
      rw [← Number.round_natCast ((Nat.sub_le _ _).trans (hsafe domain)),
        Nat.cast_sub (hle domain), sub_eq_add_neg]
      rfl
    have hnonneg : ((b domain - a domain : ℕ) : Number).isNegative = false := by
      simp [Number.isNegative]
    rw [List.foldlM_cons, laneDelta, hsub, hnonneg]
    simp only [bind_eq, Check.failIf, Bool.false_eq_true, if_false, Except.bind, pure_eq, ih]
    simp

/-- **The delta of a domain** is the number of its operations that are fulfilled between the last
progress lines of the readings, however the saturators run and whenever their logs are read. -/
theorem saturationProgressDelta_eq {readings : List Readings}
    (hsafe : (readings.map fun r => r.container.events.length).sum ≤ maxSafeInteger) :
    saturationProgressDelta (readings.map Readings.before) (readings.map Readings.after) =
      .ok (allDomains.map fun domain =>
        (domain, (toldIn domain (readings.map Readings.between) : Number))) := by
  have htold : ∀ (domain : Domain) (r : Readings),
      fulfilledIn domain (r.container.told r.second) =
        fulfilledIn domain (r.container.told r.first) + fulfilledIn domain r.between := by
    intro domain r
    obtain ⟨rest, hrest⟩ := r.container.told_mono r.le
    rw [Readings.between, ← hrest, List.drop_left, fulfilledIn_append]
  have hsum : ∀ domain, toldIn domain (readings.map fun r => r.container.told r.second) =
      toldIn domain (readings.map fun r => r.container.told r.first) +
        toldIn domain (readings.map Readings.between) := by
    intro domain
    simp only [toldIn, List.map_map, Function.comp_def, htold, List.sum_map_add]
  have hbefore := aggregate_eq (readings.map fun r => (r.container, r.first))
    (by simpa using fun r _ => r.progress) (by simpa [Function.comp_def] using hsafe)
  have hafter := aggregate_eq (readings.map fun r => (r.container, r.second))
    (by
      simp only [List.mem_map, forall_exists_index, and_imp, forall_apply_eq_imp_iff₂]
      intro r _ hnil
      have hmono := r.container.told_mono r.le
      rw [hnil] at hmono
      exact r.progress (List.prefix_nil.mp hmono))
    (by simpa [Function.comp_def] using hsafe)
  have hle : ∀ domain, toldIn domain (readings.map fun r => r.container.told r.second) ≤
      maxSafeInteger := by
    intro domain
    refine le_trans ?_ hsafe
    rw [toldIn, List.map_map]
    refine List.sum_le_sum fun r _ => ?_
    exact (fulfilledIn_le_length _ _).trans (r.container.told_prefix_events r.second).length_le
  simp only [List.map_map, Function.comp_def] at hbefore hafter
  unfold saturationProgressDelta
  simp only [bind_eq]
  rw [show readings.map Readings.before =
      readings.map fun r => r.container.reading r.first from rfl,
    show readings.map Readings.after =
      readings.map fun r => r.container.reading r.second from rfl, hbefore, hafter]
  simp only [Except.bind]
  rw [foldlM_laneDelta (fun domain => by rw [hsum]; exact Nat.le_add_right _ _) hle]
  simp only [hsum, Nat.add_sub_cancel_left, List.nil_append]

/-! ### The verdict -/

/-- `RELIABILITY_RPC_PROBE_CALLS`. -/
def rpcProbeCallsPerTarget : ℕ := 4

structure ControlLaneCleanupLedger where
  targets : ℕ
  cleanupCompletedWhileSaturated : Bool
  cleanupPending : ℤ
  noticeSubscriptionsDelta : ℤ
  rpcWorkersDelta : ℤ
  scheduleSubscriptionsDelta : ℤ
  queueRedelivered : ℤ
  kvUncommittedValues : ℤ
  streamUncommittedRecords : ℤ
  leaseHeld : ℤ
  leasePendingWaiters : ℤ
  rpcProbeCalls : ℤ
  rpcProbeFailures : ℤ
  saturationProgress : List (Domain × Number)
  canaryDomains : List Domain
  canaryOperationsPerDomain : ℕ

def assertField (name : String) (actual expected : ℤ) : Except Thrown Unit :=
  Check.failIf (actual ≠ expected)
    (newError s!"Control-lane cleanup {name}={actual}/{expected}")

namespace ControlLaneCleanupLedger

variable (ledger : ControlLaneCleanupLedger)

/-- The fields that are compared, with what is expected. -/
def expectations : List (String × ℤ × ℤ) :=
  [("cleanupPending", ledger.cleanupPending, 0),
    ("noticeSubscriptionsDelta", ledger.noticeSubscriptionsDelta, 0),
    ("rpcWorkersDelta", ledger.rpcWorkersDelta, 0),
    ("scheduleSubscriptionsDelta", ledger.scheduleSubscriptionsDelta, 0),
    ("queueRedelivered", ledger.queueRedelivered, ledger.targets),
    ("kvUncommittedValues", ledger.kvUncommittedValues, 0),
    ("streamUncommittedRecords", ledger.streamUncommittedRecords, 0),
    ("leaseHeld", ledger.leaseHeld, 0),
    ("leasePendingWaiters", ledger.leasePendingWaiters, 0),
    ("rpcProbeCalls", ledger.rpcProbeCalls, ledger.targets * rpcProbeCallsPerTarget),
    ("rpcProbeFailures", ledger.rpcProbeFailures, 0)]

/-- `ledger.saturationProgress[domain]`. -/
def progressOf (domain : Domain) : Number :=
  ((ledger.saturationProgress.find? fun p => p.1 = domain).map Prod.snd).getD .nan

def assertControlLaneCleanupUnderSaturation : Except Thrown Unit := do
  Check.failIf (ledger.cleanupCompletedWhileSaturated = false)
    (newError "Session cleanup did not complete while normal-lane saturation was active")
  Check.forEach ledger.expectations fun p => assertField p.1 p.2.1 p.2.2
  Check.forEach allDomains fun domain => do
    Check.failIf ((ledger.progressOf domain).le (0 : ℕ) = true)
      (newError s!"Normal {domain.name} lane made no progress across the cleanup cut")
    Check.failIf (domain ∉ ledger.canaryDomains)
      (newError s!"Sibling canary omitted {domain.name}")
  Check.failIf (ledger.canaryOperationsPerDomain ≤ 0)
    (newError "Sibling canary made no domain progress")

/-- Everything that the ledger tells besides the progress of the lanes. -/
structure Clean : Prop where
  completed : ledger.cleanupCompletedWhileSaturated = true
  expected : ∀ p ∈ ledger.expectations, p.2.1 = p.2.2
  canaryDomains : ∀ domain, domain ∈ ledger.canaryDomains
  canaryOperations : 0 < ledger.canaryOperationsPerDomain

end ControlLaneCleanupLedger

/-- An operation of the domain is fulfilled. -/
theorem exists_settle {domain : Domain} {es : List Event} :
    0 < fulfilledIn domain es ↔ ∃ lane, Event.settle domain lane true ∈ es := by
  rw [fulfilledIn, List.countP_pos_iff]
  constructor
  · rintro ⟨e, he, hfulfilled⟩
    cases e with
    | settle d lane fulfilled =>
      simp only [Bool.and_eq_true, decide_eq_true_eq] at hfulfilled
      obtain ⟨rfl, rfl⟩ := hfulfilled
      exact ⟨lane, he⟩
    | _ => cases hfulfilled
  · rintro ⟨lane, he⟩
    exact ⟨_, he, by simp⟩

/-- **The verdict passes iff the sessions are cleaned up, and every domain has an operation that is
fulfilled between the last progress lines of the two readings of some saturator.** -/
theorem assertControlLaneCleanupUnderSaturation_passes {readings : List Readings}
    {ledger : ControlLaneCleanupLedger}
    (hsafe : (readings.map fun r => r.container.events.length).sum ≤ maxSafeInteger)
    (hprogress : saturationProgressDelta (readings.map Readings.before)
      (readings.map Readings.after) = .ok ledger.saturationProgress) :
    ledger.assertControlLaneCleanupUnderSaturation = .ok () ↔
      ledger.Clean ∧ ∀ domain, ∃ r ∈ readings, ∃ lane, .settle domain lane true ∈ r.between := by
  rw [saturationProgressDelta_eq hsafe] at hprogress
  have hof : ∀ domain, ledger.progressOf domain =
      (toldIn domain (readings.map Readings.between) : Number) := by
    intro domain
    rw [ControlLaneCleanupLedger.progressOf, ← Except.ok.inj hprogress]
    cases domain <;> rfl
  have hpositive : ∀ domain, (ledger.progressOf domain).le (0 : ℕ) = false ↔
      ∃ r ∈ readings, ∃ lane, .settle domain lane true ∈ r.between := by
    intro domain
    have hle : ((toldIn domain (readings.map Readings.between) : Number)).le (0 : ℕ) = false ↔
        0 < toldIn domain (readings.map Readings.between) := by
      simp [Number.le]
    rw [hof, hle, toldIn, List.map_map, Nat.pos_iff_ne_zero, Ne, List.sum_eq_zero_iff]
    simp only [List.mem_map, Function.comp_apply, forall_exists_index, and_imp,
      forall_apply_eq_imp_iff₂, not_forall, ← exists_settle, Nat.pos_iff_ne_zero, exists_prop]
  unfold ControlLaneCleanupLedger.assertControlLaneCleanupUnderSaturation assertField
  simp only [bind_eq, Check.seq_eq_ok, failIf_eq_ok, forEach_eq_ok, not_not, Bool.not_eq_false,
    Bool.not_eq_true, not_le, hpositive]
  constructor
  · rintro ⟨hcompleted, hexpected, hdomains, hoperations⟩
    exact ⟨⟨hcompleted, hexpected, fun domain => (hdomains domain (mem_allDomains domain)).2,
      hoperations⟩, fun domain => (hdomains domain (mem_allDomains domain)).1⟩
  · rintro ⟨hclean, hlanes⟩
    exact ⟨hclean.completed, hclean.expected, fun domain _ =>
      ⟨hlanes domain, hclean.canaryDomains domain⟩, hclean.canaryOperations⟩

/-- A saturator with a lane for each domain; the queue alone makes progress. -/
def queueEvents : List Event :=
  [.tick "00:00", .settle .queue 0 true, .wake .queue 0, .tick "00:01", .abort]

def queueFinal : Saturator where
  totals := countSuccess emptyCounters .queue
  lanes := Function.update (fun _ => [.operating]) .queue [.operating]
  aborted := true
  phase := .looping

theorem run_queueEvents : saturateNormalLanes.run (init 1) queueEvents = some queueFinal := by
  simp [queueEvents, saturateNormalLanes, Saturator.step, EventSys.run, init, queueFinal,
    Saturator.setLane]

theorem started_valid : ∀ o ∈ [Output.noise "> npm start"], o.Valid := by
  simp only [List.mem_singleton, forall_eq]
  exact Output.valid_noise (by decide) (by decide)

theorem started_quiet : progressRecords [Output.noise "> npm start"] = [] := rfl

theorem queueEvents_elapsed : ∀ timestamp elapsedMs, .complete timestamp elapsedMs ∈ queueEvents →
    elapsedMs ≤ maxSafeInteger := by simp [queueEvents]

def queueSaturator : Container where
  workerId := "worker-1"
  lanesPerDomain := 1
  started := [.noise "> npm start"]
  events := queueEvents
  final := queueFinal
  run := run_queueEvents
  valid_started := started_valid
  quiet_started := started_quiet
  elapsed_le := queueEvents_elapsed

/-- The length of the log up to its first progress line. -/
def queueFirst : ℕ := queueSaturator.lengthUpto [.tick "00:00"]

theorem queue_progress : queueSaturator.told queueFirst ≠ [] :=
  @Container.told_ne_nil queueSaturator [] _ (.tick "00:00") rfl rfl _ le_rfl

/-- The log up to its first progress line, and five hundred characters later. -/
def queueReadings : Readings where
  container := queueSaturator
  first := queueFirst
  second := queueFirst + 500
  le := Nat.le_add_right _ _
  progress := queue_progress

def queueLedger : ControlLaneCleanupLedger where
  targets := 1
  cleanupCompletedWhileSaturated := true
  cleanupPending := 0
  noticeSubscriptionsDelta := 0
  rpcWorkersDelta := 0
  scheduleSubscriptionsDelta := 0
  queueRedelivered := 1
  kvUncommittedValues := 0
  streamUncommittedRecords := 0
  leaseHeld := 0
  leasePendingWaiters := 0
  rpcProbeCalls := 4
  rpcProbeFailures := 0
  saturationProgress := allDomains.map fun domain =>
    (domain, (toldIn domain ([queueReadings].map Readings.between) : Number))
  canaryDomains := allDomains
  canaryOperationsPerDomain := 1

theorem queue_safe :
    ([queueReadings].map fun r => r.container.events.length).sum ≤ maxSafeInteger := by
  decide

/-- The verdict of a run in which only the lane of the queue makes progress. -/
theorem assertControlLaneCleanupUnderSaturation_queue :
    queueLedger.assertControlLaneCleanupUnderSaturation = .ok () ↔
      queueLedger.Clean ∧
        ∀ domain, ∃ r ∈ [queueReadings], ∃ lane, .settle domain lane true ∈ r.between :=
  assertControlLaneCleanupUnderSaturation_passes queue_safe (saturationProgressDelta_eq queue_safe)

end Saturation

end Reliability

end FitzDestroyer
