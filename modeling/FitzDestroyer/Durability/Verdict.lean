import FitzDestroyer.Durability.CrashCut

/-!
# What the verdict on a crash cut decides

* `Known`, `Once`, `Seen` : what the verifier finds of the writes in each domain;
* `crashCutVerdict_iff` : the verdict accepts iff what it finds is right;
* `Holds`, `Twice`, `Survived` : what a state holds of the writes;
* `durability_exact` : the verdict on the logs is exact, and when the one on the state is.
-/

namespace FitzDestroyer

namespace Durability

open Js Workload Recovery Schedule

/-! ### The logs of the writers -/

@[simp] theorem durableDomain_name (domain : DurableDomain) :
    durableDomain (some (.str domain.name)) = some domain := by
  cases domain <;> rfl

section Lines

variable {action : DurabilityAction} {sequence x : ℕ} {domain : DurableDomain}

/-- The sequences that a line records as started. -/
theorem recorded_started (hsafe : sequence ≤ maxSafeInteger) (line : WriterLine) :
    (line.line action sequence).record?.bind (recorded "durability_operation_started" domain) =
      some x ↔ line = .started domain ∧ x = sequence := by
  have hcount : Json.sequence? (.count sequence) = some sequence :=
    Number.sequence?_natCast hsafe
  cases line with
  | started domain' =>
    simp [WriterLine.line, logLine, LogLine.record?, recorded, field, IsEvent, Json.text?, hcount,
      eq_comm]
  | dispatched =>
    simp [WriterLine.line, logLine, LogLine.record?, recorded, field, durableDomain]
  | settled domain' outcome =>
    cases outcome <;>
      simp [WriterLine.line, logLine, LogLine.record?, recorded, field, IsEvent, Json.text?]
  | complete outcomes =>
    simp [WriterLine.line, logLine, LogLine.record?, recorded, field, durableDomain]
  | other line =>
    cases line <;> simp [WriterLine.line, OtherLine.line, logLine, LogLine.record?, recorded, field,
      durableDomain]

/-- The sequences that a line records as acknowledged. -/
theorem recorded_acknowledged (hsafe : sequence ≤ maxSafeInteger) (line : WriterLine) :
    (line.line action sequence).record?.bind
      (recorded "durability_operation_acknowledged" domain) = some x ↔
        line = .settled domain .acknowledged ∧ x = sequence := by
  have hcount : Json.sequence? (.count sequence) = some sequence :=
    Number.sequence?_natCast hsafe
  cases line with
  | started domain' =>
    simp [WriterLine.line, logLine, LogLine.record?, recorded, field, IsEvent, Json.text?]
  | dispatched =>
    simp [WriterLine.line, logLine, LogLine.record?, recorded, field, durableDomain]
  | settled domain' outcome =>
    cases outcome <;>
      simp [WriterLine.line, logLine, LogLine.record?, recorded, field, IsEvent, Json.text?, hcount,
        eq_comm]
  | complete outcomes =>
    simp [WriterLine.line, logLine, LogLine.record?, recorded, field, durableDomain]
  | other line =>
    cases line <;> simp [WriterLine.line, OtherLine.line, logLine, LogLine.record?, recorded, field,
      durableDomain]

/-- A line that has a durable domain has a sequence. -/
theorem wellFormed_line (hsafe : sequence ≤ maxSafeInteger) (line : WriterLine) {record : Record}
    (h : (line.line action sequence).record? = some record)
    (hdomain : (durableDomain (field record "domain")).isSome) :
    ((field record "sequence").bind Json.sequence?).isSome := by
  have hcount : Json.sequence? (.count sequence) = some sequence :=
    Number.sequence?_natCast hsafe
  cases line with
  | started domain' =>
    obtain rfl := Option.some.inj h
    simp [field, hcount]
  | dispatched =>
    obtain rfl := Option.some.inj h
    simp [field, hcount]
  | settled domain' outcome =>
    cases outcome <;> obtain rfl := Option.some.inj h <;> simp [field, hcount]
  | complete outcomes =>
    obtain rfl := Option.some.inj h
    simp [field, hcount]
  | other line =>
    cases line with
    | clientEvent level name fields =>
      obtain rfl := Option.some.inj h
      simp [field, durableDomain] at hdomain
    | noise text => cases h

end Lines

/-- What is waiting has not been started, and the rest has. -/
theorem Writer.run_started {lines : List WriterLine} {s s' : WriterState}
    (h : lines.foldlM WriterState.step s = some s')
    (hdispatched : s.dispatched = true → s.waiting = []) :
    (s'.dispatched = true → s'.waiting = []) ∧
      ∀ domain ∈ s.waiting, domain ∈ s'.waiting ∨ .started domain ∈ lines := by
  induction lines generalizing s with
  | nil =>
    obtain rfl := Option.some.inj h
    exact ⟨hdispatched, fun domain hdomain => .inl hdomain⟩
  | cons line lines ih =>
    rw [List.foldlM_cons, Option.bind_eq_bind, Option.bind_eq_some_iff] at h
    obtain ⟨s₁, hstep, hrest⟩ := h
    -- A line starts the first domain that waits, or leaves what waits as it is.
    have hline : (s₁.dispatched = true → s₁.waiting = []) ∧
        ∀ domain ∈ s.waiting, domain ∈ s₁.waiting ∨ line = .started domain := by
      cases line with
      | started domain' =>
        simp only [WriterState.step] at hstep
        split at hstep
        · cases hstep
        · rename_i first waiting hwaiting
          split_ifs at hstep with hfirst
          obtain rfl := Option.some.inj hstep
          refine ⟨fun hd => absurd (hdispatched hd) (by simp [hwaiting]), fun domain hdomain => ?_⟩
          rw [hwaiting] at hdomain
          rcases List.mem_cons.mp hdomain with rfl | hdomain
          · exact .inr (hfirst ▸ rfl)
          · exact .inl hdomain
      | dispatched =>
        simp only [WriterState.step] at hstep
        split_ifs at hstep with hready
        obtain rfl := Option.some.inj hstep
        exact ⟨fun _ => hready.1, fun domain hdomain => .inl hdomain⟩
      | settled domain' outcome =>
        simp only [WriterState.step] at hstep
        split_ifs at hstep
        obtain rfl := Option.some.inj hstep
        exact ⟨hdispatched, fun domain hdomain => .inl hdomain⟩
      | complete outcomes =>
        simp only [WriterState.step] at hstep
        split_ifs at hstep
        obtain rfl := Option.some.inj hstep
        exact ⟨hdispatched, fun domain hdomain => .inl hdomain⟩
      | other line =>
        obtain rfl := Option.some.inj hstep
        exact ⟨hdispatched, fun domain hdomain => .inl hdomain⟩
    obtain ⟨hend, hwaiting⟩ := ih hrest hline.1
    refine ⟨hend, fun domain hdomain => ?_⟩
    rcases hline.2 domain hdomain with hmem | rfl
    · exact (hwaiting domain hmem).imp_right (List.mem_cons_of_mem _)
    · exact .inr List.mem_cons_self

/-- Every operation has been started. -/
theorem Writer.started (w : Writer) (domain : DurableDomain) : .started domain ∈ w.lines := by
  obtain ⟨hend, hwaiting⟩ := Writer.run_started w.run (fun h => nomatch h)
  refine (hwaiting domain (mem_durableDomains domain)).resolve_left ?_
  rw [hend w.dispatched]
  exact List.not_mem_nil

/-- The logs of the writers of a run. -/
def writerLogs (writers : ℕ → Writer) (iterations : ℕ) : List Log :=
  [(writers 0).log 0] ++ (List.range iterations).map fun i => (writers (i + 1)).log (i + 1)

theorem mem_writerLogs {writers : ℕ → Writer} {iterations : ℕ} {log : Log} :
    log ∈ writerLogs writers iterations ↔ ∃ i ≤ iterations, (writers i).log i = log := by
  have hlogs : writerLogs writers iterations =
      (List.range (iterations + 1)).map fun i => (writers i).log i := by
    rw [writerLogs, List.range_succ_eq_map, List.map_cons, List.map_map]
    rfl
  simp only [hlogs, List.mem_map, List.mem_range, Nat.lt_succ_iff]

theorem mem_sequences {event : String} {domain : DurableDomain} {logs : List Log} {x : ℕ} :
    x ∈ sequences event domain logs ↔
      ∃ log ∈ logs, ∃ line ∈ log, line.record?.bind (recorded event domain) = some x := by
  simp only [sequences, parseJsonRecords, List.mem_filterMap, List.mem_flatMap,
    Option.bind_eq_some_iff]
  constructor
  · rintro ⟨record, ⟨log, hlog, line, hline, hrecord⟩, hx⟩
    exact ⟨log, hlog, line, hline, record, hrecord, hx⟩
  · rintro ⟨log, hlog, line, hline, record, hrecord, hx⟩
    exact ⟨record, ⟨log, hlog, line, hline, hrecord⟩, hx⟩

section Logs

variable {writers : ℕ → Writer} {iterations : ℕ} (hsafe : iterations ≤ maxSafeInteger)
  {domain : DurableDomain} {x : ℕ}

include hsafe

theorem mem_started : x ∈ sequences "durability_operation_started" domain
    (writerLogs writers iterations) ↔ x ≤ iterations := by
  rw [mem_sequences]
  constructor
  · rintro ⟨log, hlog, line, hline, hx⟩
    obtain ⟨i, hi, rfl⟩ := mem_writerLogs.mp hlog
    obtain ⟨line, -, rfl⟩ := List.mem_map.mp hline
    exact ((recorded_started (hi.trans hsafe) line).mp hx).2.trans_le hi
  · intro hx
    exact ⟨_, mem_writerLogs.mpr ⟨x, hx, rfl⟩, _,
      List.mem_map_of_mem ((writers x).started domain),
      (recorded_started (hx.trans hsafe) _).mpr ⟨rfl, rfl⟩⟩

theorem mem_acknowledged : x ∈ sequences "durability_operation_acknowledged" domain
    (writerLogs writers iterations) ↔ x ≤ iterations ∧ (writers x).Acknowledged domain := by
  rw [mem_sequences]
  constructor
  · rintro ⟨log, hlog, line, hline, hx⟩
    obtain ⟨i, hi, rfl⟩ := mem_writerLogs.mp hlog
    obtain ⟨line, hmem, rfl⟩ := List.mem_map.mp hline
    obtain ⟨rfl, rfl⟩ := (recorded_acknowledged (hi.trans hsafe) line).mp hx
    exact ⟨hi, hmem⟩
  · rintro ⟨hx, hmem⟩
    exact ⟨_, mem_writerLogs.mpr ⟨x, hx, rfl⟩, _, List.mem_map_of_mem hmem,
      (recorded_acknowledged (hx.trans hsafe) _).mpr ⟨rfl, rfl⟩⟩

theorem wellFormed_writerLogs : WellFormed (writerLogs writers iterations) := by
  intro record hrecord hdomain
  obtain ⟨log, hlog, hrecord⟩ := List.mem_flatMap.mp hrecord
  obtain ⟨i, hi, rfl⟩ := mem_writerLogs.mp hlog
  obtain ⟨line, hline, hrecord⟩ := List.mem_filterMap.mp hrecord
  obtain ⟨line, -, rfl⟩ := List.mem_map.mp hline
  exact wellFormed_line (hi.trans hsafe) line hrecord hdomain

end Logs

theorem reports_verifierLog (before after : List OtherLine) {observed : DurableDomain → List ℕ}
    (hsafe : ∀ domain, ∀ s ∈ observed domain, s ≤ maxSafeInteger) :
    Reports (verifierLog before after observed) observed := by
  refine ⟨_, _, requiredEvent_append (isEvent_logLine.mpr rfl)
    (not_isEvent_otherLines (by decide) _), rfl, fun domain => ?_⟩
  refine ⟨(observed domain).map .count, ?_, ?_⟩
  · cases domain <;> rfl
  · rw [List.map_map]
    exact List.map_congr_left fun s hs => Number.sequence?_natCast (hsafe domain s hs)

/-! ### What the verifier observes -/

/-- The schedule is taken for the one of a sequence. -/
def Looks (o : CrashCutOptions) (entry : ScheduleEntry) (sequence : ℕ) : Prop :=
  jobSequence entry.route = some sequence ∧
    entry.payload = crashCutPayload o .schedule sequence

/-- The verifier finds the write. -/
def Seen (o : CrashCutOptions) (state : RecoveredState) (sequence : ℕ) : DurableDomain → Prop
  | .queue => crashCutPayload o .queue sequence ∈ state.queue
  | .kv => state.kv (kvKey sequence) = some (crashCutPayload o .kv sequence)
  | .stream => ⟨0, crashCutPayload o .stream sequence⟩ ∈
      state.stream (crashCutRoute .stream o.namespaceName sequence)
  | .schedule => ∃ entry ∈ state.schedule, Looks o entry sequence

/-- All that the verifier finds are writes. -/
def Known (o : CrashCutOptions) (state : RecoveredState) : DurableDomain → Prop
  | .queue => ∀ body ∈ state.queue, ∃ s ≤ o.iterations, body = crashCutPayload o .queue s
  | .kv => ∀ s ≤ o.iterations, state.kv (kvKey s) = none ∨
      state.kv (kvKey s) = some (crashCutPayload o .kv s)
  | .stream => ∀ s ≤ o.iterations,
      ∀ record ∈ state.stream (crashCutRoute .stream o.namespaceName s),
        record = ⟨0, crashCutPayload o .stream s⟩
  | .schedule => ∀ entry ∈ state.schedule, ∃ s ≤ o.iterations, Looks o entry s

/-- The verifier finds no write twice. -/
def Once (o : CrashCutOptions) (state : RecoveredState) : DurableDomain → Prop
  | .queue => state.queue.Nodup
  | .kv => True
  | .stream => ∀ s ≤ o.iterations,
      (state.stream (crashCutRoute .stream o.namespaceName s)).length ≤ 1
  | .schedule => (state.schedule.map fun entry => jobSequence entry.route).Nodup

/-- What the verifier observes are the writes that it finds. -/
structure Observes (o : CrashCutOptions) (state : RecoveredState) (domain : DurableDomain)
    (x : Except Thrown (List ℕ)) : Prop where
  passes : Check.Passes x ↔ Known o state domain
  mem : ∀ {xs}, x = .ok xs → ∀ s, s ∈ xs ↔ s ≤ o.iterations ∧ Seen o state s domain
  nodup : ∀ {xs}, x = .ok xs → (xs.Nodup ↔ Once o state domain)

theorem observePages_eq {α : Type} (pages : List (List α)) (f : α → Except Thrown ℕ) :
    observePages pages f = pages.flatten.mapM f := by
  induction pages with
  | nil => rfl
  | cons page pages ih =>
    rw [List.flatten_cons, List.mapM_append, ← ih]
    unfold observePages
    rw [List.mapM_cons]
    simp only [bind_assoc, pure_bind, List.flatten_cons]

/-- A loop over the sequences that observes a number of copies of each. -/
theorem observeEach_eq_ok {n : ℕ} {f : ℕ → Except Thrown (List ℕ)} {copies : ℕ → ℕ}
    (hf : ∀ s part, f s = .ok part → part = List.replicate (copies s) s) {xs : List ℕ}
    (h : observeEach n f = .ok xs) :
    (∀ s, s ∈ xs ↔ s ≤ n ∧ 0 < copies s) ∧ (xs.Nodup ↔ ∀ s ≤ n, copies s ≤ 1) := by
  obtain ⟨parts, hparts, hok⟩ := Check.bind_eq_ok.mp h
  obtain rfl := Except.ok.inj hok
  have hflat : parts = (List.range (n + 1)).map fun s => List.replicate (copies s) s := by
    have := Check.map_eq_of_mapM (g := id) (k := fun s => List.replicate (copies s) s) hparts
      fun s _ part hpart => hf s part hpart
    rwa [List.map_id] at this
  rw [hflat, ← List.flatMap_def]
  constructor
  · intro s
    simp only [List.mem_flatMap, List.mem_range, List.mem_replicate, Nat.lt_succ_iff]
    constructor
    · rintro ⟨t, ht, hcopies, rfl⟩
      exact ⟨ht, Nat.pos_of_ne_zero hcopies⟩
    · rintro ⟨hs, hcopies⟩
      exact ⟨s, hs, hcopies.ne', rfl⟩
  · rw [List.nodup_flatMap]
    simp only [List.mem_range, Nat.lt_succ_iff, List.nodup_replicate]
    refine and_iff_left (List.nodup_range.imp fun hne => ?_)
    intro x hx hx'
    exact hne ((List.eq_of_mem_replicate hx).symm.trans (List.eq_of_mem_replicate hx'))

theorem passes_observeEach {n : ℕ} {f : ℕ → Except Thrown (List ℕ)} :
    Check.Passes (observeEach n f) ↔ ∀ s ≤ n, Check.Passes (f s) := by
  rw [observeEach, Check.bind_eq, Check.passes_bind]
  simp only [Check.pure_eq, Check.passes_ok, and_true, ← List.mem_range, ← Nat.lt_succ_iff]
  exact Check.passes_mapM

section Observe

variable {o : CrashCutOptions} {state : RecoveredState} (hbytes : 32 ≤ o.payloadBytes)
  (hiterations : o.iterations < 10 ^ 8)

theorem crashCutPayload_inj (hbytes : 32 ≤ o.payloadBytes) (hiterations : o.iterations < 10 ^ 8)
    {domain : DurableDomain} {s t : ℕ} (hs : s ≤ o.iterations) (ht : t ≤ o.iterations)
    (h : crashCutPayload o domain s = crashCutPayload o domain t) : s = t :=
  (deterministicPayload_injective hbytes (by decide) (by decide) (hs.trans_lt hiterations)
    (ht.trans_lt hiterations) h).2.2

include hbytes hiterations in
theorem identifyPayload_eq_ok {domain : DurableDomain} {actual : List UInt8} {s : ℕ} :
    identifyPayload o domain actual = .ok s ↔
      s ≤ o.iterations ∧ actual = crashCutPayload o domain s := by
  have hok : ∀ t, (assertBytesEqual actual (crashCutPayload o domain t)
      s!"{domain.name} payload").isOk = true ↔ actual = crashCutPayload o domain t := by
    intro t
    rw [← assertBytesEqual_eq_ok]
    cases assertBytesEqual actual (crashCutPayload o domain t) s!"{domain.name} payload" with
    | error e => simp [Except.isOk, Except.toBool]
    | ok u => simp [Except.isOk, Except.toBool]
  unfold identifyPayload
  cases hfind : (List.range (o.iterations + 1)).find? fun sequence =>
    (assertBytesEqual actual (crashCutPayload o domain sequence)
      s!"{domain.name} payload").isOk with
  | none =>
    refine iff_of_false (by simp) fun ⟨hs, hactual⟩ => ?_
    exact List.find?_eq_none.mp hfind s (List.mem_range.mpr (Nat.lt_succ_of_le hs))
      ((hok s).mpr hactual)
  | some t =>
    have ht : t ≤ o.iterations :=
      Nat.le_of_lt_succ (List.mem_range.mp (List.mem_of_find?_eq_some hfind))
    have hfound := List.find?_some hfind
    have hactual : actual = crashCutPayload o domain t := (hok t).mp hfound
    constructor
    · intro h
      obtain rfl := Except.ok.inj h
      exact ⟨ht, hactual⟩
    · rintro ⟨hs, hactual'⟩
      exact congrArg Except.ok
        (crashCutPayload_inj hbytes hiterations ht hs (hactual.symm.trans hactual'))

theorem observeQueueFrom_eq (sizes : ℕ → ℕ) (observed : ℕ) (queue : List (List UInt8)) :
    observeQueueFrom o sizes observed queue = queue.mapM (identifyPayload o .queue) := by
  fun_induction observeQueueFrom o sizes observed queue with
  | case1 observed queue items hitems =>
    rw [(answer_eq_nil (by decide)).mp hitems]
    rfl
  | case2 observed queue items hitems ih =>
    have hsplit : queue = items ++ queue.drop items.length := by
      obtain ⟨rest, hrest⟩ : items <+: queue := List.take_prefix _ _
      nth_rewrite 1 [← hrest]
      rw [← hrest, List.drop_left]
    nth_rewrite 2 [hsplit]
    rw [List.mapM_append, ih]

include hbytes hiterations in
theorem observes_queue (paging : VerifierPaging) :
    Observes o state .queue (observe o paging state .queue) := by
  have hobserve : observe o paging state .queue = state.queue.mapM (identifyPayload o .queue) :=
    observeQueueFrom_eq _ _ _
  have hqueue : ∀ {xs}, observe o paging state .queue = .ok xs →
      (∀ s ∈ xs, s ≤ o.iterations) ∧ state.queue = xs.map (crashCutPayload o .queue) := by
    intro xs h
    rw [hobserve, Check.mapM_eq_ok] at h
    simp only [identifyPayload_eq_ok hbytes hiterations] at h
    refine ⟨fun s hs => ?_, ?_⟩
    · obtain ⟨i, hi, rfl⟩ := List.getElem_of_mem hs
      exact (h.get (h.length_eq ▸ hi) hi).1
    · rw [← List.forall₂_eq_eq_eq, List.forall₂_map_right_iff]
      exact h.imp fun _ _ hbody => hbody.2
  constructor
  · rw [hobserve, Check.passes_mapM]
    refine forall₂_congr fun body _ => ?_
    simp only [Check.Passes, identifyPayload_eq_ok hbytes hiterations]
  · intro xs h s
    obtain ⟨hle, heq⟩ := hqueue h
    rw [Seen, heq, List.mem_map]
    constructor
    · exact fun hs => ⟨hle s hs, s, hs, rfl⟩
    · rintro ⟨hs, t, ht, hpayload⟩
      rwa [← crashCutPayload_inj hbytes hiterations (hle t ht) hs hpayload]
  · intro xs h
    obtain ⟨hle, heq⟩ := hqueue h
    rw [Once, heq]
    exact ⟨fun hnodup => hnodup.map_on fun s hs t ht =>
      crashCutPayload_inj hbytes hiterations (hle s hs) (hle t ht), List.Nodup.of_map _⟩

theorem observes_kv (paging : VerifierPaging) :
    Observes o state .kv (observe o paging state .kv) := by
  have hcopies : ∀ s part, observeKey o state.kv s = .ok part →
      part = List.replicate (if (state.kv (kvKey s)).isSome then 1 else 0) s := by
    intro s part h
    unfold observeKey at h
    split at h
    · rename_i hnone
      obtain rfl := Except.ok.inj h
      simp [hnone]
    · rename_i value hvalue
      simp only [Check.bind_eq, Check.seq_eq_ok, Check.pure_eq, Except.ok.injEq] at h
      simp [hvalue, ← h.2]
  have hpasses : ∀ s, Check.Passes (observeKey o state.kv s) ↔ state.kv (kvKey s) = none ∨
      state.kv (kvKey s) = some (crashCutPayload o .kv s) := by
    intro s
    unfold observeKey
    cases hvalue : state.kv (kvKey s) with
    | none => simp
    | some value =>
      simp only [Check.bind_eq, Check.passes_seq, assertBytesEqual_eq_ok, Check.pure_eq,
        Check.passes_ok, and_true]
      simp
  have hknown : Check.Passes (observe o paging state .kv) ↔ Known o state .kv := by
    rw [observe, passes_observeEach]
    exact forall₂_congr fun s _ => hpasses s
  refine ⟨hknown, fun h s => ?_, fun h => ?_⟩
  · rw [(observeEach_eq_ok hcopies h).1 s]
    refine and_congr_right fun hs => ?_
    rcases hknown.mp ⟨_, h⟩ s hs with hnone | hsome
    · simp [Seen, hnone]
    · simp [Seen, hsome]
  · rw [(observeEach_eq_ok hcopies h).2]
    exact iff_of_true (fun s _ => by split_ifs <;> decide) trivial

theorem observeRecord_eq_ok {s t : ℕ} {record : StreamRecord} :
    observeRecord o s record = .ok t ↔
      record = ⟨0, crashCutPayload o .stream s⟩ ∧ t = s := by
  simp only [observeRecord, Check.bind_eq, Check.seq_eq_ok, Check.failIf_eq_ok, not_not, ne_eq,
    assertBytesEqual_eq_ok, Check.pure_eq, Except.ok.injEq, StreamRecord.ext_iff, and_assoc,
    eq_comm (a := s)]

theorem observes_stream (paging : VerifierPaging) :
    Observes o state .stream (observe o paging state .stream) := by
  have hpages : ∀ s, observePages (cut (paging.stream s)
      (state.stream (crashCutRoute .stream o.namespaceName s))) (observeRecord o s) =
        (state.stream (crashCutRoute .stream o.namespaceName s)).mapM (observeRecord o s) := by
    intro s
    rw [observePages_eq, flatten_cut]
  have hcopies : ∀ s part, observePages (cut (paging.stream s)
      (state.stream (crashCutRoute .stream o.namespaceName s))) (observeRecord o s) = .ok part →
        part = List.replicate
          (state.stream (crashCutRoute .stream o.namespaceName s)).length s := by
    intro s part h
    rw [hpages, Check.mapM_eq_ok] at h
    simp only [observeRecord_eq_ok] at h
    rw [List.eq_replicate_iff]
    refine ⟨h.length_eq.symm, fun t ht => ?_⟩
    obtain ⟨i, hi, rfl⟩ := List.getElem_of_mem ht
    exact (h.get (h.length_eq ▸ hi) hi).2
  have hknown : Check.Passes (observe o paging state .stream) ↔ Known o state .stream := by
    rw [observe, passes_observeEach]
    refine forall₂_congr fun s _ => ?_
    rw [hpages, Check.passes_mapM]
    refine forall₂_congr fun record _ => ?_
    simp only [Check.Passes, observeRecord_eq_ok, exists_and_left, exists_eq, and_true]
  refine ⟨hknown, fun h s => ?_, fun h => (observeEach_eq_ok hcopies h).2⟩
  rw [(observeEach_eq_ok hcopies h).1 s]
  refine and_congr_right fun hs => ?_
  have hall := hknown.mp ⟨_, h⟩ s hs
  rw [List.length_pos_iff_exists_mem]
  constructor
  · rintro ⟨record, hrecord⟩
    rw [Seen, ← hall record hrecord]
    exact hrecord
  · exact fun hseen => ⟨_, hseen⟩

theorem observeSchedule_eq_ok {entry : ScheduleEntry} {s : ℕ} :
    observeSchedule o entry = .ok s ↔ s ≤ o.iterations ∧ Looks o entry s := by
  unfold observeSchedule
  dsimp only
  cases hjob : jobSequence entry.route with
  | none => simp [Looks, hjob]
  | some t =>
    simp only [Check.bind_eq, Check.seq_eq_ok, Check.failIf_eq_ok, not_lt, assertBytesEqual_eq_ok,
      Check.pure_eq, Except.ok.injEq, Looks, hjob, Option.some.injEq]
    constructor
    · rintro ⟨hle, hpayload, rfl⟩
      exact ⟨hle, rfl, hpayload⟩
    · rintro ⟨hle, rfl, hpayload⟩
      exact ⟨hle, hpayload, rfl⟩

theorem observes_schedule (paging : VerifierPaging) :
    Observes o state .schedule (observe o paging state .schedule) := by
  have hobserve : observe o paging state .schedule = state.schedule.mapM (observeSchedule o) := by
    rw [observe, observePages_eq, flatten_cut]
  have hlooks : ∀ {xs}, observe o paging state .schedule = .ok xs →
      List.Forall₂ (fun entry s => s ≤ o.iterations ∧ Looks o entry s) state.schedule xs := by
    intro xs h
    rw [hobserve, Check.mapM_eq_ok] at h
    simpa only [observeSchedule_eq_ok] using h
  constructor
  · rw [hobserve, Check.passes_mapM]
    refine forall₂_congr fun entry _ => ?_
    simp only [Check.Passes, observeSchedule_eq_ok]
  · intro xs h s
    have hforall := hlooks h
    constructor
    · intro hs
      obtain ⟨i, hi, rfl⟩ := List.getElem_of_mem hs
      have hentry := hforall.get (hforall.length_eq ▸ hi) hi
      exact ⟨hentry.1, _, List.getElem_mem _, hentry.2⟩
    · rintro ⟨-, entry, hentry, hlook⟩
      obtain ⟨i, hi, rfl⟩ := List.getElem_of_mem hentry
      have hlook' := (hforall.get hi (hforall.length_eq ▸ hi)).2
      have heq := Option.some.inj (hlook.1.symm.trans hlook'.1)
      rw [heq]
      exact List.getElem_mem _
  · intro xs h
    have hmap : state.schedule.map (fun entry => jobSequence entry.route) = xs.map some := by
      rw [← List.forall₂_eq_eq_eq, List.forall₂_map_left_iff, List.forall₂_map_right_iff]
      exact (hlooks h).imp fun _ _ hentry => hentry.2.1
    rw [Once, hmap, List.nodup_map_iff (Option.some_injective _)]

include hbytes hiterations in
theorem observes (paging : VerifierPaging) (domain : DurableDomain) :
    Observes o state domain (observe o paging state domain) := by
  cases domain with
  | queue => exact observes_queue hbytes hiterations paging
  | kv => exact observes_kv paging
  | stream => exact observes_stream paging
  | schedule => exact observes_schedule paging

theorem verifyDurabilityState_eq_ok {paging : VerifierPaging}
    {observed : DurableDomain → List ℕ} :
    verifyDurabilityState o paging state = .ok observed ↔ ∃ lists : DurableDomain → List ℕ,
      (∀ domain, observe o paging state domain = .ok (lists domain)) ∧
        observed = fun domain => sortSequences (lists domain) := by
  simp only [verifyDurabilityState, Check.bind_eq, Check.bind_eq_ok, Check.pure_eq,
    Except.ok.injEq]
  constructor
  · rintro ⟨queue, hqueue, kv, hkv, stream, hstream, schedule, hschedule, rfl⟩
    refine ⟨fun | .queue => queue | .kv => kv | .stream => stream | .schedule => schedule,
      fun domain => ?_, funext fun domain => ?_⟩
    · cases domain <;> assumption
    · cases domain <;> rfl
  · rintro ⟨lists, hlists, rfl⟩
    refine ⟨_, hlists _, _, hlists _, _, hlists _, _, hlists _, funext fun domain => ?_⟩
    cases domain <;> rfl

end Observe

/-! ### The verdict on the state -/

/-- What the verifier finds in a domain is right: they are writes, none of them twice, and the
acknowledged ones are among them. -/
structure LooksSound (o : CrashCutOptions) (writers : ℕ → Writer) (state : RecoveredState)
    (domain : DurableDomain) : Prop where
  known : Known o state domain
  once : Once o state domain
  baseline : (writers 0).Acknowledged domain
  kept : ∀ s ≤ o.iterations, (writers s).Acknowledged domain → Seen o state s domain

/-- The state holds the write as it was made. -/
def Holds (o : CrashCutOptions) (state : RecoveredState) (sequence : ℕ) : DurableDomain → Prop
  | .schedule => crashCutSchedule o sequence ∈ state.schedule
  | domain => Seen o state sequence domain

/-- The state holds the write twice. -/
def Twice (o : CrashCutOptions) (state : RecoveredState) (sequence : ℕ) : DurableDomain → Prop
  | .queue => 2 ≤ state.queue.count (crashCutPayload o .queue sequence)
  | .kv => False
  | .stream => 2 ≤ (state.stream (crashCutRoute .stream o.namespaceName sequence)).countP
      fun record => record.body = crashCutPayload o .stream sequence
  | .schedule => 2 ≤ state.schedule.countP
      fun entry => entry.route = crashCutRoute .schedule o.namespaceName sequence

/-- Every acknowledged write has survived as it was made, every other one has survived once or not
at all, and there is nothing else. -/
structure Survived (o : CrashCutOptions) (writers : ℕ → Writer) (state : RecoveredState) :
    Prop where
  baseline : ∀ domain, (writers 0).Acknowledged domain
  kept : ∀ domain, ∀ s ≤ o.iterations, (writers s).Acknowledged domain → Holds o state s domain
  queue : state.queue.Nodup ∧
    ∀ body ∈ state.queue, ∃ s ≤ o.iterations, body = crashCutPayload o .queue s
  kv : ∀ s ≤ o.iterations, state.kv (kvKey s) = none ∨
    state.kv (kvKey s) = some (crashCutPayload o .kv s)
  stream : ∀ s ≤ o.iterations, state.stream (crashCutRoute .stream o.namespaceName s) = [] ∨
    state.stream (crashCutRoute .stream o.namespaceName s) = [⟨0, crashCutPayload o .stream s⟩]
  schedule : state.schedule.Nodup ∧
    ∀ entry ∈ state.schedule, ∃ s ≤ o.iterations, entry = crashCutSchedule o s

/-- The state has lost or altered an acknowledged write, or holds a write twice. -/
def Damaged (o : CrashCutOptions) (writers : ℕ → Writer) (state : RecoveredState) : Prop :=
  ∃ domain, ∃ s ≤ o.iterations,
    ((writers s).Acknowledged domain ∧ ¬Holds o state s domain) ∨ Twice o state s domain

section Verdict

variable {o : CrashCutOptions} {writers : ℕ → Writer} {state : RecoveredState}

/-- **The verdict on a crash cut** accepts iff what the verifier finds is right. -/
theorem crashCutVerdict_iff (hbytes : 32 ≤ o.payloadBytes) (hiterations : o.iterations < 10 ^ 8)
    (paging : VerifierPaging) (before after : List OtherLine) :
    Check.Passes (crashCutVerdict o writers paging state before after) ↔
      ∀ domain, LooksSound o writers state domain := by
  have hsafe : o.iterations ≤ maxSafeInteger := hiterations.le.trans (by decide)
  have hobserves := @observes o state hbytes hiterations paging
  have hmem : ∀ {xs : List ℕ} {s}, s ∈ sortSequences xs ↔ s ∈ xs := List.mem_mergeSort
  have hnodup : ∀ {xs : List ℕ}, (sortSequences xs).Nodup ↔ xs.Nodup :=
    (List.mergeSort_perm _ _).nodup_iff
  -- The verdict on the lists of sequences that are observed.
  have hverdict : ∀ lists : DurableDomain → List ℕ,
      (∀ domain, observe o paging state domain = .ok (lists domain)) →
        (Check.Passes (verdict [(writers 0).log 0]
          ((List.range o.iterations).map fun i => (writers (i + 1)).log (i + 1))
          [verifierLog before after fun domain => sortSequences (lists domain)] o.iterations) ↔
            ∀ domain, LooksSound o writers state domain) := by
    intro lists hlists
    have hreports := @reports_verifierLog before after
      (fun domain => sortSequences (lists domain)) fun domain s hs =>
        (((hobserves domain).mem (hlists domain) s).mp (hmem.mp hs)).1.trans hsafe
    rw [verdict_iff (wellFormed_writerLogs hsafe) hreports]
    refine forall_congr' fun domain => ?_
    have hseen := (hobserves domain).mem (hlists domain)
    constructor
    · rintro ⟨-, hbaseline, hkept, -, honce⟩
      refine ⟨(hobserves domain).passes.mp ⟨_, hlists domain⟩,
        ((hobserves domain).nodup (hlists domain)).mp (hnodup.mp honce),
        ((mem_acknowledged hsafe).mp hbaseline).2, fun s hs hack => ?_⟩
      exact ((hseen s).mp (hmem.mp (hkept s ((mem_acknowledged hsafe).mpr ⟨hs, hack⟩)))).2
    · rintro ⟨-, honce, hbaseline, hkept⟩
      refine ⟨fun s hs => (mem_started hsafe).mpr hs,
        (mem_acknowledged hsafe).mpr ⟨Nat.zero_le _, hbaseline⟩, fun s hs => ?_, fun s hs => ?_,
        hnodup.mpr (((hobserves domain).nodup (hlists domain)).mpr honce)⟩
      · obtain ⟨hle, hack⟩ := (mem_acknowledged hsafe).mp hs
        exact hmem.mpr ((hseen s).mpr ⟨hle, hkept s hle hack⟩)
      · exact (mem_started hsafe).mpr ((hseen s).mp (hmem.mp hs)).1
  rw [crashCutVerdict, Check.bind_eq, Check.passes_bind]
  simp only [verifyDurabilityState_eq_ok]
  constructor
  · rintro ⟨_, ⟨lists, hlists, rfl⟩, hpasses⟩
    exact (hverdict lists hlists).mp hpasses
  · intro hsound
    have hpasses := fun domain => (hobserves domain).passes.mpr (hsound domain).known
    refine ⟨_, ⟨fun domain => (hpasses domain).choose, fun domain => (hpasses domain).choose_spec,
      rfl⟩, ?_⟩
    exact (hverdict _ fun domain => (hpasses domain).choose_spec).mpr hsound

theorem toList_crashCutRoute (namespaceName : String) (sequence : ℕ) :
    (crashCutRoute .schedule namespaceName sequence).toList =
      (s!"schedule://destroyer/{namespaceName}/crash-cut").toList ++
        ("/job-".toList ++ pad sequence 8) := by
  unfold crashCutRoute
  simp only [String.toList_append, String.toList_ofList, toString, List.append_assoc]

/-- The sequence of a schedule is read from its route. -/
theorem jobSequence_crashCutRoute {sequence : ℕ} (h : sequence < 10 ^ 8)
    (namespaceName : String) :
    jobSequence (crashCutRoute .schedule namespaceName sequence) = some sequence := by
  have hlength : ("/job-".toList ++ pad sequence 8).length = 13 := by
    rw [List.length_append, length_pad (by decide) h]
    rfl
  rw [jobSequence, toList_crashCutRoute, List.length_append, hlength, Nat.add_sub_cancel,
    List.drop_left, Option.bind_eq_some_iff]
  exact ⟨_, List.isPrefixOf?_eq_some_iff_append_eq.mpr rfl,
    (digits?_eq_some (by decide)).mpr ⟨h, rfl⟩⟩

theorem looks_crashCutSchedule {s : ℕ} (hs : s < 10 ^ 8) : Looks o (crashCutSchedule o s) s :=
  ⟨jobSequence_crashCutRoute hs _, rfl⟩

/-- Of schedules with different sequences, at most one has a route. -/
theorem countP_route_le {schedules : List ScheduleEntry}
    (h : (schedules.map fun entry => jobSequence entry.route).Nodup) (route : String) :
    schedules.countP (fun entry => entry.route = route) ≤ 1 := by
  rw [List.countP_eq_length_filter]
  have hsub := (List.filter_sublist (l := schedules) (p := fun entry =>
    decide (entry.route = route))).map fun entry : ScheduleEntry => jobSequence entry.route
  have hreplicate : (schedules.filter fun entry => decide (entry.route = route)).map
      (fun entry => jobSequence entry.route) =
        List.replicate (schedules.filter fun entry => decide (entry.route = route)).length
          (jobSequence route) := by
    rw [List.eq_replicate_iff, List.length_map]
    refine ⟨rfl, fun x hx => ?_⟩
    obtain ⟨entry, hentry, rfl⟩ := List.mem_map.mp hx
    rw [of_decide_eq_true (List.mem_filter.mp hentry).2]
  have hnodup := h.sublist hsub
  rwa [hreplicate, List.nodup_replicate] at hnodup

/-- A state that looks sound holds no write twice. -/
theorem not_twice (h : ∀ domain, LooksSound o writers state domain) {s : ℕ}
    (hs : s ≤ o.iterations) (domain : DurableDomain) : ¬Twice o state s domain := by
  intro htwice
  have honce := (h domain).once
  cases domain with
  | queue =>
    have hle := List.nodup_iff_count_le_one.mp honce (crashCutPayload o .queue s)
    exact absurd (htwice.trans hle) (by decide)
  | kv => exact htwice
  | stream => exact absurd (htwice.trans (List.countP_le_length.trans (honce s hs))) (by decide)
  | schedule => exact absurd (htwice.trans (countP_route_le honce _)) (by decide)

/-- What has survived looks sound. -/
theorem Survived.looksSound (hiterations : o.iterations < 10 ^ 8)
    (h : Survived o writers state) (domain : DurableDomain) :
    LooksSound o writers state domain := by
  refine ⟨?_, ?_, h.baseline domain, fun s hs hack => ?_⟩
  · cases domain with
    | queue => exact h.queue.2
    | kv => exact h.kv
    | stream =>
      intro s hs record hrecord
      rcases h.stream s hs with hempty | hone
      · rw [hempty] at hrecord
        exact absurd hrecord List.not_mem_nil
      · rw [hone] at hrecord
        exact List.mem_singleton.mp hrecord
    | schedule =>
      intro entry hentry
      obtain ⟨s, hs, rfl⟩ := h.schedule.2 entry hentry
      exact ⟨s, hs, looks_crashCutSchedule (hs.trans_lt hiterations)⟩
  · cases domain with
    | queue => exact h.queue.1
    | kv => trivial
    | stream =>
      intro s hs
      rcases h.stream s hs with hempty | hone
      · rw [hempty]
        exact Nat.zero_le 1
      · rw [hone]
        exact le_rfl
    | schedule =>
      refine h.schedule.1.map_on fun entry hentry entry' hentry' heq => ?_
      obtain ⟨s, hs, rfl⟩ := h.schedule.2 entry hentry
      obtain ⟨t, ht, rfl⟩ := h.schedule.2 entry' hentry'
      -- The routes of the entries tell their sequences.
      have hroute := fun {s} (hs : s ≤ o.iterations) =>
        jobSequence_crashCutRoute (hs.trans_lt hiterations) o.namespaceName
      simp only [crashCutSchedule, hroute hs, hroute ht, Option.some.injEq] at heq
      rw [heq]
  · have hholds := h.kept domain s hs hack
    cases domain with
    | schedule => exact ⟨_, hholds, looks_crashCutSchedule (hs.trans_lt hiterations)⟩
    | _ => exact hholds

/-- **The durability verdict**: over logs it accepts iff every domain is balanced; over a state it
rejects what is damaged and accepts what has survived iff, once the state looks sound, the
schedules that are taken for acknowledged ones are as they were created. -/
theorem durability_exact (hbytes : 32 ≤ o.payloadBytes) (hiterations : o.iterations < 10 ^ 8)
    (paging : VerifierPaging) (before after : List OtherLine) :
    (∀ (baselineLogs cutLogs : List Log) (verifyLog : Log) (observed : DurableDomain → List ℕ)
      (iterations : ℕ), WellFormed (baselineLogs ++ cutLogs) → Reports verifyLog observed →
        (Check.Passes (verdict baselineLogs cutLogs [verifyLog] iterations) ↔ ∀ domain,
          Balanced (sequences "durability_operation_started" domain (baselineLogs ++ cutLogs))
            (sequences "durability_operation_acknowledged" domain (baselineLogs ++ cutLogs))
            (observed domain) iterations)) ∧
      (((Damaged o writers state →
          ¬Check.Passes (crashCutVerdict o writers paging state before after)) ∧
        (Survived o writers state →
          Check.Passes (crashCutVerdict o writers paging state before after))) ↔
        ((∀ domain, LooksSound o writers state domain) →
          ∀ s ≤ o.iterations, (writers s).Acknowledged .schedule → ∀ entry ∈ state.schedule,
            Looks o entry s → entry = crashCutSchedule o s)) := by
  refine ⟨fun baselineLogs cutLogs verifyLog observed iterations hwell hreports =>
    verdict_iff hwell hreports iterations, ?_⟩
  rw [crashCutVerdict_iff hbytes hiterations]
  constructor
  · rintro ⟨hdamaged, -⟩ hsound s hs hack entry hentry hlooks
    have hholds : crashCutSchedule o s ∈ state.schedule := by
      by_contra hlost
      exact hdamaged ⟨.schedule, s, hs, .inl ⟨hack, hlost⟩⟩ hsound
    -- No other schedule is taken for the same sequence.
    refine List.inj_on_of_nodup_map (hsound .schedule).once hentry hholds ?_
    rw [hlooks.1]
    exact (jobSequence_crashCutRoute (hs.trans_lt hiterations) _).symm
  · intro hunaltered
    refine ⟨?_, fun hsurvived => hsurvived.looksSound hiterations⟩
    rintro ⟨domain, s, hs, ⟨hack, hlost⟩ | htwice⟩ hsound
    · have hseen := (hsound domain).kept s hs hack
      cases domain with
      | schedule =>
        obtain ⟨entry, hentry, hlooks⟩ := hseen
        rw [hunaltered hsound s hs hack entry hentry hlooks] at hentry
        exact hlost hentry
      | _ => exact hlost hseen
    · exact not_twice hsound hs domain htwice

end Verdict

/-! ### A baseline and one cut -/

def sampleOptions : CrashCutOptions := ⟨"run", 1, 32, 1⟩

/-- The lines of a writer up to its dispatch. -/
def dispatchLines : List WriterLine := durableDomains.map .started ++ [.dispatched]

/-- The baseline is acknowledged; the operations of the cut have not settled when its log ends. -/
def sampleWriters : ℕ → Writer
  | 0 =>
    { action := .baseline
      lines := dispatchLines ++ durableDomains.map (.settled · .acknowledged)
      state := ⟨[], true, durableDomains.map (·, .acknowledged), false⟩
      run := rfl
      dispatched := rfl }
  | _ + 1 =>
    { action := .cut
      lines := dispatchLines
      state := ⟨[], true, [], false⟩
      run := rfl
      dispatched := rfl }

/-- The baseline, with the given schedule. -/
def baselineState (entry : ScheduleEntry) : RecoveredState where
  queue := [crashCutPayload sampleOptions .queue 0]
  kv key := if key = kvKey 0 then some (crashCutPayload sampleOptions .kv 0) else none
  stream route := if route = crashCutRoute .stream "run" 0 then
    [⟨0, crashCutPayload sampleOptions .stream 0⟩] else []
  schedule := [entry]

def samplePaging : VerifierPaging := ⟨fun _ => 1, fun _ => [], []⟩

theorem acknowledged_sampleWriters {s : ℕ} {domain : DurableDomain} :
    (sampleWriters s).Acknowledged domain ↔ s = 0 := by
  cases s with
  | zero => cases domain <;> simp [Writer.Acknowledged, sampleWriters, durableDomains]
  | succ s => simp [Writer.Acknowledged, sampleWriters, dispatchLines]

theorem survived_baseline :
    Survived sampleOptions sampleWriters (baselineState (crashCutSchedule sampleOptions 0)) where
  baseline domain := acknowledged_sampleWriters.mpr rfl
  kept domain s hs hack := by
    obtain rfl := acknowledged_sampleWriters.mp hack
    cases domain <;> simp [Holds, Seen, baselineState, sampleOptions]
  queue := by
    refine ⟨List.nodup_singleton _, fun body hbody => ⟨0, Nat.zero_le _, ?_⟩⟩
    exact List.mem_singleton.mp hbody
  kv s hs := by
    have hkey : kvKey 1 ≠ kvKey 0 := by decide +kernel
    rcases Nat.le_one_iff_eq_zero_or_eq_one.mp hs with rfl | rfl
    · exact .inr (by simp [baselineState])
    · exact .inl (by simp [baselineState, hkey])
  stream s hs := by
    have hroute : crashCutRoute .stream "run" 1 ≠ crashCutRoute .stream "run" 0 := by
      decide +kernel
    rcases Nat.le_one_iff_eq_zero_or_eq_one.mp hs with rfl | rfl
    · exact .inr (by simp [baselineState, sampleOptions])
    · exact .inl (by simp [baselineState, sampleOptions, hroute])
  schedule := by
    refine ⟨List.nodup_singleton _, fun entry hentry => ⟨0, Nat.zero_le _, ?_⟩⟩
    exact List.mem_singleton.mp hentry

theorem crashCutVerdict_baseline : Check.Passes (crashCutVerdict sampleOptions sampleWriters
    samplePaging (baselineState (crashCutSchedule sampleOptions 0)) [] []) := by
  refine ((durability_exact (by decide) (by decide) samplePaging [] []).2.mpr ?_).2
    survived_baseline
  intro _ s _ hack entry hentry _
  obtain rfl := acknowledged_sampleWriters.mp hack
  exact List.mem_singleton.mp hentry

/-- The schedule of the baseline, with another cron expression. -/
def altered : ScheduleEntry := { crashCutSchedule sampleOptions 0 with cron := "0 0 2 1 *" }

/-- The verdict accepts an acknowledged schedule that has been altered. -/
theorem not_rejects_altered : ¬((Damaged sampleOptions sampleWriters (baselineState altered) →
      ¬Check.Passes (crashCutVerdict sampleOptions sampleWriters samplePaging
        (baselineState altered) [] [])) ∧
    (Survived sampleOptions sampleWriters (baselineState altered) →
      Check.Passes (crashCutVerdict sampleOptions sampleWriters samplePaging
        (baselineState altered) [] []))) := by
  have hsurvived := survived_baseline.looksSound (by decide)
  have hsound :
      ∀ domain, LooksSound sampleOptions sampleWriters (baselineState altered) domain := by
    intro domain
    cases domain with
    | schedule =>
      have hlooks : Looks sampleOptions altered 0 := looks_crashCutSchedule (by decide)
      refine ⟨fun entry hentry => ⟨0, Nat.zero_le _, ?_⟩, List.nodup_singleton _,
        acknowledged_sampleWriters.mpr rfl, fun s _ hack => ?_⟩
      · rwa [List.mem_singleton.mp hentry]
      · obtain rfl := acknowledged_sampleWriters.mp hack
        exact ⟨altered, List.mem_singleton_self _, hlooks⟩
    | queue => exact ⟨(hsurvived .queue).known, (hsurvived .queue).once,
        (hsurvived .queue).baseline, (hsurvived .queue).kept⟩
    | kv => exact ⟨(hsurvived .kv).known, (hsurvived .kv).once, (hsurvived .kv).baseline,
        (hsurvived .kv).kept⟩
    | stream => exact ⟨(hsurvived .stream).known, (hsurvived .stream).once,
        (hsurvived .stream).baseline, (hsurvived .stream).kept⟩
  rintro ⟨hdamaged, -⟩
  refine hdamaged ⟨.schedule, 0, Nat.zero_le _, .inl ⟨acknowledged_sampleWriters.mpr rfl, ?_⟩⟩
    ((crashCutVerdict_iff (by decide) (by decide) samplePaging [] []).mpr hsound)
  intro hholds
  have hcron := congrArg ScheduleEntry.cron (List.mem_singleton.mp hholds)
  exact absurd hcron (by decide)

end Durability

end FitzDestroyer
