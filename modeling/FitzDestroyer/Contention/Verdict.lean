import FitzDestroyer.Contention.Model

/-!
# What the verdicts on contention mean

The host accepts a contention when one contender has committed and the other has not, whatever the
error of the other.

* `pair_iff` : what the host reads from two contenders;
* `TransactionRun.verdict_passes_iff`, `StreamRun.verdict_passes_iff` : when a verdict accepts;
* `contention_certifies_iff` : when the verdicts accept genuine conflicts only;
* `not_certifies_timeoutRun` : a contender that times out counts as one that lost.
-/

namespace FitzDestroyer

namespace Contention

open Js Workload Check
open Schedule (OtherLine not_isEvent_otherLines)

/-! ### Logs -/

/-- The last record of the workload is the one that its log ends with. -/
theorem requiredEvent_around {lines : OtherLines} {event : String} {fields : Record}
    (front : List LogLine) (hevent : "fitz_client_event" ≠ event) :
    requiredEvent (lines.around (front ++ [logLine event fields])) event =
      .ok (("event", .str event) :: fields) := by
  have hlog : lines.around (front ++ [logLine event fields]) =
      (lines.before.map OtherLine.line ++ front) ++ logLine event fields ::
        lines.after.map OtherLine.line := by
    simp [OtherLines.around]
  rw [hlog]
  exact requiredEvent_append (isEvent_logLine.mpr rfl) (not_isEvent_otherLines hevent _)

theorem requiredEvent_contenderLog {lines : OtherLines} {ready complete : String}
    {commitAtMs : ℤ} {writer : ℕ} {stages : List (String × Except Rejection Unit)}
    (hcomplete : "fitz_client_event" ≠ complete) :
    requiredEvent (contenderLog lines ready complete commitAtMs writer stages) complete =
      .ok (("event", .str complete) :: (contend stages).fields writer) := by
  unfold contenderLog
  split
  · exact requiredEvent_around [_] hcomplete
  · exact requiredEvent_around [] hcomplete

/-- A verifier is read only if its checks have passed. -/
theorem requiredEvent_verifierLog {lines : OtherLines} {complete : String}
    {result : Except Thrown Record} {record : Record}
    (hcomplete : "fitz_client_event" ≠ complete) :
    requiredEvent (verifierLog lines complete result) complete = .ok record ↔
      ∃ fields, result = .ok fields ∧ record = ("event", .str complete) :: fields := by
  cases result with
  | ok fields =>
    have hrecord := @requiredEvent_around lines complete fields [] hcomplete
    rw [verifierLog]
    simp only [List.nil_append] at hrecord
    simp [hrecord, eq_comm]
  | error error =>
    have hnone : (parseJsonRecords (verifierLog lines complete (.error error))).reverse.find?
        (fun r => IsEvent r complete) = none := by
      have hlog : verifierLog lines complete (.error error) =
          (lines.before ++ lines.after).map OtherLine.line := by
        simp [verifierLog, OtherLines.around]
      rw [hlog, List.find?_eq_none]
      intro r hr
      simpa using not_isEvent_otherLines hcomplete _ r (List.mem_reverse.mp hr)
    rw [requiredEvent, hnone]
    simp

/-! ### Two contenders -/

/-- The contender has been rejected. -/
def ContenderOutcome.IsRejected (o : ContenderOutcome) : Prop :=
  ∃ stage rejection, o = .rejected stage rejection

theorem not_isRejected_committed : ¬ContenderOutcome.committed.IsRejected := by
  rintro ⟨stage, rejection, h⟩
  cases h

theorem isRejected_rejected (stage : String) (rejection : Rejection) :
    (ContenderOutcome.rejected stage rejection).IsRejected := ⟨stage, rejection, rfl⟩

section Pair

variable {event : String} {o : Fin 2 → ContenderOutcome}

/-- The records of two contenders. -/
def records (event : String) (o : Fin 2 → ContenderOutcome) : List Record :=
  List.ofFn fun i => ("event", .str event) :: (o i).fields (i.val + 1)

theorem records_eq : records event o =
    [("event", .str event) :: (o 0).fields 1, ("event", .str event) :: (o 1).fields 2] := rfl

/-- What the host reads from two contenders: one has committed, the other has been rejected. -/
theorem pair_iff {name : String} {n : ℕ} :
    ((((records event o).filter (hasOutcome "committed")).length = 1 ∧
        ((records event o).filter (hasOutcome "rejected")).length = 1) ∧
      numericValue (((records event o).filter (hasOutcome "committed")).head?.bind fun record =>
        field record "writer") name = .ok n) ↔
    ∃ i, o i = .committed ∧ (o (other i)).IsRejected ∧ n = i.val + 1 := by
  have hone : ∀ m : ℕ, m ≤ 2 → (numericValue (some (.count m)) name = .ok n ↔ n = m) := by
    intro m hm
    rw [numericValue_count, and_iff_right]
    exact hm.trans (by decide)
  rw [Fin.exists_fin_two]
  cases h₀ : o 0 <;> cases h₁ : o 1 <;>
    simp [records_eq, h₀, h₁, ContenderOutcome.fields, hasOutcome, field, Json.text?, other,
      not_isRejected_committed, isRejected_rejected, hone]

theorem mapM_contenderLog {lines : Fin 2 → OtherLines} {ready complete : String} {commitAtMs : ℤ}
    {stages : Fin 2 → List (String × Except Rejection Unit)}
    (hcomplete : "fitz_client_event" ≠ complete) :
    [("0", contenderLog (lines 0) ready complete commitAtMs ((0 : Fin 2).val + 1) (stages 0)),
      ("1", contenderLog (lines 1) ready complete commitAtMs ((1 : Fin 2).val + 1)
        (stages 1))].mapM (fun p => requiredEvent p.2 complete) =
      .ok (records complete fun i => contend (stages i)) := by
  simp only [List.mapM_cons, List.mapM_nil, requiredEvent_contenderLog hcomplete]
  rfl

end Pair

theorem matchingWriter_eq_some {payload : ℕ → List UInt8} {actual : List UInt8} {context : String}
    {writer : ℕ} (h : matchingWriter payload actual context = some writer) :
    actual = payload writer := by
  have hok := List.find?_some h
  cases hequal : assertBytesEqual actual (payload writer) context with
  | error error =>
    rw [hequal] at hok
    cases hok
  | ok value => exact assertBytesEqual_eq_ok.mp hequal

/-- The writers are small numbers. -/
theorem writer_le {i : Fin 2} : i.val + 1 ≤ maxSafeInteger :=
  Nat.le_trans i.isLt (by decide)

/-! ### Transactions -/

namespace TransactionRun

variable (r : TransactionRun)

/-- The preparation has seen that rollbacks and deletions work. -/
def Prepared : Prop :=
  ∃ name log record, r.prepareLogs = [(name, log)] ∧
    requiredEvent log "transaction_prepare_complete" = .ok record ∧
    isTrue (field record "rollbackIsolated") = true ∧ isTrue (field record "deleteHidden") = true

/-- The verifier finds the value of the contender, and none of a transaction that was cut. -/
def VerifierFinds (i : Fin 2) : Prop :=
  r.verifier.began = .ok () ∧ r.verifier.longLived = .ok none ∧
    ∃ value, r.verifier.contended = .ok (some value) ∧
      matchingWriter (transactionPayload r.options) value "Contended KV winner" = some (i.val + 1)

end TransactionRun

theorem onlyLog_eq_ok {logs : List (String × Log)} {log : Log} :
    onlyLog logs = .ok log ↔ ∃ name, logs = [(name, log)] := by
  unfold onlyLog
  split
  · simp
  · rename_i h
    refine iff_of_false (by simp) ?_
    rintro ⟨name, rfl⟩
    exact h name log rfl

theorem verifyTransaction_eq_ok {o : Options} {v : TransactionVerifier} {fields : Record} :
    verifyTransaction o v = .ok fields ↔ v.began = .ok () ∧ v.longLived = .ok none ∧
      ∃ value winner, v.contended = .ok (some value) ∧
        matchingWriter (transactionPayload o) value "Contended KV winner" = some winner ∧
        fields = [("route", .str (transactionContentionRoute o)), ("winner", .count winner)] := by
  simp only [verifyTransaction, Check.bind_eq, Check.bind_eq_ok, Check.exists_unit,
    Check.failIf_eq_ok]
  constructor
  · rintro ⟨hbegan, longLived, hlong, hnone, contended, hcontended, h⟩
    obtain rfl : longLived = none := by simpa using hnone
    refine ⟨hbegan, hlong, ?_⟩
    cases contended with
    | none => cases h
    | some value =>
      cases hwinner : matchingWriter (transactionPayload o) value "Contended KV winner" with
      | none => simp [hwinner] at h
      | some winner =>
        simp only [hwinner, Check.pure_eq, Except.ok.injEq] at h
        exact ⟨value, winner, hcontended, hwinner, h.symm⟩
  · rintro ⟨hbegan, hlong, value, winner, hcontended, hwinner, rfl⟩
    exact ⟨hbegan, none, hlong, by simp, some value, hcontended, by simp [hwinner]⟩

/-- **The verdict on transactions** does not ask why the other contender has failed. -/
theorem TransactionRun.verdict_passes_iff {r : TransactionRun} :
    Check.Passes r.verdict ↔ r.Prepared ∧
      ∃ i, r.outcome i = .committed ∧ (r.outcome (other i)).IsRejected ∧ r.VerifierFinds i := by
  have hrecords := @mapM_contenderLog r.contenderLines "transaction_contender_ready"
    "transaction_contender_complete" r.options.commitAtMs (fun i => (r.contender i).stages)
    (by decide)
  have hverified : ∀ {record}, requiredEvent (verifierLog r.verifierLines
      "transaction_cleanup_verified" (verifyTransaction r.options r.verifier))
        "transaction_cleanup_verified" = .ok record ↔ _ := requiredEvent_verifierLog (by decide)
  simp only [TransactionRun.verdict, analyzeTransactionContention, assertTransactionContention,
    Check.bind_eq, Check.passes_bind, Check.bind_eq_ok, onlyLog_eq_ok, Check.exists_unit,
    Check.failIf_eq_ok, Check.passes_unit, Check.pure_eq, Except.ok.injEq, not_or, not_not]
  constructor
  · rintro ⟨_, ⟨prepareLog, ⟨name, hprepare⟩, prepare, hevent, outcomes, houtcomes, _,
      ⟨_, hlog⟩, verified, hverify, hcounts, writer, hwriter, winner, hwinner, rfl, rfl⟩,
      -, -, hisolated, hhidden, -⟩
    obtain rfl := Except.ok.inj (hrecords.symm.trans houtcomes)
    obtain ⟨-, rfl⟩ := Prod.mk.inj (List.cons.inj hlog).1
    obtain ⟨_, hfields, rfl⟩ := hverified.mp hverify
    obtain ⟨hbegan, hlong, value, found, hvalue, hfound, rfl⟩ := verifyTransaction_eq_ok.mp hfields
    obtain ⟨i, hcommitted, hrejected, rfl⟩ := pair_iff.mp ⟨hcounts, hwriter⟩
    obtain ⟨-, rfl⟩ := numericValue_count.mp hwinner
    refine ⟨⟨name, prepareLog, prepare, hprepare, hevent, ?_, ?_⟩, i, hcommitted, hrejected,
      hbegan, hlong, value, hvalue, hfound⟩
    · simpa using hisolated
    · simpa using hhidden
  · rintro ⟨⟨name, prepareLog, prepare, hprepare, hevent, hisolated, hhidden⟩, i, hcommitted,
      hrejected, hbegan, hlong, value, hvalue, hfound⟩
    obtain ⟨hcounts, hwriter⟩ := pair_iff.mpr ⟨i, hcommitted, hrejected, rfl⟩
    have hfields := verifyTransaction_eq_ok.mpr ⟨hbegan, hlong, value, _, hvalue, hfound, rfl⟩
    refine ⟨_, ⟨prepareLog, ⟨name, hprepare⟩, prepare, hevent, _, hrecords, _, ⟨_, rfl⟩, _,
      hverified.mpr ⟨_, hfields, rfl⟩, hcounts, _, hwriter, _,
      numericValue_count.mpr ⟨writer_le, rfl⟩, rfl, rfl⟩, ?_, hcounts.2, ?_, ?_, ?_⟩
    · exact fun hone => by have := i.isLt; dsimp only at hone ⊢; omega
    · simpa using hisolated
    · simpa using hhidden
    · simp

/-! ### Streams -/

/-- The record that the replay has to return at an offset. -/
def expectedRecord (o : Options) (winner offset : ℕ) : StreamRecord :=
  ⟨offset, streamPayload o (if offset = 0 then winner else 0) offset⟩

theorem replayRecord_eq_ok {o : Options} {winner n m : ℕ} {record : StreamRecord} :
    replayRecord o winner n record = .ok m ↔
      record = expectedRecord o winner n ∧ m = n + 1 := by
  obtain ⟨offset, body⟩ := record
  simp only [replayRecord, Check.bind_eq, Check.bind_eq_ok, Check.exists_unit, Check.failIf_eq_ok,
    not_not, assertBytesEqual_eq_ok, Check.pure_eq, Except.ok.injEq, expectedRecord,
    StreamRecord.mk.injEq, and_assoc, @eq_comm _ m]

/-- The replay passes iff it returns the expected records in order. -/
theorem foldlM_replayRecord {o : Options} {winner n m : ℕ} {records : List StreamRecord} :
    records.foldlM (replayRecord o winner) n = .ok m ↔ m = n + records.length ∧
      records = (List.range' n records.length).map (expectedRecord o winner) := by
  induction records generalizing n with
  | nil => simp [eq_comm]
  | cons record records ih =>
    rw [List.foldlM_cons, Check.bind_eq, Check.bind_eq_ok, List.length_cons, List.range'_succ,
      List.map_cons, List.cons.injEq]
    constructor
    · rintro ⟨_, hrecord, hfold⟩
      obtain ⟨rfl, rfl⟩ := replayRecord_eq_ok.mp hrecord
      obtain ⟨rfl, hrest⟩ := ih.mp hfold
      exact ⟨by omega, rfl, hrest⟩
    · rintro ⟨rfl, hrecord, hrest⟩
      exact ⟨n + 1, replayRecord_eq_ok.mpr ⟨hrecord, rfl⟩, ih.mpr ⟨by omega, hrest⟩⟩

theorem foldlM_batches {o : Options} {winner n : ℕ} {batches : List (List StreamRecord)} :
    batches.foldlM (fun n batch => batch.foldlM (replayRecord o winner) n) n =
      batches.flatten.foldlM (replayRecord o winner) n := by
  induction batches generalizing n with
  | nil => rfl
  | cons batch batches ih =>
    rw [List.foldlM_cons, List.flatten_cons, List.foldlM_append]
    exact congrArg _ (funext fun m => ih)

/-- The verifier has found what it reads in the record of the contender. -/
theorem replayWinnerFrom_eq_ok {o : Options} {failure : Option Thrown} {writer : ℕ}
    {batches : List (List StreamRecord)} (h : replayWinnerFrom o failure batches = .ok writer) :
    ∃ batch ∈ batches, batch.head? = some ⟨0, streamPayload o writer 0⟩ := by
  induction batches with
  | nil =>
    simp only [replayWinnerFrom, Check.bind_eq, Check.bind_eq_ok] at h
    obtain ⟨_, -, h⟩ := h
    cases h
  | cons batch batches ih =>
    have hlater : replayWinnerFrom o failure batches = .ok writer → ∃ batch' ∈ batch :: batches,
        batch'.head? = some ⟨0, streamPayload o writer 0⟩ := fun h => by
      obtain ⟨batch', hmem, hhead⟩ := ih h
      exact ⟨batch', List.mem_cons_of_mem _ hmem, hhead⟩
    cases batch with
    | nil => exact hlater h
    | cons first rest =>
      rw [replayWinnerFrom] at h
      split_ifs at h with hoffset
      · exact hlater h
      · refine ⟨_, List.mem_cons_self, ?_⟩
        obtain ⟨offset, body⟩ := first
        cases hwriter : matchingWriter (streamPayload o · 0) body "Stream contention winner" with
        | none =>
          simp only [hwriter] at h
          cases h
        | some found =>
          simp only [hwriter, Except.ok.injEq] at h
          obtain rfl := not_not.mp hoffset
          rw [List.head?_cons, matchingWriter_eq_some hwriter, h]

namespace StreamRun

variable (r : StreamRun)

/-- The verifier finds the record of the contender, and replays what it has appended. -/
structure VerifierFinds (i : Fin 2) : Prop where
  winner : replayWinner r.options r.verifier.winner = .ok (i.val + 1)
  stale : r.verifier.staleBegan = .ok () ∧ ∃ error, r.verifier.staleAppended = .error error ∧
    conflictText.test error.errorMessage = true
  appended : ∀ answer ∈ r.verifier.appends, answer = .ok ()
  replayed : r.verifier.replay.failure = none ∧ r.verifier.replay.batches.flatten =
    (List.range (max 1 r.options.operations)).map (expectedRecord r.options (i.val + 1))
  /-- The host reads safe integers only. -/
  counted : max 1 r.options.operations ≤ maxSafeInteger ∧
    r.verifier.replay.batches.length ≤ maxSafeInteger
  boundaryAppended : ∀ answer ∈ r.verifier.boundaryAppends, answer = .ok ()
  boundary : r.verifier.boundary.failure = none ∧ ∃ offset, r.verifier.boundary.batches.flatten =
    [⟨offset, boundaryPayload r.options.seed 60000⟩]

end StreamRun

theorem assertStaleOffsetConflict_eq_ok {v : StreamVerifier} :
    assertStaleOffsetConflict v = .ok () ↔ v.staleBegan = .ok () ∧
      ∃ error, v.staleAppended = .error error ∧
        conflictText.test error.errorMessage = true := by
  simp only [assertStaleOffsetConflict, Check.bind_eq, Check.bind_eq_ok, Check.exists_unit]
  refine and_congr_right fun _ => ?_
  cases v.staleAppended <;> simp

theorem verifyReplay_eq_ok {o : Options} {v : StreamVerifier} {fields : Record} :
    verifyReplay o v = .ok fields ↔ ∃ winner, replayWinner o v.winner = .ok winner ∧
      assertStaleOffsetConflict v = .ok () ∧ (∀ answer ∈ v.appends, answer = .ok ()) ∧
      (v.replay.failure = none ∧ v.replay.batches.flatten =
        (List.range (max 1 o.operations)).map (expectedRecord o winner)) ∧
      (∀ answer ∈ v.boundaryAppends, answer = .ok ()) ∧
      (v.boundary.failure = none ∧ ∃ offset, v.boundary.batches.flatten =
        [⟨offset, boundaryPayload o.seed 60000⟩]) ∧
      fields = [("winner", .count winner), ("offsetConflicts", .count 1),
        ("records", .count (max 1 o.operations)), ("pages", .count v.replay.batches.length),
        ("boundaryBytes", .count 60000), ("boundaryRecords", .count 1)] := by
  have hbytes : (boundaryPayload o.seed 60000).length = 60000 := length_stateBytes _ _
  simp only [verifyReplay, Check.bind_eq, Check.bind_eq_ok, Check.exists_unit,
    Check.forEach_eq_ok, Check.attempt_eq_ok, Check.failIf_eq_ok, foldlM_batches,
    foldlM_replayRecord, assertBytesEqual_eq_ok, not_not, Check.pure_eq, Except.ok.injEq, id,
    List.range_eq_range', hbytes]
  constructor
  · rintro ⟨winner, hwinner, hstale, happends, observed, ⟨rfl, hreplay⟩, hfailure, htotal,
      hboundaryAppends, hboundary, hboundaryFailure, hone, rfl⟩
    -- The loops count the records, so that the totals are their numbers.
    rw [Nat.zero_add] at htotal
    obtain ⟨⟨offset, body⟩, hsingle⟩ := List.length_eq_one_iff.mp hone
    have hbody := hboundary ⟨offset, body⟩ (by rw [hsingle]; exact List.mem_singleton_self _)
    refine ⟨winner, hwinner, hstale, happends, ⟨hfailure, ?_⟩, hboundaryAppends,
      ⟨hboundaryFailure, offset, ?_⟩, ?_⟩
    · rw [← htotal]
      exact hreplay
    · rw [hsingle]
      exact congrArg (fun body => [StreamRecord.mk offset body]) hbody
    · rw [Nat.zero_add, htotal, hone]
  · rintro ⟨winner, hwinner, hstale, happends, ⟨hfailure, hreplay⟩, hboundaryAppends,
      ⟨hboundaryFailure, offset, hboundary⟩, rfl⟩
    have htotal : v.replay.batches.flatten.length = max 1 o.operations := by
      rw [hreplay, List.length_map, List.length_range']
    refine ⟨winner, hwinner, hstale, happends, _, ⟨rfl, ?_⟩, hfailure, ?_, hboundaryAppends, ?_,
      hboundaryFailure, ?_, ?_⟩
    · rw [htotal]
      exact hreplay
    · rw [Nat.zero_add, htotal]
    · intro record hrecord
      rw [hboundary, List.mem_singleton] at hrecord
      rw [hrecord]
    · rw [hboundary, List.length_singleton]
    · rw [Nat.zero_add, htotal, hboundary, List.length_singleton]

/-- **The verdict on streams** does not ask why the other contender has failed. -/
theorem StreamRun.verdict_passes_iff {r : StreamRun} :
    Check.Passes r.verdict ↔
      ∃ i, r.outcome i = .committed ∧ (r.outcome (other i)).IsRejected ∧ r.VerifierFinds i := by
  have hrecords := @mapM_contenderLog r.contenderLines "stream_replay_contender_ready"
    "stream_replay_contender_complete" r.options.commitAtMs (fun i => (r.contender i).stages)
    (by decide)
  have hverified : ∀ {record}, requiredEvent (verifierLog r.verifierLines
      "stream_replay_complete" (verifyReplay r.options r.verifier))
        "stream_replay_complete" = .ok record ↔ _ := requiredEvent_verifierLog (by decide)
  have hsmall : 60000 ≤ maxSafeInteger ∧ 1 ≤ maxSafeInteger := by decide
  simp only [StreamRun.verdict, analyzeStreamReplay, assertStreamReplay,
    Check.bind_eq, Check.passes_bind, Check.bind_eq_ok, Check.exists_unit,
    Check.failIf_eq_ok, Check.passes_unit, Check.pure_eq, Except.ok.injEq, not_or, not_not]
  constructor
  · rintro ⟨_, ⟨outcomes, houtcomes, hcounts, _, rfl, verified, hverify, writer, hwriter, winner,
      hwinner, rfl, _, -, records, hrecordsCount, pages, hpages, _, -, _, -, rfl⟩, -⟩
    obtain rfl := Except.ok.inj (hrecords.symm.trans houtcomes)
    obtain ⟨_, hfields, rfl⟩ := hverified.mp hverify
    obtain ⟨found, hfound, hstale, happends, hreplayed, hboundaryAppends, hboundary, rfl⟩ :=
      verifyReplay_eq_ok.mp hfields
    obtain ⟨i, hcommitted, hrejected, rfl⟩ := pair_iff.mp ⟨hcounts, hwriter⟩
    obtain ⟨-, rfl⟩ := numericValue_count.mp hwinner
    exact ⟨i, hcommitted, hrejected, hfound, assertStaleOffsetConflict_eq_ok.mp hstale, happends,
      hreplayed, ⟨(numericValue_count.mp hrecordsCount).1, (numericValue_count.mp hpages).1⟩,
      hboundaryAppends, hboundary⟩
  · rintro ⟨i, hcommitted, hrejected, h⟩
    obtain ⟨hcounts, hwriter⟩ := pair_iff.mpr ⟨i, hcommitted, hrejected, rfl⟩
    have hfields := verifyReplay_eq_ok.mpr ⟨_, h.winner,
      assertStaleOffsetConflict_eq_ok.mpr h.stale, h.appended, h.replayed, h.boundaryAppended,
      h.boundary, rfl⟩
    -- There is a record at least, and thus a page.
    have hpages : 1 ≤ r.verifier.replay.batches.length := by
      refine Nat.one_le_iff_ne_zero.mpr fun hzero => ?_
      have hlength := congrArg List.length h.replayed.2
      rw [List.length_eq_zero_iff.mp hzero, List.length_map, List.length_range] at hlength
      simp at hlength
      omega
    refine ⟨_, ⟨_, hrecords, hcounts, _, rfl, _, hverified.mpr ⟨_, hfields, rfl⟩, _, hwriter, _,
      numericValue_count.mpr ⟨writer_le, rfl⟩, rfl, _, numericValue_count.mpr ⟨hsmall.2, rfl⟩, _,
      numericValue_count.mpr ⟨h.counted.1, rfl⟩, _, numericValue_count.mpr ⟨h.counted.2, rfl⟩, _,
      numericValue_count.mpr ⟨hsmall.1, rfl⟩, _, numericValue_count.mpr ⟨hsmall.2, rfl⟩, rfl⟩,
      ?_, hcounts.2, rfl, rfl, Nat.not_lt.mpr hpages, rfl, rfl⟩
    exact fun hone => by have := i.isLt; dsimp only at hone ⊢; omega

/-! ### Genuine conflicts -/

theorem eq_other : ∀ {i j : Fin 2}, j ≠ i → j = other i := by decide

theorem eq_of_committed {o : Fin 2 → ContenderOutcome} {i j : Fin 2}
    (hother : (o (other i)).IsRejected) (h : o j = .committed) : j = i := by
  by_contra hne
  rw [← eq_other hne, h] at hother
  exact not_isRejected_committed hother

/-- A contender that does not commit fails because of the conflict, wherever nothing else makes
the verdict fail. -/
def TransactionRun.OnlyConflicts (r : TransactionRun) : Prop :=
  ∀ i stage rejection, r.Prepared → r.outcome i = .committed → r.VerifierFinds i →
    r.outcome (other i) = .rejected stage rejection → rejection.conflict = true

theorem TransactionRun.certifies_iff {r : TransactionRun} : r.Certifies ↔ r.OnlyConflicts := by
  rw [TransactionRun.Certifies, verdict_passes_iff]
  constructor
  · intro h i stage rejection hprepared hcommitted hfinds hrejected
    have hother : (r.outcome (other i)).IsRejected := ⟨stage, rejection, hrejected⟩
    obtain ⟨j, hcommitted', -, stage', rejection', hrejected', hconflict⟩ :=
      h ⟨hprepared, i, hcommitted, hother, hfinds⟩
    obtain rfl := eq_of_committed hother hcommitted'
    rw [hrejected] at hrejected'
    exact (ContenderOutcome.rejected.inj hrejected').2 ▸ hconflict
  · rintro h ⟨hprepared, i, hcommitted, ⟨stage, rejection, hrejected⟩, hfinds⟩
    have hconflict := h i stage rejection hprepared hcommitted hfinds hrejected
    obtain ⟨-, -, value, hvalue, hwriter⟩ := hfinds
    rw [matchingWriter_eq_some hwriter] at hvalue
    exact ⟨i, hcommitted, hvalue, stage, rejection, hrejected, hconflict⟩

/-- A contender that does not commit fails because of the conflict, wherever nothing else makes
the verdict fail. -/
def StreamRun.OnlyConflicts (r : StreamRun) : Prop :=
  ∀ i stage rejection, r.outcome i = .committed → r.VerifierFinds i →
    r.outcome (other i) = .rejected stage rejection → rejection.conflict = true

theorem StreamRun.certifies_iff {r : StreamRun} : r.Certifies ↔ r.OnlyConflicts := by
  rw [StreamRun.Certifies, verdict_passes_iff]
  constructor
  · intro h i stage rejection hcommitted hfinds hrejected
    have hother : (r.outcome (other i)).IsRejected := ⟨stage, rejection, hrejected⟩
    obtain ⟨j, hcommitted', -, stage', rejection', hrejected', hconflict⟩ :=
      h ⟨i, hcommitted, hother, hfinds⟩
    obtain rfl := eq_of_committed hother hcommitted'
    rw [hrejected] at hrejected'
    exact (ContenderOutcome.rejected.inj hrejected').2 ▸ hconflict
  · rintro h ⟨i, hcommitted, ⟨stage, rejection, hrejected⟩, hfinds⟩
    exact ⟨i, hcommitted, replayWinnerFrom_eq_ok hfinds.winner, stage, rejection, hrejected,
      h i stage rejection hcommitted hfinds hrejected⟩

/-- **Both verdicts** accept genuine conflicts only iff no contender fails for another reason. -/
theorem contention_certifies_iff (kv : TransactionRun) (stream : StreamRun) :
    (kv.Certifies ↔ kv.OnlyConflicts) ∧ (stream.Certifies ↔ stream.OnlyConflicts) :=
  ⟨TransactionRun.certifies_iff, StreamRun.certifies_iff⟩

/-! ### A contender that times out -/

/-- The begin of a transaction times out. -/
def timeout : Rejection :=
  ⟨.error "TimeoutError" "The operation was aborted due to timeout" none, false⟩

def fewBytes : Options := ⟨"run", 1, 32, 1, 0⟩

/-- The first contender commits, the second times out before the race. -/
def timeoutRun : TransactionRun where
  options := fewBytes
  prepareLogs := [("prepare", [logLine "transaction_prepare_complete"
    [("rollbackIsolated", .bool true), ("deleteHidden", .bool true)]])]
  contender := fun i => ⟨if i.val = 0 then .ok () else .error timeout, .ok true, .ok (), .ok ()⟩
  verifier := ⟨.ok (), .ok none, .ok (some (transactionPayload fewBytes 1))⟩
  contenderLines := fun _ => ⟨[], []⟩
  verifierLines := ⟨[], []⟩

theorem matchingWriter_one (payload : ℕ → List UInt8) (context : String) :
    matchingWriter payload (payload 1) context = some 1 := by
  have hequal : assertBytesEqual (payload 1) (payload 1) context = .ok () :=
    assertBytesEqual_eq_ok.mpr rfl
  simp [matchingWriter, hequal, Except.isOk, Except.toBool]

/-- **A timeout counts as a conflict.** -/
theorem not_certifies_timeoutRun : ¬timeoutRun.Certifies := by
  intro h
  have hrejected : timeoutRun.outcome (other 0) = .rejected "begin" timeout := rfl
  have hprepared : timeoutRun.Prepared := ⟨_, _, _, rfl, rfl, rfl, rfl⟩
  have hfinds : timeoutRun.VerifierFinds 0 :=
    ⟨rfl, rfl, _, rfl, matchingWriter_one _ _⟩
  obtain ⟨i, hcommitted, -, stage, rejection, hother, hconflict⟩ :=
    h (TransactionRun.verdict_passes_iff.mpr ⟨hprepared, 0, rfl, ⟨_, _, hrejected⟩, hfinds⟩)
  obtain rfl := eq_of_committed ⟨_, _, hrejected⟩ hcommitted
  rw [hrejected] at hother
  rw [← (ContenderOutcome.rejected.inj hother).2] at hconflict
  cases hconflict

end Contention

end FitzDestroyer
