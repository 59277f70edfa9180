import FitzDestroyer.Recovery.Model

/-!
# What the recovery checks decide

`verifyRecoveryWorkload` reads a queue up to the number of entries that were written, scans a
table from the keys that were written, and collects the schedules in a map.

* `Exact` : the state is the one after the load;
* `InPlace` : what was written is in its place, and what else there is is where the checks do not
  look;
* `verifyRecoveryWorkload_iff` : the checks pass iff what was written is in its place;
* `verifyRecoveryWorkload_decides_iff` : when they decide that the state is exact.
-/

namespace FitzDestroyer

namespace Recovery

open Js Workload

/-! ### Keys -/

theorem values_kvKey (entry : ℕ) :
    (kvKey entry).values = ("key-".toList ++ pad entry 8).map Char.toNat := by
  have hascii : ∀ c ∈ "key-".toList ++ pad entry 8, c.toNat < 128 := by
    intro c hc
    have hkey : ∀ c ∈ "key-".toList, c.toNat < 128 := by decide
    rcases List.mem_append.mp hc with hc | hc
    · exact hkey c hc
    · have := isDigit_iff.mp (isDigit_of_mem_pad hc)
      omega
  have htext : (s!"key-{String.ofList (pad entry 8)}").toList = "key-".toList ++ pad entry 8 := by
    simp [toString]
  rw [Key.values, kvKey, map_toNat_encode (htext ▸ hascii), htext]

/-- Keys are ordered as their entries. -/
theorem kvKey_lt {i j : ℕ} (hij : i < j) (hj : j < 10 ^ 8) : kvKey i < kvKey j := by
  rw [Key.lt_iff, values_kvKey, values_kvKey, List.map_append, List.map_append]
  refine List.append_left_lt ((List.lt_iff_lex_lt _ _).mpr (lex_of_ofDigitChars_lt ?_ ?_ ?_ ?_))
  · rw [length_pad (by decide) (hij.trans hj), length_pad (by decide) hj]
  · exact fun c hc => isDigit_of_mem_pad hc
  · exact fun c hc => isDigit_of_mem_pad hc
  · rwa [ofDigitChars_pad, ofDigitChars_pad]

theorem kvKey_le {i j : ℕ} (hij : i ≤ j) (hj : j < 10 ^ 8) : kvKey i ≤ kvKey j := by
  rcases hij.eq_or_lt with rfl | hij
  · exact le_rfl
  · exact (kvKey_lt hij hj).le

/-! ### The load -/

theorem flatten_batchesFrom (count start : ℕ) :
    (batchesFrom count start).flatten = List.range' start (count - start) := by
  fun_induction batchesFrom count start with
  | case1 start hlt ih =>
    rw [List.flatten_cons, ih]
    rcases Nat.le_total count (start + mutationBatchSize) with hle | hle
    · rw [Nat.min_eq_left hle, Nat.sub_eq_zero_of_le hle, List.range'_zero, List.append_nil]
    · have hsum : mutationBatchSize + (count - (start + mutationBatchSize)) = count - start := by
        omega
      rw [Nat.min_eq_right hle, Nat.add_sub_cancel_left, List.range'_append_1, hsum]
  | case2 start hle =>
    rw [Nat.sub_eq_zero_of_le (not_lt.mp hle), List.range'_zero, List.flatten_nil]

/-- The entry of a table that `loadKv` writes. -/
def kvItem (shape : WorkloadShape) (resource entry : ℕ) : Key × List UInt8 :=
  (kvKey entry, shape.payload .kv resource entry)

/-- The record of a stream that `loadStream` writes. -/
def streamItem (shape : WorkloadShape) (resource entry : ℕ) : StreamRecord :=
  ⟨entry, shape.payload .stream resource entry⟩

theorem loadStream_eq (shape : WorkloadShape) (resource : ℕ) : loadStream shape resource =
    (List.range shape.entriesPerResource).map (streamItem shape resource) := by
  have hflat : loadStream shape resource =
      (batchesFrom shape.entriesPerResource 0).flatten.map (streamItem shape resource) := by
    rw [loadStream, List.map_flatten, List.flatMap_def]
    rfl
  rw [hflat, flatten_batchesFrom, List.range_eq_range']
  rfl

theorem loadKv_entries {shape : WorkloadShape} (hentries : shape.entriesPerResource < 10 ^ 8)
    (resource : ℕ) : (loadKv shape resource).entries =
      (List.range shape.entriesPerResource).map (kvItem shape resource) := by
  have hflat : loadKv shape resource = (batchesFrom shape.entriesPerResource 0).flatten.foldl
      (fun table entry => table.put (kvKey entry) (shape.payload .kv resource entry)) .empty := by
    rw [loadKv, List.foldl_flatten]
  have hputs : ∀ n < 10 ^ 8, ((List.range n).foldl (fun table entry =>
      table.put (kvKey entry) (shape.payload .kv resource entry)) Table.empty).entries =
        (List.range n).map (kvItem shape resource) := by
    intro n hn
    induction n with
    | zero => rfl
    | succ n ih =>
      have hlast := ih (Nat.lt_of_succ_lt hn)
      rw [List.range_succ, List.foldl_concat, Table.put_of_lt, hlast, List.map_append]
      · rfl
      · intro p hp
        rw [hlast] at hp
        obtain ⟨i, hi, rfl⟩ := List.mem_map.mp hp
        exact kvKey_lt (List.mem_range.mp hi) (Nat.lt_of_succ_lt hn)
  rw [hflat, flatten_batchesFrom, Nat.sub_zero, ← List.range_eq_range']
  exact hputs _ hentries

/-! ### Queues -/

theorem verifyQueueItem_eq_ok {shape : WorkloadShape} {resource : ℕ} (observed : ℕ)
    (body : List UInt8) : verifyQueueItem shape resource observed body = .ok () ↔
      body = shape.payload .queue resource observed := assertBytesEqual_eq_ok

/-- The loop passes iff the queue starts with the payloads that are left. -/
theorem verifyQueueFrom_eq_ok {shape : WorkloadShape} {resource : ℕ} {sizes : ℕ → ℕ}
    {observed : ℕ} {queue : List (List UInt8)} :
    verifyQueueFrom shape resource sizes observed queue = .ok () ↔
      (List.range' observed (shape.entriesPerResource - observed)).map
        (shape.payload .queue resource) <+: queue := by
  induction hleft : shape.entriesPerResource - observed using Nat.strong_induction_on
    generalizing observed queue with
  | _ left ih =>
    subst hleft
    rw [verifyQueueFrom]
    dsimp only
    split_ifs with hlt hempty
    · -- No items: the queue is empty.
      rw [answer_eq_nil (by omega)] at hempty
      subst hempty
      refine iff_of_false (by simp) fun hpre => ?_
      have := hpre.length_le
      rw [List.length_map, List.length_range', List.length_nil] at this
      omega
    · have hpos := List.length_pos_iff.mpr hempty
      rw [@answer_prefix_iff _ _ _ (sizes observed) _ _ _ (min_le_right 1024 _)]
      split
      · rename_i error herror
        refine iff_of_false (by simp) fun h => ?_
        rw [(Check.forEachFrom_eq_ok verifyQueueItem_eq_ok).mpr ⟨rfl, h.1⟩] at herror
        cases herror
      · rename_i observed' hok
        rw [Check.forEachFrom_eq_ok verifyQueueItem_eq_ok] at hok
        obtain ⟨rfl, hitems⟩ := hok
        rw [ih _ (by omega) rfl, ← Nat.sub_sub]
        exact ⟨fun h => ⟨hitems, h⟩, fun h => h.2⟩
    · rw [Nat.sub_eq_zero_of_le (not_lt.mp hlt)]
      exact iff_of_true rfl List.nil_prefix

/-! ### Tables -/

/-- The entries from which a table is scanned, up to the scan for what follows the last one. -/
def scanStarts (count : ℕ) (sizes : ℕ → ℕ) (observed : ℕ) : List ℕ :=
  observed ::
    if observed < count then
      scanStarts count sizes
        (observed + min (min readBatchSize (count - observed)) (max 1 (sizes observed)))
    else []
termination_by count - observed
decreasing_by simp only [readBatchSize]; omega

/-- The key is between the entry before a scan and the start of the scan. -/
def Hidden (starts : List ℕ) (key : Key) : Prop :=
  ∃ i ∈ starts, key < kvKey i ∧ ∀ j < i, kvKey j < key

theorem le_of_mem_scanStarts {count : ℕ} {sizes : ℕ → ℕ} {observed i : ℕ}
    (h : i ∈ scanStarts count sizes observed) : observed ≤ i := by
  fun_induction scanStarts count sizes observed with
  | case1 observed ih =>
    rcases List.mem_cons.mp h with rfl | h
    · exact le_rfl
    · split_ifs at h with hlt
      · exact (Nat.le_add_right _ _).trans (ih hlt h)
      · exact absurd h List.not_mem_nil

theorem self_mem_scanStarts (count : ℕ) (sizes : ℕ → ℕ) (observed : ℕ) :
    observed ∈ scanStarts count sizes observed := by
  rw [scanStarts]
  exact List.mem_cons_self

theorem verifyKvItem_eq_ok {shape : WorkloadShape} {resource : ℕ} (observed : ℕ)
    (item : Key × List UInt8) :
    verifyKvItem shape resource observed item = .ok () ↔ item = kvItem shape resource observed := by
  have hkey : item.1.bytes = (kvKey observed).bytes ↔ item.1 = kvKey observed :=
    ⟨fun h => by cases hitem : item.1; rw [hitem] at h; exact congrArg Key.mk h,
      fun h => congrArg Key.bytes h⟩
  simp only [verifyKvItem, Check.bind_eq, Check.seq_eq_ok, assertBytesEqual_eq_ok, hkey]
  rw [kvItem, Prod.ext_iff]

/-- What the scans from an entry on have to find: the entries that were written, and between them
only keys that no scan reads. -/
structure Scanned (shape : WorkloadShape) (resource : ℕ) (sizes : ℕ → ℕ)
    (table : Table Key (List UInt8)) (observed : ℕ) : Prop where
  written : ∀ i, observed ≤ i → i < shape.entriesPerResource →
    kvItem shape resource i ∈ table.entries
  others : ∀ p ∈ table.entries, kvKey observed ≤ p.1 →
    (∃ i, observed ≤ i ∧ i < shape.entriesPerResource ∧ p = kvItem shape resource i) ∨
      ∃ i ∈ scanStarts shape.entriesPerResource sizes observed,
        observed < i ∧ p.1 < kvKey i ∧ ∀ j < i, kvKey j < p.1

section Tables

variable {shape : WorkloadShape} {resource : ℕ} {sizes : ℕ → ℕ} {table : Table Key (List UInt8)}

theorem keysIncrease_kvItems (shape : WorkloadShape) (resource : ℕ) {observed count : ℕ}
    (h : observed + count ≤ 10 ^ 8) :
    KeysIncrease ((List.range' observed count).map (kvItem shape resource)) := by
  rw [KeysIncrease, List.pairwise_map]
  refine List.Pairwise.imp_of_mem (fun _ hj hij => kvKey_lt hij ?_) List.pairwise_lt_range'
  have := (List.mem_range'_1.mp hj).2
  omega

/-- A page that is right, and what the later scans find. -/
theorem scanned_iff_page (hentries : shape.entriesPerResource < 10 ^ 8) {observed k : ℕ}
    (hlt : observed < shape.entriesPerResource)
    (hk : k = min (min readBatchSize (shape.entriesPerResource - observed))
      (max 1 (sizes observed))) :
    Scanned shape resource sizes table observed ↔
      (List.range' observed k).map (kvItem shape resource) <+: table.scan (kvKey observed) ∧
        Scanned shape resource sizes table (observed + k) := by
  have hkpos : 0 < k := by simp only [readBatchSize] at hk; omega
  have hkle : observed + k ≤ shape.entriesPerResource := by omega
  have hstarts : scanStarts shape.entriesPerResource sizes observed =
      observed :: scanStarts shape.entriesPerResource sizes (observed + k) := by
    rw [scanStarts, if_pos hlt, hk]
  have hitem : ∀ {p}, p ∈ (List.range' observed k).map (kvItem shape resource) ↔
      ∃ i, (observed ≤ i ∧ i < observed + k) ∧ kvItem shape resource i = p := by
    intro p
    simp only [List.mem_map, List.mem_range'_1]
  rw [Table.prefix_iff (keysIncrease_kvItems shape resource (by omega))
    (table.keysIncrease_scan _)]
  constructor
  · rintro ⟨hwritten, hothers⟩
    refine ⟨⟨fun p hp => ?_, fun p hp => ?_⟩, fun i hi hin => hwritten i (by omega) hin,
      fun p hp hkey => ?_⟩
    · obtain ⟨i, ⟨hi, hik⟩, rfl⟩ := hitem.mp hp
      exact Table.mem_scan.mpr ⟨hwritten i hi (by omega), kvKey_le hi (by omega)⟩
    · obtain ⟨hp, hkey⟩ := Table.mem_scan.mp hp
      rcases hothers p hp hkey with ⟨i, hi, hin, rfl⟩ | ⟨i, hmem, hoi, hpi, hj⟩
      · by_cases hik : i < observed + k
        · exact .inl (hitem.mpr ⟨i, ⟨hi, hik⟩, rfl⟩)
        · refine .inr fun q hq => ?_
          obtain ⟨j, ⟨-, hjk⟩, rfl⟩ := hitem.mp hq
          exact kvKey_lt (by omega) (by omega)
      · -- A key that no scan reads comes after the page.
        refine .inr fun q hq => ?_
        obtain ⟨j, ⟨-, hjk⟩, rfl⟩ := hitem.mp hq
        rw [hstarts] at hmem
        have hle := le_of_mem_scanStarts ((List.mem_cons.mp hmem).resolve_left (by omega))
        exact hj j (by omega)
    · have hkey' : kvKey observed ≤ p.1 := (kvKey_le (by omega) (by omega)).trans hkey
      rcases hothers p hp hkey' with ⟨i, hi, hin, rfl⟩ | ⟨i, hmem, hoi, hpi, hj⟩
      · refine .inl ⟨i, ?_, hin, rfl⟩
        by_contra hik
        exact absurd hkey (kvKey_lt (by omega) (by omega)).not_ge
      · rw [hstarts] at hmem
        have hmem' := (List.mem_cons.mp hmem).resolve_left (by omega)
        refine .inr ⟨i, hmem', lt_of_le_of_ne (le_of_mem_scanStarts hmem') ?_, hpi, hj⟩
        rintro rfl
        exact absurd hkey hpi.not_ge
  · rintro ⟨⟨hpage, hafter⟩, hwritten, hothers⟩
    refine ⟨fun i hi hin => ?_, fun p hp hkey => ?_⟩
    · by_cases hik : i < observed + k
      · exact (Table.mem_scan.mp (hpage _ (hitem.mpr ⟨i, ⟨hi, hik⟩, rfl⟩))).1
      · exact hwritten i (by omega) hin
    · rcases hafter p (Table.mem_scan.mpr ⟨hp, hkey⟩) with hmem | hgreater
      · obtain ⟨i, ⟨hi, hik⟩, rfl⟩ := hitem.mp hmem
        exact .inl ⟨i, hi, by omega, rfl⟩
      · by_cases hnext : kvKey (observed + k) ≤ p.1
        · rcases hothers p hp hnext with ⟨i, hi, hin, rfl⟩ | ⟨i, hmem, hoi, hpi, hj⟩
          · exact .inl ⟨i, by omega, hin, rfl⟩
          · exact .inr ⟨i, hstarts ▸ List.mem_cons_of_mem _ hmem, by omega, hpi, hj⟩
        · -- The key is before the start of the next scan.
          refine .inr ⟨observed + k, hstarts ▸ List.mem_cons_of_mem _ (self_mem_scanStarts _ _ _),
            by omega, not_le.mp hnext, fun j hj => ?_⟩
          have hlast := hgreater _ (hitem.mpr ⟨observed + k - 1, ⟨by omega, by omega⟩, rfl⟩)
          exact (kvKey_le (by omega) (by omega)).trans_lt hlast

/-- The scans pass iff they find what they have to find. -/
theorem verifyKvFrom_iff (hentries : shape.entriesPerResource < 10 ^ 8) {observed : ℕ}
    (hle : observed ≤ shape.entriesPerResource) :
    verifyKvFrom shape resource sizes table observed = .ok () ∧
        table.scan (kvKey shape.entriesPerResource) = [] ↔
      Scanned shape resource sizes table observed := by
  induction hleft : shape.entriesPerResource - observed using Nat.strong_induction_on
    generalizing observed with
  | _ left ih =>
    subst hleft
    rw [verifyKvFrom]
    dsimp only
    split_ifs with hlt hempty
    · -- No entries: the next one is missing.
      refine iff_of_false (fun h => by simp at h) fun hscanned => ?_
      rw [answer_eq_nil (by simp only [readBatchSize]; omega)] at hempty
      have hmem : kvItem shape resource observed ∈ table.scan (kvKey observed) :=
        Table.mem_scan.mpr ⟨hscanned.written observed le_rfl hlt, le_rfl⟩
      rw [hempty] at hmem
      exact absurd hmem List.not_mem_nil
    · obtain ⟨k, hk⟩ : ∃ k, k = min (min readBatchSize (shape.entriesPerResource - observed))
        (max 1 (sizes observed)) := ⟨_, rfl⟩
      have hpage : answer (min readBatchSize (shape.entriesPerResource - observed))
          (sizes observed) (table.scan (kvKey observed)) =
            (table.scan (kvKey observed)).take k := by rw [answer, hk]
      rw [hpage] at hempty ⊢
      have hpos := List.length_pos_iff.mpr hempty
      have hkpos : 0 < k := by simp only [readBatchSize] at hk; omega
      have hkle : observed + k ≤ shape.entriesPerResource := by omega
      rw [scanned_iff_page hentries hlt hk]
      split
      · rename_i error herror
        refine iff_of_false (fun h => by simp at h) fun h => ?_
        have htake : (table.scan (kvKey observed)).take k =
            (List.range' observed k).map (kvItem shape resource) := by
          obtain ⟨rest, hrest⟩ := h.1
          rw [← hrest, List.take_left' (by rw [List.length_map, List.length_range'])]
        rw [htake, (Check.forEachFrom_eq_ok verifyKvItem_eq_ok).mpr
          ⟨rfl, by rw [List.length_map, List.length_range']⟩] at herror
        cases herror
      · rename_i observed' hok
        rw [Check.forEachFrom_eq_ok verifyKvItem_eq_ok] at hok
        obtain ⟨rfl, hitems⟩ := hok
        have hlek : ((table.scan (kvKey observed)).take k).length ≤ k := by
          rw [List.length_take]
          exact min_le_left _ _
        rw [ih _ (by omega) (by omega) rfl]
        constructor
        · intro hscanned
          -- A short page is the last one, so that the next entry would be missing.
          have hlength : ((table.scan (kvKey observed)).take k).length = k := by
            by_contra hshort
            have hnext := hscanned.written _ le_rfl (by omega)
            have hmem := Table.mem_scan.mpr ⟨hnext, kvKey_le (Nat.le_add_right observed _)
              (by omega)⟩
            have hall : (table.scan (kvKey observed)).take k = table.scan (kvKey observed) := by
              rw [List.take_eq_self_iff]
              rw [List.length_take] at hshort
              omega
            have hread : ∀ p ∈ table.scan (kvKey observed), ∃ i,
                i < observed + ((table.scan (kvKey observed)).take k).length ∧
                  kvItem shape resource i = p := by
              intro p hp
              rw [← hall, hitems] at hp
              obtain ⟨i, hi, heq⟩ := List.mem_map.mp hp
              exact ⟨i, (List.mem_range'_1.mp hi).2, heq⟩
            obtain ⟨i, hi, heq⟩ := hread _ hmem
            exact absurd (congrArg Prod.fst heq) (kvKey_lt hi (by omega)).ne
          rw [hlength] at hitems hscanned
          exact ⟨hitems ▸ List.take_prefix _ _, hscanned⟩
        · rintro ⟨hpre, hscanned⟩
          have hlength : ((table.scan (kvKey observed)).take k).length = k := by
            have := hpre.length_le
            rw [List.length_map, List.length_range'] at this
            rw [List.length_take]
            omega
          rwa [hlength]
    · obtain rfl : observed = shape.entriesPerResource := hle.antisymm (not_lt.mp hlt)
      constructor
      · rintro ⟨-, hscan⟩
        refine ⟨fun i hi hin => absurd hin hi.not_gt, fun p hp hkey => ?_⟩
        have hmem := Table.mem_scan.mpr ⟨hp, hkey⟩
        rw [hscan] at hmem
        exact absurd hmem List.not_mem_nil
      · intro hscanned
        refine ⟨rfl, List.eq_nil_iff_forall_not_mem.mpr fun p hp => ?_⟩
        obtain ⟨hp, hkey⟩ := Table.mem_scan.mp hp
        rcases hscanned.others p hp hkey with ⟨i, hi, hin, -⟩ | ⟨i, hmem, hoi, -⟩
        · exact absurd hin hi.not_gt
        · rw [scanStarts, if_neg (lt_irrefl _), List.mem_singleton] at hmem
          exact absurd hmem hoi.ne'

/-- The checks of a table pass iff it has the entries that were written, and other keys only where
no scan reads. -/
theorem verifyKv_eq_ok (hentries : shape.entriesPerResource < 10 ^ 8) :
    verifyKv shape sizes table resource = .ok () ↔
      (∀ i < shape.entriesPerResource, kvItem shape resource i ∈ table.entries) ∧
        ∀ p ∈ table.entries, (∃ i < shape.entriesPerResource, p = kvItem shape resource i) ∨
          Hidden (scanStarts shape.entriesPerResource sizes 0) p.1 := by
  have hextra : answer 1 1 (table.scan (kvKey shape.entriesPerResource)) ≠ [] ↔
      table.scan (kvKey shape.entriesPerResource) ≠ [] := not_congr (answer_eq_nil Nat.one_pos)
  simp only [verifyKv, Check.bind_eq, Check.seq_eq_ok, Check.failIf_eq_ok, hextra, not_not]
  rw [verifyKvFrom_iff hentries (Nat.zero_le _)]
  constructor
  · rintro ⟨hwritten, hothers⟩
    refine ⟨fun i hi => hwritten i (Nat.zero_le i) hi, fun p hp => ?_⟩
    by_cases hkey : kvKey 0 ≤ p.1
    · rcases hothers p hp hkey with ⟨i, -, hi, rfl⟩ | ⟨i, hmem, -, hpi, hj⟩
      · exact .inl ⟨i, hi, rfl⟩
      · exact .inr ⟨i, hmem, hpi, hj⟩
    · exact .inr ⟨0, self_mem_scanStarts _ _ _, not_le.mp hkey,
        fun j hj => absurd hj (Nat.not_lt_zero j)⟩
  · rintro ⟨hwritten, hothers⟩
    refine ⟨fun i _ hi => hwritten i hi, fun p hp hkey => ?_⟩
    rcases hothers p hp with ⟨i, hi, rfl⟩ | ⟨i, hmem, hpi, hj⟩
    · exact .inl ⟨i, Nat.zero_le i, hi, rfl⟩
    · refine .inr ⟨i, hmem, Nat.pos_of_ne_zero ?_, hpi, hj⟩
      rintro rfl
      exact absurd hkey hpi.not_ge

end Tables

/-! ### Streams -/

theorem verifyStreamRecord_eq_ok {shape : WorkloadShape} {resource : ℕ} (observed : ℕ)
    (record : StreamRecord) : verifyStreamRecord shape resource observed record = .ok () ↔
      record = streamItem shape resource observed := by
  simp only [verifyStreamRecord, Check.bind_eq, Check.seq_eq_ok, Check.failIf_eq_ok,
    assertBytesEqual_eq_ok, not_not, ne_eq]
  exact (StreamRecord.ext_iff (y := streamItem shape resource observed)).symm

/-- The checks of a stream pass iff it is the one that was written. -/
theorem verifyStream_eq_ok {shape : WorkloadShape} {sizes : List ℕ}
    {records : List StreamRecord} {resource : ℕ} :
    verifyStream shape sizes records resource = .ok () ↔ records = loadStream shape resource := by
  rw [verifyStream, Check.foldlM_forEachFrom, flatten_cut, Check.bind_eq, Check.bind_eq_ok,
    loadStream_eq]
  simp only [Check.forEachFrom_eq_ok verifyStreamRecord_eq_ok, Check.failIf_eq_ok, not_not,
    ne_eq, Nat.zero_add]
  constructor
  · rintro ⟨_, ⟨rfl, hrecords⟩, hcount⟩
    rw [hrecords, hcount, List.range_eq_range']
  · intro h
    have hlength : records.length = shape.entriesPerResource := by
      rw [h, List.length_map, List.length_range]
    refine ⟨_, ⟨rfl, ?_⟩, hlength⟩
    rw [hlength, ← List.range_eq_range', h]

/-! ### Schedules -/

theorem toList_scheduleRoute (shape : WorkloadShape) (r e : ℕ) :
    (scheduleRoute shape r e).toList =
      (s!"schedule://destroyer/{shape.namespaceName}/schedule-").toList ++
        (pad r 4 ++ '/' :: ("job-".toList ++ pad e 8)) := by
  have hjob : "/job-".toList = '/' :: "job-".toList := by decide
  unfold scheduleRoute
  simp only [String.toList_append, String.toList_ofList, toString, hjob, List.append_assoc,
    List.cons_append]

theorem slash_not_mem_pad (value width : ℕ) : '/' ∉ pad value width :=
  fun hmem => absurd (isDigit_of_mem_pad hmem) (by decide)

theorem scheduleRoute_inj {shape : WorkloadShape} {r e r' e' : ℕ} :
    scheduleRoute shape r e = scheduleRoute shape r' e' ↔ r = r' ∧ e = e' := by
  constructor
  · intro h
    have hjob : '/' ∉ "job-".toList ++ pad e 8 := fun hmem =>
      (List.mem_append.mp hmem).elim (by decide) (slash_not_mem_pad e 8)
    have htext := congrArg String.toList h
    rw [toList_scheduleRoute, toList_scheduleRoute, List.append_cancel_left_eq,
      List.append_cons_inj_of_notMem (slash_not_mem_pad r 4) hjob] at htext
    obtain ⟨hr, -, he⟩ := htext
    rw [List.append_cancel_left_eq] at he
    exact ⟨pad_inj hr, pad_inj he⟩
  · rintro ⟨rfl, rfl⟩
    rfl

/-- The last schedule that is listed for a route. -/
def listed (schedules : List ScheduleEntry) (route : String) : Option ScheduleEntry :=
  schedules.reverse.find? fun entry => entry.route = route

theorem observedSchedules_cut (sizes : List ℕ) (schedules : List ScheduleEntry) :
    observedSchedules (cut sizes schedules) = .ofValues (·.route) schedules := by
  nth_rewrite 2 [← flatten_cut sizes schedules]
  rw [JsMap.ofValues, List.foldl_flatten]
  rfl

theorem listed_route {schedules : List ScheduleEntry} {route : String} {entry : ScheduleEntry}
    (h : listed schedules route = some entry) : entry ∈ schedules ∧ entry.route = route := by
  refine ⟨List.mem_reverse.mp (List.mem_of_find?_eq_some h), ?_⟩
  simpa using List.find?_some h

theorem listed_isSome {schedules : List ScheduleEntry} {route : String} :
    (listed schedules route).isSome ↔ route ∈ schedules.map (·.route) := by
  simp [listed, List.find?_isSome]

/-- Without a route that is listed twice, every schedule is the last of its route. -/
theorem listed_eq_some {schedules : List ScheduleEntry} (h : (schedules.map (·.route)).Nodup)
    {route : String} {entry : ScheduleEntry} :
    listed schedules route = some entry ↔ entry ∈ schedules ∧ entry.route = route := by
  refine ⟨listed_route, fun ⟨hmem, hroute⟩ => ?_⟩
  obtain ⟨entry', hentry'⟩ := Option.isSome_iff_exists.mp
    (listed_isSome.mpr (List.mem_map.mpr ⟨entry, hmem, hroute⟩))
  obtain ⟨hmem', hroute'⟩ := listed_route hentry'
  rw [hentry', List.inj_on_of_nodup_map h hmem' hmem (hroute'.trans hroute.symm)]

/-- A listing is a permutation of schedules with different routes iff it has, for every route, the
same schedule, and no route twice. -/
theorem perm_iff_listed {xs ys : List ScheduleEntry} (hys : (ys.map (·.route)).Nodup) :
    xs.Perm ys ↔ (∀ route, listed xs route = listed ys route) ∧ (xs.map (·.route)).Nodup := by
  constructor
  · intro hperm
    have hxs : (xs.map (·.route)).Nodup := (hperm.map _).nodup_iff.mpr hys
    refine ⟨fun route => Option.ext fun entry => ?_, hxs⟩
    rw [listed_eq_some hxs, listed_eq_some hys, hperm.mem_iff]
  · rintro ⟨hlisted, hxs⟩
    rw [List.perm_ext_iff_of_nodup hxs.of_map hys.of_map]
    intro entry
    have hx := @listed_eq_some _ hxs entry.route entry
    have hy := @listed_eq_some _ hys entry.route entry
    rw [hlisted] at hx
    simpa using hx.symm.trans hy

section Schedules

variable {shape : WorkloadShape}

theorem mem_loaded_schedule {entry : ScheduleEntry} :
    entry ∈ (loadRecoveryWorkload shape).schedule ↔
      ∃ r < shape.resources, ∃ e < shape.entriesPerResource, scheduleEntry shape r e = entry := by
  simp [loadRecoveryWorkload, loadSchedules]

theorem nodup_loaded_routes :
    ((loadRecoveryWorkload shape).schedule.map (·.route)).Nodup := by
  have hroutes : (loadRecoveryWorkload shape).schedule.map (·.route) =
      (List.range shape.resources).flatMap fun r =>
        (List.range shape.entriesPerResource).map (scheduleRoute shape r) := by
    rw [loadRecoveryWorkload, List.map_flatMap]
    simp only [loadSchedules, List.map_map]
    rfl
  rw [hroutes, List.nodup_flatMap]
  constructor
  · intro r _
    exact List.nodup_range.map fun e e' h => (scheduleRoute_inj.mp h).2
  · refine List.nodup_range.imp fun hne => ?_
    intro route h h'
    obtain ⟨e, -, rfl⟩ := List.mem_map.mp h
    obtain ⟨e', -, heq⟩ := List.mem_map.mp h'
    exact hne (scheduleRoute_inj.mp heq).1.symm

theorem card_loaded_routes : ((loadRecoveryWorkload shape).schedule.map
    (·.route)).toFinset.card = shape.resources * shape.entriesPerResource := by
  rw [List.toFinset_card_of_nodup nodup_loaded_routes, List.length_map, loadRecoveryWorkload,
    List.length_flatMap]
  simp [loadSchedules]

theorem verifySchedule_eq_ok {observed : JsMap String ScheduleEntry} {resource entry : ℕ}
    (hroute : ∀ actual, observed.get? (scheduleRoute shape resource entry) = some actual →
      actual.route = scheduleRoute shape resource entry) :
    verifySchedule shape observed resource entry = .ok () ↔
      observed.get? (scheduleRoute shape resource entry) =
        some (scheduleEntry shape resource entry) := by
  unfold verifySchedule
  dsimp only
  cases hget : observed.get? (scheduleRoute shape resource entry) with
  | none => simp
  | some actual =>
    simp only [Check.bind_eq, Check.seq_eq_ok, Check.failIf_eq_ok, assertBytesEqual_eq_ok, not_or,
      not_not, ne_eq, Option.some.injEq]
    rw [ScheduleEntry.ext_iff, hroute actual hget]
    constructor
    · rintro ⟨⟨hcron, hmode⟩, hpayload⟩
      exact ⟨rfl, hcron, hmode, hpayload⟩
    · rintro ⟨-, hcron, hmode, hpayload⟩
      exact ⟨⟨hcron, hmode⟩, hpayload⟩

/-- The checks of the schedules pass iff the last schedule of every route is the one that was
created. -/
theorem verifySchedules_eq_ok {sizes : List ℕ} {schedules : List ScheduleEntry} :
    verifySchedules shape sizes schedules = .ok () ↔
      ∀ route, listed schedules route = listed (loadRecoveryWorkload shape).schedule route := by
  have hget : ∀ route, (observedSchedules (cut sizes schedules)).get? route =
      listed schedules route := by
    intro route
    rw [observedSchedules_cut, JsMap.get?_ofValues]
    rfl
  have hcheck : ∀ r e, verifySchedule shape (observedSchedules (cut sizes schedules)) r e = .ok () ↔
      listed schedules (scheduleRoute shape r e) = some (scheduleEntry shape r e) := by
    intro r e
    rw [verifySchedule_eq_ok fun actual h => (listed_route (hget _ ▸ h)).2, hget]
  have hmem : ∀ r < shape.resources, ∀ e < shape.entriesPerResource,
      listed (loadRecoveryWorkload shape).schedule (scheduleRoute shape r e) =
        some (scheduleEntry shape r e) := fun r hr e he =>
    (listed_eq_some nodup_loaded_routes).mpr ⟨mem_loaded_schedule.mpr ⟨r, hr, e, he, rfl⟩, rfl⟩
  simp only [verifySchedules, Check.bind_eq, Check.seq_eq_ok, Check.failIf_eq_ok,
    Check.forEach_eq_ok, List.mem_range, hcheck, not_not, ne_eq]
  rw [observedSchedules_cut, JsMap.size_ofValues, ← card_loaded_routes]
  constructor
  · rintro ⟨hsize, hlisted⟩
    -- The sizes agree, so that no other route is listed.
    have hsub : ((loadRecoveryWorkload shape).schedule.map (·.route)).toFinset ⊆
        (schedules.map (·.route)).toFinset := by
      intro route hroute
      rw [List.mem_toFinset] at hroute ⊢
      obtain ⟨entry, hentry, rfl⟩ := List.mem_map.mp hroute
      obtain ⟨r, hr, e, he, rfl⟩ := mem_loaded_schedule.mp hentry
      refine listed_isSome.mp ?_
      have := hlisted r hr e he
      rw [scheduleEntry, this]
      rfl
    have hroutes := Finset.eq_of_subset_of_card_le hsub hsize.le
    intro route
    by_cases hroute : route ∈ (loadRecoveryWorkload shape).schedule.map (·.route)
    · obtain ⟨entry, hentry, rfl⟩ := List.mem_map.mp hroute
      obtain ⟨r, hr, e, he, rfl⟩ := mem_loaded_schedule.mp hentry
      exact (hlisted r hr e he).trans (hmem r hr e he).symm
    · have hroute' : route ∉ schedules.map (·.route) := by
        rwa [← List.mem_toFinset, ← hroutes, List.mem_toFinset]
      rw [← listed_isSome, Option.not_isSome_iff_eq_none] at hroute hroute'
      rw [hroute, hroute']
  · intro hlisted
    refine ⟨?_, fun r hr e he => (hlisted _).trans (hmem r hr e he)⟩
    congr 1
    ext route
    rw [List.mem_toFinset, List.mem_toFinset, ← listed_isSome, ← listed_isSome, hlisted]

end Schedules

/-! ### The whole state -/

section State

variable {shape : WorkloadShape} {paging : Paging} {state : DurableState}

/-- The state is the one after the load; the order in which schedules are listed is free. -/
structure Exact (shape : WorkloadShape) (state : DurableState) : Prop where
  queue : ∀ r < shape.resources, state.queue r = (loadRecoveryWorkload shape).queue r
  kv : ∀ r < shape.resources, state.kv r = (loadRecoveryWorkload shape).kv r
  stream : ∀ r < shape.resources, state.stream r = (loadRecoveryWorkload shape).stream r
  schedule : state.schedule.Perm (loadRecoveryWorkload shape).schedule

/-- What was written is in its place: at the start of its queue, in its table, in its stream, and
in the last schedule that is listed for its route.  What else there is comes later in a queue, has
a key that no scan reads, or is a schedule that is listed before another one of its route. -/
structure InPlace (shape : WorkloadShape) (paging : Paging) (state : DurableState) : Prop where
  queue : ∀ r < shape.resources, (loadRecoveryWorkload shape).queue r <+: state.queue r
  kv : ∀ r < shape.resources,
    (∀ p ∈ ((loadRecoveryWorkload shape).kv r).entries, p ∈ (state.kv r).entries) ∧
      ∀ p ∈ (state.kv r).entries, p ∈ ((loadRecoveryWorkload shape).kv r).entries ∨
        Hidden (scanStarts shape.entriesPerResource (paging.scan r) 0) p.1
  stream : ∀ r < shape.resources, state.stream r = (loadRecoveryWorkload shape).stream r
  schedule : ∀ route,
    listed state.schedule route = listed (loadRecoveryWorkload shape).schedule route

/-- There is nothing where the checks do not look. -/
structure NothingElse (shape : WorkloadShape) (paging : Paging) (state : DurableState) : Prop where
  queue : ∀ r < shape.resources, (state.queue r).length ≤ shape.entriesPerResource
  kv : ∀ r < shape.resources, ∀ p ∈ (state.kv r).entries,
    ¬Hidden (scanStarts shape.entriesPerResource (paging.scan r) 0) p.1
  schedule : (state.schedule.map (·.route)).Nodup

theorem verifyQueue_eq_ok {sizes : ℕ → ℕ} {queue : List (List UInt8)} {resource : ℕ} :
    verifyQueue shape sizes queue resource = .ok () ↔ loadQueue shape resource <+: queue := by
  rw [verifyQueue, verifyQueueFrom_eq_ok, Nat.sub_zero, ← List.range_eq_range', loadQueue]

theorem mem_loadKv (hentries : shape.entriesPerResource < 10 ^ 8) {resource : ℕ}
    {p : Key × List UInt8} : p ∈ (loadKv shape resource).entries ↔
      ∃ i < shape.entriesPerResource, p = kvItem shape resource i := by
  rw [loadKv_entries hentries]
  simp [eq_comm]

/-- **The checks pass** iff what was written is in its place. -/
theorem verifyRecoveryWorkload_iff (hentries : shape.entriesPerResource < 10 ^ 8) :
    Check.Passes (verifyRecoveryWorkload shape paging state) ↔ InPlace shape paging state := by
  simp only [verifyRecoveryWorkload, runResourceOperationsSequentially, Check.bind_eq,
    Check.passes_seq, Check.forEach_eq_ok, List.mem_range, verifyQueue_eq_ok,
    verifyKv_eq_ok hentries, verifyStream_eq_ok, verifySchedules_eq_ok, Check.pure_eq,
    Check.passes_ok, and_true]
  have hkv : ∀ r, ((∀ i < shape.entriesPerResource, kvItem shape r i ∈ (state.kv r).entries) ∧
      ∀ p ∈ (state.kv r).entries, (∃ i < shape.entriesPerResource, p = kvItem shape r i) ∨
        Hidden (scanStarts shape.entriesPerResource (paging.scan r) 0) p.1) ↔
      (∀ p ∈ (loadKv shape r).entries, p ∈ (state.kv r).entries) ∧
        ∀ p ∈ (state.kv r).entries, p ∈ (loadKv shape r).entries ∨
          Hidden (scanStarts shape.entriesPerResource (paging.scan r) 0) p.1 := by
    intro r
    simp only [mem_loadKv hentries]
    refine and_congr_left fun _ => ⟨?_, fun h i hi => h _ ⟨i, hi, rfl⟩⟩
    rintro h p ⟨i, hi, rfl⟩
    exact h i hi
  simp only [hkv]
  constructor
  · rintro ⟨hqueue, hkv, hstream, hschedule⟩
    exact ⟨hqueue, hkv, hstream, hschedule⟩
  · rintro ⟨hqueue, hkv, hstream, hschedule⟩
    exact ⟨hqueue, hkv, hstream, hschedule⟩

/-- A key that was written is read. -/
theorem not_hidden_kvKey {count i : ℕ} (hcount : count < 10 ^ 8) (hi : i < count)
    (sizes : ℕ → ℕ) : ¬Hidden (scanStarts count sizes 0) (kvKey i) := by
  rintro ⟨start, -, hlt, hbefore⟩
  by_cases hstart : start ≤ i
  · exact absurd hlt (kvKey_le hstart (hi.trans hcount)).not_gt
  · exact absurd (hbefore i (not_le.mp hstart)) (lt_irrefl _)

theorem exact_iff (hentries : shape.entriesPerResource < 10 ^ 8) :
    Exact shape state ↔ InPlace shape paging state ∧ NothingElse shape paging state := by
  have hlength : ∀ r, ((loadRecoveryWorkload shape).queue r).length =
      shape.entriesPerResource := by
    intro r
    change (loadQueue shape r).length = _
    rw [loadQueue, List.length_map, List.length_range]
  constructor
  · rintro ⟨hqueue, hkv, hstream, hschedule⟩
    obtain ⟨hlisted, hnodup⟩ := (perm_iff_listed nodup_loaded_routes).mp hschedule
    refine ⟨⟨fun r hr => ?_, fun r hr => ?_, hstream, hlisted⟩, fun r hr => ?_, fun r hr => ?_,
      hnodup⟩
    · rw [hqueue r hr]
    · rw [hkv r hr]
      exact ⟨fun _ hp => hp, fun _ hp => .inl hp⟩
    · rw [hqueue r hr, hlength]
    · rw [hkv r hr]
      intro p hp
      obtain ⟨i, hi, rfl⟩ := (mem_loadKv hentries).mp hp
      exact not_hidden_kvKey hentries hi _
  · rintro ⟨⟨hqueue, hkv, hstream, hlisted⟩, hlong, hhidden, hnodup⟩
    refine ⟨fun r hr => ?_, fun r hr => Table.ext_mem fun p => ?_, hstream,
      (perm_iff_listed nodup_loaded_routes).mpr ⟨hlisted, hnodup⟩⟩
    · exact ((hqueue r hr).eq_of_length_le ((hlong r hr).trans (hlength r).ge)).symm
    · exact ⟨fun hp => ((hkv r hr).2 p hp).resolve_right (hhidden r hr p hp), (hkv r hr).1 p⟩

/-- **The checks decide** whether the state is the one after the load iff, once what was written
is in its place, there is nothing where they do not look. -/
theorem verifyRecoveryWorkload_decides_iff (hentries : shape.entriesPerResource < 10 ^ 8) :
    (Check.Passes (verifyRecoveryWorkload shape paging state) ↔ Exact shape state) ↔
      (InPlace shape paging state → NothingElse shape paging state) := by
  rw [verifyRecoveryWorkload_iff hentries, exact_iff hentries]
  exact ⟨fun h hplace => (h.mp hplace).2, fun h => ⟨fun hplace => ⟨hplace, h hplace⟩, And.left⟩⟩

end State

/-- A workload of one entry. -/
def smallShape : WorkloadShape where
  namespaceName := "run"
  seed := 1
  resources := 1
  entriesPerResource := 1
  payloadBytes := 32

/-- Pages of one item. -/
def smallPaging : Paging := ⟨fun _ _ => 1, fun _ _ => 1, fun _ => [1], [1]⟩

/-- The state after the load, with the item of the queue a second time. -/
def redelivered : DurableState :=
  { loadRecoveryWorkload smallShape with
    queue := fun r => loadQueue smallShape r ++ loadQueue smallShape r }

theorem verifyRecoveryWorkload_decides_loaded :
    (Check.Passes (verifyRecoveryWorkload smallShape smallPaging
        (loadRecoveryWorkload smallShape)) ↔
      Exact smallShape (loadRecoveryWorkload smallShape)) ↔
    (InPlace smallShape smallPaging (loadRecoveryWorkload smallShape) →
      NothingElse smallShape smallPaging (loadRecoveryWorkload smallShape)) :=
  verifyRecoveryWorkload_decides_iff (by decide)

theorem not_verifyRecoveryWorkload_redelivered :
    ¬(Check.Passes (verifyRecoveryWorkload smallShape smallPaging redelivered) ↔
      Exact smallShape redelivered) := by
  have hentries : smallShape.entriesPerResource < 10 ^ 8 := by decide
  have hloaded : Exact smallShape (loadRecoveryWorkload smallShape) :=
    ⟨fun _ _ => rfl, fun _ _ => rfl, fun _ _ => rfl, .refl _⟩
  have hplace : InPlace smallShape smallPaging redelivered :=
    { (exact_iff hentries).mp hloaded |>.1 with queue := fun _ _ => List.prefix_append _ _ }
  rw [verifyRecoveryWorkload_iff hentries]
  intro h
  have hlength := congrArg List.length ((h.mp hplace).queue 0 (by decide))
  exact absurd hlength (by decide +kernel)

end Recovery

end FitzDestroyer
