import FitzDestroyer.StreamSelector.Conformance
import Mathlib.Data.List.Perm.Subperm

/-!
# What the selector conformance decides

* `Right` : the broker answers every read as it should;
* `Counted` : what the workload counts is as it should be;
* `ItemsRight` : what the broker returns is right, item by item;
* `passes_iff` : the workload passes iff what it counts is as it should be;
* `streamSelector_detects_iff` : when it passes only if the broker answers every read as it should.
-/

namespace FitzDestroyer

namespace StreamSelector

open Js Workload

/-! ### Right answers -/

/-- The items of the batches of a read. -/
def Read.items (r : Read) : List StreamReadItem := r.batches.flatMap Batch.items

/-- The records of the batches of a read. -/
def Read.records (r : Read) : List StreamRecord := r.batches.flatMap Batch.records

def StreamReadItem.record? : StreamReadItem → Option StreamRecord
  | .event record => some record
  | .filteredRange _ _ => none

/-- The offsets that an item leaves out. -/
def StreamReadItem.covered : StreamReadItem → List ℤ
  | .event _ => []
  | .filteredRange fromOffset toOffset =>
    (List.range (toOffset - fromOffset + 1).toNat).map fun i : ℕ => fromOffset + i

def events (items : List StreamReadItem) : List StreamRecord :=
  items.filterMap StreamReadItem.record?

def covered (items : List StreamReadItem) : List ℤ := items.flatMap StreamReadItem.covered

/-- What is written of a record. -/
structure Written where
  route : String
  offset : ℤ
  body : List UInt8
  deriving DecidableEq, Repr

def StreamRecord.written (record : StreamRecord) : Written :=
  ⟨record.route, record.offset, record.body⟩

/-- The record that is written at an offset of a route: the one of the kind `keep` at 0, the one of
the kind `drop` at 1. -/
def writtenAt (r : StreamRoute) (offset : ℕ) : Written := ⟨r.text, offset, payload r.text offset⟩

/-- The records of the two routes are numbered together on the axis. -/
def sameAxis : CursorAxis → StreamRoute → StreamRoute → Bool
  | .resource, r, r' => r = r'
  | .area, r, r' => r.realm = r'.realm && r.area = r'.area
  | .realm, r, r' => r.realm = r'.realm
  | .global, _, _ => true

/-- The offset on an axis of the record at an offset of a route: the number of records on the axis
that are written before it. -/
def axisOffset (namespaceName : String) (axis : CursorAxis) (r : StreamRoute) (offset : ℕ) : ℤ :=
  let before := (streamRoutes namespaceName).takeWhile (· ≠ r)
  2 * before.countP (sameAxis axis r ·) + offset

/-- The written routes that a selector matches. -/
def matched (namespaceName : String) (selector : Selector) : List StreamRoute :=
  (streamRoutes namespaceName).filter (selector.isMatch ·)

/-- The next offsets of the batches increase. -/
def Advances : ℤ → List Batch → Prop
  | _, [] => True
  | previousOffset, batch :: batches => batch.fromOffset < batch.nextOffset ∧
      previousOffset < batch.nextOffset ∧ Advances batch.nextOffset batches

/-- The replay of a selector is right. -/
structure CaseRight (namespaceName : String) (c : SelectorCase) (r : Read) : Prop where
  visible : ((events r.items).map StreamRecord.written).Perm
    ((matched namespaceName c.selector).map (writtenAt · 0))
  filtered : (covered r.items).Perm
    ((matched namespaceName c.selector).map (axisOffset namespaceName c.axis · 1))
  advances : Advances (-1) r.batches

/-- The records of the continued replay. -/
def continuation (b : Broker) : List StreamRecord :=
  match b.firstRead.batches with
  | batch :: _ => batch.records ++ (b.secondRead batch.nextOffset).records
  | [] => (b.secondRead 0).records

/-- All records that are written. -/
def allWritten (namespaceName : String) : List Written :=
  (streamRoutes namespaceName).flatMap fun r => [writtenAt r 0, writtenAt r 1]

/-- The broker answers every read as it should. -/
structure Right (namespaceName : String) (b : Broker) : Prop where
  replay : ∀ c ∈ streamSelectorCases namespaceName, CaseRight namespaceName c (b.replay c)
  continued : ((continuation b).map StreamRecord.written).Perm (allWritten namespaceName)

/-! ### Item by item -/

/-- The items of a replay are right by themselves: the events are visible records of matching routes
as they are written, and the ranges cover filtered records of matching routes, none of them
twice. -/
structure CaseItemsRight (namespaceName : String) (c : SelectorCase) (items : List StreamReadItem) :
    Prop where
  visible : ∀ record ∈ events items,
    ∃ r ∈ matched namespaceName c.selector, record.written = writtenAt r 0
  filtered : ∀ x ∈ covered items,
    ∃ r ∈ matched namespaceName c.selector, x = axisOffset namespaceName c.axis r 1
  once : (covered items).Nodup

/-- What the broker returns is right, item by item. -/
structure ItemsRight (namespaceName : String) (b : Broker) : Prop where
  replay : ∀ c ∈ streamSelectorCases namespaceName,
    CaseItemsRight namespaceName c (b.replay c).items
  continued : ∀ record ∈ continuation b, record.written ∈ allWritten namespaceName
  once : ((continuation b).map StreamRecord.written).Nodup

/-- Different items that belong to a list, as many as it has, are the items of the list. -/
theorem perm_of_nodup {α : Type} {xs ys : List α} (hnodup : xs.Nodup) (hsub : ∀ x ∈ xs, x ∈ ys)
    (hlength : ys.length ≤ xs.length) : xs.Perm ys :=
  (List.subperm_of_subset hnodup hsub).perm_of_length_le hlength

section Routes

variable {namespaceName : String}

theorem realm_ne (namespaceName : String) : ¬(s!"{namespaceName}-a" = s!"{namespaceName}-b") := by
  intro h
  have hlist := congrArg String.toList h
  simp [toString] at hlist

theorem text_injOn : ∀ r ∈ streamRoutes namespaceName, ∀ r' ∈ streamRoutes namespaceName,
    r.text = r'.text → r = r' := by
  intro r hr r' hr' h
  have hlist := congrArg String.toList h
  simp only [streamRoutes, List.mem_cons, List.not_mem_nil, or_false] at hr hr'
  obtain rfl | rfl | rfl | rfl := hr <;> obtain rfl | rfl | rfl | rfl := hr' <;>
    first | rfl | simp [StreamRoute.text, toString] at hlist

theorem nodup_streamRoutes : (streamRoutes namespaceName).Nodup := by
  have hrealm := realm_ne namespaceName
  simp [streamRoutes, hrealm]

/-- The number of routes that a selector of the run matches. -/
theorem length_matched {c : SelectorCase} (hc : c ∈ streamSelectorCases namespaceName) :
    (matched namespaceName c.selector).length = c.expectedRecords / 2 := by
  have hrealm := realm_ne namespaceName
  have hrealm' := Ne.symm hrealm
  simp only [streamSelectorCases, List.mem_cons, List.not_mem_nil, or_false] at hc
  obtain rfl | rfl | rfl | rfl | rfl | rfl | rfl | rfl := hc <;>
    simp [matched, streamRoutes, Selector.isMatch, Selector.segmentMatches, hrealm, hrealm']

/-- The filtered records that a selector of the run matches have different offsets. -/
theorem nodup_axisOffsets {c : SelectorCase} (hc : c ∈ streamSelectorCases namespaceName) :
    ((matched namespaceName c.selector).map (axisOffset namespaceName c.axis · 1)).Nodup := by
  have hrealm := realm_ne namespaceName
  have hrealm' := Ne.symm hrealm
  simp only [streamSelectorCases, List.mem_cons, List.not_mem_nil, or_false] at hc
  obtain rfl | rfl | rfl | rfl | rfl | rfl | rfl | rfl := hc <;>
    simp [matched, streamRoutes, Selector.isMatch, Selector.segmentMatches, axisOffset, sameAxis,
      List.takeWhile, hrealm, hrealm']

theorem nodup_allWritten : (allWritten namespaceName).Nodup := by
  have hoffsets : ∀ r, writtenAt r 0 ≠ writtenAt r 1 := fun r h => by
    simpa [writtenAt] using congrArg Written.offset h
  rw [allWritten, List.nodup_flatMap]
  refine ⟨fun r _ => by simp [hoffsets r], ?_⟩
  refine List.Pairwise.imp_of_mem ?_ nodup_streamRoutes
  intro r r' hr hr' hne w hw hw'
  have hroute : ∀ {r}, w ∈ [writtenAt r 0, writtenAt r 1] → w.route = r.text := by
    intro r hw
    simp only [List.mem_cons, List.not_mem_nil, or_false] at hw
    obtain rfl | rfl := hw <;> rfl
  exact hne (text_injOn r hr r' hr' ((hroute hw).symm.trans (hroute hw')))

end Routes

/-! ### What the workload counts -/

/-- The spans of some items. -/
def spans (items : List StreamReadItem) : List Number := items.map itemSpan

/-- The spans of the ranges among some items. -/
def rangeSpans (items : List StreamReadItem) : List Number :=
  (items.filter (·.record?.isNone)).map itemSpan

def addAll (x : Number) (xs : List Number) : Number := xs.foldl Number.add x

/-- What the workload counts in a replay is as it should be. -/
structure CaseCounted (c : SelectorCase) (r : Read) : Prop where
  error : r.error = none
  advances : Advances (-1) r.batches
  axis : ∀ record ∈ events r.items, record.offsetOn c.axis ≠ none
  caughtUp : r.batches.getLast?.map Batch.caughtUp = some true
  visible : (events r.items).length = c.expectedRecords / 2
  filtered : addAll (0 : ℕ) (rangeSpans r.items) = (c.expectedRecords / 2 : ℕ)
  once : ((events r.items).map identity).Nodup

/-- What the workload counts in a run is as it should be, and no operation throws. -/
structure Counted (namespaceName : String) (b : Broker) : Prop where
  writes : ∀ r ∈ streamRoutes namespaceName, ∀ i < 4, b.sessionError r i = none
  replay : ∀ c ∈ streamSelectorCases namespaceName, CaseCounted c (b.replay c)
  cursorAdvances : addAll (0 : ℕ) ((streamSelectorCases namespaceName).flatMap fun c =>
    spans (b.replay c).items) = (42 : ℕ)
  connections : (b.firstConnectError = none ∧ b.firstCloseError = none) ∧
    b.secondConnectError = none ∧ b.secondCloseError = none
  continued : ∃ batch batches, b.firstRead.batches = batch :: batches ∧
    (b.secondRead batch.nextOffset).error = none ∧ batch.records.length = 1 ∧
      batch.records.length + (b.secondRead batch.nextOffset).records.length = 8

/-- How many identities have been seen before. -/
def duplicates : Finset String → List String → ℕ
  | _, [] => 0
  | seen, x :: xs => (if x ∈ seen then 1 else 0) + duplicates (insert x seen) xs

theorem duplicates_append (seen : Finset String) (xs ys : List String) :
    duplicates seen (xs ++ ys) = duplicates seen xs + duplicates (seen ∪ xs.toFinset) ys := by
  induction xs generalizing seen with
  | nil => simp [duplicates]
  | cons x xs ih =>
    rw [List.cons_append, duplicates, duplicates, ih, List.toFinset_cons, Finset.union_insert,
      Finset.insert_union, Nat.add_assoc]

theorem duplicates_eq_zero {seen : Finset String} {xs : List String} :
    duplicates seen xs = 0 ↔ xs.Nodup ∧ ∀ x ∈ xs, x ∉ seen := by
  induction xs generalizing seen with
  | nil => simp [duplicates]
  | cons x xs ih =>
    rw [duplicates, Nat.add_eq_zero_iff, ih, List.nodup_cons, List.forall_mem_cons]
    simp only [Finset.mem_insert, not_or, ite_eq_right_iff, one_ne_zero, imp_false]
    constructor
    · rintro ⟨hx, hnodup, hxs⟩
      exact ⟨⟨fun hmem => (hxs x hmem).1 rfl, hnodup⟩, hx, fun y hy => (hxs y hy).2⟩
    · rintro ⟨⟨hnew, hnodup⟩, hx, hxs⟩
      exact ⟨hx, hnodup, fun y hy => ⟨fun heq => hnew (heq ▸ hy), hxs y hy⟩⟩

theorem events_append (xs ys : List StreamReadItem) :
    events (xs ++ ys) = events xs ++ events ys := List.filterMap_append

theorem rangeSpans_append (xs ys : List StreamReadItem) :
    rangeSpans (xs ++ ys) = rangeSpans xs ++ rangeSpans ys := by
  rw [rangeSpans, List.filter_append, List.map_append]
  rfl

theorem addAll_append (x : Number) (xs ys : List Number) :
    addAll x (xs ++ ys) = addAll (addAll x xs) ys := List.foldl_append

/-- How the variables of a replay change when it reads some items. -/
structure Reads (s : ReplayState) (items : List StreamReadItem) (s' : ReplayState) : Prop where
  visible : s'.visible = s.visible + (events items).length
  filtered : s'.filtered = addAll s.filtered (rangeSpans items)
  cursorAdvances : s'.cursorAdvances = addAll s.cursorAdvances (spans items)
  seen : s'.seen = s.seen ∪ ((events items).map identity).toFinset
  duplicateRecords :
    s'.duplicateRecords = s.duplicateRecords + duplicates s.seen ((events items).map identity)

theorem Reads.refl (s : ReplayState) : Reads s [] s := ⟨rfl, rfl, rfl, by simp [events], rfl⟩

theorem Reads.trans {s s' s'' : ReplayState} {xs ys : List StreamReadItem} (h : Reads s xs s')
    (h' : Reads s' ys s'') : Reads s (xs ++ ys) s'' where
  visible := by rw [h'.visible, h.visible, events_append, List.length_append, Nat.add_assoc]
  filtered := by rw [h'.filtered, h.filtered, rangeSpans_append, addAll_append]
  cursorAdvances := by
    rw [h'.cursorAdvances, h.cursorAdvances, spans, spans, spans, List.map_append, addAll_append]
  seen := by
    rw [h'.seen, h.seen, events_append, List.map_append, List.toFinset_append, Finset.union_assoc]
  duplicateRecords := by
    rw [h'.duplicateRecords, h.duplicateRecords, h.seen, events_append, List.map_append,
      duplicates_append, Nat.add_assoc]

/-- What a replay does not depend on among the variables: the batch that it reads. -/
theorem Reads.of_batch {s s' : ReplayState} {items : List StreamReadItem} {offset : ℤ}
    {caughtUp : Bool} (h : Reads { s with previousOffset := offset, caughtUp } items s') :
    Reads s items s' :=
  ⟨h.visible, h.filtered, h.cursorAdvances, h.seen, h.duplicateRecords⟩

section Replay

variable {c : SelectorCase} {s s' : ReplayState}

theorem onItem_event {record : StreamRecord} : onItem c s (.event record) = .ok s' ↔
    record.offsetOn c.axis ≠ none ∧ s' = { s with
      cursorAdvances := s.cursorAdvances.add (itemSpan (.event record))
      duplicateRecords :=
        if identity record ∈ s.seen then s.duplicateRecords + 1 else s.duplicateRecords
      seen := insert (identity record) s.seen
      visible := s.visible + 1 } := by
  simp only [onItem, assertAxis, Check.bind_eq, Check.seq_eq_ok, Check.failIf_eq_ok,
    Check.pure_eq, Except.ok.injEq, ne_eq, eq_comm (a := s')]

theorem onItem_range {fromOffset toOffset : ℤ} :
    onItem c s (.filteredRange fromOffset toOffset) = .ok s' ↔ s' = { s with
      cursorAdvances := s.cursorAdvances.add (itemSpan (.filteredRange fromOffset toOffset))
      filtered := s.filtered.add (itemSpan (.filteredRange fromOffset toOffset)) } := by
  simp only [onItem, Check.pure_eq, Except.ok.injEq, eq_comm (a := s')]

/-- What an item changes, when it passes. -/
theorem onItem_sound {item : StreamReadItem} (h : onItem c s item = .ok s') :
    (∀ record ∈ events [item], record.offsetOn c.axis ≠ none) ∧ Reads s [item] s' ∧
      s'.previousOffset = s.previousOffset ∧ s'.caughtUp = s.caughtUp := by
  cases item with
  | event record =>
    obtain ⟨haxis, rfl⟩ := onItem_event.mp h
    have hevents : events [.event record] = [record] := rfl
    refine ⟨by simpa [hevents] using haxis, ⟨rfl, rfl, rfl, ?_, ?_⟩, rfl, rfl⟩
    · ext x
      simp [hevents]
    · simp only [hevents, List.map_singleton, duplicates, Nat.add_zero]
      split_ifs <;> rfl
  | filteredRange fromOffset toOffset =>
    obtain rfl := onItem_range.mp h
    have hevents : events [.filteredRange fromOffset toOffset] = [] := rfl
    exact ⟨by simp [hevents], ⟨rfl, rfl, rfl, by simp [hevents], rfl⟩, rfl, rfl⟩

theorem onItem_complete {item : StreamReadItem}
    (h : ∀ record ∈ events [item], record.offsetOn c.axis ≠ none) :
    Check.Passes (onItem c s item) := by
  cases item with
  | event record => exact ⟨_, onItem_event.mpr ⟨h record List.mem_cons_self, rfl⟩⟩
  | filteredRange fromOffset toOffset => exact ⟨_, onItem_range.mpr rfl⟩

/-- What the items of a batch change, when they pass. -/
theorem foldlM_onItem_sound {items : List StreamReadItem}
    (h : items.foldlM (onItem c) s = .ok s') :
    (∀ record ∈ events items, record.offsetOn c.axis ≠ none) ∧ Reads s items s' ∧
      s'.previousOffset = s.previousOffset ∧ s'.caughtUp = s.caughtUp := by
  induction items generalizing s with
  | nil =>
    obtain rfl := Except.ok.inj h
    exact ⟨fun _ hr => absurd hr List.not_mem_nil, .refl s, rfl, rfl⟩
  | cons item items ih =>
    rw [List.foldlM_cons, Check.bind_eq, Check.bind_eq_ok] at h
    obtain ⟨s₁, hitem, hitems⟩ := h
    obtain ⟨haxis, hreads, hprevious, hcaughtUp⟩ := onItem_sound hitem
    obtain ⟨haxis', hreads', hprevious', hcaughtUp'⟩ := ih hitems
    refine ⟨?_, hreads.trans hreads', hprevious'.trans hprevious, hcaughtUp'.trans hcaughtUp⟩
    rw [← List.singleton_append, events_append, List.forall_mem_append]
    exact ⟨haxis, haxis'⟩

theorem foldlM_onItem_complete {items : List StreamReadItem}
    (h : ∀ record ∈ events items, record.offsetOn c.axis ≠ none) :
    Check.Passes (items.foldlM (onItem c) s) := by
  induction items generalizing s with
  | nil => exact Check.passes_ok s
  | cons item items ih =>
    rw [← List.singleton_append, events_append, List.forall_mem_append] at h
    obtain ⟨s₁, hs₁⟩ := @onItem_complete c s item h.1
    rw [List.foldlM_cons, Check.bind_eq, hs₁]
    exact ih h.2

/-- The batches of a replay pass iff the cursor advances and the records have their offsets. -/
theorem passes_foldlM_onBatch {batches : List Batch} :
    Check.Passes (batches.foldlM (onBatch c) s) ↔ Advances s.previousOffset batches ∧
      ∀ record ∈ events (batches.flatMap Batch.items), record.offsetOn c.axis ≠ none := by
  induction batches generalizing s with
  | nil => simp [Advances, events]
  | cons batch batches ih =>
    rw [List.foldlM_cons, Check.bind_eq, Check.passes_bind, List.flatMap_cons, events_append,
      List.forall_mem_append, Advances]
    simp only [onBatch, Check.bind_eq, Check.seq_eq_ok, Check.failIf_eq_ok, not_or, not_le]
    constructor
    · rintro ⟨s₁, ⟨⟨hfrom, hprevious⟩, hitems⟩, hrest⟩
      obtain ⟨haxis, -, hnext, -⟩ := foldlM_onItem_sound hitems
      obtain ⟨hadvances, haxis'⟩ := ih.mp hrest
      rw [hnext] at hadvances
      exact ⟨⟨hfrom, hprevious, hadvances⟩, haxis, haxis'⟩
    · rintro ⟨⟨hfrom, hprevious, hadvances⟩, haxis, haxis'⟩
      obtain ⟨s₁, hitems⟩ := @foldlM_onItem_complete c
        { s with previousOffset := batch.nextOffset, caughtUp := batch.caughtUp } _ haxis
      obtain ⟨-, -, hnext, -⟩ := foldlM_onItem_sound hitems
      refine ⟨s₁, ⟨⟨hfrom, hprevious⟩, hitems⟩, ih.mpr ⟨?_, haxis'⟩⟩
      rw [hnext]
      exact hadvances

/-- What the batches of a replay change, when they pass. -/
theorem foldlM_onBatch_sound {batches : List Batch}
    (h : batches.foldlM (onBatch c) s = .ok s') :
    Reads s (batches.flatMap Batch.items) s' ∧
      s'.caughtUp = (batches.getLast?.map Batch.caughtUp).getD s.caughtUp := by
  induction batches generalizing s with
  | nil =>
    obtain rfl := Except.ok.inj h
    exact ⟨.refl s, rfl⟩
  | cons batch batches ih =>
    simp only [List.foldlM_cons, Check.bind_eq, Check.bind_eq_ok, onBatch] at h
    obtain ⟨s₁, ⟨-, -, hitems⟩, hrest⟩ := h
    obtain ⟨-, hreads, -, hcaughtUp⟩ := foldlM_onItem_sound hitems
    obtain ⟨hreads', hlast⟩ := ih hrest
    rw [hcaughtUp] at hlast
    rw [List.flatMap_cons, List.getLast?_cons]
    refine ⟨hreads.of_batch.trans hreads', hlast.trans ?_⟩
    cases batches.getLast? <;> rfl

end Replay

/-! ### The counters of a run -/

/-- The replay does not throw. -/
structure CaseRuns (c : SelectorCase) (r : Read) : Prop where
  error : r.error = none
  advances : Advances (-1) r.batches
  axis : ∀ record ∈ events r.items, record.offsetOn c.axis ≠ none

/-- The replay ends, with as many visible records and filtered offsets as there should be. -/
def CaseComplete (c : SelectorCase) (r : Read) : Prop :=
  r.batches.getLast?.map Batch.caughtUp = some true ∧
    (events r.items).length = c.expectedRecords / 2 ∧
      addAll (0 : ℕ) (rangeSpans r.items) = (c.expectedRecords / 2 : ℕ)

instance (c : SelectorCase) (r : Read) : Decidable (CaseComplete c r) :=
  inferInstanceAs (Decidable (_ ∧ _))

/-- The counters after a replay. -/
def tally (b : Broker) (k : Counters) (c : SelectorCase) : Counters where
  visibleRecords := k.visibleRecords + (events (b.replay c).items).length
  filteredOffsets := k.filteredOffsets.add (addAll (0 : ℕ) (rangeSpans (b.replay c).items))
  cursorAdvances := addAll k.cursorAdvances (spans (b.replay c).items)
  duplicateRecords :=
    k.duplicateRecords + duplicates ∅ ((events (b.replay c).items).map identity)
  missingRecords :=
    if CaseComplete c (b.replay c) then k.missingRecords else k.missingRecords + 1

section Counters

variable {b : Broker} {k k' : Counters}

theorem caseCounted_iff {c : SelectorCase} {r : Read} : CaseCounted c r ↔ CaseRuns c r ∧
    CaseComplete c r ∧ duplicates ∅ ((events r.items).map identity) = 0 := by
  rw [duplicates_eq_zero]
  constructor
  · intro h
    exact ⟨⟨h.error, h.advances, h.axis⟩, ⟨h.caughtUp, h.visible, h.filtered⟩, h.once,
      fun _ _ => Finset.notMem_empty _⟩
  · rintro ⟨⟨herror, hadvances, haxis⟩, ⟨hcaughtUp, hvisible, hfiltered⟩, honce, -⟩
    exact ⟨herror, hadvances, haxis, hcaughtUp, hvisible, hfiltered, honce⟩

theorem runCase_eq_ok {c : SelectorCase} :
    runCase b k c = .ok k' ↔ CaseRuns c (b.replay c) ∧ k' = tally b k c := by
  have hpasses := @passes_foldlM_onBatch c (.start k) (b.replay c).batches
  rw [runCase, Check.bind_eq, Check.bind_eq_ok]
  simp only [Check.bind_eq, Check.seq_eq_ok, Check.attempt_eq_ok, Check.pure_eq, Except.ok.injEq]
  -- The counters that the replay leaves.
  have htally : ∀ s, (b.replay c).batches.foldlM (onBatch c) (.start k) = .ok s →
      ∀ m, (if s.caughtUp = false ∨ s.visible ≠ c.expectedRecords / 2 ∨
        s.filtered ≠ (c.expectedRecords / 2 : ℕ) then k.missingRecords + 1
          else k.missingRecords) = m →
        (⟨k.visibleRecords + s.visible, k.filteredOffsets.add s.filtered, s.cursorAdvances,
          s.duplicateRecords, m⟩ : Counters) = tally b k c := by
    rintro s hs m rfl
    obtain ⟨hreads, hlast⟩ := foldlM_onBatch_sound hs
    have hvisible : s.visible = (events (b.replay c).items).length :=
      hreads.visible.trans (Nat.zero_add _)
    have hfiltered : s.filtered = addAll (0 : ℕ) (rangeSpans (b.replay c).items) := hreads.filtered
    have hcaughtUp : s.caughtUp = true ↔
        (b.replay c).batches.getLast?.map Batch.caughtUp = some true := by
      rw [hlast, ReplayState.start]
      cases (b.replay c).batches.getLast?.map Batch.caughtUp <;> simp
    have hcomplete : (s.caughtUp = false ∨ s.visible ≠ c.expectedRecords / 2 ∨
        s.filtered ≠ (c.expectedRecords / 2 : ℕ)) ↔ ¬CaseComplete c (b.replay c) := by
      rw [CaseComplete, ← hcaughtUp, ← hvisible, ← hfiltered, ← Bool.not_eq_true]
      tauto
    rw [tally, ← hvisible]
    congr 1
    · rw [hfiltered]
    · exact hreads.cursorAdvances
    · exact hreads.duplicateRecords
    · simp only [hcomplete]
      split_ifs <;> rfl
  constructor
  · rintro ⟨s, hs, herror, rfl⟩
    obtain ⟨hadvances, haxis⟩ := hpasses.mp ⟨s, hs⟩
    exact ⟨⟨herror, hadvances, haxis⟩, htally s hs _ rfl⟩
  · rintro ⟨⟨herror, hadvances, haxis⟩, rfl⟩
    obtain ⟨s, hs⟩ := hpasses.mpr ⟨hadvances, haxis⟩
    exact ⟨s, hs, herror, htally s hs _ rfl⟩

theorem foldlM_runCase {cs : List SelectorCase} : cs.foldlM (runCase b) k = .ok k' ↔
    (∀ c ∈ cs, CaseRuns c (b.replay c)) ∧ k' = cs.foldl (tally b) k := by
  induction cs generalizing k with
  | nil => simp [eq_comm]
  | cons c cs ih =>
    rw [List.foldlM_cons, Check.bind_eq, Check.bind_eq_ok, List.forall_mem_cons, List.foldl_cons]
    simp only [runCase_eq_ok, ih]
    constructor
    · rintro ⟨_, ⟨hc, rfl⟩, hcs, rfl⟩
      exact ⟨⟨hc, hcs⟩, rfl⟩
    · rintro ⟨⟨hc, hcs⟩, rfl⟩
      exact ⟨_, ⟨hc, rfl⟩, hcs, rfl⟩

theorem cursorAdvances_foldl (cs : List SelectorCase) : (cs.foldl (tally b) k).cursorAdvances =
    addAll k.cursorAdvances (cs.flatMap fun c => spans (b.replay c).items) := by
  induction cs generalizing k with
  | nil => rfl
  | cons c cs ih =>
    rw [List.foldl_cons, ih, List.flatMap_cons, addAll_append]
    rfl

theorem duplicateRecords_foldl (cs : List SelectorCase) :
    (cs.foldl (tally b) k).duplicateRecords = 0 ↔ k.duplicateRecords = 0 ∧
      ∀ c ∈ cs, duplicates ∅ ((events (b.replay c).items).map identity) = 0 := by
  induction cs generalizing k with
  | nil => simp
  | cons c cs ih => rw [List.foldl_cons, ih, tally, Nat.add_eq_zero_iff, List.forall_mem_cons,
      and_assoc]

theorem missingRecords_foldl (cs : List SelectorCase) :
    (cs.foldl (tally b) k).missingRecords = 0 ↔
      k.missingRecords = 0 ∧ ∀ c ∈ cs, CaseComplete c (b.replay c) := by
  induction cs generalizing k with
  | nil => simp
  | cons c cs ih =>
    rw [List.foldl_cons, ih, tally, List.forall_mem_cons]
    split_ifs with hc <;> simp [hc]

/-- The sums over replays that are complete. -/
theorem sums_foldl (cs : List SelectorCase) {n : ℕ} (h : ∀ c ∈ cs, CaseComplete c (b.replay c))
    (hfiltered : k.filteredOffsets = (n : Number))
    (hsafe : n + (cs.map fun c => c.expectedRecords / 2).sum ≤ maxSafeInteger) :
    (cs.foldl (tally b) k).visibleRecords =
        k.visibleRecords + (cs.map fun c => c.expectedRecords / 2).sum ∧
      (cs.foldl (tally b) k).filteredOffsets =
        ((n + (cs.map fun c => c.expectedRecords / 2).sum : ℕ) : Number) := by
  induction cs generalizing k n with
  | nil => exact ⟨rfl, hfiltered⟩
  | cons c cs ih =>
    obtain ⟨⟨-, hvisible, hranges⟩, hcs⟩ := List.forall_mem_cons.mp h
    rw [List.map_cons, List.sum_cons] at hsafe
    rw [List.foldl_cons, List.map_cons, List.sum_cons]
    have hadd : (tally b k c).filteredOffsets = ((n + c.expectedRecords / 2 : ℕ) : Number) := by
      rw [tally, hfiltered, hranges, Number.add_natCast (by omega)]
    obtain ⟨hvisible', hfiltered'⟩ := ih hcs hadd (by omega)
    rw [hvisible', hfiltered', tally, hvisible, Nat.add_assoc, Nat.add_assoc]
    exact ⟨rfl, rfl⟩

end Counters

section Run

variable {namespaceName : String} {b : Broker}

theorem verifyReconnectContinuation_eq_ok {n : ℕ} : verifyReconnectContinuation b 8 = .ok n ↔
    ((b.firstConnectError = none ∧ b.firstCloseError = none) ∧
      b.secondConnectError = none ∧ b.secondCloseError = none) ∧
      (∃ batch batches, b.firstRead.batches = batch :: batches ∧
        (b.secondRead batch.nextOffset).error = none ∧ batch.records.length = 1 ∧
          batch.records.length + (b.secondRead batch.nextOffset).records.length = 8) ∧ n = 1 := by
  have hlength : ∀ r : Read, (r.batches.map fun batch => batch.records.length).sum =
      r.records.length := fun r => List.length_flatMap.symm
  rw [verifyReconnectContinuation, Check.bind_eq, Check.seq_eq_ok, Check.attempt_eq_ok]
  cases hfirst : b.firstRead.batches with
  | nil =>
    refine iff_of_false ?_ fun h => ?_
    · rintro ⟨-, h⟩
      simp only [Check.bind_eq, Check.bind_eq_ok, Check.pure_eq, Except.ok.injEq] at h
      obtain ⟨_, ⟨_, -, rfl⟩, _, -, _, -, _, -, _, -, _, hcheck, -⟩ := h
      exact Check.failIf_eq_ok.mp hcheck (.inl (by decide))
    · obtain ⟨-, ⟨_, _, hbatches, -⟩, -⟩ := h
      cases hbatches
  | cons batch batches =>
    dsimp only
    rw [Check.pure_eq, Check.bind_eq, Except.bind]
    simp only [Check.bind_eq, Check.seq_eq_ok, Check.attempt_eq_ok, Check.failIf_eq_ok, not_or,
      not_not, ne_eq, hlength, Check.pure_eq, Except.ok.injEq, List.cons.injEq]
    constructor
    · rintro ⟨hconnect, hclose, hconnect', herror, hclose', ⟨hone, hcount⟩, rfl⟩
      exact ⟨⟨⟨hconnect, hclose⟩, hconnect', hclose'⟩,
        ⟨batch, batches, ⟨rfl, rfl⟩, herror, hone, hcount⟩, rfl⟩
    · rintro ⟨⟨⟨hconnect, hclose⟩, hconnect', hclose'⟩,
        ⟨_, _, ⟨rfl, rfl⟩, herror, hone, hcount⟩, rfl⟩
      exact ⟨hconnect, hclose, hconnect', herror, hclose', ⟨hone, hcount⟩, rfl⟩

/-- The checks of the evidence that are not checks of constants. -/
theorem assertStreamSelectorEvidence_eq_ok {k : Counters} :
    assertStreamSelectorEvidence [("selectors", .count 8), ("recordsWritten", .count 8),
      ("visibleRecords", .count k.visibleRecords), ("filteredOffsets", .num k.filteredOffsets),
      ("cursorAdvances", .num k.cursorAdvances), ("duplicateRecords", .count k.duplicateRecords),
      ("missingRecords", .count k.missingRecords), ("reconnectContinuations", .count 1)] = .ok () ↔
        k.visibleRecords = 21 ∧ k.filteredOffsets = (21 : ℕ) ∧ k.cursorAdvances = (42 : ℕ) ∧
          k.duplicateRecords = 0 ∧ k.missingRecords = 0 := by
  rw [assertStreamSelectorEvidence, Check.forEach_eq_ok]
  have hvisible : (k.visibleRecords : ℚ) = 21 ↔ k.visibleRecords = 21 := by norm_cast
  simp [expectedEvidence, field, number?, Json.count, hvisible]

/-- **The workload passes** iff what it counts is as it should be. -/
theorem passes_iff : Check.Passes (runStreamSelectorCursorConformance namespaceName b) ↔
    Counted namespaceName b := by
  have hlength : (streamRoutes namespaceName).length * 2 = 8 := rfl
  have hsum :
      ((streamSelectorCases namespaceName).map fun c => c.expectedRecords / 2).sum = 21 := by
    simp [streamSelectorCases]
  have hwrites : Check.forEach (streamRoutes namespaceName) (writeRoute b) = .ok () ↔
      ∀ r ∈ streamRoutes namespaceName, ∀ i < 4, b.sessionError r i = none := by
    rw [Check.forEach_eq_ok]
    refine forall₂_congr fun r _ => ?_
    simp only [writeRoute, Check.bind_eq, Check.seq_eq_ok, Check.attempt_eq_ok]
    constructor
    · rintro ⟨h0, h1, h2, h3⟩ i hi
      obtain rfl | rfl | rfl | rfl : i = 0 ∨ i = 1 ∨ i = 2 ∨ i = 3 := by omega
      all_goals assumption
    · exact fun h => ⟨h 0 (by decide), h 1 (by decide), h 2 (by decide), h 3 (by decide)⟩
  rw [runStreamSelectorCursorConformance, Check.bind_eq, Check.passes_seq, hwrites, hlength,
    Check.bind_eq, Check.passes_bind]
  simp only [foldlM_runCase]
  constructor
  · rintro ⟨hwritten, _, ⟨hruns, rfl⟩, hrest⟩
    rw [Check.bind_eq, Check.passes_bind] at hrest
    obtain ⟨n, hverify, hrest⟩ := hrest
    obtain ⟨hconnections, hcontinued, rfl⟩ := verifyReconnectContinuation_eq_ok.mp hverify
    rw [Check.bind_eq, Check.passes_seq, assertStreamSelectorEvidence_eq_ok] at hrest
    -- The sums of the visible and of the filtered records follow from the rest.
    obtain ⟨⟨-, -, hcursor, hduplicates, hmissing⟩, -⟩ := hrest
    have hduplicate := ((duplicateRecords_foldl _).mp hduplicates).2
    have hcomplete := ((missingRecords_foldl _).mp hmissing).2
    rw [cursorAdvances_foldl] at hcursor
    exact ⟨hwritten, fun c hc => caseCounted_iff.mpr ⟨hruns c hc, hcomplete c hc, hduplicate c hc⟩,
      hcursor, hconnections, hcontinued⟩
  · rintro ⟨hwritten, hreplay, hcursor, hconnections, hcontinued⟩
    have hcases := fun c hc => caseCounted_iff.mp (hreplay c hc)
    -- Cases that are complete sum up to what the verdict asks for.
    obtain ⟨hvisible, hfiltered⟩ := @sums_foldl b .zero (streamSelectorCases namespaceName) 0
      (fun c hc => (hcases c hc).2.1) rfl (by rw [hsum]; decide)
    rw [hsum] at hvisible hfiltered
    refine ⟨hwritten, _, ⟨fun c hc => (hcases c hc).1, rfl⟩, ?_⟩
    rw [Check.bind_eq, Check.passes_bind]
    refine ⟨1, verifyReconnectContinuation_eq_ok.mpr ⟨hconnections, hcontinued, rfl⟩, ?_⟩
    rw [Check.bind_eq, Check.passes_seq, assertStreamSelectorEvidence_eq_ok]
    refine ⟨⟨hvisible, hfiltered, ?_, ?_, ?_⟩, Check.passes_ok _⟩
    · rw [cursorAdvances_foldl]
      exact hcursor
    · exact (duplicateRecords_foldl _).mpr ⟨rfl, fun c hc => (hcases c hc).2.2⟩
    · exact (missingRecords_foldl _).mpr ⟨rfl, fun c hc => (hcases c hc).2.1⟩

end Run

/-! ### What passes -/

section Detects

variable {namespaceName : String} {b : Broker}

/-- The spans of ranges add up to at most the number of offsets that they cover. -/
theorem addAll_atMost {items : List StreamReadItem} {x : Number} {n : ℕ} (hx : x.AtMost n)
    (hsafe : n + (covered items).length ≤ maxSafeInteger) :
    (addAll x (rangeSpans items)).AtMost (n + (covered items).length) := by
  induction items generalizing x n with
  | nil => exact hx
  | cons item items ih =>
    have hcovered : (covered (item :: items)).length =
        item.covered.length + (covered items).length := by
      rw [covered, List.flatMap_cons, List.length_append, covered]
    rw [hcovered] at hsafe ⊢
    cases item with
    | event record =>
      rw [StreamReadItem.covered, List.length_nil, Nat.zero_add] at hsafe ⊢
      exact ih hx hsafe
    | filteredRange fromOffset toOffset =>
      rw [StreamReadItem.covered, List.length_map, List.length_range] at hsafe ⊢
      have hspan : (itemSpan (.filteredRange fromOffset toOffset)).AtMost
          (toOffset - fromOffset + 1).toNat := by
        refine Number.round_atMost ?_ (by omega)
        exact_mod_cast Int.self_le_toNat _
      rw [← Nat.add_assoc] at hsafe ⊢
      exact ih (hx.add hspan (by omega)) hsafe

/-- A replay that is counted, and whose items are right, is right. -/
theorem CaseItemsRight.caseRight {c : SelectorCase} {r : Read}
    (hc : c ∈ streamSelectorCases namespaceName) (hcounted : CaseCounted c r)
    (h : CaseItemsRight namespaceName c r.items) : CaseRight namespaceName c r := by
  have hlength := length_matched hc
  refine ⟨perm_of_nodup ?_ ?_ ?_, perm_of_nodup h.once ?_ ?_, hcounted.advances⟩
  · -- Records with different identities are different.
    have hmap : (events r.items).map identity = ((events r.items).map StreamRecord.written).map
        fun w => s!"{w.route}:{w.offset}" := by
      rw [List.map_map]
      rfl
    exact List.Nodup.of_map _ (hmap ▸ hcounted.once)
  · intro w hw
    obtain ⟨record, hrecord, rfl⟩ := List.mem_map.mp hw
    obtain ⟨route, hroute, heq⟩ := h.visible record hrecord
    exact List.mem_map.mpr ⟨route, hroute, heq.symm⟩
  · rw [List.length_map, List.length_map, hlength, hcounted.visible]
  · intro x hx
    obtain ⟨route, hroute, rfl⟩ := h.filtered x hx
    exact List.mem_map.mpr ⟨route, hroute, rfl⟩
  · rw [List.length_map, hlength]
    by_contra hfewer
    have hexpected : c.expectedRecords / 2 ≤ 4 := by
      rw [← hlength]
      exact List.length_filter_le _ _
    have hbound : (addAll (0 : ℕ) (rangeSpans r.items)).AtMost (0 + (covered r.items).length) :=
      addAll_atMost (by simp [Number.AtMost])
        (by rw [maxSafeInteger]; omega)
    rw [hcounted.filtered, Nat.zero_add] at hbound
    exact hfewer (Nat.cast_le.mp hbound)

theorem CaseRight.itemsRight {c : SelectorCase} {r : Read}
    (hc : c ∈ streamSelectorCases namespaceName) (h : CaseRight namespaceName c r) :
    CaseItemsRight namespaceName c r.items where
  visible record hrecord := by
    obtain ⟨route, hroute, heq⟩ :=
      List.mem_map.mp (h.visible.mem_iff.mp (List.mem_map_of_mem hrecord))
    exact ⟨route, hroute, heq.symm⟩
  filtered x hx := by
    obtain ⟨route, hroute, heq⟩ := List.mem_map.mp (h.filtered.mem_iff.mp hx)
    exact ⟨route, hroute, heq.symm⟩
  once := h.filtered.nodup_iff.mpr (nodup_axisOffsets hc)

/-- **The workload detects wrong answers** iff, when what it counts is as it should be, the items
that the broker returns are right by themselves. -/
theorem streamSelector_detects_iff :
    (Check.Passes (runStreamSelectorCursorConformance namespaceName b) → Right namespaceName b) ↔
      (Counted namespaceName b → ItemsRight namespaceName b) := by
  rw [passes_iff]
  refine imp_congr_right fun hcounted => ?_
  constructor
  · intro hright
    exact ⟨fun c hc => (hright.replay c hc).itemsRight hc,
      fun record hrecord => hright.continued.mem_iff.mp (List.mem_map_of_mem hrecord),
      hright.continued.nodup_iff.mpr nodup_allWritten⟩
  · intro hitems
    refine ⟨fun c hc => (hitems.replay c hc).caseRight hc (hcounted.replay c hc),
      perm_of_nodup hitems.once ?_ ?_⟩
    · intro w hw
      obtain ⟨record, hrecord, rfl⟩ := List.mem_map.mp hw
      exact hitems.continued record hrecord
    · obtain ⟨batch, batches, hbatches, -, -, hcount⟩ := hcounted.continued
      rw [List.length_map, continuation, hbatches, List.length_append, hcount]
      exact le_rfl

end Detects

/-! ### A record of another route -/

/-- The visible record of a route. -/
def sampleRecord (r : StreamRoute) : StreamRecord where
  route := r.text
  offset := 0
  areaOffset := axisOffset "run" .area r 0
  realmOffset := axisOffset "run" .realm r 0
  globalOffset := axisOffset "run" .global r 0
  body := payload r.text 0

/-- The batch of a route that a selector matches, with the visible record of the route `shown`. -/
def sampleBatch (c : SelectorCase) (r shown : StreamRoute) : Batch where
  fromOffset := axisOffset "run" c.axis r 0
  nextOffset := axisOffset "run" c.axis r 2
  caughtUp := (matched "run" c.selector).getLast? = some r
  items := [.event (sampleRecord shown),
    .filteredRange (axisOffset "run" c.axis r 1) (axisOffset "run" c.axis r 1)]
  records := [sampleRecord shown]

/-- The batch of a record in a replay without a filter. -/
def plainBatch (globalOffset : ℤ) (r : StreamRoute) (offset : ℕ) : Batch :=
  let record := { sampleRecord r with offset, body := payload r.text offset }
  ⟨globalOffset, globalOffset + 1, globalOffset = 7, [.event record], [record]⟩

/-- The batches of all records. -/
def plainBatches : List Batch :=
  (streamRoutes "run").flatMap fun r =>
    let globalOffset := axisOffset "run" .global r
    [plainBatch (globalOffset 0) r 0, plainBatch (globalOffset 1) r 1]

/-- The broker answers every read as it should, except that the replay of the first selector shows
the record of `shown` where it should show the one of the first route. -/
def sampleBroker (shown : StreamRoute) : Broker where
  sessionError _ _ := none
  replay c := ⟨(matched "run" c.selector).map fun r =>
    sampleBatch c r (if c.axis = .resource then shown else r), none⟩
  firstConnectError := none
  firstCloseError := none
  firstRead := ⟨plainBatches, none⟩
  secondConnectError := none
  secondCloseError := none
  secondRead nextOffset := ⟨plainBatches.filter fun batch => nextOffset ≤ batch.fromOffset, none⟩

/-- The workload accepts the record of a route that the selector does not match. -/
theorem not_detects_otherRoute :
    ¬(Check.Passes (runStreamSelectorCursorConformance "run"
      (sampleBroker ⟨"run-a", "area-a", "resource-b"⟩)) →
        Right "run" (sampleBroker ⟨"run-a", "area-a", "resource-b"⟩)) := by
  have hok : (runStreamSelectorCursorConformance "run"
      (sampleBroker ⟨"run-a", "area-a", "resource-b"⟩)).isOk = true := by decide +kernel
  have hpasses : Check.Passes (runStreamSelectorCursorConformance "run"
      (sampleBroker ⟨"run-a", "area-a", "resource-b"⟩)) := by
    cases hrun : runStreamSelectorCursorConformance "run"
      (sampleBroker ⟨"run-a", "area-a", "resource-b"⟩) with
    | ok evidence => exact Check.passes_ok evidence
    | error error =>
      rw [hrun] at hok
      cases hok
  intro h
  have hvisible := ((h hpasses).replay _ List.mem_cons_self).visible
  exact absurd hvisible (by decide +kernel)

end StreamSelector

end FitzDestroyer
