import FitzDestroyer.Live.Handlers
import FitzDestroyer.Run.Basic
import Mathlib.Data.Finset.Prod

/-!
# Notice subscribers

`runNoticeSubscriber` (`workloads/live.ts`) checks and counts a notification after an artificial
delay of its handler.  When every publication has been counted it waits for a while, unsubscribes,
and looks at the counters; it does not wait for the handlers that are still in their delay.

* `Subscriber` : the counters, with the notifications whose handlers are in their delay;
* `subscriber` : the events, in any order in which they can happen;
* `Exact` : every publication is delivered once, and nothing else;
* `verdict_reflects_iff` : when the verdict is about everything that was delivered.
-/

namespace FitzDestroyer

namespace Live

open Js Workload

/-! ### The subscriber -/

/-- The options of a subscriber.  The host starts so few publishers that the number of expected
notifications is not rounded. -/
structure SubscriberOptions extends NoticeSubscriberOptions where
  workerId : String
  handlerDelayMs : ℕ
  expected_le : publisherCount * operations ≤ maxSafeInteger

def SubscriberOptions.expected (o : SubscriberOptions) : ℕ := o.publisherCount * o.operations

/-- Where `runNoticeSubscriber` is. -/
inductive Phase where
  /-- It waits for `complete`, or for its signal to abort. -/
  | waiting
  /-- It sleeps for twice the delay of a handler, or longer. -/
  | draining
  | unsubscribing
  | closed
  deriving DecidableEq

/-- The variables of a subscriber. -/
structure Subscriber where
  seen : Finset String
  duplicates : ℕ
  invalid : ℕ
  activeHandlers : ℕ
  maxActiveHandlers : ℕ
  firstInvalid : Option String
  /-- `complete` is resolved. -/
  complete : Bool
  /-- The notifications whose handlers are in their delay. -/
  sleeping : List Notice
  phase : Phase
  /-- What `rejectOnAbort` has rejected with. -/
  abortReason : Option Thrown
  /-- How the role ends. -/
  result : Option (Except Thrown Log)

inductive SubscriberEvent where
  /-- The client calls the handler with a notification. -/
  | notice (message : Notice)
  /-- The delay of a handler is over. -/
  | wake (index : ℕ)
  | completed
  | aborted (reason : Thrown)
  | drained
  /-- `unsubscribe` settles, and the role ends. -/
  | unsubscribed (elapsedMs : ℤ)

/-- The key of a publication in `seen`. -/
def noticeKey (identity : ℕ × ℕ) : String := s!"{identity.1}:{identity.2}"

namespace Subscriber

def start : Subscriber where
  seen := ∅
  duplicates := 0
  invalid := 0
  activeHandlers := 0
  maxActiveHandlers := 0
  firstInvalid := none
  complete := false
  sleeping := []
  phase := .waiting
  abortReason := none
  result := none

section Handler

variable (o : SubscriberOptions) (s : Subscriber)

/-- A notification that passes the checks is counted. -/
def count (identity : ℕ × ℕ) : Subscriber :=
  let key := noticeKey identity
  if key ∈ s.seen then { s with duplicates := s.duplicates + 1 }
  else { s with
    seen := insert key s.seen
    complete := s.complete || (insert key s.seen).card = o.expected }

/-- The handler after its delay. -/
def verify (message : Notice) : Subscriber :=
  let checked :=
    match checkNotice o.toNoticeSubscriberOptions message with
    | .ok identity => s.count o identity
    | .error error => { s with
        invalid := s.invalid + 1
        firstInvalid := s.firstInvalid.or (some error.errorMessage) }
  { checked with activeHandlers := checked.activeHandlers - 1 }

/-- The handler up to its delay, or to its end if it has none. -/
def onNotice (message : Notice) : Subscriber :=
  let s := { s with
    activeHandlers := s.activeHandlers + 1
    maxActiveHandlers := max s.maxActiveHandlers (s.activeHandlers + 1) }
  if 0 < o.handlerDelayMs then { s with sleeping := s.sleeping ++ [message] }
  else s.verify o message

/-- The last record of a subscriber. -/
def completeFields (elapsedMs : ℤ) : Record :=
  [("workerId", .str o.workerId), ("received", .count s.seen.card),
    ("expected", .count o.expected), ("duplicates", .count s.duplicates),
    ("invalid", .count s.invalid), ("maxActiveHandlers", .count s.maxActiveHandlers),
    ("elapsedMs", .int elapsedMs)]

/-- The statements after `unsubscribe`. -/
def verdict (elapsedMs : ℤ) : Except Thrown Log := do
  let firstInvalid := s.firstInvalid.getD "none"
  Check.failIf (s.seen.card ≠ o.expected ∨ s.duplicates ≠ 0 ∨ s.invalid ≠ 0) (newError
    (s!"notice verification failed: received={s.seen.card}/{o.expected}, " ++
      s!"duplicates={s.duplicates}, invalid={s.invalid}, firstInvalid={firstInvalid}"))
  return [logLine "notice_subscriber_complete" (completeFields o s elapsedMs)]

/-- The state after an event, if it can happen. -/
def onEvent : SubscriberEvent → Option Subscriber
  | .notice message => if s.phase = .closed then none else some (s.onNotice o message)
  | .wake index =>
    if s.phase = .closed then none
    else s.sleeping[index]?.map fun message =>
      { s with sleeping := s.sleeping.eraseIdx index }.verify o message
  | .completed =>
    if s.phase = .waiting ∧ s.complete = true then some { s with phase := .draining } else none
  | .aborted reason =>
    if s.phase = .waiting ∧ s.complete = false then
      some { s with phase := .unsubscribing, abortReason := some reason }
    else none
  | .drained => if s.phase = .draining then some { s with phase := .unsubscribing } else none
  | .unsubscribed elapsedMs =>
    if s.phase = .unsubscribing then
      -- The reason of an abort is thrown after `unsubscribe`.
      let result := (s.abortReason.map .error).getD (s.verdict o elapsedMs)
      some { s with phase := .closed, result := some result }
    else none

end Handler

end Subscriber

/-- The events of a subscriber. -/
def subscriber (o : SubscriberOptions) : EventSys Subscriber SubscriberEvent :=
  ⟨fun s e => s.onEvent o e⟩

/-- The notifications that the handler is called with. -/
def delivered (es : List SubscriberEvent) : List Notice := es.filterMap fun
  | .notice message => some message
  | _ => none

/-! ### Deliveries -/

/-- The notification is a publication, with its route and its payload. -/
def IsNotice (o : NoticeSubscriberOptions) (message : Notice) (publisherId sequence : ℕ) : Prop :=
  message.route = noticeRoute o.namespaceName (toString publisherId) ∧
    noticePayload (toString publisherId) sequence o.payloadBytes = .ok message.body

instance (o : NoticeSubscriberOptions) (message : Notice) (publisherId sequence : ℕ) :
    Decidable (IsNotice o message publisherId sequence) := inferInstanceAs (Decidable (_ ∧ _))

/-- Every publication is delivered once, and nothing else is delivered. -/
structure Exact (o : NoticeSubscriberOptions) (messages : List Notice) : Prop where
  valid : ∀ message ∈ messages, ∃ publisherId < o.publisherCount, ∃ sequence < o.operations,
    IsNotice o message publisherId sequence
  once : ∀ publisherId < o.publisherCount, ∀ sequence < o.operations,
    (messages.countP fun message => IsNotice o message publisherId sequence) = 1

section Identities

variable {o : NoticeSubscriberOptions} {messages : List Notice}

theorem noticeKey_injective : Function.Injective noticeKey := by
  rintro ⟨p, n⟩ ⟨p', n'⟩ h
  have hkey : ∀ p n : ℕ, (noticeKey (p, n)).toList =
      Nat.toDigits 10 p ++ ':' :: Nat.toDigits 10 n := fun p n => by
    simp [noticeKey, toString, Nat.toList_repr]
  have hcolon : ∀ p : ℕ, ':' ∉ Nat.toDigits 10 p := fun p hmem =>
    absurd (isDigit_of_mem_toDigits hmem) (by decide)
  have hsplit := congrArg (fun text : String => text.toList.splitOn ':') h
  simp only [hkey, List.splitOn_append_cons_self_of_not_mem (hcolon _),
    List.splitOn_eq_singleton (hcolon _), List.cons.injEq, and_true] at hsplit
  exact Prod.ext (toDigits_injective hsplit.1) (toDigits_injective hsplit.2)

/-- The publication that a notification passes the checks for. -/
def identity? (o : NoticeSubscriberOptions) (message : Notice) : Option (ℕ × ℕ) :=
  (checkNotice o message).toOption

theorem identity?_eq_some {message : Notice} {publisherId sequence : ℕ} :
    identity? o message = some (publisherId, sequence) ↔ publisherId < o.publisherCount ∧
      sequence < o.operations ∧ IsNotice o message publisherId sequence := by
  rw [IsNotice, ← checkNotice_eq_ok, identity?]
  cases checkNotice o message <;> simp [Except.toOption]

/-- The publications that are counted, in their order. -/
def identities (o : NoticeSubscriberOptions) (messages : List Notice) : List (ℕ × ℕ) :=
  messages.filterMap (identity? o)

theorem mem_identities {publisherId sequence : ℕ} (h : (publisherId, sequence) ∈
    identities o messages) : publisherId < o.publisherCount ∧ sequence < o.operations := by
  obtain ⟨message, -, hidentity⟩ := List.mem_filterMap.mp h
  obtain ⟨hp, hn, -⟩ := identity?_eq_some.mp hidentity
  exact ⟨hp, hn⟩

theorem countP_isNotice {publisherId sequence : ℕ} (hp : publisherId < o.publisherCount)
    (hn : sequence < o.operations) :
    (messages.countP fun message => IsNotice o message publisherId sequence) =
      (identities o messages).count (publisherId, sequence) := by
  rw [identities, List.count_filterMap]
  refine List.countP_congr fun message _ => ?_
  simp only [decide_eq_true_eq, beq_iff_eq]
  rw [identity?_eq_some]
  exact ⟨fun h => ⟨hp, hn, h⟩, fun h => h.2.2⟩

/-- Deliveries are exact iff every notification is valid, and its publication is counted once. -/
theorem exact_iff : Exact o messages ↔ (identities o messages).length = messages.length ∧
    ∀ publisherId < o.publisherCount, ∀ sequence < o.operations,
      (identities o messages).count (publisherId, sequence) = 1 := by
  have hvalid : (identities o messages).length = messages.length ↔ ∀ message ∈ messages,
      ∃ publisherId < o.publisherCount, ∃ sequence < o.operations,
        IsNotice o message publisherId sequence := by
    rw [identities, List.length_filterMap_eq_countP, List.countP_eq_length]
    refine forall₂_congr fun message _ => ?_
    rw [Option.isSome_iff_exists]
    constructor
    · rintro ⟨⟨p, n⟩, hidentity⟩
      obtain ⟨hp, hn, hnotice⟩ := identity?_eq_some.mp hidentity
      exact ⟨p, hp, n, hn, hnotice⟩
    · rintro ⟨p, hp, n, hn, hnotice⟩
      exact ⟨(p, n), identity?_eq_some.mpr ⟨hp, hn, hnotice⟩⟩
  constructor
  · intro h
    exact ⟨hvalid.mpr h.valid, fun p hp n hn => countP_isNotice hp hn ▸ h.once p hp n hn⟩
  · rintro ⟨hlength, honce⟩
    exact ⟨hvalid.mp hlength, fun p hp n hn => (countP_isNotice hp hn).trans (honce p hp n hn)⟩

/-- The publications that are expected. -/
def publications (o : NoticeSubscriberOptions) : Finset (ℕ × ℕ) :=
  Finset.range o.publisherCount ×ˢ Finset.range o.operations

theorem toFinset_identities_subset : (identities o messages).toFinset ⊆ publications o := by
  rintro ⟨p, n⟩ hmem
  obtain ⟨hp, hn⟩ := mem_identities (List.mem_toFinset.mp hmem)
  exact Finset.mem_product.mpr ⟨Finset.mem_range.mpr hp, Finset.mem_range.mpr hn⟩

/-- Every publication is counted once iff none is counted twice, and all are counted. -/
theorem count_identities_iff : (∀ publisherId < o.publisherCount, ∀ sequence < o.operations,
      (identities o messages).count (publisherId, sequence) = 1) ↔
    (identities o messages).Nodup ∧ (identities o messages).toFinset = publications o := by
  constructor
  · intro honce
    refine ⟨List.nodup_iff_count_le_one.mpr ?_, ?_⟩
    · rintro ⟨p, n⟩
      by_cases hmem : (p, n) ∈ identities o messages
      · obtain ⟨hp, hn⟩ := mem_identities hmem
        exact (honce p hp n hn).le
      · exact (List.count_eq_zero_of_not_mem hmem).trans_le (Nat.zero_le 1)
    · refine Finset.Subset.antisymm toFinset_identities_subset ?_
      rintro ⟨p, n⟩ hmem
      obtain ⟨hp, hn⟩ := Finset.mem_product.mp hmem
      rw [List.mem_toFinset, ← List.count_pos_iff,
        honce p (Finset.mem_range.mp hp) n (Finset.mem_range.mp hn)]
      exact Nat.one_pos
  · rintro ⟨hnodup, hall⟩ p hp n hn
    refine List.count_eq_one_of_mem hnodup ?_
    rw [← List.mem_toFinset, hall]
    exact Finset.mem_product.mpr ⟨Finset.mem_range.mpr hp, Finset.mem_range.mpr hn⟩

end Identities

/-! ### The counters -/

/-- What the counters say about the notifications whose handlers have finished. -/
structure Counts (o : SubscriberOptions) (finished : List Notice) (s : Subscriber) : Prop where
  seen : s.seen = (identities o.toNoticeSubscriberOptions finished).toFinset.image noticeKey
  duplicates : s.seen.card + s.duplicates =
    (identities o.toNoticeSubscriberOptions finished).length
  invalid : (identities o.toNoticeSubscriberOptions finished).length + s.invalid =
    finished.length
  complete : s.complete = true → s.seen.card = o.expected

namespace Counts

variable {o : SubscriberOptions} {finished : List Notice} {s : Subscriber}

theorem card_seen (h : Counts o finished s) :
    s.seen.card = (identities o.toNoticeSubscriberOptions finished).toFinset.card := by
  rw [h.seen, Finset.card_image_of_injective _ noticeKey_injective]

/-- No more publications are counted than are expected. -/
theorem card_le (h : Counts o finished s) : s.seen.card ≤ o.expected := by
  rw [h.card_seen]
  refine (Finset.card_le_card toFinset_identities_subset).trans_eq ?_
  rw [publications, Finset.card_product, Finset.card_range, Finset.card_range]
  rfl

theorem start : Counts o [] .start := ⟨rfl, rfl, rfl, fun h => Bool.noConfusion h⟩

/-- The counters after one more valid notification. -/
theorem count (h : Counts o finished s) {message : Notice} {identity : ℕ × ℕ}
    (hidentity : identity? o.toNoticeSubscriberOptions message = some identity) :
    Counts o (finished ++ [message]) (s.count o identity) := by
  have hidentities : identities o.toNoticeSubscriberOptions (finished ++ [message]) =
      identities o.toNoticeSubscriberOptions finished ++ [identity] := by
    rw [identities, List.filterMap_append, List.filterMap_cons_some hidentity]
    rfl
  have hfinset : (identities o.toNoticeSubscriberOptions (finished ++ [message])).toFinset.image
      noticeKey = insert (noticeKey identity) s.seen := by
    rw [hidentities, List.toFinset_append, Finset.image_union, ← h.seen, Finset.union_comm]
    rfl
  have hduplicates := h.duplicates
  have hinvalid := h.invalid
  unfold Subscriber.count
  dsimp only
  split_ifs with hseen
  · refine ⟨?_, ?_, ?_, h.complete⟩
    · rw [hfinset, Finset.insert_eq_of_mem hseen]
    · rw [hidentities, List.length_append, List.length_singleton]
      exact congrArg (· + 1) hduplicates
    · simp only [hidentities, List.length_append, List.length_singleton]
      omega
  · have hcard := Finset.card_insert_of_notMem hseen
    have hnext : Counts o (finished ++ [message]) { s with
        seen := insert (noticeKey identity) s.seen
        complete := (insert (noticeKey identity) s.seen).card = o.expected } := by
      refine ⟨hfinset.symm, ?_, ?_, fun hcomplete => of_decide_eq_true hcomplete⟩
      · rw [hidentities, List.length_append, List.length_singleton]
        dsimp only
        omega
      · simp only [hidentities, List.length_append, List.length_singleton]
        omega
    refine ⟨hnext.seen, hnext.duplicates, hnext.invalid, fun hcomplete => ?_⟩
    rcases Bool.or_eq_true _ _ |>.mp hcomplete with hbefore | hnow
    · -- No publication is left to count.
      have hle := hnext.card_le
      have hfull := h.complete hbefore
      dsimp only at hle
      omega
    · exact of_decide_eq_true hnow

/-- The counters after one more handler. -/
theorem verify (h : Counts o finished s) (message : Notice) :
    Counts o (finished ++ [message]) (s.verify o message) := by
  unfold Subscriber.verify
  cases hcheck : checkNotice o.toNoticeSubscriberOptions message with
  | ok identity =>
    have hidentity : identity? o.toNoticeSubscriberOptions message = some identity := by
      rw [identity?, hcheck]
      rfl
    have hcount := h.count hidentity
    exact ⟨hcount.seen, hcount.duplicates, hcount.invalid, hcount.complete⟩
  | error error =>
    have hidentities : identities o.toNoticeSubscriberOptions (finished ++ [message]) =
        identities o.toNoticeSubscriberOptions finished := by
      have hnone : identity? o.toNoticeSubscriberOptions message = none := by
        rw [identity?, hcheck]
        rfl
      rw [identities, List.filterMap_append, List.filterMap_cons_none hnone]
      exact List.append_nil _
    refine ⟨?_, ?_, ?_, h.complete⟩
    · rw [hidentities]
      exact h.seen
    · rw [hidentities]
      exact h.duplicates
    · rw [hidentities, List.length_append, List.length_singleton, ← h.invalid]
      exact (Nat.add_assoc _ _ _).symm

/-- All publications have been counted. -/
theorem toFinset_eq (h : Counts o finished s) (hcomplete : s.complete = true) :
    (identities o.toNoticeSubscriberOptions finished).toFinset =
      publications o.toNoticeSubscriberOptions := by
  refine Finset.eq_of_subset_of_card_le toFinset_identities_subset ?_
  rw [← h.card_seen, h.complete hcomplete, publications, Finset.card_product, Finset.card_range,
    Finset.card_range]
  exact Nat.le_refl _

/-- **The counters are right iff the deliveries are exact**, once all publications have been
counted. -/
theorem exact_iff (h : Counts o finished s) (hcomplete : s.complete = true) :
    Exact o.toNoticeSubscriberOptions finished ↔ s.duplicates = 0 ∧ s.invalid = 0 := by
  have hcard := h.card_seen
  have hduplicates := h.duplicates
  have hinvalid := h.invalid
  have hnodup : (identities o.toNoticeSubscriberOptions finished).Nodup ↔ s.duplicates = 0 := by
    rw [← Multiset.coe_nodup, ← Multiset.toFinset_card_eq_card_iff_nodup, List.toFinset_coe,
      Multiset.coe_card, ← hcard, ← hduplicates]
    omega
  rw [Live.exact_iff, count_identities_iff, hnodup, and_iff_left (h.toFinset_eq hcomplete)]
  constructor
  · rintro ⟨hlength, hzero⟩
    exact ⟨hzero, by omega⟩
  · rintro ⟨hzero, hvalid⟩
    exact ⟨by omega, hzero⟩

end Counts

/-- Nothing is missing from deliveries in which every publication occurs. -/
theorem Exact.of_append {o : NoticeSubscriberOptions} {messages later : List Notice}
    (hall : (identities o messages).toFinset = publications o)
    (h : Exact o (messages ++ later)) : Exact o messages ∧ later = [] := by
  have honce : ∀ p < o.publisherCount, ∀ n < o.operations,
      (messages.countP fun message => IsNotice o message p n) = 1 ∧
        (later.countP fun message => IsNotice o message p n) = 0 := by
    intro p hp n hn
    have hone := h.once p hp n hn
    have hpos : 0 < messages.countP fun message => IsNotice o message p n := by
      rw [countP_isNotice hp hn, List.count_pos_iff, ← List.mem_toFinset, hall]
      exact Finset.mem_product.mpr ⟨Finset.mem_range.mpr hp, Finset.mem_range.mpr hn⟩
    rw [List.countP_append] at hone
    omega
  refine ⟨⟨fun message hmessage => h.valid message (List.mem_append_left _ hmessage),
    fun p hp n hn => (honce p hp n hn).1⟩, List.eq_nil_iff_forall_not_mem.mpr ?_⟩
  intro message hmessage
  obtain ⟨p, hp, n, hn, hnotice⟩ := h.valid message (List.mem_append_right _ hmessage)
  have hzero := List.countP_eq_zero.mp (honce p hp n hn).2 message hmessage
  exact hzero (decide_eq_true hnotice)

theorem Exact.perm {o : NoticeSubscriberOptions} {messages messages' : List Notice}
    (hperm : messages.Perm messages') (h : Exact o messages) : Exact o messages' :=
  ⟨fun message hmessage => h.valid message (hperm.mem_iff.mpr hmessage),
    fun p hp n hn => (hperm.countP_eq _).symm.trans (h.once p hp n hn)⟩

/-! ### Runs -/

section Verify

variable (o : SubscriberOptions) (s : Subscriber) (message : Notice)

/-- What a handler leaves as it is. -/
theorem verify_frame : (s.verify o message).sleeping = s.sleeping ∧
    (s.verify o message).phase = s.phase ∧
      (s.verify o message).abortReason = s.abortReason ∧
        (s.complete = true → (s.verify o message).complete = true) := by
  unfold Subscriber.verify
  cases checkNotice o.toNoticeSubscriberOptions message with
  | error error => exact ⟨rfl, rfl, rfl, id⟩
  | ok identity =>
    dsimp only [Subscriber.count]
    split_ifs
    · exact ⟨rfl, rfl, rfl, id⟩
    · exact ⟨rfl, rfl, rfl, fun h => by simp [h]⟩

end Verify

/-- Every notification that the handler was called with has been counted, or its handler is in its
delay, or runs now. -/
structure Tracks (o : SubscriberOptions) (handed running : List Notice) (s : Subscriber) :
    Prop where
  counts : ∃ finished, handed.Perm (finished ++ running ++ s.sleeping) ∧ Counts o finished s
  complete : s.phase ≠ .waiting → s.abortReason = none → s.complete = true

namespace Tracks

variable {o : SubscriberOptions} {handed : List Notice} {s s' : Subscriber}

theorem start : Tracks o [] [] .start := ⟨⟨[], List.Perm.refl _, .start⟩, fun h => absurd rfl h⟩

/-- A handler counts its notification. -/
theorem verify {message : Notice} (h : Tracks o handed [message] s) :
    Tracks o handed [] (s.verify o message) := by
  obtain ⟨hsleeping, hphase, hreason, hcomplete⟩ := verify_frame o s message
  obtain ⟨finished, hperm, hcounts⟩ := h.counts
  refine ⟨⟨finished ++ [message], ?_, hcounts.verify message⟩, ?_⟩
  · rwa [hsleeping, List.append_nil]
  · rw [hphase, hreason]
    exact fun hp hr => hcomplete (h.complete hp hr)

/-- A handler starts. -/
theorem onNotice (h : Tracks o handed [] s) (message : Notice) :
    Tracks o (handed ++ [message]) [] (s.onNotice o message) := by
  obtain ⟨finished, hperm, hcounts⟩ := h.counts
  have hcounts' : ∀ active maxActive, Counts o finished { s with
      activeHandlers := active, maxActiveHandlers := maxActive } := fun _ _ =>
    ⟨hcounts.seen, hcounts.duplicates, hcounts.invalid, hcounts.complete⟩
  rw [List.append_nil] at hperm
  unfold Subscriber.onNotice
  dsimp only
  split_ifs
  · refine ⟨⟨finished, ?_, hcounts.seen, hcounts.duplicates, hcounts.invalid,
      hcounts.complete⟩, h.complete⟩
    rw [List.append_nil, ← List.append_assoc]
    exact hperm.append_right _
  · refine Tracks.verify ⟨⟨finished, ?_, hcounts' _ _⟩, h.complete⟩
    have hmove : (s.sleeping ++ [message]).Perm ([message] ++ s.sleeping) := List.perm_append_comm
    rw [List.append_assoc]
    exact (hperm.append_right _).trans (by
      rw [List.append_assoc]
      exact hmove.append_left _)

/-- The delay of a handler is over. -/
theorem wake (h : Tracks o handed [] s) {index : ℕ} {message : Notice}
    (hmessage : s.sleeping[index]? = some message) :
    Tracks o handed [] ({ s with sleeping := s.sleeping.eraseIdx index }.verify o message) := by
  obtain ⟨hindex, rfl⟩ := List.getElem?_eq_some_iff.mp hmessage
  obtain ⟨finished, hperm, hcounts⟩ := h.counts
  refine Tracks.verify ⟨⟨finished, ?_, hcounts.seen, hcounts.duplicates, hcounts.invalid,
    hcounts.complete⟩, h.complete⟩
  rw [List.append_nil] at hperm
  rw [List.append_assoc]
  exact hperm.trans ((List.getElem_cons_eraseIdx_perm hindex).symm.append_left _)

/-- Only the place in `runNoticeSubscriber` changes. -/
theorem move (h : Tracks o handed [] s) {phase : Phase} {abortReason : Option Thrown}
    {result : Option (Except Thrown Log)}
    (hcomplete : phase ≠ .waiting → abortReason = none → s.complete = true) :
    Tracks o handed [] { s with
      phase := phase, abortReason := abortReason, result := result } := by
  obtain ⟨finished, hperm, hcounts⟩ := h.counts
  exact ⟨⟨finished, hperm, hcounts.seen, hcounts.duplicates, hcounts.invalid,
    hcounts.complete⟩, hcomplete⟩

/-- **One event.** -/
theorem onEvent (h : Tracks o handed [] s) {e : SubscriberEvent}
    (hstep : s.onEvent o e = some s') : Tracks o (handed ++ delivered [e]) [] s' := by
  cases e with
  | notice message =>
    rw [Subscriber.onEvent] at hstep
    split_ifs at hstep
    obtain rfl := Option.some.inj hstep
    exact h.onNotice message
  | wake index =>
    rw [Subscriber.onEvent] at hstep
    split_ifs at hstep
    obtain ⟨message, hmessage, rfl⟩ := Option.map_eq_some_iff.mp hstep
    exact (List.append_nil handed).symm ▸ h.wake hmessage
  | completed =>
    rw [Subscriber.onEvent] at hstep
    split_ifs at hstep with hready
    obtain rfl := Option.some.inj hstep
    exact (List.append_nil handed).symm ▸ h.move fun _ _ => hready.2
  | aborted reason =>
    rw [Subscriber.onEvent] at hstep
    split_ifs at hstep
    obtain rfl := Option.some.inj hstep
    exact (List.append_nil handed).symm ▸ h.move fun _ hreason =>
      absurd hreason (Option.some_ne_none _)
  | drained =>
    rw [Subscriber.onEvent] at hstep
    split_ifs at hstep with hphase
    obtain rfl := Option.some.inj hstep
    exact (List.append_nil handed).symm ▸ h.move fun _ hreason =>
      h.complete (by rw [hphase]; decide) hreason
  | unsubscribed elapsedMs =>
    rw [Subscriber.onEvent] at hstep
    split_ifs at hstep with hphase
    obtain rfl := Option.some.inj hstep
    exact (List.append_nil handed).symm ▸ h.move fun _ hreason =>
      h.complete (by rw [hphase]; decide) hreason

/-- **A run.** -/
theorem run (h : Tracks o handed [] s) {es : List SubscriberEvent}
    (hrun : (subscriber o).run s es = some s') : Tracks o (handed ++ delivered es) [] s' := by
  induction es generalizing handed s with
  | nil =>
    obtain rfl := Option.some.inj hrun
    exact (List.append_nil handed).symm ▸ h
  | cons e es ih =>
    obtain ⟨t, hstep, hrun⟩ := EventSys.run_cons_eq_some.mp hrun
    have hdelivered : delivered (e :: es) = delivered [e] ++ delivered es :=
      List.filterMap_append (l := [e])
    rw [hdelivered, ← List.append_assoc]
    exact ih (h.onEvent hstep) hrun

end Tracks

/-- A handler without a delay counts its notification at once. -/
theorem sleeping_eq_nil {o : SubscriberOptions} (hdelay : o.handlerDelayMs = 0)
    {es : List SubscriberEvent} {s : Subscriber} (hrun : (subscriber o).run .start es = some s) :
    s.sleeping = [] := by
  refine EventSys.invariant (I := fun s => s.sleeping = []) (fun s e s' hs hstep => ?_) rfl hrun
  have hstep' : s.onEvent o e = some s' := hstep
  cases e with
  | notice message =>
    rw [Subscriber.onEvent] at hstep'
    split_ifs at hstep'
    obtain rfl := Option.some.inj hstep'
    rw [Subscriber.onNotice, if_neg (by omega)]
    exact (verify_frame o _ message).1.trans hs
  | wake index =>
    rw [Subscriber.onEvent, hs] at hstep'
    split_ifs at hstep'
    simp at hstep'
  | completed | aborted | drained | unsubscribed =>
    rw [Subscriber.onEvent] at hstep'
    split_ifs at hstep'
    obtain rfl := Option.some.inj hstep'
    exact hs

/-! ### The verdict -/

/-- The role ends without an error. -/
def Subscriber.Succeeds (s : Subscriber) : Prop := ∃ log, s.result = some (.ok log)

/-- The role succeeds iff its counters are right. -/
theorem succeeds_iff {o : SubscriberOptions} {s s' : Subscriber} {elapsedMs : ℤ}
    (hreason : s.abortReason = none) (hstep : s.onEvent o (.unsubscribed elapsedMs) = some s') :
    s'.Succeeds ↔ s.seen.card = o.expected ∧ s.duplicates = 0 ∧ s.invalid = 0 := by
  rw [Subscriber.onEvent] at hstep
  split_ifs at hstep
  obtain rfl := Option.some.inj hstep
  simp only [Subscriber.Succeeds, hreason, Option.map_none, Option.getD_none, Option.some.injEq,
    Subscriber.verdict, Check.bind_eq, Check.seq_eq_ok, Check.failIf_eq_ok, not_or, not_not, ne_eq,
    Check.pure_eq, exists_and_left, Except.ok.injEq, exists_eq', and_true]

/-- **The verdict is about everything that was delivered**, before the subscription is closed, iff
no handler is still in its delay when `unsubscribe` settles, unless the role fails anyway because
of a notification whose handler has finished. -/
theorem verdict_reflects_iff {o : SubscriberOptions} {es : List SubscriberEvent}
    {s s' : Subscriber} {elapsedMs : ℤ} (hrun : (subscriber o).run .start es = some s)
    (hreason : s.abortReason = none)
    (hstep : (subscriber o).step s (.unsubscribed elapsedMs) = some s') :
    (s'.Succeeds ↔ Exact o.toNoticeSubscriberOptions (delivered es)) ↔
      s.sleeping = [] ∨ s.duplicates ≠ 0 ∨ s.invalid ≠ 0 := by
  have htracks := Tracks.start.run hrun
  have hphase : s.phase = .unsubscribing := by
    by_contra hphase
    have hnone : s.onEvent o (.unsubscribed elapsedMs) = none := if_neg hphase
    exact absurd (hstep.symm.trans hnone) (Option.some_ne_none _)
  have hcomplete := htracks.complete (by rw [hphase]; decide) hreason
  obtain ⟨finished, hperm, hcounts⟩ := htracks.counts
  rw [List.append_nil, List.nil_append] at hperm
  -- What is still in its delay is one notification too many.
  have hexact : Exact o.toNoticeSubscriberOptions (delivered es) ↔
      (s.duplicates = 0 ∧ s.invalid = 0) ∧ s.sleeping = [] := by
    rw [← hcounts.exact_iff hcomplete]
    constructor
    · exact fun h => (h.perm hperm).of_append (hcounts.toFinset_eq hcomplete)
    · rintro ⟨h, hnone⟩
      rw [hnone, List.append_nil] at hperm
      exact h.perm hperm.symm
  rw [succeeds_iff hreason hstep, hexact, and_iff_right (hcounts.complete hcomplete)]
  tauto

/-! A duplicate whose handler is in its delay when the role ends. -/

/-- One publisher, with one notification. -/
def oneNotice : SubscriberOptions where
  namespaceName := "ns"
  publisherCount := 1
  operations := 1
  payloadBytes := 32
  publisherCount_le := by decide
  operations_le := by decide
  workerId := "0"
  handlerDelayMs := 50
  expected_le := by decide

def firstNotice : Notice where
  route := "notice://destroyer/ns/0"
  body := encode "n|0|0|xxxxxxxxxxxxxxxxxxxxxxxxxx"

def lateDuplicate : List SubscriberEvent :=
  [.notice firstNotice, .wake 0, .completed, .notice firstNotice, .drained]

theorem lateDuplicate_run : ∃ s, (subscriber oneNotice).run .start lateDuplicate = some s ∧
    s.abortReason = none ∧ s.phase = .unsubscribing ∧ s.sleeping = [firstNotice] ∧
      s.seen.card = 1 ∧ s.duplicates = 0 ∧ s.invalid = 0 := by
  have hrun : ((subscriber oneNotice).run .start lateDuplicate).map (fun s => (s.abortReason,
      s.phase, s.sleeping, s.seen.card, s.duplicates, s.invalid)) =
      some (none, .unsubscribing, [firstNotice], 1, 0, 0) := by decide +kernel
  obtain ⟨s, hs, hvalues⟩ := Option.map_eq_some_iff.mp hrun
  simp only [Prod.mk.injEq] at hvalues
  exact ⟨s, hs, hvalues⟩

/-- The end of the run. -/
theorem exists_closed {o : SubscriberOptions} {s : Subscriber} (hphase : s.phase = .unsubscribing)
    (elapsedMs : ℤ) : ∃ s', (subscriber o).step s (.unsubscribed elapsedMs) = some s' :=
  ⟨_, if_pos hphase⟩

theorem verdict_reflects_lateDuplicate : ∃ s s',
    (subscriber oneNotice).run .start lateDuplicate = some s ∧
    (subscriber oneNotice).step s (.unsubscribed 155) = some s' ∧
    ((s'.Succeeds ↔ Exact oneNotice.toNoticeSubscriberOptions (delivered lateDuplicate)) ↔
      s.sleeping = [] ∨ s.duplicates ≠ 0 ∨ s.invalid ≠ 0) := by
  obtain ⟨s, hrun, hreason, hphase, -⟩ := lateDuplicate_run
  obtain ⟨s', hstep⟩ := @exists_closed oneNotice s hphase 155
  exact ⟨s, s', hrun, hstep, verdict_reflects_iff hrun hreason hstep⟩

/-- The role succeeds, though its notification was delivered twice. -/
theorem not_reflects_lateDuplicate : ¬∀ (o : SubscriberOptions) (es : List SubscriberEvent)
    (s s' : Subscriber) (elapsedMs : ℤ), (subscriber o).run .start es = some s →
    s.abortReason = none → (subscriber o).step s (.unsubscribed elapsedMs) = some s' →
    (s'.Succeeds ↔ Exact o.toNoticeSubscriberOptions (delivered es)) := by
  intro h
  obtain ⟨s, hrun, hreason, hphase, -, hseen, hduplicates, hinvalid⟩ := lateDuplicate_run
  obtain ⟨s', hstep⟩ := @exists_closed oneNotice s hphase 155
  have hsucceeds : s'.Succeeds :=
    (succeeds_iff hreason hstep).mpr ⟨hseen, hduplicates, hinvalid⟩
  have honce := ((h _ _ s s' 155 hrun hreason hstep).mp hsucceeds).once 0 Nat.one_pos 0 Nat.one_pos
  have htwice : ((delivered lateDuplicate).countP fun message =>
      IsNotice oneNotice.toNoticeSubscriberOptions message 0 0) = 2 := by decide +kernel
  omega

end Live

end FitzDestroyer
