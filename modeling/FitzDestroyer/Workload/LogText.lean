import FitzDestroyer.Run.Emission
import FitzDestroyer.Workload.JsonText

/-!
# The text of a log

A workload prints its records as lines of JSON; the host reads the text of the log of its
container, which has other lines as well, and which ends in the middle of a line if the container
is killed.

* `logRecord`, `logText` : the record and the line of `log(event, fields)`;
* `Text.parseJsonRecords` : the records of a text (`workload-log.ts`);
* `forall₂_records` : **the records that are logged are the ones that are read**;
* `parseJsonRecords_take` : **of a log that is cut off, the records of the whole lines are read**.
-/

namespace FitzDestroyer

namespace Workload

open Js

/-! ### Lines -/

/-- The record of `log(event, fields)`, as `JSON.stringify` enumerates it. -/
def logRecord (timestamp event : String) (fields : Record) : Record :=
  Dict.entries (fields.foldl (fun d p => Dict.set d p.1 p.2)
    [("timestamp", .str timestamp), ("event", .str event)])

/-- The line of `log(event, fields)`. -/
def logText (timestamp event : String) (fields : Record) : String :=
  (Json.obj (logRecord timestamp event fields)).stringify

namespace Text

/-- The record of a line: the text from the first brace on, if it is an object. -/
def lineRecord? (line : List Char) : Option Record :=
  if '\x7b' ∈ line then
    match parse (line.dropWhile (· ≠ '\x7b')) with
    | some (.obj fields) => some fields
    | _ => none
  else none

def recordsOf (text : List Char) : List Record := (text.splitOn '\n').filterMap lineRecord?

/-- `parseJsonRecords(logs)`. -/
def parseJsonRecords (logs : String) : List Record := recordsOf logs.toList

end Text

/-- `requiredEvent(logs, event)`. -/
def Text.requiredEvent (logs event : String) : Except Thrown Record :=
  match (Text.parseJsonRecords logs).reverse.find? fun record => IsEvent record event with
  | some record => .ok record
  | none => .error (newError s!"Missing {event} workload record")

/-- What a container writes to its log. -/
inductive Output where
  /-- A workload calls `log`. -/
  | logged (timestamp event : String) (fields : Record)
  /-- A line of `npm` or of Docker. -/
  | noise (line : String)

namespace Output

def line : Output → List Char
  | .logged timestamp event fields => (logText timestamp event fields).toList
  | .noise line => line.toList

def width (o : Output) : ℕ := o.line.length

def record? : Output → Option Record
  | .logged timestamp event fields => some (logRecord timestamp event fields)
  | .noise _ => none

/-- The line after parsing, without its time. -/
def logLine : Output → LogLine
  | .logged _ event fields => Workload.logLine event fields
  | .noise line => .noise line

/-- What is logged is data, under names that `log` does not use; no other line holds an object, nor
does the start of one. -/
def Valid : Output → Prop
  | .logged _ _ fields =>
    ("timestamp" :: "event" :: fields.map Prod.fst).Nodup ∧ Json.ProperFields fields
  | .noise line => '\n' ∉ line.toList ∧
    ∀ torn, torn <+: line.toList → Text.lineRecord? torn = none

end Output

/-- The log of a container. -/
def text (outputs : List Output) : List Char := outputs.flatMap fun o => o.line ++ ['\n']

/-! ### Characters -/

theorem mem_escape {c d : Char} (h : d ∈ escape c) : 32 ≤ d.toNat := by
  unfold escape at h
  have htwo : ∀ e : Char, 32 ≤ e.toNat → d ∈ ['\\', e] → 32 ≤ d.toNat := by
    intro e he hd
    simp only [List.mem_cons, List.not_mem_nil, or_false] at hd
    rcases hd with rfl | rfl
    · decide
    · exact he
  split_ifs at h with hquote hslash hback htab hline hpage hreturn hcontrol
  · exact htwo '"' (by decide) h
  · exact htwo '\\' (by decide) h
  · exact htwo 'b' (by decide) h
  · exact htwo 't' (by decide) h
  · exact htwo 'n' (by decide) h
  · exact htwo 'f' (by decide) h
  · exact htwo 'r' (by decide) h
  · have hall : ∀ n < 32, ∀ d ∈ ['\\', 'u'] ++ padStart 4 '0' (Nat.toDigits 16 n),
        32 ≤ d.toNat := by
      decide +kernel
    exact hall _ hcontrol d h
  · obtain rfl := List.mem_singleton.mp h
    exact not_lt.mp hcontrol

theorem mem_quote {text : String} {c : Char} (h : c ∈ (quote text).toList) : 32 ≤ c.toNat := by
  have hlist : (quote text).toList = '"' :: (text.toList.flatMap escape ++ ['"']) := by
    simp [quote]
  rw [hlist, List.mem_cons, List.mem_append, List.mem_flatMap, List.mem_singleton] at h
  rcases h with rfl | ⟨d, -, hd⟩ | rfl
  · decide
  · exact mem_escape hd
  · decide

theorem le_toNat_of_isNumberChar {c : Char} (h : IsNumberChar c) : 32 ≤ c.toNat := by
  by_contra hlt
  have hnone : ∀ n < 32, ¬IsNumberChar (Char.ofNat n) := by decide
  exact hnone c.toNat (not_le.mp hlt) (by rwa [Char.ofNat_toNat])

/-- No character of a text of JSON is a control character. -/
theorem stringify_printable {v : Json} : ∀ c ∈ v.stringify.toList, 32 ≤ c.toNat := by
  have hparts : ∀ {before after : String} {texts : List String},
      (∀ c ∈ before.toList, 32 ≤ c.toNat) → (∀ c ∈ after.toList, 32 ≤ c.toNat) →
      (∀ text ∈ texts, ∀ c ∈ text.toList, 32 ≤ c.toNat) →
      ∀ c ∈ (before ++ ",".intercalate texts ++ after).toList, 32 ≤ c.toNat := by
    intro before after texts hbefore hafter htexts c hc
    simp only [String.toList_append, String.toList_intercalate, List.mem_append] at hc
    rcases hc with (hc | hc) | hc
    · exact hbefore c hc
    · rcases mem_of_mem_intercalate hc with hc | ⟨piece, hpiece, hc⟩
      · obtain rfl : c = ',' := by simpa using hc
        decide
      · obtain ⟨text, htext, rfl⟩ := List.mem_map.mp hpiece
        exact htexts text htext c hc
    · exact hafter c hc
  induction v using Json.induct with
  | null => decide
  | bool b => cases b <;> decide
  | num x =>
    have hnull : ∀ c ∈ "null".toList, 32 ≤ c.toNat := by decide
    cases x with
    | fin q =>
      intro c hc
      rw [Json.stringify] at hc
      exact le_toNat_of_isNumberChar (mem_numberText hc)
    | _ => exact hnull
  | str text => exact fun c hc => mem_quote hc
  | arr items ih =>
    refine hparts (by decide) (by decide) ?_
    induction items with
    | nil => exact fun _ h => absurd h List.not_mem_nil
    | cons item items ih' =>
      rw [List.forall_mem_cons] at ih
      rw [Json.stringifyItems, List.forall_mem_cons]
      exact ⟨ih.1, ih' ih.2⟩
  | obj fields ih =>
    refine hparts (by decide) (by decide) ?_
    induction fields with
    | nil => exact fun _ h => absurd h List.not_mem_nil
    | cons field fields ih' =>
      rw [List.forall_mem_cons] at ih
      obtain ⟨name, v⟩ := field
      rw [Json.stringifyFields, List.forall_mem_cons]
      refine ⟨fun c hc => ?_, ih' ih.2⟩
      simp only [String.toList_append, List.mem_append] at hc
      rcases hc with (hc | hc) | hc
      · exact mem_quote hc
      · obtain rfl : c = ':' := by simpa using hc
        decide
      · exact ih.1 c hc

/-! ### Records -/

theorem logRecord_perm (timestamp event : String) {fields : Record}
    (h : ("timestamp" :: "event" :: fields.map Prod.fst).Nodup) :
    (logRecord timestamp event fields).Perm
      (("timestamp", .str timestamp) :: ("event", .str event) :: fields) := by
  unfold logRecord
  rw [Dict.foldl_set (by simpa using h)]
  exact Dict.entries_perm _

theorem proper_logRecord {timestamp event : String} {fields : Record}
    (h : (Output.logged timestamp event fields).Valid) :
    (Json.obj (logRecord timestamp event fields)).Proper := by
  obtain ⟨hkeys, hfields⟩ := h
  have hperm := logRecord_perm timestamp event hkeys
  refine ⟨(hperm.map Prod.fst).nodup_iff.mpr hkeys, Dict.entries_entries _, ?_⟩
  rw [properFields_iff] at hfields ⊢
  intro field hfield
  rcases List.mem_cons.mp (hperm.mem_iff.mp hfield) with rfl | hfield
  · trivial
  · rcases List.mem_cons.mp hfield with rfl | hfield
    · trivial
    · exact hfields field hfield

/-- The fields of a record, besides its time. -/
theorem field_logRecord {timestamp event name : String} {fields : Record}
    (h : ("timestamp" :: "event" :: fields.map Prod.fst).Nodup) (hname : name ≠ "timestamp") :
    field (logRecord timestamp event fields) name =
      field (("event", .str event) :: fields) name := by
  have hfield : ∀ record : Record, field record name = Dict.get? record name := fun _ => rfl
  rw [hfield, hfield, logRecord, Dict.foldl_set (by simpa using h),
    Dict.get?_entries (by simpa using h), List.cons_append, Dict.get?_cons, if_neg hname.symm,
    List.singleton_append]

/-! ### Lines of a log -/

namespace Output

variable {o : Output} {torn : List Char}

theorem newline_not_mem (h : o.Valid) : '\n' ∉ o.line := by
  cases o with
  | logged timestamp event fields =>
    exact fun hmem => absurd (stringify_printable _ hmem) (by decide)
  | noise line => exact h.1

/-- A line without a brace holds no object. -/
theorem valid_noise {line : String} (hline : '\n' ∉ line.toList) (hbrace : '\x7b' ∉ line.toList) :
    (Output.noise line).Valid :=
  ⟨hline, fun torn htorn => by
    rw [Text.lineRecord?, if_neg fun hmem => hbrace (htorn.mem hmem)]⟩

/-- The line of a record is its text. -/
theorem line_logged (timestamp event : String) (fields : Record) :
    ∃ cs, (Output.logged timestamp event fields).line = '\x7b' :: cs := by
  simp [line, logText, Json.stringify]

theorem lineRecord?_line (h : o.Valid) : Text.lineRecord? o.line = o.record? := by
  cases o with
  | logged timestamp event fields =>
    have hparse := parse_stringify (proper_logRecord h)
    obtain ⟨cs, hcs⟩ := line_logged timestamp event fields
    have hline : (Output.logged timestamp event fields).line =
        (Json.obj (logRecord timestamp event fields)).stringify.toList := rfl
    rw [← hline, hcs] at hparse
    have hdrop : ('\x7b' :: cs).dropWhile (· ≠ '\x7b') = '\x7b' :: cs :=
      List.dropWhile_cons_of_neg (by simp)
    rw [hcs, Text.lineRecord?, if_pos List.mem_cons_self, hdrop, hparse]
    rfl
  | noise line => exact h.2 _ (List.prefix_refl _)

/-- **A torn line** is no record. -/
theorem lineRecord?_torn (h : o.Valid) (htorn : torn <+: o.line) (hne : torn ≠ o.line) :
    Text.lineRecord? torn = none := by
  cases o with
  | logged timestamp event fields =>
    have hreads := reads_stringify (proper_logRecord h) [] stops_nil
    obtain ⟨cs, hcs⟩ := line_logged timestamp event fields
    have hline : (Output.logged timestamp event fields).line =
        (Json.obj (logRecord timestamp event fields)).stringify.toList := rfl
    rw [List.append_nil, ← hline, hcs] at hreads
    rw [hcs] at htorn hne
    cases torn with
    | nil => rfl
    | cons c torn =>
      obtain rfl : c = '\x7b' := (List.cons_prefix_cons.mp htorn).1
      have hdrop : ('\x7b' :: torn).dropWhile (· ≠ '\x7b') = '\x7b' :: torn :=
        List.dropWhile_cons_of_neg (by simp)
      rw [Text.lineRecord?, if_pos List.mem_cons_self, hdrop,
        parse_eq_none_of_prefix hreads htorn hne]
  | noise line => exact h.2 _ htorn

end Output

theorem recordsOf_of_not_mem {line : List Char} (h : '\n' ∉ line) :
    Text.recordsOf line = (Text.lineRecord? line).toList := by
  rw [Text.recordsOf, List.splitOn_eq_singleton h, List.filterMap_cons]
  cases Text.lineRecord? line <;> rfl

theorem recordsOf_append {line : List Char} (h : '\n' ∉ line) (rest : List Char) :
    Text.recordsOf (line ++ '\n' :: rest) =
      (Text.lineRecord? line).toList ++ Text.recordsOf rest := by
  rw [Text.recordsOf, List.splitOn_append_cons_self_of_not_mem h, List.filterMap_cons]
  cases Text.lineRecord? line <;> rfl

theorem recordsOf_take {outputs : List Output} (h : ∀ o ∈ outputs, o.Valid) (n : ℕ) :
    Text.recordsOf ((text outputs).take n) =
      (EventSys.cut Output.width n outputs).filterMap Output.record? := by
  induction outputs generalizing n with
  | nil => simp [text, EventSys.cut, Text.recordsOf, Text.lineRecord?]
  | cons o outputs ih =>
    rw [List.forall_mem_cons] at h
    have hline := Output.newline_not_mem h.1
    have htext : text (o :: outputs) = o.line ++ '\n' :: text outputs := by simp [text]
    have ih := ih h.2 (n - (o.line.length + 1))
    rw [htext, EventSys.cut, Output.width, List.take_append]
    split_ifs with hn
    · rw [List.take_of_length_le hn, List.filterMap_cons, ← Output.lineRecord?_line h.1]
      rcases Nat.lt_or_ge o.line.length n with hlt | hge
      · -- The end of the line is there.
        obtain ⟨m, hm⟩ : ∃ m, n - o.line.length = m + 1 := ⟨n - o.line.length - 1, by omega⟩
        rw [show n - (o.line.length + 1) = m by omega] at ih ⊢
        rw [hm, List.take_succ_cons, recordsOf_append hline, ih]
        cases Text.lineRecord? o.line <;> rfl
      · obtain rfl : n = o.line.length := Nat.le_antisymm hge hn
        rw [Nat.sub_eq_zero_of_le (Nat.le_succ _), List.take_zero] at ih
        rw [Nat.sub_self, List.take_zero, List.append_nil, recordsOf_of_not_mem hline,
          Nat.sub_eq_zero_of_le (Nat.le_succ _), ← ih]
        cases Text.lineRecord? o.line <;> rfl
    · have hlt := not_le.mp hn
      have htorn : o.line.take n <+: o.line := List.take_prefix n _
      have hne : o.line.take n ≠ o.line := fun heq => by
        have := congrArg List.length heq
        rw [List.length_take, Nat.min_eq_left hlt.le] at this
        omega
      rw [Nat.sub_eq_zero_of_le hlt.le, List.take_zero, List.append_nil,
        recordsOf_of_not_mem fun hmem => hline (htorn.mem hmem),
        Output.lineRecord?_torn h.1 htorn hne]
      rfl

theorem length_text (outputs : List Output) :
    (text outputs).length = EventSys.size Output.width outputs := by
  induction outputs with
  | nil => rfl
  | cons o outputs ih =>
    have htext : text (o :: outputs) = o.line ++ '\n' :: text outputs := by simp [text]
    rw [htext, List.length_append, List.length_cons, ih, EventSys.size, Output.width]
    omega

/-! ### The host -/

/-- The records are the same but for their times. -/
def Untimed (record record' : Record) : Prop :=
  ∀ name, name ≠ "timestamp" → field record name = field record' name

theorem Untimed.isEvent {record record' : Record} (h : Untimed record record') (event : String) :
    IsEvent record event ↔ IsEvent record' event := by
  rw [IsEvent, IsEvent, h "event" (by decide)]

theorem find?_untimed {records records' : List Record} (h : List.Forall₂ Untimed records records')
    (event : String) : Option.Rel Untimed (records.find? fun record => IsEvent record event)
      (records'.find? fun record => IsEvent record event) := by
  induction h with
  | nil => exact .none
  | @cons record record' records records' hrecord hrecords ih =>
    rw [List.find?_cons, List.find?_cons]
    by_cases hevent : IsEvent record event
    · simpa [hevent, (hrecord.isEvent event).mp hevent] using hrecord
    · simpa [hevent, mt (hrecord.isEvent event).mpr hevent] using ih

/-- **The records that are logged are the ones that are read**, in their order. -/
theorem forall₂_records {outputs : List Output} (h : ∀ o ∈ outputs, o.Valid) :
    List.Forall₂ Untimed (Text.parseJsonRecords (String.ofList (text outputs)))
      (parseJsonRecords (outputs.map Output.logLine)) := by
  have htake := recordsOf_take h (text outputs).length
  rw [List.take_length, EventSys.cut_of_le (length_text outputs).ge] at htake
  rw [Text.parseJsonRecords, String.toList_ofList, htake, parseJsonRecords, List.filterMap_map]
  clear htake
  induction outputs with
  | nil => exact .nil
  | cons o outputs ih =>
    rw [List.forall_mem_cons] at h
    cases o with
    | logged timestamp event fields =>
      exact .cons (fun name hname => field_logRecord h.1.1 hname) (ih h.2)
    | noise line => exact ih h.2

/-- **Of a log that is read while it is written**, or after a kill, the host gets the records of the
whole lines, in their order, and no others. -/
theorem parseJsonRecords_take {outputs : List Output} (h : ∀ o ∈ outputs, o.Valid) (n : ℕ) :
    Text.parseJsonRecords (String.ofList ((text outputs).take n)) =
      (EventSys.cut Output.width n outputs).filterMap Output.record? := by
  rw [Text.parseJsonRecords, String.toList_ofList]
  exact recordsOf_take h n

/-- **The host finds the event that was logged last**, with the values of its fields. -/
theorem requiredEvent_text {outputs : List Output} (h : ∀ o ∈ outputs, o.Valid) (event : String)
    {name : String} (hname : name ≠ "timestamp") :
    (Text.requiredEvent (String.ofList (text outputs)) event).map (field · name) =
      (requiredEvent (outputs.map Output.logLine) event).map (field · name) := by
  have hfind := find?_untimed (List.forall₂_reverse_iff.mpr (forall₂_records h)) event
  unfold Text.requiredEvent requiredEvent
  generalize List.find? _ _ = found at hfind ⊢
  generalize List.find? _ _ = found' at hfind ⊢
  cases hfind with
  | none => rfl
  | some hrecord => exact congrArg Except.ok (hrecord name hname)

/-- The log of a workload that gets ready. -/
def readyLog : List Output :=
  [.noise "> npm start", .logged "00:00" "ready" [("workers", .count 3)]]

theorem readyLog_valid : ∀ o ∈ readyLog, o.Valid := by
  have hnoise : (Output.noise "> npm start").Valid := Output.valid_noise (by decide) (by decide)
  have hready : (Output.logged "00:00" "ready" [("workers", .count 3)]).Valid :=
    ⟨by decide, isDouble_natCast (by decide), trivial⟩
  simp only [readyLog, List.forall_mem_cons]
  exact ⟨hnoise, hready, List.forall_mem_nil _⟩

/-- A log whose last line is torn. -/
theorem parseJsonRecords_take_ready :
    Text.parseJsonRecords (String.ofList ((text readyLog).take 40)) =
      (EventSys.cut Output.width 40 readyLog).filterMap Output.record? :=
  parseJsonRecords_take readyLog_valid 40

/-- A field of the event. -/
theorem requiredEvent_text_ready :
    (Text.requiredEvent (String.ofList (text readyLog)) "ready").map (field · "workers") =
      (requiredEvent (readyLog.map Output.logLine) "ready").map (field · "workers") :=
  requiredEvent_text readyLog_valid "ready" (by decide)

end Workload

end FitzDestroyer
