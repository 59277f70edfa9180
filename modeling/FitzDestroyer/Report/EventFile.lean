import FitzDestroyer.Workload.LogText

/-!
# The file of events

`Artifacts.event` appends a line to `events.ndjson` for every event of a run, and `readEvents` of
`operational-guidance.ts` reads the file for the report.  A run that is killed leaves the file with
a part of its last line.

* `readEvents` : the events of a file, or why there are none;
* `readEvents_take` : **a file that was cut off is read up to the cut, or its torn line is named**.
-/

namespace FitzDestroyer

namespace Report

open Js Workload

/-- The file, as it is read. -/
inductive EventFile where
  | contents (text : List Char)
  | missing
  | unreadable (message : String)

def malformed (lineNumber : ℕ) : String := s!"events.ndjson line {lineNumber} was malformed."

/-- The lines from the given number on. -/
def eventsOf (lineNumber : ℕ) (lines : List (List Char)) :
    Except String (List Record) :=
  match lines with
  | [] => .ok []
  | line :: lines =>
    if trim line = [] then eventsOf (lineNumber + 1) lines
    else
      match parse line with
      | none => .error (malformed lineNumber)
      | some (.obj fields) =>
        if ((field fields "event").bind Json.text?).isSome then
          (eventsOf (lineNumber + 1) lines).map (fields :: ·)
        else .error s!"events.ndjson line {lineNumber} was not an event record."
      | some _ => .error s!"events.ndjson line {lineNumber} was not an event record."

/-- `readEvents(directory)`: the events, and the error. -/
def readEvents : EventFile → List Record × Option String
  | .missing => ([], some "events.ndjson was not available.")
  | .unreadable message => ([], some s!"events.ndjson could not be read: {message}")
  | .contents text =>
    match eventsOf 1 (text.splitOn '\n') with
    | .ok events => (events, none)
    | .error error => ([], some error)

/-- An event of a run. -/
structure Event where
  timestamp : String
  event : String
  fields : Record
  /-- The fields are data, under names of their own. -/
  valid : (Output.logged timestamp event fields).Valid

namespace Event

/-- `JSON.stringify(record)`. -/
def line (e : Event) : List Char := (logText e.timestamp e.event e.fields).toList

def width (e : Event) : ℕ := e.line.length

def record (e : Event) : Record := logRecord e.timestamp e.event e.fields

end Event

/-- `events.ndjson` after some events. -/
def eventFile (events : List Event) : List Char := events.flatMap fun e => e.line ++ ['\n']

/-! ### Lines -/

namespace Event

variable (e : Event)

theorem line_eq : ∃ cs, e.line = '\x7b' :: cs := Output.line_logged e.timestamp e.event e.fields

theorem newline_not_mem : '\n' ∉ e.line := Output.newline_not_mem e.valid

theorem parse_line : parse e.line = some (.obj e.record) :=
  parse_stringify (proper_logRecord e.valid)

/-- The record has the name of the event. -/
theorem isSome_event : ((field e.record "event").bind Json.text?).isSome := by
  rw [record, field_logRecord e.valid.1 (by decide)]
  rfl

variable {e}

theorem parse_torn {torn : List Char} (htorn : torn <+: e.line) (hne : torn ≠ e.line) :
    parse torn = none := by
  have hreads := reads_stringify (proper_logRecord e.valid) [] stops_nil
  obtain ⟨cs, hcs⟩ := e.line_eq
  rw [List.append_nil, show (Json.obj _).stringify.toList = e.line from rfl, hcs] at hreads
  rw [hcs] at htorn hne
  exact parse_eq_none_of_prefix hreads htorn hne

/-- A part of a line is no blank line. -/
theorem trim_ne_nil {torn : List Char} (htorn : torn <+: e.line) (hne : torn ≠ []) :
    trim torn ≠ [] := by
  obtain ⟨c, rest, rfl⟩ := List.exists_cons_of_ne_nil hne
  obtain ⟨cs, hcs⟩ := e.line_eq
  rw [hcs] at htorn
  obtain rfl : c = '\x7b' := (List.cons_prefix_cons.mp htorn).1
  have hspace : isSpace '\x7b' = false := by decide
  rw [trim, List.dropWhile_cons_of_neg (by simp [hspace]), Ne, List.reverse_eq_nil_iff,
    List.dropWhile_eq_nil_iff]
  intro hall
  have := hall '\x7b' (by simp)
  rw [hspace] at this
  exact Bool.noConfusion this

end Event

theorem eventsOf_line (e : Event) (k : ℕ) (lines : List (List Char)) :
    eventsOf k (e.line :: lines) = (eventsOf (k + 1) lines).map (e.record :: ·) := by
  obtain ⟨cs, hcs⟩ := e.line_eq
  rw [eventsOf, if_neg (Event.trim_ne_nil (List.prefix_refl _) (by simp [hcs])), e.parse_line]
  simp only [e.isSome_event, if_true]

theorem eventsOf_nil (k : ℕ) : eventsOf k [[]] = .ok [] := rfl

/-- The lines of a file that was cut off. -/
theorem eventsOf_take (events : List Event) (n k : ℕ) :
    eventsOf k (((eventFile events).take n).splitOn '\n') =
      if EventSys.torn Event.width n events then
        .error (malformed (k + (EventSys.cut Event.width n events).length))
      else .ok ((EventSys.cut Event.width n events).map Event.record) := by
  induction events generalizing n k with
  | nil => simp [eventFile, EventSys.cut, EventSys.torn, eventsOf_nil]
  | cons e events ih =>
    have hfile : eventFile (e :: events) = e.line ++ '\n' :: eventFile events := by
      simp [eventFile]
    have hline := e.newline_not_mem
    rw [hfile, EventSys.cut, EventSys.torn, Event.width, List.take_append]
    by_cases hn : e.line.length ≤ n
    · have ih := ih (n - (e.line.length + 1)) (k + 1)
      have hlines : eventsOf k ((e.line.take n ++
          ('\n' :: eventFile events).take (n - e.line.length)).splitOn '\n') =
          (eventsOf (k + 1)
            (((eventFile events).take (n - (e.line.length + 1))).splitOn '\n')).map
              (e.record :: ·) := by
        rw [List.take_of_length_le hn]
        rcases Nat.lt_or_ge e.line.length n with hlt | hge
        · obtain ⟨m, hm⟩ : ∃ m, n - e.line.length = m + 1 := ⟨n - e.line.length - 1, by omega⟩
          rw [show n - (e.line.length + 1) = m by omega, hm, List.take_succ_cons,
            List.splitOn_append_cons_self_of_not_mem hline, eventsOf_line]
        · -- The line has lost its end only.
          rw [Nat.sub_eq_zero_of_le hge, Nat.sub_eq_zero_of_le (hge.trans (Nat.le_succ _)),
            List.take_zero, List.take_zero, List.append_nil, List.splitOn_eq_singleton hline,
            eventsOf_line, List.splitOn_nil, eventsOf_nil]
          rfl
      rw [hlines, ih, if_pos hn, if_pos hn]
      split_ifs with htorn
      · rw [List.length_cons, ← Nat.add_assoc, Nat.add_right_comm]
        rfl
      · rfl
    · have hlt := not_le.mp hn
      have htorn : e.line.take n <+: e.line := List.take_prefix n _
      have hne : e.line.take n ≠ e.line := fun heq => by
        have := congrArg List.length heq
        rw [List.length_take, Nat.min_eq_left hlt.le] at this
        omega
      rw [Nat.sub_eq_zero_of_le hlt.le, List.take_zero, List.append_nil, if_neg hn, if_neg hn,
        List.splitOn_eq_singleton fun hmem => hline (htorn.mem hmem)]
      rcases Nat.eq_zero_or_pos n with rfl | hpos
      · rfl
      · have hnil : e.line.take n ≠ [] := by
          rw [Ne, List.take_eq_nil_iff, not_or]
          exact ⟨hpos.ne', List.ne_nil_of_length_pos (hpos.trans hlt)⟩
        rw [eventsOf, if_neg (Event.trim_ne_nil htorn hnil), Event.parse_torn htorn hne]
        simp [hpos]

/-- **A file that was cut off** is read up to the cut, or its torn line is named. -/
theorem readEvents_take (events : List Event) (n : ℕ) :
    readEvents (.contents ((eventFile events).take n)) =
      if EventSys.torn Event.width n events then
        ([], some (malformed ((EventSys.cut Event.width n events).length + 1)))
      else ((EventSys.cut Event.width n events).map Event.record, none) := by
  rw [readEvents, eventsOf_take, Nat.add_comm]
  split_ifs <;> rfl

end Report

end FitzDestroyer
