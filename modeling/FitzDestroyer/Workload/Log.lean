import FitzDestroyer.Check.Basic
import FitzDestroyer.Js.Error
import FitzDestroyer.Js.NumberString

/-!
# Workload logs

A workload prints one JSON object a line; the host reads the objects back from the log of its
container (`workload-log.ts`).  A log is modelled after parsing: a line is a record, or it is one
that `parseJsonRecords` skips.

* `Json`, `Record`, `LogLine` : the contents of a log;
* `requiredEvent`, `numericField`, `numericArray` : the checks of the host;
* `numericField_eq_ok`, `numericArray_eq_ok` : counters that were logged are read back if they are
  safe integers.
-/

namespace FitzDestroyer

namespace Workload

open Js

/-- A value of a log record. -/
inductive Json where
  | null
  | bool (value : Bool)
  | num (value : Number)
  | str (text : String)
  | arr (items : List Json)
  | obj (fields : List (String × Json))

/-- A counter, as a value of a record. -/
def Json.count (n : ℕ) : Json := .num n

/-- An integer, as a value of a record. -/
def Json.int (n : ℤ) : Json := .num (.fin n)

/-- The text of a string value. -/
def Json.text? : Json → Option String
  | .str text => some text
  | _ => none

mutual

/-- `String(value)`. -/
def Json.asText : Json → String
  | .null => "null"
  | .bool value => if value then "true" else "false"
  | .num value => numberText value
  | .str text => text
  | .arr items => ",".intercalate (itemTexts items)
  | .obj _ => "[object Object]"

/-- The texts of the items of an array: `null` is left out. -/
def Json.itemTexts : List Json → List String
  | [] => []
  | .null :: items => "" :: itemTexts items
  | item :: items => item.asText :: itemTexts items

end

/-- A character of a string that `JSON.stringify` prints. -/
def escape (c : Char) : List Char :=
  if c = '"' then ['\\', '"']
  else if c = '\\' then ['\\', '\\']
  else if c.toNat = 8 then ['\\', 'b']
  else if c = '\t' then ['\\', 't']
  else if c = '\n' then ['\\', 'n']
  else if c.toNat = 12 then ['\\', 'f']
  else if c = '\r' then ['\\', 'r']
  else if c.toNat < 32 then ['\\', 'u'] ++ padStart 4 '0' (Nat.toDigits 16 c.toNat)
  else [c]

/-- A string that `JSON.stringify` prints. -/
def quote (text : String) : String :=
  "\"" ++ String.ofList (text.toList.flatMap escape) ++ "\""

mutual

/-- `JSON.stringify(value)`. -/
def Json.stringify : Json → String
  | .null => "null"
  | .bool value => if value then "true" else "false"
  | .num (.fin q) => numberText (.fin q)
  | .num _ => "null"
  | .str text => quote text
  | .arr items => "[" ++ ",".intercalate (stringifyItems items) ++ "]"
  | .obj fields => "\x7b" ++ ",".intercalate (stringifyFields fields) ++ "\x7d"

/-- The items of an array that `JSON.stringify` prints. -/
def Json.stringifyItems : List Json → List String
  | [] => []
  | item :: items => item.stringify :: stringifyItems items

/-- The fields of an object that `JSON.stringify` prints. -/
def Json.stringifyFields : List (String × Json) → List String
  | [] => []
  | (name, value) :: fields => (quote name ++ ":" ++ value.stringify) :: stringifyFields fields

end

/-- The fields of a record. -/
abbrev Record := List (String × Json)

/-- `record[name]`, where the record has the field. -/
def field (record : Record) (name : String) : Option Json :=
  (record.find? fun p => p.1 = name).map Prod.snd

/-- `String(record[name])`. -/
def fieldText (record : Record) (name : String) : String :=
  (field record name).elim "undefined" Json.asText

/-- The record names the event. -/
def IsEvent (record : Record) (event : String) : Prop :=
  (field record "event").bind Json.text? = some event

instance (record : Record) (event : String) : Decidable (IsEvent record event) :=
  inferInstanceAs (Decidable (_ = _))

/-- A line of a log. -/
inductive LogLine where
  | record (fields : Record)
  /-- A line without a JSON object. -/
  | noise (text : String)

abbrev Log := List LogLine

/-- The line a workload prints with `log(event, fields)`. -/
def logLine (event : String) (fields : Record) : LogLine :=
  .record (("event", .str event) :: fields)

/-- The record of a line. -/
def LogLine.record? : LogLine → Option Record
  | .record fields => some fields
  | .noise _ => none

def parseJsonRecords (log : Log) : List Record := log.filterMap LogLine.record?

/-- The last record of an event. -/
def requiredEvent (log : Log) (event : String) : Except Thrown Record :=
  match (parseJsonRecords log).reverse.find? fun record => IsEvent record event with
  | some record => .ok record
  | none => .error (newError s!"Missing {event} workload record")

/-- The natural number of a value. -/
def Json.sequence? : Json → Option ℕ
  | .num value => value.sequence?
  | _ => none

def numericValue (value : Option Json) (name : String) : Except Thrown ℕ :=
  match value.bind Json.sequence? with
  | some n => .ok n
  | none => .error (newError s!"{name} is not a non-negative integer")

def numericArray (value : Option Json) (label : String) : Except Thrown (List ℕ) :=
  match value with
  | some (.arr items) => items.mapM fun item => numericValue (some item) label
  | _ => .error (newError s!"{label} must be an array")

def numericField (record : Record) (name : String) : Except Thrown ℕ :=
  numericValue (field record name) name

/-- The sequences of a list, as errors print them. -/
def sequencesText (values : List ℕ) : String := (Json.arr (values.map .count)).stringify

theorem numericValue_eq_ok {value : Option Json} {name : String} {n : ℕ} :
    numericValue value name = .ok n ↔ value.bind Json.sequence? = some n := by
  unfold numericValue
  rcases value.bind Json.sequence? with _ | m <;> simp

theorem numericValue_count {n m : ℕ} {name : String} :
    numericValue (some (.count n)) name = .ok m ↔ n ≤ maxSafeInteger ∧ m = n := by
  rw [numericValue_eq_ok]
  exact Number.sequence?_natCast_eq_some

/-- Counters are read back if they are safe integers. -/
theorem numericArray_eq_ok {xs ys : List ℕ} {label : String} :
    numericArray (some (.arr (xs.map .count))) label = .ok ys ↔
      (∀ x ∈ xs, x ≤ maxSafeInteger) ∧ ys = xs := by
  rw [numericArray, List.mapM_map]
  simp only [Check.mapM_eq_ok, Function.comp_def, numericValue_count, List.forall₂_and_left,
    and_congr_right_iff]
  intro _
  rw [← List.forall₂_eq_eq_eq]
  exact ⟨List.Forall₂.flip, List.Forall₂.flip⟩

/-- A counter of a record is read back if it is a safe integer. -/
theorem numericField_eq_ok {record : Record} {name : String} {n m : ℕ}
    (h : field record name = some (.count n)) :
    numericField record name = .ok m ↔ n ≤ maxSafeInteger ∧ m = n := by
  rw [numericField, h, numericValue_count]

theorem isEvent_logLine {event event' : String} {fields : Record} :
    IsEvent (("event", .str event) :: fields) event' ↔ event = event' := by
  simp [IsEvent, field, Json.text?]

/-- The last record of an event is the one after which the event does not occur. -/
theorem requiredEvent_append {before after : Log} {record : Record} {event : String}
    (h : IsEvent record event) (hafter : ∀ r ∈ parseJsonRecords after, ¬IsEvent r event) :
    requiredEvent (before ++ .record record :: after) event = .ok record := by
  have hrecords : parseJsonRecords (before ++ .record record :: after) =
      parseJsonRecords before ++ record :: parseJsonRecords after := by
    simp [parseJsonRecords, LogLine.record?]
  have hnone : (parseJsonRecords after).reverse.find? (fun r => IsEvent r event) = none := by
    rw [List.find?_eq_none]
    exact fun r hr => by simpa using hafter r (List.mem_reverse.mp hr)
  rw [requiredEvent, hrecords, List.reverse_append, List.reverse_cons, List.append_assoc,
    List.find?_append, hnone]
  simp [h]

/-- The line that a workload prints last. -/
theorem requiredEvent_append_logLine (before : Log) (event : String) (fields : Record) :
    requiredEvent (before ++ [logLine event fields]) event =
      .ok (("event", .str event) :: fields) :=
  requiredEvent_append (isEvent_logLine.mpr rfl) (List.forall_mem_nil _)

theorem requiredEvent_logLine (event : String) (fields : Record) :
    requiredEvent [logLine event fields] event = .ok (("event", .str event) :: fields) :=
  requiredEvent_append_logLine [] event fields

end Workload

end FitzDestroyer
