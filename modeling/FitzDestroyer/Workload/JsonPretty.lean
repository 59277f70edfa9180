import FitzDestroyer.Workload.JsonText

/-!
# Files of JSON

The host writes what it knows of a run to files of indented JSON, for people and for the report.

* `Json.pretty`, `writeJson` : the text of a value, and of its file (`artifacts.ts`);
* `parse_writeJson_take` : **a file that was cut off is read as its value, or not at all**.
-/

namespace FitzDestroyer

namespace Workload

open Js

/-- A new line, indented. -/
def newLine (depth : ℕ) : List Char := '\n' :: List.replicate (2 * depth) ' '

mutual

/-- `JSON.stringify(value, null, 2)`, of a part at a depth. -/
def Json.pretty (depth : ℕ) : Json → List Char
  | .arr items =>
    if items.isEmpty then ['[', ']']
    else '[' :: ([','].intercalate (prettyItems (depth + 1) items) ++ (newLine depth ++ [']']))
  | .obj fields =>
    if fields.isEmpty then ['\x7b', '\x7d']
    else '\x7b' ::
      ([','].intercalate (prettyFields (depth + 1) fields) ++ (newLine depth ++ ['\x7d']))
  | v => v.stringify.toList

def Json.prettyItems (depth : ℕ) : List Json → List (List Char)
  | [] => []
  | item :: items => (newLine depth ++ item.pretty depth) :: prettyItems depth items

def Json.prettyFields (depth : ℕ) : List (String × Json) → List (List Char)
  | [] => []
  | (name, v) :: fields =>
    (newLine depth ++ ((quote name).toList ++ ':' :: ([' '] ++ v.pretty depth))) ::
      prettyFields depth fields

end

/-- `Artifacts.writeJson`: the file of a value. -/
def writeJson (v : Json) : List Char := v.pretty 0 ++ ['\n']

/-! ### Reading -/

theorem blank_newLine (depth : ℕ) : Blank (newLine depth) := by
  intro c hc
  rcases List.mem_cons.mp hc with rfl | hc
  · rfl
  · rw [List.eq_of_mem_replicate hc]
    rfl

theorem forall₂_prettyItems {depth : ℕ} {items : List Json}
    (h : ∀ item ∈ items, ReadAs (item.pretty depth) item) :
    List.Forall₂ ReadAs (Json.prettyItems depth items) items := by
  induction items with
  | nil => exact .nil
  | cons item items ih =>
    rw [List.forall_mem_cons] at h
    exact .cons (h.1.blank (blank_newLine depth)) (ih h.2)

theorem forall₂_prettyFields {depth : ℕ} {fields : List (String × Json)}
    (h : ∀ field ∈ fields, ReadAs (field.2.pretty depth) field.2) :
    List.Forall₂ ReadAsField (Json.prettyFields depth fields) fields := by
  have hspace : Blank [' '] := by simp [Blank, isJsonSpace]
  induction fields with
  | nil => exact .nil
  | cons field fields ih =>
    rw [List.forall_mem_cons] at h
    exact .cons (h.1.field field.1 (blank_newLine depth) hspace) (ih h.2)

/-- **The text of a value** is read as the value. -/
theorem reads_pretty {v : Json} : v.Proper → ∀ depth, ReadAs (v.pretty depth) v := by
  induction v using Json.induct with
  | arr items ih =>
    intro h depth rest _
    rw [Json.Proper, properItems_iff] at h
    rw [Json.pretty]
    split_ifs with hempty
    · obtain rfl := List.isEmpty_iff.mp hempty
      exact .emptyArray (skipSpace_cons rfl) (skipSpace_cons rfl)
    · have hne : items ≠ [] := fun hnil => hempty (List.isEmpty_iff.mpr hnil)
      have hitems := reads_items (forall₂_prettyItems fun item hitem =>
        ih item hitem (h item hitem) (depth + 1)) hne (blank_newLine depth) rest
      rw [List.cons_append, List.append_assoc, List.append_assoc]
      exact .array (skipSpace_cons rfl) hitems
  | obj fields ih =>
    intro h depth rest _
    rw [Json.Proper, properFields_iff] at h
    rw [Json.pretty]
    split_ifs with hempty
    · obtain rfl := List.isEmpty_iff.mp hempty
      exact .emptyObject (skipSpace_cons rfl) (skipSpace_cons rfl)
    · have hne : fields ≠ [] := fun hnil => hempty (List.isEmpty_iff.mpr hnil)
      have hfields := reads_fields (forall₂_prettyFields fun field hfield =>
        ih field hfield (h.2.2 field hfield) (depth + 1)) hne (blank_newLine depth) rest
      rw [List.cons_append, List.append_assoc, List.append_assoc, ← objectOf_eq h.1 h.2.1]
      exact .object (skipSpace_cons rfl) hfields
  | _ => exact fun h depth => reads_stringify h

/-- The text of an object starts with its brace. -/
theorem pretty_obj (fields : Record) (depth : ℕ) :
    ∃ cs, (Json.obj fields).pretty depth = '\x7b' :: cs := by
  rw [Json.pretty]
  split_ifs <;> exact ⟨_, rfl⟩

/-- **A file that was cut off** is read as its value, or, if its closing brace is lost, not at
all. -/
theorem parse_writeJson_take {fields : Record} (h : (Json.obj fields).Proper) (n : ℕ) :
    parse ((writeJson (.obj fields)).take n) =
      if ((Json.obj fields).pretty 0).length ≤ n then some (.obj fields) else none := by
  have hreads := reads_pretty h 0
  obtain ⟨cs, hcs⟩ := pretty_obj fields 0
  rw [writeJson, List.take_append]
  split_ifs with hn
  · -- Only the end of the file can be lost.
    have hblank : Blank (['\n'].take (n - ((Json.obj fields).pretty 0).length)) := by
      intro c hc
      rw [List.mem_singleton.mp (List.mem_of_mem_take hc)]
      rfl
    have hstops := hblank.stops stops_nil
    rw [List.append_nil] at hstops
    have hend := @skipSpace_blank _ [] hblank
    rw [List.append_nil] at hend
    rw [List.take_of_length_le hn]
    exact parse_eq_some.mpr ⟨_, hreads _ hstops, hend⟩
  · have hlt := not_le.mp hn
    have hwhole := hreads [] stops_nil
    rw [List.append_nil, hcs] at hwhole
    rw [Nat.sub_eq_zero_of_le hlt.le, List.take_zero, List.append_nil]
    refine parse_eq_none_of_prefix hwhole (hcs ▸ List.take_prefix n _) fun heq => ?_
    have hlength := congrArg List.length heq
    rw [← hcs, List.length_take, Nat.min_eq_left hlt.le] at hlength
    exact hlt.ne hlength

end Workload

end FitzDestroyer
