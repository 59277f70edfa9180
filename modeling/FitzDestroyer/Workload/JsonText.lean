import FitzDestroyer.Js.Ascii
import FitzDestroyer.Js.NumberLiteral
import FitzDestroyer.Workload.JsonReader

/-!
# JSON is read back

`JSON.parse(JSON.stringify(value))` is `value`.

* `ofUnits_units` : the characters of the code units of a text are the text;
* `Json.Proper` : a value as a program holds it: numbers are finite, and the fields of objects are
  in the order in which they are enumerated;
* `reads_stringify` : a value is read from the start of a text;
* `parse_stringify` : **a value is read back from its text**.
-/

namespace FitzDestroyer

namespace Js

/-! ### Code units -/

theorem toNat_lt (c : Char) : c.toNat < 0xD800 ∨ 0xE000 ≤ c.toNat ∧ c.toNat < 0x110000 :=
  c.valid.imp_right fun h => ⟨h.1, h.2⟩

theorem ofUnits_unitsOf_append (c : Char) (us : List UInt16) :
    ofUnits (unitsOf c ++ us) = c :: ofUnits us := by
  have hvalid := toNat_lt c
  unfold unitsOf
  split_ifs with hsmall
  · -- A unit of its own is not the first one of a pair.
    have hunit : (unit c).toNat = c.toNat := by
      rw [unit, UInt16.toNat_ofNat_of_lt']
      exact hsmall
    have hsingle : single (unit c) = c := by
      rw [single, hunit, if_neg (by omega), Char.ofNat_toNat]
    cases us with
    | nil => exact congrArg (· :: []) hsingle
    | cons u us =>
      have hpair : pair? (unit c) u = none := by
        rw [pair?, hunit, if_neg (by omega)]
      rw [List.singleton_append, ofUnits, hpair, hsingle]
  · have hfirst : (0xD800 + (c.toNat - 0x10000) / 0x400).toUInt16.toNat =
        0xD800 + (c.toNat - 0x10000) / 0x400 := by
      refine UInt16.toNat_ofNat_of_lt' ?_
      rw [UInt16.size]
      omega
    have hsecond : (0xDC00 + (c.toNat - 0x10000) % 0x400).toUInt16.toNat =
        0xDC00 + (c.toNat - 0x10000) % 0x400 := by
      refine UInt16.toNat_ofNat_of_lt' ?_
      rw [UInt16.size]
      omega
    have hpair : pair? (0xD800 + (c.toNat - 0x10000) / 0x400).toUInt16
        (0xDC00 + (c.toNat - 0x10000) % 0x400).toUInt16 = some c := by
      have hcode : 0x10000 + (0xD800 + (c.toNat - 0x10000) / 0x400 - 0xD800) * 0x400 +
          (0xDC00 + (c.toNat - 0x10000) % 0x400 - 0xDC00) = c.toNat := by omega
      rw [pair?, hfirst, hsecond, if_pos (by omega), hcode, Char.ofNat_toNat]
    rw [List.cons_append, List.singleton_append, ofUnits, hpair]

/-- The characters of the code units of a text. -/
theorem ofUnits_units (cs : List Char) : ofUnits (cs.flatMap unitsOf) = cs := by
  induction cs with
  | nil => rfl
  | cons c cs ih => rw [List.flatMap_cons, ofUnits_unitsOf_append, ih]

end Js

namespace Workload

open Js

/-! ### Strings -/

theorem hexUnit?_control : ∀ n < 32,
    hexUnit? (padStart 4 '0' (Nat.toDigits 16 n)) = some n.toUInt16 ∧
      (padStart 4 '0' (Nat.toDigits 16 n)).length = 4 := by decide +kernel

/-- A character is read as its code units. -/
theorem takeChar_escape (c : Char) (rest : List Char) :
    takeChar (escape c ++ rest) = some (unitsOf c, rest) := by
  unfold escape
  split_ifs with hquote hslash hback htab hline hpage hreturn hcontrol
  · subst hquote
    rfl
  · subst hslash
    rfl
  · obtain rfl : c = Char.ofNat 8 := by rw [← hback, Char.ofNat_toNat]
    rfl
  · subst htab
    rfl
  · subst hline
    rfl
  · obtain rfl : c = Char.ofNat 12 := by rw [← hpage, Char.ofNat_toNat]
    rfl
  · subst hreturn
    rfl
  · obtain ⟨hunit, hlength⟩ := hexUnit?_control c.toNat hcontrol
    have hunits : unitsOf c = [c.toNat.toUInt16] := by rw [unitsOf, if_pos (by omega), unit]
    rw [List.append_assoc, hunits]
    simp [takeChar, List.take_left' hlength, List.drop_left' hlength, hunit]
  · rw [List.singleton_append, takeChar, List.head?_cons, if_neg (by simpa using hslash)]
    simp only [if_neg (not_or.mpr ⟨hquote, hcontrol⟩)]

theorem head?_escape (c : Char) (rest : List Char) : (escape c ++ rest).head? ≠ some '"' := by
  unfold escape
  split_ifs with hquote <;> simp [hquote]

theorem takeUnits_escape (cs rest : List Char) {n : ℕ} (hn : cs.length < n) :
    takeUnits n (cs.flatMap escape ++ '"' :: rest) = some (cs.flatMap unitsOf, rest) := by
  obtain ⟨n, rfl⟩ := Nat.exists_eq_add_of_le' (Nat.one_le_of_lt hn)
  induction cs generalizing n with
  | nil => simp [takeUnits]
  | cons c cs ih =>
    rw [List.length_cons, Nat.succ_lt_succ_iff] at hn
    obtain ⟨n, rfl⟩ := Nat.exists_eq_add_of_le' (Nat.one_le_of_lt hn)
    rw [List.flatMap_cons, List.append_assoc, takeUnits, if_neg (head?_escape _ _),
      takeChar_escape]
    simp [ih n hn]

/-- **A string** is read back. -/
theorem takeString_quote (text : String) (rest : List Char) :
    takeString ((quote text).toList ++ rest) = some (text, rest) := by
  have hlist : (quote text).toList ++ rest =
      '"' :: (text.toList.flatMap escape ++ '"' :: rest) := by
    simp [quote]
  have hlength : text.toList.length <
      ('"' :: (text.toList.flatMap escape ++ '"' :: rest)).length := by
    have hle : text.toList.length ≤ (text.toList.flatMap escape).length := by
      rw [List.length_flatMap]
      refine (le_of_eq (by simp)).trans
        (List.sum_le_sum (l := text.toList) (f := fun _ => 1) fun c _ => ?_)
      unfold escape
      split_ifs <;> simp
    simp only [List.length_cons, List.length_append]
    omega
  rw [hlist, takeString, List.head?_cons, if_pos rfl, List.tail_cons,
    takeUnits_escape _ _ hlength, Option.map_some, ofUnits_units, String.ofList_toList]

/-! ### Values -/

mutual

/-- The value as a program holds it. -/
def Json.Proper : Json → Prop
  | .null | .bool _ | .str _ => True
  | .num (.fin q) => IsDouble q
  | .num _ => False
  | .arr items => ProperItems items
  | .obj fields =>
    (fields.map Prod.fst).Nodup ∧ Dict.entries fields = fields ∧ ProperFields fields

def Json.ProperItems : List Json → Prop
  | [] => True
  | item :: items => item.Proper ∧ ProperItems items

def Json.ProperFields : List (String × Json) → Prop
  | [] => True
  | field :: fields => field.2.Proper ∧ ProperFields fields

end

/-- Induction over the parts of a value. -/
theorem Json.induct {motive : Json → Prop} (null : motive .null) (bool : ∀ b, motive (.bool b))
    (num : ∀ x, motive (.num x)) (str : ∀ text, motive (.str text))
    (arr : ∀ items, (∀ item ∈ items, motive item) → motive (.arr items))
    (obj : ∀ fields, (∀ field ∈ fields, motive field.2) → motive (.obj fields)) (v : Json) :
    motive v := by
  induction h : sizeOf v using Nat.strong_induction_on generalizing v with
  | _ n ih =>
    subst h
    cases v with
    | null => exact null
    | bool b => exact bool b
    | num x => exact num x
    | str text => exact str text
    | arr items =>
      refine arr items fun item hitem => ih _ ?_ item rfl
      have := List.sizeOf_lt_of_mem hitem
      rw [Json.arr.sizeOf_spec]
      omega
    | obj fields =>
      refine obj fields fun field hfield => ih _ ?_ field.2 rfl
      have := List.sizeOf_lt_of_mem hfield
      have hpair : sizeOf field = 1 + sizeOf field.1 + sizeOf field.2 := by
        cases field
        rfl
      rw [Json.obj.sizeOf_spec]
      omega

theorem properItems_iff {items : List Json} :
    Json.ProperItems items ↔ ∀ item ∈ items, item.Proper := by
  induction items with
  | nil => simp [Json.ProperItems]
  | cons item items ih => rw [Json.ProperItems, ih, List.forall_mem_cons]

theorem properFields_iff {fields : List (String × Json)} :
    Json.ProperFields fields ↔ ∀ field ∈ fields, field.2.Proper := by
  induction fields with
  | nil => simp [Json.ProperFields]
  | cons field fields ih => rw [Json.ProperFields, ih, List.forall_mem_cons]

/-- The text is read as the value, in whatever way the text goes on. -/
def ReadAs (text : List Char) (v : Json) : Prop :=
  ∀ rest, Stops rest → Reads (text ++ rest) (.value v) rest

/-- The text is read as the field. -/
def ReadAsField (text : List Char) (field : String × Json) : Prop :=
  ∀ rest, Stops rest → ∃ start, takeName (text ++ rest) = some (field.1, start) ∧
    Reads start (.value field.2) rest

def Blank (space : List Char) : Prop := ∀ c ∈ space, isJsonSpace c = true

section

variable {c : Char} {space text rest : List Char} {v : Json}

theorem stops_cons (h : c ∈ [',', '\x7d', ']']) : Stops (c :: rest) := by
  intro c' hc'
  obtain rfl : c = c' := Option.some.inj hc'
  clear hc'
  revert c
  decide

/-- No white space is skipped before a character. -/
theorem skipSpace_cons (h : isJsonSpace c = false) : skipSpace (c :: rest) = c :: rest :=
  List.dropWhile_cons_of_neg (by simp [h])

theorem skipSpace_blank (h : Blank space) : skipSpace (space ++ text) = skipSpace text :=
  List.dropWhile_append_of_pos h

theorem Blank.stops (h : Blank space) (hrest : Stops rest) : Stops (space ++ rest) := by
  cases space with
  | nil => exact hrest
  | cons c space =>
    intro c' hc'
    obtain rfl : c = c' := Option.some.inj hc'
    have hc := h c List.mem_cons_self
    rw [isJsonSpace] at hc
    simp only [Bool.or_eq_true, decide_eq_true_eq] at hc
    rcases hc with ((rfl | rfl) | rfl) | rfl <;> decide

theorem Reads.blank {part : Part} (h : Reads text part rest) (hspace : Blank space) :
    Reads (space ++ text) part rest := by
  induction h with
  | scalar h => exact .scalar (by rwa [skipSpace_blank hspace])
  | emptyObject hopen hclose => exact .emptyObject (by rwa [skipSpace_blank hspace]) hclose
  | object hopen h => exact .object (by rwa [skipSpace_blank hspace]) h
  | emptyArray hopen hclose => exact .emptyArray (by rwa [skipSpace_blank hspace]) hclose
  | array hopen h => exact .array (by rwa [skipSpace_blank hspace]) h
  | lastItem hv hclose ih => exact .lastItem ih hclose
  | item hv hcomma hvs ih => exact .item ih hcomma hvs
  | lastField hname hv hclose =>
    exact .lastField (by rwa [takeName, skipSpace_blank hspace]) hv hclose
  | field hname hv hcomma hfs =>
    exact .field (by rwa [takeName, skipSpace_blank hspace]) hv hcomma hfs

theorem ReadAs.blank (h : ReadAs text v) (hspace : Blank space) : ReadAs (space ++ text) v := by
  intro rest hrest
  rw [List.append_assoc]
  exact (h rest hrest).blank hspace

/-- The name of a field, and its value after some space. -/
theorem ReadAs.field (h : ReadAs text v) (name : String) {space' : List Char}
    (hspace : Blank space) (hspace' : Blank space') :
    ReadAsField (space ++ ((quote name).toList ++ ':' :: (space' ++ text))) (name, v) := by
  intro rest hrest
  refine ⟨space' ++ (text ++ rest), ?_, (h rest hrest).blank hspace'⟩
  have hquote : ∀ after : List Char, skipSpace ((quote name).toList ++ after) =
      (quote name).toList ++ after := by
    intro after
    have hlist : (quote name).toList ++ after =
        '"' :: (name.toList.flatMap escape ++ '"' :: after) := by simp [quote]
    rw [hlist]
    exact skipSpace_cons rfl
  rw [takeName, List.append_assoc, skipSpace_blank hspace, List.append_assoc, hquote,
    takeString_quote]
  simp [skipSpace_cons, isJsonSpace]

/-- The items of an array. -/
theorem reads_items {texts : List (List Char)} {items : List Json}
    (h : List.Forall₂ ReadAs texts items) (hne : items ≠ []) (hspace : Blank space)
    (rest : List Char) :
    Reads ([','].intercalate texts ++ (space ++ ']' :: rest)) (.items items) rest := by
  induction h with
  | nil => exact absurd rfl hne
  | @cons text item texts items hitem hitems ih =>
    cases hitems with
    | nil =>
      rw [List.intercalate_singleton]
      refine .lastItem (hitem _ (hspace.stops (stops_cons (by decide)))) ?_
      rw [skipSpace_blank hspace]
      exact skipSpace_cons rfl
    | cons =>
      rw [List.intercalate_cons_cons, List.append_assoc, List.append_assoc]
      exact .item (hitem _ (stops_cons (by decide))) (skipSpace_cons rfl)
        (ih (List.cons_ne_nil _ _))

/-- The fields of an object. -/
theorem reads_fields {texts : List (List Char)} {fields : List (String × Json)}
    (h : List.Forall₂ ReadAsField texts fields) (hne : fields ≠ []) (hspace : Blank space)
    (rest : List Char) :
    Reads ([','].intercalate texts ++ (space ++ '\x7d' :: rest)) (.fields fields) rest := by
  induction h with
  | nil => exact absurd rfl hne
  | @cons text field texts fields hfield hfields ih =>
    cases hfields with
    | nil =>
      rw [List.intercalate_singleton]
      obtain ⟨start, hname, hv⟩ := hfield _ (hspace.stops (@stops_cons '\x7d' rest (by decide)))
      refine .lastField hname hv ?_
      rw [skipSpace_blank hspace]
      exact skipSpace_cons rfl
    | cons =>
      rw [List.intercalate_cons_cons, List.append_assoc, List.append_assoc]
      obtain ⟨start, hname, hv⟩ := hfield _ (@stops_cons ',' _ (by decide))
      exact .field hname hv (skipSpace_cons rfl) (ih (List.cons_ne_nil _ _))

end

/-- A number. -/
theorem reads_number {q : ℚ} (h : IsDouble q) :
    ReadAs (Json.num (.fin q)).stringify.toList (.num (.fin q)) := by
  intro rest hrest
  have htake := takeNumber_numberText h hrest
  obtain ⟨text, ⟨c, hc, hstart⟩, htext, -⟩ := takeNumber_local htake
  obtain ⟨tail, rfl⟩ := List.head?_eq_some_iff.mp (Option.mem_def.mp hc)
  have hscalar : IsScalarStart c := by
    rcases hstart with hdigit | rfl
    · exact .inr hdigit
    · exact .inl (by decide)
  have hne : ∀ d, d.isDigit = false → d ≠ '-' → c ≠ d := by
    rintro d hd hsign rfl
    rcases hstart with hdigit | hminus
    · rw [hd] at hdigit
      exact Bool.noConfusion hdigit
    · exact hsign hminus
  refine .scalar ?_
  rw [Json.stringify]
  rw [htext, List.cons_append] at htake ⊢
  rw [skipSpace_cons hscalar.not_mem.1, takeScalar, List.head?_cons, htake]
  simp [hne]

/-- The object of the fields that an object has. -/
theorem objectOf_eq {fields : List (String × Json)} (hkeys : (fields.map Prod.fst).Nodup)
    (horder : Dict.entries fields = fields) : objectOf fields = .obj fields := by
  rw [objectOf, Dict.fromEntries_of_nodup hkeys, horder]

theorem reads_str (text : String) : ReadAs (quote text).toList (.str text) := by
  intro rest _
  have htake := takeString_quote text rest
  have hquote : (quote text).toList ++ rest =
      '"' :: (text.toList.flatMap escape ++ '"' :: rest) := by simp [quote]
  refine .scalar ?_
  rw [hquote] at htake ⊢
  rw [skipSpace_cons rfl, takeScalar, List.head?_cons, if_pos rfl, htake, Option.map_some]

theorem forall₂_stringifyItems {items : List Json}
    (h : ∀ item ∈ items, ReadAs item.stringify.toList item) :
    List.Forall₂ ReadAs ((Json.stringifyItems items).map String.toList) items := by
  induction items with
  | nil => exact .nil
  | cons item items ih =>
    rw [List.forall_mem_cons] at h
    exact .cons h.1 (ih h.2)

theorem forall₂_stringifyFields {fields : List (String × Json)}
    (h : ∀ field ∈ fields, ReadAs field.2.stringify.toList field.2) :
    List.Forall₂ ReadAsField ((Json.stringifyFields fields).map String.toList) fields := by
  have hnone : Blank [] := List.forall_mem_nil _
  induction fields with
  | nil => exact .nil
  | cons field fields ih =>
    rw [List.forall_mem_cons] at h
    obtain ⟨name, v⟩ := field
    refine .cons ?_ (ih h.2)
    have hfield := h.1.field name hnone hnone
    simpa using hfield

/-- **A value is read from the start of a text.** -/
theorem reads_stringify {v : Json} : v.Proper → ReadAs v.stringify.toList v := by
  have hnone : Blank [] := List.forall_mem_nil _
  induction v using Json.induct with
  | null => exact fun _ rest _ => .scalar rfl
  | bool b => cases b <;> exact fun _ rest _ => .scalar rfl
  | num x =>
    cases x with
    | fin q => exact fun h => reads_number h
    | _ => exact fun h => h.elim
  | str text => exact fun _ => reads_str text
  | arr items ih =>
    intro h rest _
    rw [Json.Proper, properItems_iff] at h
    by_cases hne : items = []
    · subst hne
      exact .emptyArray (skipSpace_cons rfl) (skipSpace_cons rfl)
    · have hitems := reads_items
        (forall₂_stringifyItems fun item hitem => ih item hitem (h item hitem)) hne hnone rest
      simp only [Json.stringify, String.toList_append, String.toList_intercalate,
        List.append_assoc]
      exact .array (skipSpace_cons rfl) hitems
  | obj fields ih =>
    intro h rest _
    rw [Json.Proper, properFields_iff] at h
    by_cases hne : fields = []
    · subst hne
      exact .emptyObject (skipSpace_cons rfl) (skipSpace_cons rfl)
    · have hfields := reads_fields
        (forall₂_stringifyFields fun field hf => ih field hf (h.2.2 field hf)) hne hnone rest
      simp only [Json.stringify, String.toList_append, String.toList_intercalate,
        List.append_assoc]
      rw [← objectOf_eq h.1 h.2.1]
      exact .object (skipSpace_cons rfl) hfields

/-- **A value is read back from its text.** -/
theorem parse_stringify {v : Json} (h : v.Proper) : parse v.stringify.toList = some v := by
  have hreads := reads_stringify h [] stops_nil
  rw [List.append_nil] at hreads
  exact parse_eq_some.mpr ⟨[], hreads, rfl⟩

end Workload

end FitzDestroyer
