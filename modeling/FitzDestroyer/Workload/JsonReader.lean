import FitzDestroyer.Js.CodeUnits
import FitzDestroyer.Js.Collections
import FitzDestroyer.Js.NumberReading
import FitzDestroyer.Workload.Log

/-!
# Reading JSON

`JSON.parse(text)`.  The reader goes through the text with a bound on the steps, and `Reads` is the
grammar it follows.

* `takeValue` : the value that a text starts with;
* `parse` : `JSON.parse(text)`, `none` where it throws;
* `Reads`, `takeValue_eq_some` : **the reader follows the grammar, and the bound is enough**;
* `Reads.append` : what follows a value that is no number does not change it.
-/

namespace FitzDestroyer

namespace Workload

open Js

/-! ### Texts -/

/-- White space of JSON. -/
def isJsonSpace (c : Char) : Bool := c = ' ' || c = '\t' || c = '\n' || c = '\r'

def skipSpace (cs : List Char) : List Char := cs.dropWhile isJsonSpace

/-- The code unit of a character after a backslash. -/
def escaped? (c : Char) : Option UInt16 :=
  if c = '"' ∨ c = '\\' ∨ c = '/' then some (unit c)
  else if c = 'b' then some 8
  else if c = 'f' then some 12
  else if c = 'n' then some 10
  else if c = 'r' then some 13
  else if c = 't' then some 9
  else none

/-- The code unit of four hexadecimal digits. -/
def hexUnit? : List Char → Option UInt16
  | [a, b, c, d] => do
    let a ← digitValue? 16 a
    let b ← digitValue? 16 b
    let c ← digitValue? 16 c
    let d ← digitValue? 16 d
    return (((a * 16 + b) * 16 + c) * 16 + d).toUInt16
  | _ => none

/-- The code units of the character that the rest of a string starts with. -/
def takeChar (cs : List Char) : Option (List UInt16 × List Char) :=
  if cs.head? = some '\\' then
    if cs.tail.head? = some 'u' then
      (hexUnit? ((cs.drop 2).take 4)).map fun u => ([u], cs.drop 6)
    else (cs.tail.head?.bind escaped?).map fun u => ([u], cs.drop 2)
  else
    match cs with
    | [] => none
    | c :: cs => if c = '"' ∨ c.toNat < 32 then none else some (unitsOf c, cs)

/-- The code units up to the quote. -/
def takeUnits : ℕ → List Char → Option (List UInt16 × List Char)
  | 0, _ => none
  | n + 1, cs =>
    if cs.head? = some '"' then some ([], cs.tail)
    else do
      let (us, rest) ← takeChar cs
      let (vs, rest) ← takeUnits n rest
      return (us ++ vs, rest)

/-- The string that a text starts with. -/
def takeString (cs : List Char) : Option (String × List Char) :=
  if cs.head? = some '"' then
    (takeUnits cs.length cs.tail).map fun p => (String.ofList (ofUnits p.1), p.2)
  else none

/-! ### Values -/

/-- A word that a text starts with. -/
def takeWord (word : String) (value : Json) (cs : List Char) : Option (Json × List Char) :=
  if word.toList <+: cs then some (value, cs.drop word.toList.length) else none

/-- The value without parts that a text starts with. -/
def takeScalar (cs : List Char) : Option (Json × List Char) :=
  if cs.head? = some '"' then (takeString cs).map fun p => (.str p.1, p.2)
  else if cs.head? = some 'n' then takeWord "null" .null cs
  else if cs.head? = some 't' then takeWord "true" (.bool true) cs
  else if cs.head? = some 'f' then takeWord "false" (.bool false) cs
  else (takeNumber cs).map fun p => (.num p.1, p.2)

/-- The name of a field and its colon. -/
def takeName (cs : List Char) : Option (String × List Char) :=
  (takeString (skipSpace cs)).bind fun p =>
    if (skipSpace p.2).head? = some ':' then some (p.1, (skipSpace p.2).tail) else none

/-- The object of some fields: of two fields with one name the last one counts. -/
def objectOf (fields : List (String × Json)) : Json :=
  .obj (Dict.fromEntries fields).entries

mutual

/-- The value that a text starts with. -/
def takeValue : ℕ → List Char → Option (Json × List Char)
  | 0, _ => none
  | n + 1, cs =>
    if (skipSpace cs).head? = some '\x7b' then
      if (skipSpace (skipSpace cs).tail).head? = some '\x7d' then
        some (.obj [], (skipSpace (skipSpace cs).tail).tail)
      else (takeFields n (skipSpace cs).tail).map fun p => (objectOf p.1, p.2)
    else if (skipSpace cs).head? = some '[' then
      if (skipSpace (skipSpace cs).tail).head? = some ']' then
        some (.arr [], (skipSpace (skipSpace cs).tail).tail)
      else (takeItems n (skipSpace cs).tail).map fun p => (.arr p.1, p.2)
    else takeScalar (skipSpace cs)

/-- The items up to the bracket. -/
def takeItems : ℕ → List Char → Option (List Json × List Char)
  | 0, _ => none
  | n + 1, cs =>
    (takeValue n cs).bind fun p =>
      if (skipSpace p.2).head? = some ',' then
        (takeItems n (skipSpace p.2).tail).map fun q => (p.1 :: q.1, q.2)
      else if (skipSpace p.2).head? = some ']' then some ([p.1], (skipSpace p.2).tail)
      else none

/-- The fields up to the brace. -/
def takeFields : ℕ → List Char → Option (List (String × Json) × List Char)
  | 0, _ => none
  | n + 1, cs =>
    (takeName cs).bind fun name =>
      (takeValue n name.2).bind fun p =>
        if (skipSpace p.2).head? = some ',' then
          (takeFields n (skipSpace p.2).tail).map fun q => ((name.1, p.1) :: q.1, q.2)
        else if (skipSpace p.2).head? = some '\x7d' then
          some ([(name.1, p.1)], (skipSpace p.2).tail)
        else none

end

/-- `JSON.parse(text)`. -/
def parse (cs : List Char) : Option Json :=
  (takeValue (2 * cs.length) cs).bind fun p => if skipSpace p.2 = [] then some p.1 else none

/-! ### What a reader looks at -/

section

variable {cs rest : List Char}

/-- The next character that is no white space. -/
theorem skipSpace_eq_cons {c : Char} (h : skipSpace cs = c :: rest) :
    isJsonSpace c = false ∧ ∃ space, (∀ x ∈ space, isJsonSpace x = true) ∧
      cs = space ++ c :: rest := by
  have hhead := List.head?_dropWhile_not isJsonSpace cs
  rw [show cs.dropWhile isJsonSpace = _ from h] at hhead
  refine ⟨by simpa using hhead, cs.takeWhile isJsonSpace, fun x hx => List.mem_takeWhile_imp hx, ?_⟩
  rw [← h, skipSpace, List.takeWhile_append_dropWhile]

theorem skipSpace_append {space : List Char} (hspace : ∀ x ∈ space, isJsonSpace x = true) {c : Char}
    (hc : isJsonSpace c = false) (s : List Char) : skipSpace (space ++ c :: s) = c :: s := by
  rw [skipSpace, List.dropWhile_append_of_pos hspace, List.dropWhile_cons_of_neg (by simp [hc])]

/-- A character of a string is read by itself. -/
theorem takeChar_local {us : List UInt16} (h : takeChar cs = some (us, rest)) :
    ∃ text, text ≠ [] ∧ text.head? ≠ some '"' ∧ cs = text ++ rest ∧
      ∀ s, takeChar (text ++ s) = some (us, s) := by
  unfold takeChar at h
  split_ifs at h with hslash hunit
  · obtain ⟨u, hu, heq⟩ := Option.map_eq_some_iff.mp h
    obtain ⟨rfl, rfl⟩ := Prod.mk.inj heq
    obtain ⟨tail, rfl⟩ := List.head?_eq_some_iff.mp hslash
    rw [List.tail_cons] at hunit
    obtain ⟨tail, rfl⟩ := List.head?_eq_some_iff.mp hunit
    simp only [List.drop_succ_cons, List.drop_zero] at hu
    obtain ⟨a, b, c, d, tail, rfl⟩ : ∃ a b c d tail', tail = a :: b :: c :: d :: tail' := by
      rcases tail with _ | ⟨a, _ | ⟨b, _ | ⟨c, _ | ⟨d, tail⟩⟩⟩⟩
      · cases hu
      · cases hu
      · cases hu
      · cases hu
      · exact ⟨a, b, c, d, tail, rfl⟩
    refine ⟨['\\', 'u', a, b, c, d], List.cons_ne_nil _ _, by simp, rfl, fun s => ?_⟩
    simp only [List.take_succ_cons, List.take_zero] at hu
    simp [takeChar, hu]
  · obtain ⟨u, hu, heq⟩ := Option.map_eq_some_iff.mp h
    obtain ⟨rfl, rfl⟩ := Prod.mk.inj heq
    obtain ⟨tail, rfl⟩ := List.head?_eq_some_iff.mp hslash
    rw [List.tail_cons] at hunit hu
    obtain ⟨c, hc, hescaped⟩ := Option.bind_eq_some_iff.mp hu
    obtain ⟨tail, rfl⟩ := List.head?_eq_some_iff.mp hc
    rw [hc, Option.some.injEq] at hunit
    refine ⟨['\\', c], List.cons_ne_nil _ _, by simp, rfl, fun s => ?_⟩
    simp [takeChar, hunit, hescaped]
  · cases cs with
    | nil => cases h
    | cons c cs =>
      dsimp only at h
      split_ifs at h with hplain
      obtain ⟨rfl, rfl⟩ := Prod.mk.inj (Option.some.inj h)
      rw [not_or] at hplain
      rw [List.head?_cons, Option.some.injEq] at hslash
      refine ⟨[c], List.cons_ne_nil _ _, by simpa using hplain.1, rfl, fun s => ?_⟩
      simp [takeChar, hslash, hplain]

/-- The bound on the steps is enough if it is not below the characters that are read. -/
theorem takeUnits_local {n : ℕ} {us : List UInt16} (h : takeUnits n cs = some (us, rest)) :
    ∃ text, text ≠ [] ∧ cs = text ++ rest ∧
      ∀ m s, text.length ≤ m → takeUnits m (text ++ s) = some (us, s) := by
  induction n generalizing cs us with
  | zero => cases h
  | succ n ih =>
    unfold takeUnits at h
    split_ifs at h with hquote
    · obtain ⟨rfl, rfl⟩ := Prod.mk.inj (Option.some.inj h)
      obtain ⟨tail, rfl⟩ := List.head?_eq_some_iff.mp hquote
      refine ⟨['"'], List.cons_ne_nil _ _, rfl, fun m s hm => ?_⟩
      obtain ⟨m, rfl⟩ := Nat.exists_eq_add_of_le' hm
      simp [takeUnits]
    · simp only [Option.bind_eq_bind, Option.bind_eq_some_iff, Option.pure_def] at h
      obtain ⟨⟨vs, rest₁⟩, hchar, ⟨ws, rest₂⟩, hunits, heq⟩ := h
      obtain ⟨rfl, rfl⟩ := Prod.mk.inj (Option.some.inj heq)
      obtain ⟨char, hne, hhead, rfl, hlocal⟩ := takeChar_local hchar
      obtain ⟨text, -, rfl, htext⟩ := ih hunits
      refine ⟨char ++ text, by simp [hne], by simp, fun m s hm => ?_⟩
      have hpos := List.length_pos_of_ne_nil hne
      rw [List.length_append] at hm
      obtain ⟨m, rfl⟩ := Nat.exists_eq_add_of_le' (by omega : 1 ≤ m)
      have hnone : (char ++ (text ++ s)).head? ≠ some '"' := by
        rwa [List.head?_append_of_ne_nil _ hne]
      rw [List.append_assoc, takeUnits, if_neg hnone]
      simp only [Option.bind_eq_bind, hlocal, Option.bind_some, htext m s (by omega),
        Option.pure_def]

theorem takeString_local {text : String} (h : takeString cs = some (text, rest)) :
    ∃ quoted, quoted.head? = some '"' ∧ cs = quoted ++ rest ∧
      ∀ s, takeString (quoted ++ s) = some (text, s) := by
  unfold takeString at h
  split_ifs at h with hquote
  obtain ⟨⟨us, rest'⟩, hunits, heq⟩ := Option.map_eq_some_iff.mp h
  obtain ⟨rfl, rfl⟩ := Prod.mk.inj heq
  obtain ⟨tail, rfl⟩ := List.head?_eq_some_iff.mp hquote
  obtain ⟨body, -, hbody, hlocal⟩ := takeUnits_local hunits
  rw [List.tail_cons] at hbody
  refine ⟨'"' :: body, rfl, by rw [hbody, List.cons_append], fun s => ?_⟩
  have hlength : body.length ≤ ('"' :: (body ++ s)).length := by
    simp only [List.length_cons, List.length_append]
    omega
  rw [List.cons_append, takeString, List.head?_cons, if_pos rfl, List.tail_cons,
    hlocal _ s hlength, Option.map_some]

theorem takeWord_local {word : String} {value v : Json}
    (h : takeWord word value cs = some (v, rest)) : v = value ∧ cs = word.toList ++ rest ∧
      ∀ s, takeWord word value (word.toList ++ s) = some (value, s) := by
  unfold takeWord at h
  split_ifs at h with hprefix
  obtain ⟨rfl, rfl⟩ := Prod.mk.inj (Option.some.inj h)
  obtain ⟨tail, rfl⟩ := hprefix
  exact ⟨rfl, by simp, fun s => by simp [takeWord]⟩

/-- A character that a value without parts starts with. -/
def IsScalarStart (c : Char) : Prop := c ∈ ['"', 'n', 't', 'f', '-'] ∨ c.isDigit = true

theorem IsScalarStart.not_mem {c : Char} (h : IsScalarStart c) :
    isJsonSpace c = false ∧ c ∉ ['\x7b', '[', '\x7d', ']'] := by
  rcases h with h | h
  · revert c
    decide
  · have hne : ∀ d, d.isDigit = false → c ≠ d := by
      rintro d hd rfl
      rw [h] at hd
      exact Bool.noConfusion hd
    simp [isJsonSpace, hne]

/-- Only the character after a value without parts matters, and only if it is a number. -/
theorem takeScalar_local {v : Json} (h : takeScalar cs = some (v, rest)) :
    ∃ text, (∃ c ∈ text.head?, IsScalarStart c) ∧ cs = text ++ rest ∧
      ∀ s, ((∃ x, v = .num x) → s.head? = rest.head?) → takeScalar (text ++ s) = some (v, s) := by
  have hword : ∀ {word : String} {value : Json} {c : Char},
      word.toList.head? = some c → IsScalarStart c →
      (∀ s, takeScalar (word.toList ++ s) = takeWord word value (word.toList ++ s)) →
      takeWord word value cs = some (v, rest) →
      ∃ text, (∃ c ∈ text.head?, IsScalarStart c) ∧ cs = text ++ rest ∧
        ∀ s, ((∃ x, v = .num x) → s.head? = rest.head?) → takeScalar (text ++ s) = some (v, s) := by
    intro word value c hhead hstart hscalar htake
    obtain ⟨rfl, hcs, hlocal⟩ := takeWord_local htake
    exact ⟨word.toList, ⟨c, hhead, hstart⟩, hcs, fun s _ => by rw [hscalar, hlocal]⟩
  unfold takeScalar at h
  split_ifs at h with hquote hnull htrue hfalse
  · obtain ⟨⟨text, rest'⟩, htext, heq⟩ := Option.map_eq_some_iff.mp h
    obtain ⟨rfl, rfl⟩ := Prod.mk.inj heq
    obtain ⟨quoted, hhead, hcs, hlocal⟩ := takeString_local htext
    refine ⟨quoted, ⟨'"', hhead, .inl (by decide)⟩, hcs, fun s _ => ?_⟩
    have hstart : (quoted ++ s).head? = some '"' := by rw [List.head?_append, hhead, Option.some_or]
    rw [takeScalar, if_pos hstart, hlocal, Option.map_some]
  · exact hword (c := 'n') rfl (.inl (by decide)) (fun s => by simp [takeScalar]) h
  · exact hword (c := 't') rfl (.inl (by decide)) (fun s => by simp [takeScalar]) h
  · exact hword (c := 'f') rfl (.inl (by decide)) (fun s => by simp [takeScalar]) h
  · obtain ⟨⟨x, rest'⟩, hx, heq⟩ := Option.map_eq_some_iff.mp h
    obtain ⟨rfl, rfl⟩ := Prod.mk.inj heq
    obtain ⟨text, ⟨c, hc, hstart⟩, rfl, hlocal⟩ := takeNumber_local hx
    have hhead : ∀ s : List Char, (text ++ s).head? = some c := fun s => by
      rw [List.head?_append, Option.mem_def.mp hc, Option.some_or]
    refine ⟨text, ⟨c, hc, ?_⟩, rfl, fun s hs => ?_⟩
    · rcases hstart with hdigit | rfl
      · exact .inr hdigit
      · exact .inl (by decide)
    · rw [hhead] at hquote hnull htrue hfalse
      rw [takeScalar, hhead, if_neg hquote, if_neg hnull, if_neg htrue, if_neg hfalse,
        hlocal s (hs ⟨x, rfl⟩), Option.map_some]

theorem takeName_local {name : String} (h : takeName cs = some (name, rest)) :
    (skipSpace cs).head? = some '"' ∧ ∃ text, text ≠ [] ∧ cs = text ++ rest ∧
      ∀ s, takeName (text ++ s) = some (name, s) := by
  obtain ⟨⟨name', rest₁⟩, hstring, h⟩ := Option.bind_eq_some_iff.mp h
  split_ifs at h with hcolon
  obtain ⟨rfl, rfl⟩ := Prod.mk.inj (Option.some.inj h)
  obtain ⟨quoted, hhead, hcs, hlocal⟩ := takeString_local hstring
  obtain ⟨body, rfl⟩ := List.head?_eq_some_iff.mp hhead
  obtain ⟨after, hafter⟩ := List.head?_eq_some_iff.mp hcolon
  obtain ⟨hquote, space, hspace, htext⟩ := skipSpace_eq_cons hcs
  obtain ⟨hcolon', space', hspace', rfl⟩ := skipSpace_eq_cons hafter
  refine ⟨by rw [hcs]; rfl, space ++ '"' :: (body ++ (space' ++ [':'])), by simp, ?_, fun s => ?_⟩
  · rw [htext, hafter]
    simp
  · have hskip : skipSpace (space ++ '"' :: (body ++ (space' ++ [':'])) ++ s) =
        '"' :: body ++ (space' ++ ':' :: s) := by
      simpa using skipSpace_append hspace hquote (body ++ (space' ++ ':' :: s))
    rw [takeName, hskip, hlocal, Option.bind_some, skipSpace_append hspace' hcolon',
      List.head?_cons, if_pos rfl, List.tail_cons]

end

/-! ### The grammar -/

/-- What a reader reads. -/
inductive Part where
  | value (v : Json)
  | items (vs : List Json)
  | fields (fs : List (String × Json))

/-- The part ends where the next character is no part of a number. -/
def Part.IsNumber (part : Part) : Prop := ∃ x, part = .value (.num x)

/-- The part that a text starts with, and the rest of the text. -/
inductive Reads : List Char → Part → List Char → Prop where
  | scalar {cs rest : List Char} {v : Json} (h : takeScalar (skipSpace cs) = some (v, rest)) :
      Reads cs (.value v) rest
  | emptyObject {cs inner rest : List Char} (hopen : skipSpace cs = '\x7b' :: inner)
      (hclose : skipSpace inner = '\x7d' :: rest) : Reads cs (.value (.obj [])) rest
  | object {cs inner rest : List Char} {fs : List (String × Json)}
      (hopen : skipSpace cs = '\x7b' :: inner) (h : Reads inner (.fields fs) rest) :
      Reads cs (.value (objectOf fs)) rest
  | emptyArray {cs inner rest : List Char} (hopen : skipSpace cs = '[' :: inner)
      (hclose : skipSpace inner = ']' :: rest) : Reads cs (.value (.arr [])) rest
  | array {cs inner rest : List Char} {vs : List Json}
      (hopen : skipSpace cs = '[' :: inner) (h : Reads inner (.items vs) rest) :
      Reads cs (.value (.arr vs)) rest
  | lastItem {cs after rest : List Char} {v : Json} (hv : Reads cs (.value v) after)
      (hclose : skipSpace after = ']' :: rest) : Reads cs (.items [v]) rest
  | item {cs after next rest : List Char} {v : Json} {vs : List Json}
      (hv : Reads cs (.value v) after) (hcomma : skipSpace after = ',' :: next)
      (hvs : Reads next (.items vs) rest) : Reads cs (.items (v :: vs)) rest
  | lastField {cs start after rest : List Char} {name : String} {v : Json}
      (hname : takeName cs = some (name, start)) (hv : Reads start (.value v) after)
      (hclose : skipSpace after = '\x7d' :: rest) : Reads cs (.fields [(name, v)]) rest
  | field {cs start after next rest : List Char} {name : String} {v : Json}
      {fs : List (String × Json)} (hname : takeName cs = some (name, start))
      (hv : Reads start (.value v) after) (hcomma : skipSpace after = ',' :: next)
      (hfs : Reads next (.fields fs) rest) : Reads cs (.fields ((name, v) :: fs)) rest

namespace Reads

/-- A part does not start with a closing bracket. -/
theorem start {cs rest : List Char} {part : Part} (h : Reads cs part rest) :
    ∃ c inner, skipSpace cs = c :: inner ∧ c ∉ ['\x7d', ']'] := by
  induction h with
  | scalar h =>
    obtain ⟨text, ⟨c, hc, hstart⟩, htext, -⟩ := takeScalar_local h
    obtain ⟨tail, rfl⟩ := List.head?_eq_some_iff.mp (Option.mem_def.mp hc)
    have hmem := hstart.not_mem.2
    exact ⟨c, _, htext, fun h => hmem (by simp at h ⊢; tauto)⟩
  | emptyObject hopen | object hopen | emptyArray hopen | array hopen =>
    exact ⟨_, _, hopen, by decide⟩
  | lastItem hv hclose ih | item hv hcomma hvs ih => exact ih
  | lastField hname | field hname =>
    obtain ⟨tail, htail⟩ := List.head?_eq_some_iff.mp (takeName_local hname).1
    exact ⟨'"', tail, htail, by decide⟩

/-- The next character that is no white space, by itself. -/
theorem token {cs rest : List Char} {c : Char} (h : skipSpace cs = c :: rest) :
    ∃ text, text ≠ [] ∧ cs = text ++ rest ∧ ∀ s, skipSpace (text ++ s) = c :: s := by
  obtain ⟨hc, space, hspace, rfl⟩ := skipSpace_eq_cons h
  refine ⟨space ++ [c], by simp, by simp, fun s => ?_⟩
  rw [List.append_assoc, List.singleton_append, skipSpace_append hspace hc]

/-- **Only the character after a part matters**, and only if the part is a number. -/
theorem exact {cs rest : List Char} {part : Part} (h : Reads cs part rest) :
    ∃ text, text ≠ [] ∧ cs = text ++ rest ∧
      ∀ s, (part.IsNumber → s.head? = rest.head?) → Reads (text ++ s) part s := by
  induction h with
  | @scalar cs rest v h =>
    obtain ⟨text, ⟨c, hc, hstart⟩, htext, hlocal⟩ := takeScalar_local h
    obtain ⟨tail, rfl⟩ := List.head?_eq_some_iff.mp (Option.mem_def.mp hc)
    obtain ⟨hspace, space, hall, rfl⟩ := skipSpace_eq_cons htext
    refine ⟨space ++ c :: tail, by simp, by simp, fun s hs => .scalar ?_⟩
    rw [List.append_assoc, List.cons_append, skipSpace_append hall hspace]
    exact hlocal s fun hx => hs (by simpa [Part.IsNumber] using hx)
  | emptyObject hopen hclose =>
    obtain ⟨text, hne, rfl, openToken⟩ := token hopen
    obtain ⟨text', -, rfl, closeToken⟩ := token hclose
    refine ⟨text ++ text', by simp [hne], by simp, fun s _ => ?_⟩
    rw [List.append_assoc]
    exact .emptyObject (openToken _) (closeToken s)
  | object hopen h ih =>
    obtain ⟨text, hne, rfl, openToken⟩ := token hopen
    obtain ⟨text', -, rfl, hfields⟩ := ih
    refine ⟨text ++ text', by simp [hne], by simp, fun s _ => ?_⟩
    rw [List.append_assoc]
    exact .object (openToken _) (hfields s fun ⟨_, hx⟩ => by cases hx)
  | emptyArray hopen hclose =>
    obtain ⟨text, hne, rfl, openToken⟩ := token hopen
    obtain ⟨text', -, rfl, closeToken⟩ := token hclose
    refine ⟨text ++ text', by simp [hne], by simp, fun s _ => ?_⟩
    rw [List.append_assoc]
    exact .emptyArray (openToken _) (closeToken s)
  | array hopen h ih =>
    obtain ⟨text, hne, rfl, openToken⟩ := token hopen
    obtain ⟨text', -, rfl, hitems⟩ := ih
    refine ⟨text ++ text', by simp [hne], by simp, fun s _ => ?_⟩
    rw [List.append_assoc]
    exact .array (openToken _) (hitems s fun ⟨_, hx⟩ => by cases hx)
  | lastItem hv hclose ih =>
    obtain ⟨text, hne, rfl, hvalue⟩ := ih
    obtain ⟨text', hne', rfl, closeToken⟩ := token hclose
    refine ⟨text ++ text', by simp [hne], by simp, fun s _ => ?_⟩
    rw [List.append_assoc]
    refine .lastItem (hvalue (text' ++ s) fun _ => ?_) (closeToken s)
    rw [List.head?_append_of_ne_nil _ hne', List.head?_append_of_ne_nil _ hne']
  | item hv hcomma hvs ih ih' =>
    obtain ⟨text, hne, rfl, hvalue⟩ := ih
    obtain ⟨comma, hne', rfl, commaToken⟩ := token hcomma
    obtain ⟨text', -, rfl, hitems⟩ := ih'
    refine ⟨text ++ (comma ++ text'), by simp [hne], by simp, fun s _ => ?_⟩
    rw [List.append_assoc, List.append_assoc]
    refine .item (hvalue (comma ++ (text' ++ s)) fun _ => ?_) (commaToken _)
      (hitems s fun ⟨_, hx⟩ => by cases hx)
    rw [List.head?_append_of_ne_nil _ hne', List.head?_append_of_ne_nil _ hne']
  | lastField hname hv hclose ih =>
    obtain ⟨-, nameText, hne, rfl, nameToken⟩ := takeName_local hname
    obtain ⟨text, -, rfl, hvalue⟩ := ih
    obtain ⟨text', hne', rfl, closeToken⟩ := token hclose
    refine ⟨nameText ++ (text ++ text'), by simp [hne], by simp, fun s _ => ?_⟩
    rw [List.append_assoc, List.append_assoc]
    refine .lastField (nameToken _) (hvalue (text' ++ s) fun _ => ?_) (closeToken s)
    rw [List.head?_append_of_ne_nil _ hne', List.head?_append_of_ne_nil _ hne']
  | field hname hv hcomma hfs ih ih' =>
    obtain ⟨-, nameText, hne, rfl, nameToken⟩ := takeName_local hname
    obtain ⟨text, -, rfl, hvalue⟩ := ih
    obtain ⟨comma, hne', rfl, commaToken⟩ := token hcomma
    obtain ⟨text', -, rfl, hfields⟩ := ih'
    refine ⟨nameText ++ (text ++ (comma ++ text')), by simp [hne], by simp, fun s _ => ?_⟩
    rw [List.append_assoc, List.append_assoc, List.append_assoc]
    refine .field (nameToken _) (hvalue (comma ++ (text' ++ s)) fun _ => ?_) (commaToken _)
      (hfields s fun ⟨_, hx⟩ => by cases hx)
    rw [List.head?_append_of_ne_nil _ hne', List.head?_append_of_ne_nil _ hne']

theorem length_lt {cs rest : List Char} {part : Part} (h : Reads cs part rest) :
    rest.length < cs.length := by
  obtain ⟨text, hne, rfl, -⟩ := h.exact
  have := List.length_pos_of_ne_nil hne
  rw [List.length_append]
  omega

end Reads

/-! ### The reader follows the grammar -/

/-- The reader reads the part within a number of steps. -/
def Part.TakenIn (n : ℕ) (cs rest : List Char) : Part → Prop
  | .value v => takeValue n cs = some (v, rest)
  | .items vs => takeItems n cs = some (vs, rest)
  | .fields fs => takeFields n cs = some (fs, rest)

/-- The steps that a part takes besides two for each character. -/
def Part.extra : Part → ℕ
  | .value _ => 0
  | .items _ | .fields _ => 1

theorem length_skipSpace_le (cs : List Char) : (skipSpace cs).length ≤ cs.length :=
  (List.dropWhile_suffix _).length_le

theorem length_of_skipSpace {cs rest : List Char} {c : Char} (h : skipSpace cs = c :: rest) :
    rest.length < cs.length := by
  have := length_skipSpace_le cs
  rw [h, List.length_cons] at this
  omega

/-- Two steps for each character are enough. -/
theorem Reads.takenIn {cs rest : List Char} {part : Part} (h : Reads cs part rest) {n : ℕ}
    (hn : 2 * cs.length + part.extra ≤ n + 2 * rest.length) : part.TakenIn n cs rest := by
  have hlt := h.length_lt
  obtain ⟨n, rfl⟩ := Nat.exists_eq_add_of_le' (by omega : 1 ≤ n)
  clear hlt
  induction h generalizing n with
  | scalar h =>
    obtain ⟨text, ⟨c, hc, hstart⟩, htext, -⟩ := takeScalar_local h
    obtain ⟨tail, rfl⟩ := List.head?_eq_some_iff.mp (Option.mem_def.mp hc)
    have hmem := hstart.not_mem.2
    simp only [List.mem_cons, List.not_mem_nil, or_false, not_or] at hmem
    rw [htext, List.cons_append] at h
    simp [Part.TakenIn, takeValue, htext, hmem, h]
  | emptyObject hopen hclose => simp [Part.TakenIn, takeValue, hopen, hclose]
  | emptyArray hopen hclose => simp [Part.TakenIn, takeValue, hopen, hclose]
  | object hopen h ih =>
    have hlength := length_of_skipSpace hopen
    have hlt := h.length_lt
    obtain ⟨c, inner, hstart, hc⟩ := h.start
    have hne : c ≠ '\x7d' := fun heq => hc (by simp [heq])
    simp only [Part.extra] at hn ih
    obtain ⟨n, rfl⟩ := Nat.exists_eq_add_of_le' (by omega : 1 ≤ n)
    have htaken := ih (n := n) (by omega)
    rw [Part.TakenIn] at htaken
    simp [Part.TakenIn, takeValue, hopen, hstart, hne, htaken]
  | array hopen h ih =>
    have hlength := length_of_skipSpace hopen
    have hlt := h.length_lt
    obtain ⟨c, inner, hstart, hc⟩ := h.start
    have hne : c ≠ ']' := fun heq => hc (by simp [heq])
    simp only [Part.extra] at hn ih
    obtain ⟨n, rfl⟩ := Nat.exists_eq_add_of_le' (by omega : 1 ≤ n)
    have htaken := ih (n := n) (by omega)
    rw [Part.TakenIn] at htaken
    simp [Part.TakenIn, takeValue, hopen, hstart, hne, htaken]
  | lastItem hv hclose ih =>
    have hlength := length_of_skipSpace hclose
    have hlt := hv.length_lt
    simp only [Part.extra] at hn ih
    obtain ⟨n, rfl⟩ := Nat.exists_eq_add_of_le' (by omega : 1 ≤ n)
    have htaken := ih (n := n) (by omega)
    rw [Part.TakenIn] at htaken
    simp [Part.TakenIn, takeItems, htaken, hclose]
  | item hv hcomma hvs ih ih' =>
    have hlength := length_of_skipSpace hcomma
    have hlt := hv.length_lt
    have hlt' := hvs.length_lt
    simp only [Part.extra] at hn ih ih'
    obtain ⟨n, rfl⟩ := Nat.exists_eq_add_of_le' (by omega : 1 ≤ n)
    have htaken := ih (n := n) (by omega)
    have htaken' := ih' (n := n) (by omega)
    simp only [Part.TakenIn] at htaken htaken'
    rw [Part.TakenIn, takeItems]
    simp [htaken, hcomma, htaken']
  | lastField hname hv hclose ih =>
    obtain ⟨-, nameText, hne, rfl, -⟩ := takeName_local hname
    have hpos := List.length_pos_of_ne_nil hne
    have hlength := length_of_skipSpace hclose
    have hlt := hv.length_lt
    simp only [Part.extra, List.length_append] at hn ih
    obtain ⟨n, rfl⟩ := Nat.exists_eq_add_of_le' (by omega : 1 ≤ n)
    have htaken := ih (n := n) (by omega)
    rw [Part.TakenIn] at htaken
    simp [Part.TakenIn, takeFields, hname, htaken, hclose]
  | field hname hv hcomma hfs ih ih' =>
    obtain ⟨-, nameText, hne, rfl, -⟩ := takeName_local hname
    have hpos := List.length_pos_of_ne_nil hne
    have hlength := length_of_skipSpace hcomma
    have hlt := hv.length_lt
    have hlt' := hfs.length_lt
    simp only [Part.extra, List.length_append] at hn ih ih'
    obtain ⟨n, rfl⟩ := Nat.exists_eq_add_of_le' (by omega : 1 ≤ n)
    have htaken := ih (n := n) (by omega)
    have htaken' := ih' (n := n) (by omega)
    simp only [Part.TakenIn] at htaken htaken'
    rw [Part.TakenIn, takeFields]
    simp [hname, htaken, hcomma, htaken']

/-- What the reader reads is in the grammar. -/
theorem reads_of_takenIn {n : ℕ} {cs rest : List Char} {part : Part}
    (h : part.TakenIn n cs rest) : Reads cs part rest := by
  induction n generalizing cs rest part with
  | zero => cases part <;> cases h
  | succ n ih =>
    cases part with
    | value v =>
      rw [Part.TakenIn, takeValue] at h
      split_ifs at h with hobject hclose harray hclose
      · obtain ⟨inner, hopen⟩ := List.head?_eq_some_iff.mp hobject
        obtain ⟨after, hafter⟩ := List.head?_eq_some_iff.mp hclose
        obtain ⟨rfl, rfl⟩ := Prod.mk.inj (Option.some.inj h)
        rw [hopen, List.tail_cons] at hafter
        rw [hopen, List.tail_cons, hafter, List.tail_cons]
        exact .emptyObject hopen hafter
      · obtain ⟨inner, hopen⟩ := List.head?_eq_some_iff.mp hobject
        obtain ⟨p, hp, heq⟩ := Option.map_eq_some_iff.mp h
        obtain ⟨rfl, rfl⟩ := Prod.mk.inj heq
        rw [hopen, List.tail_cons] at hp
        exact .object hopen (@ih _ _ (.fields p.1) hp)
      · obtain ⟨inner, hopen⟩ := List.head?_eq_some_iff.mp harray
        obtain ⟨after, hafter⟩ := List.head?_eq_some_iff.mp hclose
        obtain ⟨rfl, rfl⟩ := Prod.mk.inj (Option.some.inj h)
        rw [hopen, List.tail_cons] at hafter
        rw [hopen, List.tail_cons, hafter, List.tail_cons]
        exact .emptyArray hopen hafter
      · obtain ⟨inner, hopen⟩ := List.head?_eq_some_iff.mp harray
        obtain ⟨p, hp, heq⟩ := Option.map_eq_some_iff.mp h
        obtain ⟨rfl, rfl⟩ := Prod.mk.inj heq
        rw [hopen, List.tail_cons] at hp
        exact .array hopen (@ih _ _ (.items p.1) hp)
      · exact .scalar h
    | items vs =>
      rw [Part.TakenIn, takeItems] at h
      obtain ⟨p, hp, h⟩ := Option.bind_eq_some_iff.mp h
      have hvalue := @ih _ _ (.value p.1) hp
      split_ifs at h with hcomma hclose
      · obtain ⟨next, hnext⟩ := List.head?_eq_some_iff.mp hcomma
        obtain ⟨q, hq, heq⟩ := Option.map_eq_some_iff.mp h
        obtain ⟨rfl, rfl⟩ := Prod.mk.inj heq
        rw [hnext, List.tail_cons] at hq
        exact .item hvalue hnext (@ih _ _ (.items q.1) hq)
      · obtain ⟨after, hafter⟩ := List.head?_eq_some_iff.mp hclose
        obtain ⟨rfl, rfl⟩ := Prod.mk.inj (Option.some.inj h)
        exact .lastItem hvalue (by rw [hafter, List.tail_cons])
    | fields fs =>
      rw [Part.TakenIn, takeFields] at h
      obtain ⟨name, hname, h⟩ := Option.bind_eq_some_iff.mp h
      obtain ⟨p, hp, h⟩ := Option.bind_eq_some_iff.mp h
      have hvalue := @ih _ _ (.value p.1) hp
      split_ifs at h with hcomma hclose
      · obtain ⟨next, hnext⟩ := List.head?_eq_some_iff.mp hcomma
        obtain ⟨q, hq, heq⟩ := Option.map_eq_some_iff.mp h
        obtain ⟨rfl, rfl⟩ := Prod.mk.inj heq
        rw [hnext, List.tail_cons] at hq
        exact .field hname hvalue hnext (@ih _ _ (.fields q.1) hq)
      · obtain ⟨after, hafter⟩ := List.head?_eq_some_iff.mp hclose
        obtain ⟨rfl, rfl⟩ := Prod.mk.inj (Option.some.inj h)
        exact .lastField hname hvalue (by rw [hafter, List.tail_cons])

/-- **The reader reads what is in the grammar**, whatever the text. -/
theorem parse_eq_some {cs : List Char} {v : Json} :
    parse cs = some v ↔ ∃ rest, Reads cs (.value v) rest ∧ skipSpace rest = [] := by
  unfold parse
  constructor
  · intro h
    obtain ⟨p, hp, h⟩ := Option.bind_eq_some_iff.mp h
    split_ifs at h with hend
    obtain rfl := Option.some.inj h
    exact ⟨p.2, @reads_of_takenIn _ _ _ (.value p.1) hp, hend⟩
  · rintro ⟨rest, h, hend⟩
    have htaken := h.takenIn (n := 2 * cs.length) (by simp [Part.extra])
    rw [Part.TakenIn] at htaken
    rw [htaken, Option.bind_some, if_pos hend]

namespace Reads

/-- A text starts with one value at most. -/
theorem unique {cs rest rest' : List Char} {v v' : Json} (h : Reads cs (.value v) rest)
    (h' : Reads cs (.value v') rest') : v = v' ∧ rest = rest' := by
  have htaken := h.takenIn (n := 2 * cs.length) (by simp [Part.extra])
  have htaken' := h'.takenIn (n := 2 * cs.length) (by simp [Part.extra])
  simp only [Part.TakenIn] at htaken htaken'
  exact Prod.mk.inj (Option.some.inj (htaken.symm.trans htaken'))

/-- What starts with a brace is an object. -/
theorem not_isNumber {cs rest : List Char} {v : Json} (h : Reads ('\x7b' :: cs) (.value v) rest) :
    ¬(Part.value v).IsNumber := by
  rintro ⟨x, hx⟩
  obtain rfl := Part.value.inj hx
  cases h with
  | scalar h =>
    obtain ⟨text, ⟨c, hc, hstart⟩, htext, -⟩ := takeScalar_local h
    have hbrace : skipSpace ('\x7b' :: cs) = '\x7b' :: cs := rfl
    obtain ⟨tail, rfl⟩ := List.head?_eq_some_iff.mp (Option.mem_def.mp hc)
    obtain rfl : '\x7b' = c := (List.cons.inj (hbrace.symm.trans htext)).1
    exact hstart.not_mem.2 (by decide)

end Reads

/-- **A torn object** is not read: no proper part of its text is JSON. -/
theorem parse_eq_none_of_prefix {cs torn : List Char} {v : Json}
    (h : Reads ('\x7b' :: cs) (.value v) []) (htorn : torn <+: '\x7b' :: cs)
    (hne : torn ≠ '\x7b' :: cs) : parse torn = none := by
  rw [Option.eq_none_iff_forall_ne_some]
  intro v' hv'
  obtain ⟨rest, hreads, -⟩ := parse_eq_some.mp hv'
  obtain ⟨lost, hlost⟩ := htorn
  cases torn with
  | nil => exact absurd hreads.length_lt (Nat.not_lt_zero _)
  | cons c torn =>
    obtain rfl : c = '\x7b' := (List.cons.inj hlost).1
    obtain ⟨text, -, htext, hexact⟩ := hreads.exact
    have hwhole := hexact (rest ++ lost) fun hnumber => absurd hnumber hreads.not_isNumber
    rw [← List.append_assoc, ← htext, hlost] at hwhole
    have hnil := (hwhole.unique h).2
    rw [(List.append_eq_nil_iff.mp hnil).2, List.append_nil] at hlost
    exact hne hlost

end Workload

end FitzDestroyer
