import Mathlib.Algebra.BigOperators.Group.List.Basic
import Mathlib.Algebra.GroupWithZero.Nat
import Mathlib.Data.Finset.Card
import Mathlib.Data.List.Nodup
import Mathlib.Data.List.Sort
import Mathlib.Data.Nat.Notation

/-!
# Maps and records

* `JsMap K V` : a `Map`, whose keys are pairwise different, in the order of insertion;
* `mem_eraseDups`, `length_eraseDups` : a `Set`, in the order of insertion;
* `findDuplicate` : a value that occurs twice, found with a `Set`;
* `Dict V` : an object used as a table, whose keys are enumerated with the array indices first;
* `inheritedMembers` : the keys that every object has without an entry of its own.
-/

namespace FitzDestroyer

namespace Js

universe u v w

/-- A `Map`. -/
structure JsMap (K : Type u) (V : Type v) where
  entries : List (K × V)
  nodup : (entries.map Prod.fst).Nodup

namespace JsMap

variable {K : Type u} {V : Type v}

/-- `map.size`. -/
def size (m : JsMap K V) : ℕ := m.entries.length

/-- `new Map()`. -/
def empty : JsMap K V := ⟨[], List.nodup_nil⟩

variable [DecidableEq K]

/-- `map.get(key)`. -/
def get? (m : JsMap K V) (key : K) : Option V := (m.entries.find? fun p => p.1 = key).map Prod.snd

/-- The entries after `map.set(key, value)`: a new key comes last. -/
def setEntry (key : K) (value : V) : List (K × V) → List (K × V)
  | [] => [(key, value)]
  | p :: ps => if p.1 = key then (key, value) :: ps else p :: setEntry key value ps

theorem map_fst_setEntry (key : K) (value : V) (ps : List (K × V)) :
    (setEntry key value ps).map Prod.fst =
      if key ∈ ps.map Prod.fst then ps.map Prod.fst else ps.map Prod.fst ++ [key] := by
  induction ps with
  | nil => rfl
  | cons p ps ih =>
    rw [setEntry]
    by_cases hp : p.1 = key
    · simp [hp]
    · rw [if_neg hp, List.map_cons, ih, List.map_cons]
      simp only [List.mem_cons, Ne.symm hp, false_or]
      split_ifs <;> rfl

/-- `map.set(key, value)`. -/
def set (m : JsMap K V) (key : K) (value : V) : JsMap K V where
  entries := setEntry key value m.entries
  nodup := by
    rw [map_fst_setEntry]
    split_ifs with h
    · exact m.nodup
    · exact List.Nodup.append m.nodup (List.nodup_singleton key)
        (List.disjoint_singleton.mpr h)

@[simp] theorem get?_empty (key : K) : (empty : JsMap K V).get? key = none := rfl

/-- The value of a key is the one it was last given. -/
theorem get?_set (m : JsMap K V) (key key' : K) (value : V) :
    (m.set key value).get? key' = if key = key' then some value else m.get? key' := by
  have hentries : ∀ ps : List (K × V), ((setEntry key value ps).find? fun p => p.1 = key') =
      if key = key' then some (key, value) else ps.find? fun p => p.1 = key' := by
    intro ps
    induction ps with
    | nil => by_cases h : key = key' <;> simp [setEntry, h]
    | cons p ps ih =>
      rw [setEntry]
      by_cases hp : p.1 = key
      · rw [if_pos hp]
        by_cases h : key = key'
        · simp [h]
        · simp [h, hp]
      · rw [if_neg hp, List.find?_cons, ih, List.find?_cons]
        by_cases h : key = key'
        · simp [← h, hp]
        · simp [h]
  rw [get?, set, hentries]
  split_ifs <;> rfl

/-- The map of some values by their keys: a later value replaces an earlier one. -/
def ofValues (key : V → K) (xs : List V) : JsMap K V :=
  xs.foldl (fun m x => m.set (key x) x) empty

theorem ofValues_append_singleton (key : V → K) (xs : List V) (x : V) :
    ofValues key (xs ++ [x]) = (ofValues key xs).set (key x) x := List.foldl_concat _ _ _ _

/-- The value of a key is the last one that has it. -/
theorem get?_ofValues (key : V → K) (xs : List V) (k : K) :
    (ofValues key xs).get? k = xs.reverse.find? fun x => key x = k := by
  induction xs using List.reverseRecOn with
  | nil => rfl
  | append_singleton xs x ih =>
    rw [ofValues_append_singleton, get?_set, ih, List.reverse_append, List.reverse_singleton,
      List.singleton_append, List.find?_cons]
    by_cases h : key x = k <;> simp [h]

theorem mem_keys_ofValues {key : V → K} {xs : List V} {k : K} :
    k ∈ (ofValues key xs).entries.map Prod.fst ↔ k ∈ xs.map key := by
  induction xs using List.reverseRecOn with
  | nil => exact iff_of_false List.not_mem_nil List.not_mem_nil
  | append_singleton xs x ih =>
    have hset : ((ofValues key xs).set (key x) x).entries.map Prod.fst = _ :=
      map_fst_setEntry _ _ _
    rw [ofValues_append_singleton, hset, List.map_append, List.mem_append, ← ih]
    split_ifs with h
    · rw [List.map_singleton, List.mem_singleton]
      exact ⟨.inl, fun hk => hk.elim id fun hk => hk ▸ h⟩
    · rw [List.mem_append, List.map_singleton]

/-- The size of the map is the number of different keys. -/
theorem size_ofValues (key : V → K) (xs : List V) :
    (ofValues key xs).size = (xs.map key).toFinset.card := by
  rw [size, ← List.length_map Prod.fst, ← List.toFinset_card_of_nodup (ofValues key xs).nodup]
  congr 1
  ext k
  rw [List.mem_toFinset, List.mem_toFinset, mem_keys_ofValues]

end JsMap

section Sets

variable {α : Type u} [DecidableEq α]

/-- `[...new Set(values)]` is `values.eraseDups`: a value stands where it occurs first. -/
theorem mem_eraseDups {x : α} (values : List α) : x ∈ values.eraseDups ↔ x ∈ values := by
  induction h : values.length using Nat.strong_induction_on generalizing values with
  | _ n ih =>
    subst h
    cases values with
    | nil => simp
    | cons value values =>
      have hlength := List.length_filter_le (fun y => !y == value) values
      rw [List.eraseDups_cons, List.mem_cons, List.mem_cons,
        ih _ (Nat.lt_succ_of_le hlength) _ rfl, List.mem_filter]
      by_cases hx : x = value <;> simp [hx]

theorem nodup_eraseDups (values : List α) : values.eraseDups.Nodup := by
  induction h : values.length using Nat.strong_induction_on generalizing values with
  | _ n ih =>
    subst h
    cases values with
    | nil => simp
    | cons value values =>
      have hlength := List.length_filter_le (fun y => !y == value) values
      rw [List.eraseDups_cons, List.nodup_cons, mem_eraseDups, List.mem_filter]
      exact ⟨by simp, ih _ (Nat.lt_succ_of_le hlength) _ rfl⟩

/-- `new Set(values).size`. -/
theorem length_eraseDups (values : List α) : values.eraseDups.length = values.toFinset.card := by
  rw [← List.toFinset_card_of_nodup (nodup_eraseDups values)]
  congr 1
  ext x
  rw [List.mem_toFinset, List.mem_toFinset, mem_eraseDups]

/-- `new Set(values).size === values.length`. -/
theorem length_eraseDups_eq_iff {values : List α} :
    values.eraseDups.length = values.length ↔ values.Nodup := by
  rw [length_eraseDups, ← Multiset.coe_nodup, ← Multiset.toFinset_card_eq_card_iff_nodup,
    List.toFinset_coe, Multiset.coe_card]

end Sets

/-- The first value that has been seen before. -/
def findDuplicate : List ℕ → List ℕ → Option ℕ
  | _, [] => none
  | seen, value :: values =>
    if value ∈ seen then some value else findDuplicate (value :: seen) values

theorem findDuplicate_eq_none {seen values : List ℕ} :
    findDuplicate seen values = none ↔ values.Nodup ∧ ∀ value ∈ values, value ∉ seen := by
  induction values generalizing seen with
  | nil => simp [findDuplicate]
  | cons value values ih =>
    rw [findDuplicate]
    split_ifs with hseen
    · simp [hseen]
    · rw [ih, List.nodup_cons, List.forall_mem_cons]
      simp only [List.mem_cons, not_or]
      constructor
      · rintro ⟨hnodup, hvalues⟩
        exact ⟨⟨fun hmem => (hvalues value hmem).1 rfl, hnodup⟩, hseen,
          fun v hv => (hvalues v hv).2⟩
      · rintro ⟨⟨hvalue, hnodup⟩, -, hvalues⟩
        exact ⟨hnodup, fun v hv => ⟨fun heq => hvalue (heq ▸ hv), hvalues v hv⟩⟩

theorem findDuplicate_nil {values : List ℕ} : findDuplicate [] values = none ↔ values.Nodup := by
  simp [findDuplicate_eq_none]

/-- Sequences that are sorted to `0, 1, ..`. -/
theorem mergeSort_eq_range_iff {values : List ℕ} {n : ℕ} :
    values.mergeSort (· ≤ ·) = List.range n ↔ values.Perm (List.range n) := by
  have hsorted : (values.mergeSort (· ≤ ·)).Pairwise (· ≤ ·) := by
    simpa using List.pairwise_mergeSort' (· ≤ ·) values
  constructor
  · intro heq
    exact heq ▸ (List.mergeSort_perm values _).symm
  · intro hperm
    exact ((List.mergeSort_perm values _).trans hperm).eq_of_pairwise' hsorted
      (List.pairwise_lt_range.imp Nat.le_of_lt)

/-- An object used as a table: its own keys in the order they were added. -/
abbrev Dict (V : Type u) := List (String × V)

/-- The names of the members of `Object.prototype`: an object has them without entries of its own,
and none of their values is `undefined` or `null`. -/
def inheritedMembers : List String :=
  ["constructor", "__defineGetter__", "__defineSetter__", "hasOwnProperty", "__lookupGetter__",
    "__lookupSetter__", "isPrototypeOf", "propertyIsEnumerable", "toString", "valueOf",
    "__proto__", "toLocaleString"]

/-- The array index a key stands for: it is enumerated before the other keys. -/
def indexKey (key : String) : Option ℕ :=
  let n := Nat.ofDigitChars 10 key.toList 0
  if key.toList = Nat.toDigits 10 n ∧ n < 2 ^ 32 - 1 then some n else none

namespace Dict

variable {V : Type u}

/-- `table[key]`. -/
def get? (d : Dict V) (key : String) : Option V := (d.find? fun p => p.1 = key).map Prod.snd

/-- `table[key] = value`. -/
def set (d : Dict V) (key : String) (value : V) : Dict V :=
  if d.any fun p => p.1 = key then d.map fun p => if p.1 = key then (key, value) else p
  else d ++ [(key, value)]

/-- `table[key] = (table[key] ?? 0) + 1`. -/
def bump (d : Dict ℕ) (key : String) : Dict ℕ := set d key ((get? d key).getD 0 + 1)

/-- `Object.entries(table)`. -/
def entries (d : Dict V) : List (String × V) :=
  (d.filter fun p => (indexKey p.1).isSome).mergeSort (fun p q =>
    (indexKey p.1).getD 0 ≤ (indexKey q.1).getD 0) ++ d.filter fun p => !(indexKey p.1).isSome

theorem entries_perm (d : Dict V) : d.entries.Perm d :=
  ((List.mergeSort_perm _ _).append_right _).trans (List.filter_append_perm _ d)

/-- Keys that are no indices are enumerated in their order. -/
theorem entries_of_indexKey {d : Dict V} (h : ∀ p ∈ d, indexKey p.1 = none) :
    Dict.entries d = d := by
  unfold entries
  rw [List.filter_eq_nil_iff.mpr fun p hp => by simp [h p hp],
    List.filter_eq_self.mpr fun p hp => by simp [h p hp], List.mergeSort_nil, List.nil_append]

/-- Entries in the order of enumeration keep it. -/
theorem entries_entries (d : Dict V) : Dict.entries (Dict.entries d) = Dict.entries d := by
  have hsorted := @List.pairwise_mergeSort _
    (fun p q : String × V => decide ((indexKey p.1).getD 0 ≤ (indexKey q.1).getD 0))
    (fun a b c hab hbc => by simp only [decide_eq_true_eq] at *; omega)
    (fun a b => by simp only [Bool.or_eq_true, decide_eq_true_eq]; omega)
    (d.filter fun p => (indexKey p.1).isSome)
  have hindex : ∀ p ∈ (d.filter fun p => (indexKey p.1).isSome).mergeSort fun p q =>
      (indexKey p.1).getD 0 ≤ (indexKey q.1).getD 0, (indexKey p.1).isSome = true := fun p hp =>
    (List.mem_filter.mp (List.mem_mergeSort.mp hp)).2
  have hrest : ∀ p ∈ d.filter fun p => !(indexKey p.1).isSome,
      (indexKey p.1).isSome = false := fun p hp => by
    simpa using (List.mem_filter.mp hp).2
  unfold entries
  generalize (d.filter fun p => (indexKey p.1).isSome).mergeSort (fun p q =>
    (indexKey p.1).getD 0 ≤ (indexKey q.1).getD 0) = indices at *
  generalize d.filter (fun p => !(indexKey p.1).isSome) = others at *
  rw [List.filter_append, List.filter_append, List.filter_eq_self.mpr hindex,
    List.filter_eq_nil_iff.mpr fun p hp => by simp [hrest p hp], List.append_nil,
    List.mergeSort_of_pairwise hsorted,
    List.filter_eq_nil_iff.mpr fun p hp => by simp [hindex p hp],
    List.nil_append, List.filter_eq_self.mpr fun p hp => by simp [hrest p hp]]

theorem set_of_not_mem {d : Dict V} {key : String} {value : V} (h : key ∉ d.map Prod.fst) :
    set d key value = d ++ [(key, value)] := by
  unfold set
  rw [if_neg]
  simp only [List.any_eq_true, decide_eq_true_eq, not_exists, not_and]
  exact fun p hp hkey => h (List.mem_map.mpr ⟨p, hp, hkey⟩)

/-- `Object.fromEntries(entries)`. -/
def fromEntries (ps : List (String × V)) : Dict V := ps.foldl (fun d p => d.set p.1 p.2) []

/-- Entries with different keys are added in their order. -/
theorem foldl_set {d ps : Dict V} (h : (d.map Prod.fst ++ ps.map Prod.fst).Nodup) :
    ps.foldl (fun d p => d.set p.1 p.2) d = d ++ ps := by
  induction ps generalizing d with
  | nil => rw [List.foldl_nil, List.append_nil]
  | cons p ps ih =>
    have hkey : p.1 ∉ d.map Prod.fst := fun hmem =>
      (List.nodup_append.mp h).2.2 _ hmem _ List.mem_cons_self rfl
    rw [List.foldl_cons, set_of_not_mem hkey, ih (by simpa using h), List.append_assoc,
      List.singleton_append]

theorem fromEntries_of_nodup {ps : Dict V} (h : (ps.map Prod.fst).Nodup) :
    fromEntries ps = ps := foldl_set h

theorem set_ne_nil (d : Dict V) (key : String) (value : V) : set d key value ≠ [] := by
  unfold set
  split_ifs with h
  · simp only [List.any_eq_true, decide_eq_true_eq] at h
    obtain ⟨p, hp, -⟩ := h
    exact fun hnil => List.ne_nil_of_mem hp (List.map_eq_nil_iff.mp hnil)
  · simp

theorem bump_ne_nil (d : Dict ℕ) (key : String) : bump d key ≠ [] := set_ne_nil _ _ _

@[simp] theorem get?_nil (key : String) : get? ([] : Dict V) key = none := rfl

theorem get?_cons (p : String × V) (d : Dict V) (key : String) :
    get? (p :: d) key = if p.1 = key then some p.2 else get? d key := by
  unfold get?
  rw [List.find?_cons]
  by_cases h : p.1 = key <;> simp [h]

theorem get?_append (d d' : Dict V) (key : String) :
    get? (d ++ d') key = (get? d key).or (get? d' key) := by
  induction d with
  | nil => rfl
  | cons p d ih =>
    rw [List.cons_append, get?_cons, get?_cons, ih]
    split_ifs <;> rfl

theorem get?_map {W : Type w} (f : V → W) (d : Dict V) (key : String) :
    get? (d.map fun p => (p.1, f p.2)) key = (get? d key).map f := by
  induction d with
  | nil => rfl
  | cons p d ih =>
    rw [List.map_cons, get?_cons, get?_cons, ih]
    split_ifs <;> rfl

theorem get?_eq_none {d : Dict V} {key : String} : get? d key = none ↔ key ∉ d.map Prod.fst := by
  induction d with
  | nil => simp
  | cons p d ih =>
    rw [get?_cons, List.map_cons, List.mem_cons, not_or, ← ih, eq_comm (a := key)]
    by_cases h : p.1 = key <;> simp [h]

theorem mem_of_get? {d : Dict V} {key : String} {value : V} (h : get? d key = some value) :
    (key, value) ∈ d := by
  induction d with
  | nil => cases h
  | cons p d ih =>
    rw [get?_cons] at h
    split_ifs at h with hp
    · obtain rfl := Option.some.inj h
      exact List.mem_cons.mpr (.inl (by rw [← hp]))
    · exact List.mem_cons_of_mem _ (ih h)

/-- Setting a key that the table has replaces one entry. -/
theorem set_of_get? {d : Dict V} {key : String} {value : V} (hd : (d.map Prod.fst).Nodup)
    (h : get? d key = some value) :
    ∃ l r : Dict V, key ∉ l.map Prod.fst ∧ d = l ++ (key, value) :: r ∧
      ∀ value', set d key value' = l ++ (key, value') :: r := by
  obtain ⟨l, r, rfl⟩ := List.append_of_mem (mem_of_get? h)
  rw [List.map_append, List.map_cons, List.nodup_middle, List.nodup_cons, List.mem_append,
    not_or] at hd
  obtain ⟨⟨hl, hr⟩, -⟩ := hd
  have hkeep : ∀ (d : Dict V) (value' : V), key ∉ d.map Prod.fst →
      d.map (fun p => if p.1 = key then (key, value') else p) = d := by
    intro d value' hkey
    refine List.map_congr_left (g := id) (fun p hp => if_neg fun heq => hkey ?_) |>.trans
      (List.map_id d)
    exact List.mem_map.mpr ⟨p, hp, heq⟩
  refine ⟨l, r, hl, rfl, fun value' => ?_⟩
  rw [set, if_pos (by simp), List.map_append, List.map_cons, if_pos rfl, hkeep l value' hl,
    hkeep r value' hr]

/-- The value of a key is the one it was last given. -/
theorem get?_set {d : Dict V} (hd : (d.map Prod.fst).Nodup) (key key' : String) (value : V) :
    get? (set d key value) key' = if key = key' then some value else get? d key' := by
  cases h : get? d key with
  | none =>
    rw [set_of_not_mem (get?_eq_none.mp h), get?_append, get?_cons, get?_nil]
    by_cases hkey : key = key'
    · rw [← hkey, h, if_pos rfl, Option.none_or]
    · rw [if_neg hkey, if_neg hkey, Option.or_none]
  | some value₀ =>
    obtain ⟨l, r, hl, rfl, hset⟩ := set_of_get? hd h
    rw [hset, get?_append, get?_append, get?_cons, get?_cons]
    by_cases hkey : key = key'
    · subst hkey
      rw [get?_eq_none.mpr hl, Option.none_or, if_pos rfl, if_pos rfl]
    · rw [if_neg hkey, if_neg hkey, if_neg hkey]

theorem nodup_set {d : Dict V} (hd : (d.map Prod.fst).Nodup) (key : String) (value : V) :
    ((set d key value).map Prod.fst).Nodup := by
  cases h : get? d key with
  | none =>
    have hkey := get?_eq_none.mp h
    rw [set_of_not_mem hkey, List.map_append]
    exact hd.append (List.nodup_singleton key) (List.disjoint_singleton.mpr hkey)
  | some value₀ =>
    obtain ⟨l, r, -, rfl, hset⟩ := set_of_get? hd h
    simpa [hset] using hd

/-- Setting a key changes a sum over the table by the new value minus the old one. -/
theorem sum_set {d : Dict V} (hd : (d.map Prod.fst).Nodup) (f : V → ℕ) (key : String) (value : V) :
    ((set d key value).map fun p => f p.2).sum + ((get? d key).map f).getD 0 =
      (d.map fun p => f p.2).sum + f value := by
  cases h : get? d key with
  | none =>
    rw [set_of_not_mem (get?_eq_none.mp h)]
    simp
  | some value₀ =>
    obtain ⟨l, r, -, rfl, hset⟩ := set_of_get? hd h
    simp only [hset, List.map_append, List.map_cons, List.sum_append, List.sum_cons,
      Option.map_some, Option.getD_some]
    omega

theorem get?_eq_some {d : Dict V} (hd : (d.map Prod.fst).Nodup) {key : String} {value : V} :
    get? d key = some value ↔ (key, value) ∈ d := by
  refine ⟨mem_of_get?, fun h => ?_⟩
  induction d with
  | nil => cases h
  | cons p d ih =>
    rw [List.map_cons, List.nodup_cons] at hd
    rw [get?_cons]
    obtain rfl | h := List.mem_cons.mp h
    · exact if_pos rfl
    · rw [if_neg, ih hd.2 h]
      exact fun hp => hd.1 (List.mem_map.mpr ⟨_, h, hp.symm⟩)

theorem nodup_entries {d : Dict V} (hd : (d.map Prod.fst).Nodup) :
    (d.entries.map Prod.fst).Nodup := ((entries_perm d).map Prod.fst).nodup_iff.mpr hd

/-- The order in which the keys are enumerated does not matter to their values. -/
theorem get?_entries {d : Dict V} (hd : (d.map Prod.fst).Nodup) (key : String) :
    get? d.entries key = get? d key := by
  ext value
  rw [get?_eq_some hd, get?_eq_some (nodup_entries hd), (entries_perm d).mem_iff]

theorem entries_map {W : Type u} (f : V → W) (d : Dict V) :
    Dict.entries (d.map fun p => (p.1, f p.2)) = d.entries.map fun p => (p.1, f p.2) := by
  unfold entries
  rw [List.map_append, List.filter_map, List.filter_map]
  congr 1
  refine (List.map_mergeSort ?_).symm
  exact fun _ _ _ _ => rfl

theorem nodup_bump {d : Dict ℕ} (hd : (d.map Prod.fst).Nodup) (key : String) :
    ((bump d key).map Prod.fst).Nodup := nodup_set hd _ _

theorem sum_bump {d : Dict ℕ} (hd : (d.map Prod.fst).Nodup) (key : String) :
    ((bump d key).map Prod.snd).sum = (d.map Prod.snd).sum + 1 := by
  have h := sum_set hd id key ((get? d key).getD 0 + 1)
  simp only [Option.map_id, id_eq] at h
  show ((set d key ((get? d key).getD 0 + 1)).map fun p => p.2).sum = (d.map fun p => p.2).sum + 1
  omega

end Dict

end Js

end FitzDestroyer
