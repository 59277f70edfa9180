import Mathlib.Data.List.Basic
import Mathlib.Data.List.Infix
import Mathlib.Order.Lattice

/-!
# Sorted tables

A table holds its entries in the order of their keys, and is read by scans.

* `Table K V` : a table, with keys that increase;
* `Table.put`, `Table.scan` : a write, and the entries from a key on;
* `Table.put_of_lt` : a key greater than the others comes last;
* `Table.prefix_iff` : what the first entries of a scan say about all of its entries.
-/

namespace FitzDestroyer

universe u v

/-- The keys increase. -/
def KeysIncrease {K : Type u} {V : Type v} [LinearOrder K] (xs : List (K × V)) : Prop :=
  xs.Pairwise fun p q => p.1 < q.1

/-- A table. -/
structure Table (K : Type u) (V : Type v) [LinearOrder K] where
  entries : List (K × V)
  sorted : KeysIncrease entries

namespace Table

variable {K : Type u} {V : Type v} [LinearOrder K]

/-- The table without entries. -/
def empty : Table K V := ⟨[], .nil⟩

/-- The entries after a write. -/
def putEntry (key : K) (value : V) : List (K × V) → List (K × V)
  | [] => [(key, value)]
  | p :: ps =>
    if key < p.1 then (key, value) :: p :: ps
    else if key = p.1 then (key, value) :: ps
    else p :: putEntry key value ps

theorem mem_putEntry {key : K} {value : V} {ps : List (K × V)} {q : K × V}
    (h : q ∈ putEntry key value ps) : q = (key, value) ∨ q ∈ ps := by
  induction ps with
  | nil => exact .inl (List.mem_singleton.mp h)
  | cons p ps ih =>
    rw [putEntry] at h
    split_ifs at h
    · exact List.mem_cons.mp h
    · rcases List.mem_cons.mp h with h | h
      · exact .inl h
      · exact .inr (List.mem_cons_of_mem _ h)
    · rcases List.mem_cons.mp h with rfl | h
      · exact .inr List.mem_cons_self
      · exact (ih h).imp_right (List.mem_cons_of_mem _)

theorem keysIncrease_putEntry (key : K) (value : V) {ps : List (K × V)} (h : KeysIncrease ps) :
    KeysIncrease (putEntry key value ps) := by
  induction ps with
  | nil => exact List.pairwise_singleton _ _
  | cons p ps ih =>
    obtain ⟨hp, hps⟩ := List.pairwise_cons.mp h
    rw [putEntry]
    split_ifs with hlt heq
    · refine List.pairwise_cons.mpr ⟨fun q hq => ?_, h⟩
      rcases List.mem_cons.mp hq with rfl | hq
      · exact hlt
      · exact hlt.trans (hp q hq)
    · exact List.pairwise_cons.mpr ⟨fun q hq => heq ▸ hp q hq, hps⟩
    · refine List.pairwise_cons.mpr ⟨fun q hq => ?_, ih hps⟩
      rcases mem_putEntry hq with rfl | hq
      · exact lt_of_le_of_ne (not_lt.mp hlt) (Ne.symm heq)
      · exact hp q hq

/-- A write. -/
def put (t : Table K V) (key : K) (value : V) : Table K V :=
  ⟨putEntry key value t.entries, keysIncrease_putEntry key value t.sorted⟩

/-- The entries from a key on. -/
def scan (t : Table K V) (start : K) : List (K × V) := t.entries.filter fun p => start ≤ p.1

@[simp] theorem mem_scan {t : Table K V} {start : K} {p : K × V} :
    p ∈ t.scan start ↔ p ∈ t.entries ∧ start ≤ p.1 := by
  rw [scan, List.mem_filter, decide_eq_true_eq]

theorem keysIncrease_scan (t : Table K V) (start : K) : KeysIncrease (t.scan start) :=
  List.Pairwise.filter _ t.sorted

theorem ext_entries {s t : Table K V} (h : s.entries = t.entries) : s = t := by
  cases s
  cases t
  cases h
  rfl

/-- A key greater than the others comes last. -/
theorem put_of_lt {t : Table K V} {key : K} (h : ∀ p ∈ t.entries, p.1 < key) (value : V) :
    (t.put key value).entries = t.entries ++ [(key, value)] := by
  have hput : ∀ ps : List (K × V), (∀ p ∈ ps, p.1 < key) →
      putEntry key value ps = ps ++ [(key, value)] := by
    intro ps
    induction ps with
    | nil => exact fun _ => rfl
    | cons p ps ih =>
      intro hps
      obtain ⟨hp, hps⟩ := List.forall_mem_cons.mp hps
      rw [putEntry, if_neg hp.not_gt, if_neg hp.ne', ih hps, List.cons_append]
  exact hput _ h

/-- Entries come first in a scan iff the scan has them, and its other entries are greater. -/
theorem prefix_iff {xs ys : List (K × V)} (hxs : KeysIncrease xs) (hys : KeysIncrease ys) :
    xs <+: ys ↔ (∀ p ∈ xs, p ∈ ys) ∧ ∀ p ∈ ys, p ∈ xs ∨ ∀ q ∈ xs, q.1 < p.1 := by
  constructor
  · rintro ⟨zs, rfl⟩
    refine ⟨fun p hp => List.mem_append_left _ hp, fun p hp => ?_⟩
    refine (List.mem_append.mp hp).imp_right fun hp q hq => ?_
    exact (List.pairwise_append.mp hys).2.2 q hq p hp
  · rintro ⟨hsub, hrest⟩
    induction xs generalizing ys with
    | nil => exact List.nil_prefix
    | cons x xs ih =>
      obtain ⟨hx, htail⟩ := List.pairwise_cons.mp hxs
      cases ys with
      | nil => exact absurd (hsub x List.mem_cons_self) List.not_mem_nil
      | cons y ys =>
        obtain ⟨hy, hys⟩ := List.pairwise_cons.mp hys
        -- No entry of the scan is less than `y`, none of the given ones less than `x`.
        have hxy : y = x := by
          rcases List.mem_cons.mp (hsub x List.mem_cons_self) with hxy | hxy
          · exact hxy.symm
          · have hlt := hy x hxy
            rcases hrest y List.mem_cons_self with hmem | hgreater
            · rcases List.mem_cons.mp hmem with rfl | hmem
              · exact absurd hlt (lt_irrefl _)
              · exact absurd hlt (hx y hmem).asymm
            · exact absurd hlt (hgreater x List.mem_cons_self).asymm
        subst hxy
        refine List.cons_prefix_cons.mpr ⟨rfl, ih htail hys (fun p hp => ?_) fun p hp => ?_⟩
        · rcases List.mem_cons.mp (hsub p (List.mem_cons_of_mem _ hp)) with rfl | hmem
          · exact absurd (hx p hp) (lt_irrefl _)
          · exact hmem
        · rcases hrest p (List.mem_cons_of_mem _ hp) with hmem | hgreater
          · rcases List.mem_cons.mp hmem with rfl | hmem
            · exact absurd (hy p hp) (lt_irrefl _)
            · exact .inl hmem
          · exact .inr fun q hq => hgreater q (List.mem_cons_of_mem _ hq)

/-- Two tables with the same entries are the same. -/
theorem ext_mem {s t : Table K V} (h : ∀ p, p ∈ s.entries ↔ p ∈ t.entries) : s = t := by
  have hst : s.entries <+: t.entries :=
    (prefix_iff s.sorted t.sorted).mpr ⟨fun p hp => (h p).mp hp, fun p hp => .inl ((h p).mpr hp)⟩
  have hts : t.entries <+: s.entries :=
    (prefix_iff t.sorted s.sorted).mpr ⟨fun p hp => (h p).mpr hp, fun p hp => .inl ((h p).mp hp)⟩
  exact ext_entries (hst.eq_of_length_le hts.length_le)

end Table

end FitzDestroyer
