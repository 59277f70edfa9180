import Mathlib.Data.List.Infix
import Mathlib.Data.Nat.Notation
import Mathlib.Tactic.NthRewrite

/-!
# Pages

The broker answers a request with as many items as it likes: at most the number that it was asked
for, and an item if there is one.  A listing comes in pages of any sizes.

* `answer limit size items` : the items of an answer;
* `cut sizes items` : the pages of a listing;
* `answer_prefix_iff` : what an answer says about the items that were expected.
-/

namespace FitzDestroyer

namespace Workload

universe u

/-- The items of an answer. -/
def answer {α : Type u} (limit size : ℕ) (items : List α) : List α :=
  items.take (min limit (max 1 size))

/-- The pages of given sizes, and a last page. -/
def cut {α : Type u} : List ℕ → List α → List (List α)
  | [], items => [items]
  | size :: sizes, items => items.take size :: cut sizes (items.drop size)

theorem flatten_cut {α : Type u} (sizes : List ℕ) (items : List α) :
    (cut sizes items).flatten = items := by
  induction sizes generalizing items with
  | nil => exact List.append_nil items
  | cons size sizes ih => rw [cut, List.flatten_cons, ih, List.take_append_drop]

theorem answer_eq_nil {α : Type u} {limit size : ℕ} {items : List α} (hlimit : 0 < limit) :
    answer limit size items = [] ↔ items = [] := by
  rw [answer, List.take_eq_nil_iff]
  constructor
  · rintro (h | h)
    · omega
    · exact h
  · exact .inr

/-- The items of an answer are the ones expected, and the others are left: the expected items come
first, as far as they are asked for. -/
theorem answer_prefix_iff {α : Type u} {item : ℕ → α} {limit size n left : ℕ} {items : List α}
    (hlimit : limit ≤ left) :
    (List.range' n left).map item <+: items ↔
      answer limit size items = (List.range' n (answer limit size items).length).map item ∧
        (List.range' (n + (answer limit size items).length)
          (left - (answer limit size items).length)).map item <+:
            items.drop (answer limit size items).length := by
  obtain ⟨k, hk, hlength⟩ : ∃ k, answer limit size items = items.take k ∧
      (items.take k).length = k := by
    refine ⟨min (min limit (max 1 size)) items.length, ?_, ?_⟩
    · rw [answer, List.take_eq_take_iff]
      omega
    · rw [List.length_take]
      omega
  have hle : k ≤ left := by
    have := congrArg List.length hk
    rw [answer, List.length_take, hlength] at this
    omega
  have hsplit : List.range' n left = List.range' n k ++ List.range' (n + k) (left - k) := by
    rw [List.range'_append_1, Nat.add_sub_cancel' hle]
  rw [hk, hlength, hsplit, List.map_append]
  constructor
  · intro hpre
    have hfirst : items.take k = (List.range' n k).map item := by
      obtain ⟨rest, rfl⟩ := hpre
      rw [List.append_assoc, List.take_left' (by rw [List.length_map, List.length_range'])]
    refine ⟨hfirst, ?_⟩
    rw [← List.take_append_drop k items] at hpre
    rwa [← hfirst, List.prefix_append_right_inj] at hpre
  · rintro ⟨hfirst, hrest⟩
    rw [← hfirst]
    nth_rewrite 2 [← List.take_append_drop k items]
    rwa [List.prefix_append_right_inj]

end Workload

end FitzDestroyer
