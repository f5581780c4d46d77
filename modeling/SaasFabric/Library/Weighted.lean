import Mathlib.Algebra.Order.BigOperators.Group.List
import Mathlib.Algebra.Order.Ring.Nat
import Mathlib.Tactic.Common

/-!
# Weights of lists

The elements of a list have weights that are added up.  A part of a list weighs no more than
the whole; where every element weighs something, a part that weighs as much is the whole.
-/

namespace SaasFabric
namespace Library

variable {α : Type} (weight : α → Nat)

theorem sum_le_of_subperm {part whole : List α} (h : part.Subperm whole) :
    (part.map weight).sum ≤ (whole.map weight).sum := by
  obtain ⟨same, hperm, hsublist⟩ := h
  have hsame : (part.map weight).sum = (same.map weight).sum :=
    ((hperm.map weight).sum_eq).symm
  rw [hsame]
  exact (hsublist.map weight).sum_le_sum fun _ _ => Nat.zero_le _

/-- A part that weighs as much as the whole leaves nothing out. -/
theorem perm_of_sum_le {part whole : List α} (h : part.Subperm whole)
    (hpositive : ∀ item ∈ whole, 0 < weight item)
    (hsum : (whole.map weight).sum ≤ (part.map weight).sum) : part.Perm whole := by
  refine h.perm_of_length_le (not_lt.mp fun hlt => ?_)
  -- What is left out has a weight of its own.
  obtain ⟨left, hleft⟩ := h.exists_of_length_lt hlt
  have hmem : left ∈ whole := hleft.subset List.mem_cons_self
  have hle := sum_le_of_subperm weight hleft
  rw [List.map_cons, List.sum_cons] at hle
  have hweight := hpositive left hmem
  omega

/-- Where every element weighs no more than its partner and the sums are the same, every
element weighs as much as its partner. -/
theorem eq_of_sum_le {items : List α} {lower upper : α → Nat}
    (hle : ∀ item ∈ items, lower item ≤ upper item)
    (hsum : (items.map upper).sum ≤ (items.map lower).sum) :
    ∀ item ∈ items, lower item = upper item := by
  intro item hitem
  refine (hle item hitem).antisymm (not_lt.mp fun hlt => ?_)
  have hstrict := List.sum_lt_sum lower upper hle ⟨item, hitem, hlt⟩
  omega

end Library
end SaasFabric
