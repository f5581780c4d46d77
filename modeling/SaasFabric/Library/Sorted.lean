import Mathlib.Data.List.Nodup
import Mathlib.Tactic.Common

/-!
# Lists sorted by a comparison

What sorting by a transitive comparison gives: its head is no greater than anything listed, and
a list whose keys differ comes out in one order, however it was listed.
-/

namespace SaasFabric
namespace Library

section Compared

variable {α : Type} {cmp : α → α → Ordering} [Std.TransCmp cmp]

theorem pairwise_sorted (cmp : α → α → Ordering) [Std.TransCmp cmp] (items : List α) :
    (items.mergeSort fun left right => (cmp left right).isLE).Pairwise fun left right =>
      (cmp left right).isLE = true := by
  have htotal : ∀ left right : α, ((cmp left right).isLE || (cmp right left).isLE) = true := by
    intro left right
    have hswap : cmp right left = (cmp left right).swap := Std.OrientedCmp.eq_swap
    rw [hswap]
    cases cmp left right <;> rfl
  have htrans : ∀ first second third : α, (cmp first second).isLE = true →
      (cmp second third).isLE = true → (cmp first third).isLE = true :=
    fun _ _ _ hfirst hsecond => Std.TransCmp.isLE_trans hfirst hsecond
  exact List.pairwise_mergeSort htrans htotal items

/-- What comes first is no greater than anything that was listed. -/
theorem isLE_of_head?_sorted {items : List α} {first item : α}
    (hfirst : (items.mergeSort fun left right => (cmp left right).isLE).head? = some first)
    (hitem : item ∈ items) : (cmp first item).isLE = true := by
  have hsorted := pairwise_sorted cmp items
  have hmem : item ∈ items.mergeSort fun left right => (cmp left right).isLE :=
    List.mem_mergeSort.mpr hitem
  obtain ⟨rest, hrest⟩ := List.head?_eq_some_iff.mp hfirst
  rw [hrest] at hsorted hmem
  rcases List.mem_cons.mp hmem with rfl | htail
  · exact Std.ReflCmp.isLE_rfl
  · exact (List.pairwise_cons.mp hsorted).1 item htail

end Compared

/-- Keys of their own come out in strict order. -/
theorem pairwise_lt_sorted {α K : Type} [Ord K] [Std.TransOrd K] [Std.LawfulEqOrd K]
    {key : α → K} {items : List α} (hnodup : (items.map key).Nodup) :
    (items.mergeSort fun left right => (compare (key left) (key right)).isLE).Pairwise
      fun left right => compare (key left) (key right) = .lt := by
  have hsorted := pairwise_sorted (compareOn key) items
  have hkeys : ((items.mergeSort fun left right =>
      (compare (key left) (key right)).isLE).map key).Nodup :=
    ((List.mergeSort_perm items _).map key).nodup_iff.mpr hnodup
  have hapart := List.pairwise_map.mp hkeys
  refine (hsorted.and hapart).imp fun {left right} h => ?_
  obtain ⟨hle, hne⟩ := h
  have hcompare : (compare (key left) (key right)).isLE = true := hle
  cases heq : compare (key left) (key right) with
  | lt => rfl
  | eq => exact absurd (Std.LawfulEqOrd.eq_of_compare heq) hne
  | gt =>
      rw [heq] at hcompare
      cases hcompare

/-- What is listed with keys of its own comes out in one order. -/
theorem sorted_eq_of_perm {α K : Type} [Ord K] [Std.TransOrd K] [Std.LawfulEqOrd K] {key : α → K}
    {items others : List α} (hnodup : (items.map key).Nodup) (hperm : items.Perm others) :
    (items.mergeSort fun left right => (compare (key left) (key right)).isLE) =
      others.mergeSort fun left right => (compare (key left) (key right)).isLE := by
  have hsame : (items.mergeSort fun left right => (compare (key left) (key right)).isLE).Perm
      (others.mergeSort fun left right => (compare (key left) (key right)).isLE) :=
    ((List.mergeSort_perm items _).trans hperm).trans (List.mergeSort_perm others _).symm
  refine hsame.eq_of_pairwise ?_ (pairwise_sorted (compareOn key) items)
    (pairwise_sorted (compareOn key) others)
  intro left right hleft hright hle hge
  have hkey : key left = key right :=
    Std.LawfulEqOrd.eq_of_compare (Std.OrientedCmp.isLE_antisymm hle hge)
  have hlisted : right ∈ items := hperm.mem_iff.mpr (List.mem_mergeSort.mp hright)
  exact List.inj_on_of_nodup_map hnodup (List.mem_mergeSort.mp hleft) hlisted hkey

end Library
end SaasFabric
