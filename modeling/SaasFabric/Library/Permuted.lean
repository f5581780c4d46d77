import Mathlib.Data.List.Forall2
import Mathlib.Data.List.Perm.Basic
import Mathlib.Tactic.Common

/-!
# One list in another order

Two lists that agree up to their order, element by element in some relation.
-/

namespace SaasFabric
namespace Library

variable {α β γ : Type}

/-- A list is another one in a different order, each element for a related one. -/
def PermutedBy (R : α → β → Prop) (items : List α) (others : List β) : Prop :=
  ∃ ordered, items.Perm ordered ∧ List.Forall₂ R ordered others

namespace PermutedBy

variable {R : α → β → Prop} {items : List α} {others : List β}

theorem exists_left (h : PermutedBy R items others) {other : β} (hother : other ∈ others) :
    ∃ item ∈ items, R item other := by
  obtain ⟨ordered, hperm, hall⟩ := h
  have hsome : ∃ item ∈ ordered, R item other := by
    clear hperm
    induction hall with
    | nil => cases hother
    | cons hfirst _ ih =>
        rcases List.mem_cons.mp hother with rfl | hrest
        · exact ⟨_, List.mem_cons_self, hfirst⟩
        · obtain ⟨item, hitem, hrelated⟩ := ih hrest
          exact ⟨item, List.mem_cons_of_mem _ hitem, hrelated⟩
  obtain ⟨item, hitem, hrelated⟩ := hsome
  exact ⟨item, hperm.mem_iff.mpr hitem, hrelated⟩

theorem exists_right (h : PermutedBy R items others) {item : α} (hitem : item ∈ items) :
    ∃ other ∈ others, R item other := by
  obtain ⟨ordered, hperm, hall⟩ := h
  have hordered := hperm.mem_iff.mp hitem
  clear hperm
  induction hall with
  | nil => cases hordered
  | cons hfirst _ ih =>
      rcases List.mem_cons.mp hordered with rfl | hrest
      · exact ⟨_, List.mem_cons_self, hfirst⟩
      · obtain ⟨other, hother, hrelated⟩ := ih hrest
        exact ⟨other, List.mem_cons_of_mem _ hother, hrelated⟩

/-- What related elements have in common is listed in another order. -/
theorem map_perm (h : PermutedBy R items others) {f : α → γ} {g : β → γ}
    (hsame : ∀ item other, R item other → f item = g other) :
    (items.map f).Perm (others.map g) := by
  obtain ⟨ordered, hperm, hall⟩ := h
  have hmap : ordered.map f = others.map g := by
    clear hperm
    induction hall with
    | nil => rfl
    | cons hfirst _ ih => rw [List.map_cons, List.map_cons, hsame _ _ hfirst, ih]
  exact (hperm.map f).trans (List.Perm.of_eq hmap)

/-- What related elements have in common, of those that are selected alike. -/
theorem filter_map_perm (h : PermutedBy R items others) {f : α → γ} {g : β → γ} {p : α → Bool}
    {q : β → Bool} (hsame : ∀ item other, R item other → f item = g other)
    (hselect : ∀ item other, R item other → p item = q other) :
    ((items.filter p).map f).Perm ((others.filter q).map g) := by
  have hpairs := h.map_perm (f := fun item => (p item, f item)) (g := fun other =>
    (q other, g other)) fun item other hrelated => by
      rw [hsame item other hrelated, hselect item other hrelated]
  have hkept := (hpairs.filter Prod.fst).map Prod.snd
  rw [List.filter_map, List.filter_map, List.map_map, List.map_map] at hkept
  exact hkept

theorem eq_nil_iff (h : PermutedBy R items others) : items = [] ↔ others = [] := by
  obtain ⟨ordered, hperm, hall⟩ := h
  have hlength : items.length = others.length := hperm.length_eq.trans hall.length_eq
  rw [← List.length_eq_zero_iff, ← List.length_eq_zero_iff, hlength]

end PermutedBy
end Library
end SaasFabric
