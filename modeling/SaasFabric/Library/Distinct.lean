import Mathlib.Data.List.Nodup
import SaasFabric.Library.Fallible

/-!
# Checking a list whose keys must differ

A loop that refuses an item whose key an earlier item had, and checks every other one.
-/

namespace SaasFabric
namespace Library

variable {α ε K : Type} [DecidableEq K]

/-- Each item is checked in turn, after its key is looked for among those seen so far. -/
def eachOnce (key : α → K) (repeated : α → ε) (check : α → Except ε Unit) (seen : List K) :
    List α → Except ε Unit
  | [] => .ok ()
  | item :: rest =>
      if key item ∈ seen then
        .error (repeated item)
      else do
        check item
        eachOnce key repeated check (key item :: seen) rest

/-- A list passes exactly when every item does and no key is there twice. -/
theorem eachOnce_eq_ok {key : α → K} {repeated : α → ε} {check : α → Except ε Unit}
    {seen : List K} {items : List α} : eachOnce key repeated check seen items = .ok () ↔
      (∀ item ∈ items, check item = .ok () ∧ key item ∉ seen) ∧ (items.map key).Nodup := by
  induction items generalizing seen with
  | nil => simp [eachOnce]
  | cons item rest ih =>
      rw [eachOnce]
      by_cases hseen : key item ∈ seen
      · simp [hseen]
      · rw [if_neg hseen, check_bind_eq_ok, List.map_cons, List.nodup_cons, List.forall_mem_cons]
        constructor
        · rintro ⟨hitem, hrest⟩
          obtain ⟨hchecked, hnodup⟩ := ih.mp hrest
          refine ⟨⟨⟨hitem, hseen⟩, fun other hother => ?_⟩, ?_, hnodup⟩
          · exact ⟨(hchecked other hother).1,
              fun hmem => (hchecked other hother).2 (List.mem_cons_of_mem _ hmem)⟩
          · intro hmem
            obtain ⟨other, hother, hkey⟩ := List.mem_map.mp hmem
            exact (hchecked other hother).2 (hkey ▸ List.mem_cons_self)
        · rintro ⟨⟨⟨hitem, -⟩, hrest⟩, hfirst, hnodup⟩
          refine ⟨hitem, ih.mpr ⟨fun other hother => ⟨(hrest other hother).1, ?_⟩, hnodup⟩⟩
          rw [List.mem_cons, not_or]
          exact ⟨fun hkey => hfirst (hkey ▸ List.mem_map_of_mem hother), (hrest other hother).2⟩

/-- Without keys seen before, and with nothing to check but the keys. -/
theorem eachOnce_nil_eq_ok {key : α → K} {repeated : α → ε} {check : α → Except ε Unit}
    {items : List α} : eachOnce key repeated check [] items = .ok () ↔
      (∀ item ∈ items, check item = .ok ()) ∧ (items.map key).Nodup := by
  rw [eachOnce_eq_ok]
  simp only [List.not_mem_nil, not_false_eq_true, and_true]

end Library
end SaasFabric
