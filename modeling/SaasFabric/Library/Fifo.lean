import Mathlib.Algebra.BigOperators.Group.List.Basic
import Mathlib.Algebra.GroupWithZero.Nat
import Mathlib.Tactic.Common

/-!
# A bounded queue

A queue that makes room at its back by dropping from its front: what is dropped is the shortest
prefix after which there is room.
-/

namespace SaasFabric
namespace Library

section Dropping

variable {T : Type*}

/-- A list without the shortest prefix after which the rest has a property. -/
def dropUntil (p : List T → Bool) : List T → List T
  | [] => []
  | first :: rest => if p (first :: rest) then first :: rest else dropUntil p rest

/-- What was dropped of a list: the rest has the property, or nothing is left, and with any less
dropped it would not have had it. -/
structure DropsUntil (p : List T → Bool) (dropped kept : List T) : Prop where
  enough : p kept = true ∨ kept = []
  least : ∀ fewer more, dropped = fewer ++ more → more ≠ [] → p (more ++ kept) = false

theorem dropUntil_spec (p : List T → Bool) (list : List T) :
    ∃ dropped, list = dropped ++ dropUntil p list ∧ DropsUntil p dropped (dropUntil p list) := by
  induction list with
  | nil =>
      refine ⟨[], rfl, Or.inr rfl, fun fewer more hdropped hmore => absurd ?_ hmore⟩
      exact (List.append_eq_nil_iff.mp hdropped.symm).2
  | cons first rest ih =>
      unfold dropUntil
      by_cases hp : p (first :: rest) = true
      · rw [if_pos hp]
        refine ⟨[], rfl, Or.inl hp, fun fewer more hdropped hmore => absurd ?_ hmore⟩
        exact (List.append_eq_nil_iff.mp hdropped.symm).2
      · rw [if_neg hp]
        obtain ⟨dropped, hlist, henough, hleast⟩ := ih
        refine ⟨first :: dropped, congrArg (first :: ·) hlist, henough, ?_⟩
        intro fewer more hdropped hmore
        cases fewer with
        | nil =>
            -- Nothing is dropped yet, and the whole list does not have it.
            rw [List.nil_append] at hdropped
            rw [← hdropped, List.cons_append, ← hlist]
            exact (Bool.not_eq_true _).mp hp
        | cons other fewer => exact hleast fewer more (List.cons.inj hdropped).2 hmore

theorem dropUntil_suffix (p : List T → Bool) (list : List T) : dropUntil p list <:+ list := by
  obtain ⟨dropped, hlist, -⟩ := dropUntil_spec p list
  exact ⟨dropped, hlist.symm⟩

end Dropping

section Bounded

variable {T : Type*}

/-- A queue has room for one more entry of some size. -/
def hasRoom (mostEntries mostSize : Nat) (size : T → Nat) (added : Nat) (queue : List T) : Bool :=
  queue.length < mostEntries && (queue.map size).sum + added ≤ mostSize

theorem hasRoom_iff {mostEntries mostSize added : Nat} {size : T → Nat} {queue : List T} :
    hasRoom mostEntries mostSize size added queue = true ↔
      queue.length < mostEntries ∧ (queue.map size).sum + added ≤ mostSize := by
  unfold hasRoom
  rw [Bool.and_eq_true, decide_eq_true_iff, decide_eq_true_iff]

/-- A queue after one more entry came to its back. -/
def enqueue (mostEntries mostSize : Nat) (size : T → Nat) (queue : List T) (entry : T) : List T :=
  dropUntil (hasRoom mostEntries mostSize size (size entry)) queue ++ [entry]

variable {mostEntries mostSize : Nat} {size : T → Nat} {queue : List T} {entry : T}

/-- What is kept has room for an entry that fits by itself. -/
theorem hasRoom_dropUntil (hentries : 0 < mostEntries) {added : Nat} (hadded : added ≤ mostSize) :
    hasRoom mostEntries mostSize size added
      (dropUntil (hasRoom mostEntries mostSize size added) queue) = true := by
  obtain ⟨dropped, -, henough, -⟩ :=
    dropUntil_spec (hasRoom mostEntries mostSize size added) queue
  rcases henough with hroom | hnil
  · exact hroom
  · rw [hnil, hasRoom_iff]
    exact ⟨hentries, by simpa using hadded⟩

/-- The bounds hold after an entry that fits by itself, whatever was there. -/
theorem bounded_enqueue (hentries : 0 < mostEntries) (hentry : size entry ≤ mostSize) :
    (enqueue mostEntries mostSize size queue entry).length ≤ mostEntries ∧
      ((enqueue mostEntries mostSize size queue entry).map size).sum ≤ mostSize := by
  obtain ⟨hlength, hsize⟩ := hasRoom_iff.mp (@hasRoom_dropUntil T mostEntries mostSize size queue
    hentries (size entry) hentry)
  unfold enqueue
  constructor
  · rw [List.length_append, List.length_singleton]
    omega
  · rw [List.map_append, List.sum_append]
    simpa using hsize

end Bounded

end Library
end SaasFabric
