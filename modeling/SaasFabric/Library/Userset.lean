import Mathlib.Tactic.Common

/-!
# Userset rewrites

The relations of one object, each defined by a rewrite over the others: those directly
related, those related in another way, a union, a difference.  A rewrite is evaluated for one
principal, to some depth; without that depth it has no answer.
-/

namespace SaasFabric
namespace Library

/-- A rewrite over relations. -/
inductive Userset (R : Type) where
  | direct
  | computed (relation : R)
  | union (child : List (Userset R))
  | difference (base subtract : Userset R)

namespace Userset

variable {R : Type}

mutual

/-- What a rewrite says of a principal, from what is known of the other relations. -/
def eval (known : R → Option Bool) (related : Bool) : Userset R → Option Bool
  | .direct => some related
  | .computed relation => known relation
  | .union child => evalAny known related child
  | .difference base subtract => do
      let inBase ← eval known related base
      let inSubtract ← eval known related subtract
      some (inBase && !inSubtract)

/-- Whether a principal is in one of some usersets. -/
def evalAny (known : R → Option Bool) (related : Bool) : List (Userset R) → Option Bool
  | [] => some false
  | first :: rest => do
      let inFirst ← eval known related first
      let inRest ← evalAny known related rest
      some (inFirst || inRest)

end

/-- Whether a principal is in a relation, to some depth. -/
def holds (defined : R → Option (Userset R)) (related : R → Bool) : Nat → R → Option Bool
  | 0, _ => none
  | depth + 1, relation =>
      (defined relation).bind (eval (holds defined related depth) (related relation))

@[simp] theorem eval_direct (known : R → Option Bool) (related : Bool) :
    eval known related .direct = some related := rfl

@[simp] theorem eval_computed (known : R → Option Bool) (related : Bool) (relation : R) :
    eval known related (.computed relation) = known relation := rfl

/-- Nobody is in what is left of a userset without itself. -/
theorem eval_difference_self {known : R → Option Bool} {related : Bool} {userset : Userset R}
    {answer : Bool} (h : eval known related userset = some answer) :
    eval known related (.difference userset userset) = some false := by
  rw [eval, h]
  simp

theorem evalAny_computed {known : R → Option Bool} {related : Bool} {answer : R → Bool}
    {relations : List R} (h : ∀ relation ∈ relations, known relation = some (answer relation)) :
    evalAny known related (relations.map .computed) = some (relations.any answer) := by
  induction relations with
  | nil => rfl
  | cons relation rest ih =>
      have hfirst := h relation List.mem_cons_self
      have hrest := ih fun other hother => h other (List.mem_cons_of_mem _ hother)
      show (known relation).bind (fun inFirst =>
        (evalAny known related (rest.map .computed)).bind fun inRest =>
          some (inFirst || inRest)) = _
      rw [hfirst, hrest, List.any_cons]
      rfl

/-- A principal is in a union of relations where it is in one of them. -/
theorem eval_union_computed {known : R → Option Bool} {related : Bool} {answer : R → Bool}
    {relations : List R} (h : ∀ relation ∈ relations, known relation = some (answer relation)) :
    eval known related (.union (relations.map .computed)) = some (relations.any answer) :=
  evalAny_computed h

/-- A relation that is only assigned holds where it is assigned. -/
theorem holds_direct {defined : R → Option (Userset R)} {related : R → Bool} {relation : R}
    (h : defined relation = some .direct) (depth : Nat) :
    holds defined related (depth + 1) relation = some (related relation) := by
  rw [holds, h, Option.bind_some, eval_direct]

theorem holds_of_defined {defined : R → Option (Userset R)} {related : R → Bool} {relation : R}
    {userset : Userset R} (h : defined relation = some userset) (depth : Nat) :
    holds defined related (depth + 1) relation =
      eval (holds defined related depth) (related relation) userset := by
  rw [holds, h, Option.bind_some]

/-- A relation that nothing defines holds of nobody. -/
theorem holds_of_undefined {defined : R → Option (Userset R)} {related : R → Bool} {relation : R}
    (h : defined relation = none) (depth : Nat) : holds defined related depth relation = none := by
  cases depth with
  | zero => rfl
  | succ depth => rw [holds, h, Option.bind_none]

/-! ## The order of a union -/

/-- Two usersets that differ in the order of a union at most. -/
inductive Reordered : Userset R → Userset R → Prop where
  | refl (userset : Userset R) : Reordered userset userset
  | union {child other : List (Userset R)} (h : child.Perm other) :
      Reordered (.union child) (.union other)

end Userset
end Library
end SaasFabric
