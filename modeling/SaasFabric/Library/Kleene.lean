import Mathlib.Data.List.Basic
import Mathlib.Tactic.Common

/-!
# Three-valued logic

Kleene's strong three-valued connectives, and their folds over lists.  A store
that compares with nulls answers `unknown` where a two-valued one answers
`false`; a predicate selects a row exactly when it answers `true`.  Everything
here is stated once for both readings: a two-valued reading never produces
`unknown`.
-/

namespace SaasFabric
namespace Library

/-- A truth value of Kleene's strong logic. -/
inductive Truth where
  | true
  | false
  | unknown
deriving DecidableEq, Repr

namespace Truth

/-- The truth value of a decided proposition. -/
def ofBool : Bool → Truth
  | Bool.true => .true
  | Bool.false => .false

/-- Negation keeps `unknown`. -/
protected def not : Truth → Truth
  | .true => .false
  | .false => .true
  | .unknown => .unknown

/-- Conjunction: one `false` decides it. -/
protected def and : Truth → Truth → Truth
  | .true, other => other
  | .false, _ => .false
  | .unknown, .false => .false
  | .unknown, _ => .unknown

/-- Disjunction: one `true` decides it. -/
protected def or : Truth → Truth → Truth
  | .false, other => other
  | .true, _ => .true
  | .unknown, .true => .true
  | .unknown, _ => .unknown

/-- The conjunction of a list; the empty one is `true`. -/
def all : List Truth → Truth
  | [] => .true
  | head :: tail => head.and (all tail)

/-- The disjunction of a list; the empty one is `false`. -/
def any : List Truth → Truth
  | [] => .false
  | head :: tail => head.or (any tail)

@[simp] theorem ofBool_eq_true (b : Bool) : ofBool b = .true ↔ b = Bool.true := by
  cases b <;> simp [ofBool]

@[simp] theorem true_and (t : Truth) : Truth.true.and t = t := rfl

@[simp] theorem and_true (t : Truth) : t.and .true = t := by
  cases t <;> rfl

@[simp] theorem or_false (t : Truth) : t.or .false = t := by
  cases t <;> rfl

theorem and_assoc (a b c : Truth) : (a.and b).and c = a.and (b.and c) := by
  cases a <;> cases b <;> cases c <;> rfl

/-- A conjunction holds exactly when both sides hold. -/
@[simp] theorem and_eq_true (a b : Truth) : a.and b = .true ↔ a = .true ∧ b = .true := by
  cases a <;> cases b <;> simp [Truth.and]

/-- A disjunction holds exactly when one side holds. -/
@[simp] theorem or_eq_true (a b : Truth) : a.or b = .true ↔ a = .true ∨ b = .true := by
  cases a <;> cases b <;> simp [Truth.or]

@[simp] theorem all_nil : all [] = .true := rfl

@[simp] theorem all_cons (head : Truth) (tail : List Truth) :
    all (head :: tail) = head.and (all tail) := rfl

@[simp] theorem any_nil : any [] = .false := rfl

@[simp] theorem any_cons (head : Truth) (tail : List Truth) :
    any (head :: tail) = head.or (any tail) := rfl

theorem all_eq_true (truths : List Truth) : all truths = .true ↔ ∀ t ∈ truths, t = .true := by
  induction truths with
  | nil => simp
  | cons head tail ih => simp [ih]

/-- Flattening two conjunctions into one changes nothing. -/
theorem all_append (left right : List Truth) :
    all (left ++ right) = (all left).and (all right) := by
  induction left with
  | nil => rfl
  | cons head tail ih => rw [List.cons_append, all_cons, ih, all_cons, and_assoc]

theorem all_singleton (t : Truth) : all [t] = t := by
  rw [all_cons, all_nil, and_true]

end Truth
end Library
end SaasFabric
