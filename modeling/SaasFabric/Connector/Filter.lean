import Mathlib.Data.List.Infix
import Mathlib.Tactic.Common
import SaasFabric.Core.Value
import SaasFabric.Library.Kleene

/-!
# The neutral filter language

`fabric-connector`'s `filter/`: the predicate tree a caller may nest at will, the
conjunction the platform joins its own predicate on with, and what a filter means
on a row.
-/

namespace SaasFabric

open Library (Truth)

/-- `ComparisonOperator`. -/
inductive ComparisonOperator where
  | equal
  | notEqual
  | lessThan
  | lessThanOrEqual
  | greaterThan
  | greaterThanOrEqual
  | contains
deriving DecidableEq, Repr

namespace ComparisonOperator

def asStr : ComparisonOperator → String
  | equal => "equal"
  | notEqual => "not_equal"
  | lessThan => "less_than"
  | lessThanOrEqual => "less_than_or_equal"
  | greaterThan => "greater_than"
  | greaterThanOrEqual => "greater_than_or_equal"
  | contains => "contains"

end ComparisonOperator

/-- `Filter`. -/
inductive Filter where
  | and (clauses : List Filter)
  | or (clauses : List Filter)
  | not (clause : Filter)
  | compare (field : FieldName) (operator : ComparisonOperator) (value : Value)
  | isNull (field : FieldName)
  | «in» (field : FieldName) (values : List Value)

namespace Filter

/-- Induction on a filter, with the hypothesis for every clause of a list. -/
@[induction_eliminator]
theorem induct {motive : Filter → Prop}
    (and : ∀ clauses, (∀ clause ∈ clauses, motive clause) → motive (.and clauses))
    (or : ∀ clauses, (∀ clause ∈ clauses, motive clause) → motive (.or clauses))
    (not : ∀ clause, motive clause → motive (.not clause))
    (compare : ∀ field operator value, motive (.compare field operator value))
    (isNull : ∀ field, motive (.isNull field))
    («in» : ∀ field values, motive (.in field values)) : ∀ filter, motive filter
  | .and clauses =>
      and clauses fun clause _ => induct and or not compare isNull «in» clause
  | .or clauses =>
      or clauses fun clause _ => induct and or not compare isNull «in» clause
  | .not clause => not clause (induct and or not compare isNull «in» clause)
  | .compare field operator value => compare field operator value
  | .isNull field => isNull field
  | .in field values => «in» field values

/-- `Filter::and`: joins two predicates, flattening a conjunction on either side
rather than nesting it. -/
def andWith : Filter → Filter → Filter
  | .and left, .and right => .and (left ++ right)
  | .and left, right => .and (left ++ [right])
  | left, .and right => .and (left :: right)
  | left, right => .and [left, right]

end Filter

/-! ## What a filter means -/

/-- How a store compares one cell with a literal.  Only what the platform relies
on is fixed: inequality is the negation of equality, and equality with a text is
equality.  Ordering, containment, and whether a missing cell answers `false` or
`unknown` are the store's own. -/
structure FilterSemantics where
  compare : ComparisonOperator → Option Value → Value → Truth
  compare_notEqual : ∀ cell value,
    compare .notEqual cell value = (compare .equal cell value).not
  compare_equal_string : ∀ cell text,
    compare .equal cell (.string text) = .true ↔ cell = some (.string text)

/-- The order two literals of one kind have; literals of different kinds have none. -/
def Value.order : Value → Value → Option Ordering
  | .string a, .string b => some (Ord.compare a b)
  | .number (.posInt a), .number (.posInt b) => some (Ord.compare a.val b.val)
  | .number (.negInt a), .number (.negInt b) => some (Ord.compare a b)
  | .number (.negInt _), .number (.posInt _) => some .lt
  | .number (.posInt _), .number (.negInt _) => some .gt
  | _, _ => none

/-- A text contains another. -/
def Value.containsText : Value → Value → Bool
  | .string held, .string part => decide (part.toList <:+: held.toList)
  | _, _ => false

/-- A plain store: a missing cell compares to `unknown`, and everything else is
decided by the two values. -/
def FilterSemantics.plain : FilterSemantics where
  compare
    | _, none, _ => .unknown
    | .equal, some held, value => Truth.ofBool (held = value)
    | .notEqual, some held, value => (Truth.ofBool (held = value)).not
    | .lessThan, some held, value => Truth.ofBool (held.order value == some .lt)
    | .lessThanOrEqual, some held, value =>
        Truth.ofBool (held.order value == some .lt || held.order value == some .eq)
    | .greaterThan, some held, value => Truth.ofBool (held.order value == some .gt)
    | .greaterThanOrEqual, some held, value =>
        Truth.ofBool (held.order value == some .gt || held.order value == some .eq)
    | .contains, some held, value => Truth.ofBool (held.containsText value)
  compare_notEqual cell value := by
    cases cell <;> rfl
  compare_equal_string cell text := by
    cases cell with
    | none => simp
    | some held => simp

/-- A cell is null when the row has no such field or holds `null` in it. -/
def isNullCell : Option Value → Bool
  | none => true
  | some .null => true
  | some _ => false

namespace Filter

section Eval

variable (compare : FieldName → ComparisonOperator → Value → Truth) (missing : FieldName → Bool)

mutual

/-- The truth value of a filter, given what its comparisons and its null checks
answer. -/
def evalBy : Filter → Truth
  | .and clauses => evalAllBy clauses
  | .or clauses => evalAnyBy clauses
  | .not clause => (evalBy clause).not
  | .compare field operator value => compare field operator value
  | .isNull field => Truth.ofBool (missing field)
  | .in field values => Truth.any (values.map (compare field .equal))

def evalAllBy : List Filter → Truth
  | [] => .true
  | clause :: clauses => (evalBy clause).and (evalAllBy clauses)

def evalAnyBy : List Filter → Truth
  | [] => .false
  | clause :: clauses => (evalBy clause).or (evalAnyBy clauses)

end

theorem evalAllBy_eq (clauses : List Filter) :
    evalAllBy compare missing clauses =
      Truth.all (clauses.map (evalBy compare missing)) := by
  induction clauses with
  | nil => rfl
  | cons clause clauses ih =>
      show (evalBy compare missing clause).and (evalAllBy compare missing clauses) = _
      rw [ih, List.map_cons, Truth.all_cons]

theorem evalAnyBy_eq (clauses : List Filter) :
    evalAnyBy compare missing clauses =
      Truth.any (clauses.map (evalBy compare missing)) := by
  induction clauses with
  | nil => rfl
  | cons clause clauses ih =>
      show (evalBy compare missing clause).or (evalAnyBy compare missing clauses) = _
      rw [ih, List.map_cons, Truth.any_cons]

@[simp] theorem evalBy_and (clauses : List Filter) :
    evalBy compare missing (.and clauses) =
      Truth.all (clauses.map (evalBy compare missing)) :=
  evalAllBy_eq compare missing clauses

@[simp] theorem evalBy_or (clauses : List Filter) :
    evalBy compare missing (.or clauses) =
      Truth.any (clauses.map (evalBy compare missing)) :=
  evalAnyBy_eq compare missing clauses

@[simp] theorem evalBy_not (clause : Filter) :
    evalBy compare missing (.not clause) = (evalBy compare missing clause).not := rfl

@[simp] theorem evalBy_compare (field : FieldName) (operator : ComparisonOperator)
    (value : Value) :
    evalBy compare missing (.compare field operator value) = compare field operator value := rfl

@[simp] theorem evalBy_isNull (field : FieldName) :
    evalBy compare missing (.isNull field) = Truth.ofBool (missing field) := rfl

@[simp] theorem evalBy_in (field : FieldName) (values : List Value) :
    evalBy compare missing (.in field values) =
      Truth.any (values.map (compare field .equal)) := rfl

/-- Whatever the shapes of the two sides, and however they flatten, their
conjunction is the conjunction of what they mean. -/
@[simp] theorem evalBy_andWith (left right : Filter) :
    evalBy compare missing (left.andWith right) =
      (evalBy compare missing left).and (evalBy compare missing right) := by
  unfold andWith
  split
  · rw [evalBy_and, List.map_append, Truth.all_append, evalBy_and, evalBy_and]
  · rw [evalBy_and, List.map_append, Truth.all_append, evalBy_and, List.map_singleton,
      Truth.all_singleton]
  · rw [evalBy_and, List.map_cons, Truth.all_cons, evalBy_and]
  · rw [evalBy_and, List.map_cons, Truth.all_cons, List.map_singleton, Truth.all_singleton]

end Eval

mutual

/-- The comparisons of a filter: field and operator. -/
def comparisons : Filter → List (FieldName × ComparisonOperator)
  | .and clauses => comparisonsAll clauses
  | .or clauses => comparisonsAll clauses
  | .not clause => comparisons clause
  | .compare field operator _ => [(field, operator)]
  | .isNull _ => []
  | .in field _ => [(field, .equal)]

def comparisonsAll : List Filter → List (FieldName × ComparisonOperator)
  | [] => []
  | clause :: clauses => comparisons clause ++ comparisonsAll clauses

end

theorem mem_comparisonsAll {clauses : List Filter} {comparison : FieldName × ComparisonOperator} :
    comparison ∈ comparisonsAll clauses ↔ ∃ clause ∈ clauses, comparison ∈ clause.comparisons := by
  induction clauses with
  | nil => simp [comparisonsAll]
  | cons clause clauses ih => simp [comparisonsAll, ih]

/-- A filter's truth value depends on its own comparisons alone. -/
theorem evalBy_congr {compare compare' : FieldName → ComparisonOperator → Value → Truth}
    {missing : FieldName → Bool} {filter : Filter}
    (h : ∀ comparison ∈ filter.comparisons, ∀ value,
      compare comparison.1 comparison.2 value = compare' comparison.1 comparison.2 value) :
    evalBy compare missing filter = evalBy compare' missing filter := by
  induction filter with
  | and clauses ih =>
      rw [evalBy_and, evalBy_and]
      refine congrArg Truth.all (List.map_congr_left fun clause hclause => ?_)
      refine ih clause hclause fun comparison hcomparison => h comparison ?_
      rw [comparisons]
      exact mem_comparisonsAll.mpr ⟨clause, hclause, hcomparison⟩
  | or clauses ih =>
      rw [evalBy_or, evalBy_or]
      refine congrArg Truth.any (List.map_congr_left fun clause hclause => ?_)
      refine ih clause hclause fun comparison hcomparison => h comparison ?_
      rw [comparisons]
      exact mem_comparisonsAll.mpr ⟨clause, hclause, hcomparison⟩
  | not clause ih =>
      rw [evalBy_not, evalBy_not, ih]
      rw [comparisons] at h
      exact h
  | compare field operator value =>
      rw [evalBy_compare, evalBy_compare]
      exact h (field, operator) (by simp [comparisons]) value
  | isNull field => rw [evalBy_isNull, evalBy_isNull]
  | «in» field values =>
      rw [evalBy_in, evalBy_in]
      refine congrArg Truth.any (List.map_congr_left fun value _ => ?_)
      exact h (field, .equal) (by simp [comparisons]) value

variable (S : FilterSemantics) (row : Row)

/-- The truth value of a filter on a row. -/
def eval (filter : Filter) : Truth :=
  evalBy (fun field operator value => S.compare operator (row.get field) value)
    (fun field => isNullCell (row.get field)) filter

@[simp] theorem eval_compare (field : FieldName) (operator : ComparisonOperator)
    (value : Value) :
    eval S row (.compare field operator value) =
      S.compare operator (row.get field) value :=
  evalBy_compare _ _ _ _ _

/-- A filter selects the rows it is true of. -/
def Selects (filter : Filter) : Prop := eval S row filter = .true

instance (filter : Filter) : Decidable (filter.Selects S row) :=
  inferInstanceAs (Decidable (eval S row filter = .true))

@[simp] theorem selects_andWith (left right : Filter) :
    (left.andWith right).Selects S row ↔ left.Selects S row ∧ right.Selects S row := by
  simp [Selects, eval]

end Filter

end SaasFabric
