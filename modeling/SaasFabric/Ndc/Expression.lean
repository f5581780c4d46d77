import Mathlib.Data.List.Forall2
import Mathlib.Tactic.Common
import SaasFabric.Library.Fallible
import SaasFabric.Ndc.SchemaIndex

/-!
# Filters as NDC expressions

`fabric-connector-ndc`'s translation of a neutral filter, and what the connector
makes of the result when it reads every operator by the meaning its own schema
declares for it.
-/

namespace SaasFabric
namespace Ndc

open Library (Truth)

/-! ## The translation -/

/-- `comparison`: one field, one meaning, one literal. -/
def comparison (collection : CollectionName) (field : FieldName) (semantic : SemanticOperator)
    (value : Value) (index : SchemaIndex) : Except ConnectorError NdcExpression :=
  match index.operatorName collection field semantic with
  | some operator => .ok (.binaryComparisonOperator (.column field.value) operator ⟨value⟩)
  | none => .error (semantic.refusedFeature.refusedBecause
      s!"{collection}.{field} has no {semantic.asStr} operator in the connector schema")

/-- `translate_null_check`. -/
def translateNullCheck (collection : CollectionName) (field : FieldName)
    (index : SchemaIndex) : Except ConnectorError NdcExpression :=
  if index.hasField collection field then
    .ok (.unaryComparisonOperator (.column field.value) .isNull)
  else
    .error (UnsupportedFeature.nullComparison.refusedBecause
      s!"{collection}.{field} is not a column in the connector schema")

/-- `reject_empty`. -/
def rejectEmpty (values : List Value) : Except ConnectorError Unit :=
  if values.isEmpty then
    .error (.invalidOperation
      "a membership test reached the connector with no values to match")
  else
    .ok ()

/-- `translate_membership`: the connector's own membership operator where the column
has one, and otherwise one equality for each value. -/
def translateMembership (collection : CollectionName) (field : FieldName)
    (values : List Value) (index : SchemaIndex) : Except ConnectorError NdcExpression := do
  rejectEmpty values
  match index.operatorName collection field .in with
  | some operator =>
      .ok (.binaryComparisonOperator (.column field.value) operator ⟨.array values⟩)
  | none =>
      NdcExpression.or <$> values.mapM fun value =>
        comparison collection field .equal value index

mutual

/-- `to_expression`.  NDC has no inequality: it is a negated equality. -/
def toExpression (collection : CollectionName) (filter : Filter) (index : SchemaIndex) :
    Except ConnectorError NdcExpression :=
  match filter with
  | .and clauses => NdcExpression.and <$> translateAll collection clauses index
  | .or clauses => NdcExpression.or <$> translateAll collection clauses index
  | .not clause => NdcExpression.not <$> toExpression collection clause index
  | .isNull field => translateNullCheck collection field index
  | .compare field .notEqual value =>
      NdcExpression.not <$> comparison collection field .equal value index
  | .compare field operator value =>
      comparison collection field (.forNeutral operator) value index
  | .in field values => translateMembership collection field values index

/-- `translate_all`. -/
def translateAll (collection : CollectionName) (clauses : List Filter) (index : SchemaIndex) :
    Except ConnectorError (List NdcExpression) :=
  match clauses with
  | [] => .ok []
  | clause :: clauses => do
      let expression ← toExpression collection clause index
      let expressions ← translateAll collection clauses index
      .ok (expression :: expressions)

end

/-! ## What an expression means to the connector -/

/-- How a connector compares: as its rows are compared neutrally, and with the
operators the neutral language lacks.  Case-insensitive containment is the wider
containment. -/
structure NdcSemantics extends FilterSemantics where
  containsInsensitive : Option Value → Value → Truth
  widens : ∀ cell value, compare .contains cell value = .true →
    containsInsensitive cell value = .true
  other : NdcComparisonOperatorDefinition → Option Value → Value → Truth

namespace NdcSemantics

variable (N : NdcSemantics)

/-- What an operator answers, by the definition its scalar type declares for it. -/
def meaning (definition : NdcComparisonOperatorDefinition) (cell : Option Value)
    (value : Value) : Truth :=
  match definition, value with
  | .equal, value => N.compare .equal cell value
  | .in, .array values => Truth.any (values.map (N.compare .equal cell))
  | .lessThan, value => N.compare .lessThan cell value
  | .lessThanOrEqual, value => N.compare .lessThanOrEqual cell value
  | .greaterThan, value => N.compare .greaterThan cell value
  | .greaterThanOrEqual, value => N.compare .greaterThanOrEqual cell value
  | .contains, value => N.compare .contains cell value
  | .containsInsensitive, value => N.containsInsensitive cell value
  | definition, value => N.other definition cell value

end NdcSemantics

/-- A member of an object. -/
def member (value : Value) (key : String) : Option Value :=
  match value with
  | .object members => members.lookup key
  | _ => none

/-- The cell a comparison target names in a row. -/
def NdcComparisonTarget.cell (target : NdcComparisonTarget) (row : Row) : Option Value :=
  (target.fieldPath.getD []).foldl (fun cell key => cell.bind (member · key))
    ((Identifier.tryNew .fieldName target.name).toOption.bind row.get)

@[simp] theorem NdcComparisonTarget.cell_column (field : FieldName) (row : Row) :
    (NdcComparisonTarget.column field.value).cell row = row.get field := by
  simp [NdcComparisonTarget.cell, NdcComparisonTarget.column, Except.toOption]

namespace NdcExpression

variable (N : NdcSemantics) (schema : NdcSchemaResponse) (collection : CollectionName)
  (row : Row)

mutual

/-- The truth value of an expression on a row of a collection: an operator means what
the scalar type of the column declares for its name. -/
def eval : NdcExpression → Truth
  | .and expressions => evalAll expressions
  | .or expressions => evalAny expressions
  | .not expression => (eval expression).not
  | .unaryComparisonOperator column .isNull => Truth.ofBool (isNullCell (column.cell row))
  | .binaryComparisonOperator column operator value =>
      match schema.operatorOf collection.value column.name operator with
      | some definition => N.meaning definition (column.cell row) value.value
      | none => .unknown

def evalAll : List NdcExpression → Truth
  | [] => .true
  | expression :: expressions => (eval expression).and (evalAll expressions)

def evalAny : List NdcExpression → Truth
  | [] => .false
  | expression :: expressions => (eval expression).or (evalAny expressions)

end

theorem evalAll_eq (expressions : List NdcExpression) :
    evalAll N schema collection row expressions =
      Truth.all (expressions.map (eval N schema collection row)) := by
  induction expressions with
  | nil => rfl
  | cons expression expressions ih => rw [evalAll, ih, List.map_cons, Truth.all_cons]

theorem evalAny_eq (expressions : List NdcExpression) :
    evalAny N schema collection row expressions =
      Truth.any (expressions.map (eval N schema collection row)) := by
  induction expressions with
  | nil => rfl
  | cons expression expressions ih => rw [evalAny, ih, List.map_cons, Truth.any_cons]

@[simp] theorem eval_and (expressions : List NdcExpression) :
    eval N schema collection row (.and expressions) =
      Truth.all (expressions.map (eval N schema collection row)) := by
  rw [eval, evalAll_eq]

@[simp] theorem eval_or (expressions : List NdcExpression) :
    eval N schema collection row (.or expressions) =
      Truth.any (expressions.map (eval N schema collection row)) := by
  rw [eval, evalAny_eq]

mutual

/-- The columns an expression compares, each with the operator it is compared by, and
with none where it is tested for null. -/
def leaves : NdcExpression → List (NdcComparisonTarget × Option String)
  | .and expressions => leavesAll expressions
  | .or expressions => leavesAll expressions
  | .not expression => leaves expression
  | .unaryComparisonOperator column _ => [(column, none)]
  | .binaryComparisonOperator column operator _ => [(column, some operator)]

def leavesAll : List NdcExpression → List (NdcComparisonTarget × Option String)
  | [] => []
  | expression :: expressions => leaves expression ++ leavesAll expressions

end

end NdcExpression

end Ndc
end SaasFabric
