import Mathlib.Tactic.Common
import SaasFabric.Connector.Errors

/-!
# What goes over the wire to an NDC connector

`fabric-connector-ndc`'s `wire/`: the schema a connector reports, the predicate and
the procedure call it is sent, and the JSON a predicate is sent as.
-/

namespace SaasFabric

namespace Ndc

/-! ## The schema response -/

/-- `NdcType`. -/
inductive NdcType where
  | named (name : String)
  | nullable (underlyingType : NdcType)
  | array (elementType : NdcType)
  | predicate (objectTypeName : String)
deriving DecidableEq

namespace NdcType

/-- `NdcType::named`: the scalar under nullable wrappers; an array has none. -/
def namedScalar : NdcType → Option String
  | named name => some name
  | nullable underlyingType => underlyingType.namedScalar
  | array _ => none
  | predicate _ => none

end NdcType

/-- `NdcComparisonOperatorDefinition`. -/
inductive NdcComparisonOperatorDefinition where
  | equal
  | «in»
  | lessThan
  | lessThanOrEqual
  | greaterThan
  | greaterThanOrEqual
  | contains
  | containsInsensitive
  | startsWith
  | startsWithInsensitive
  | endsWith
  | endsWithInsensitive
  | custom
deriving DecidableEq

/-- `NdcScalarType`. -/
structure NdcScalarType where
  comparisonOperators : BTreeMap String NdcComparisonOperatorDefinition

/-- `NdcObjectField`. -/
structure NdcObjectField where
  fieldType : NdcType

/-- `NdcObjectType`. -/
structure NdcObjectType where
  fields : BTreeMap String NdcObjectField

/-- `NdcCollectionInfo`. -/
structure NdcCollectionInfo where
  name : String
  collectionType : String

/-- `NdcArgumentInfo`. -/
structure NdcArgumentInfo where
  argumentType : NdcType

/-- `NdcProcedureInfo`. -/
structure NdcProcedureInfo where
  name : String
  arguments : BTreeMap String NdcArgumentInfo

/-- `NdcSchemaResponse`.  Collections and procedures are lists: a name may occur
twice. -/
structure NdcSchemaResponse where
  scalarTypes : BTreeMap String NdcScalarType
  objectTypes : BTreeMap String NdcObjectType
  collections : List NdcCollectionInfo
  procedures : List NdcProcedureInfo

namespace NdcSchemaResponse

variable (schema : NdcSchemaResponse)

/-- The fields the schema declares on a collection: those of the object type of the
last declaration of that name whose object type the schema has. -/
def fieldsOf (collection : String) : Option (BTreeMap String NdcObjectField) :=
  (schema.collections.reverse.find? fun info =>
      decide (info.name = collection) && (schema.objectTypes[info.collectionType]?).isSome).bind
    fun info => (schema.objectTypes[info.collectionType]?).map NdcObjectType.fields

/-- The field the schema declares under a name on a collection. -/
def fieldOf (collection column : String) : Option NdcObjectField :=
  (schema.fieldsOf collection).bind fun fields => fields[column]?

/-- The meaning the scalar type of a field declares for an operator's name. -/
def operatorOf (collection column operator : String) :
    Option NdcComparisonOperatorDefinition :=
  ((schema.fieldOf collection column).bind fun field => field.fieldType.namedScalar).bind
    fun scalar => (schema.scalarTypes[scalar]?).bind
      fun definition => definition.comparisonOperators[operator]?

/-- The last procedure the schema declares under a name. -/
def procedureOf (name : String) : Option NdcProcedureInfo :=
  schema.procedures.reverse.find? fun procedure => decide (procedure.name = name)

/-- The type a procedure declares for an argument. -/
def argumentOf (procedure argument : String) : Option NdcType :=
  (schema.procedureOf procedure).bind fun info =>
    (info.arguments[argument]?).map NdcArgumentInfo.argumentType

end NdcSchemaResponse

/-! ## Predicates -/

/-- `NdcUnaryOperator`. -/
inductive NdcUnaryOperator where
  | isNull
deriving DecidableEq

/-- `NdcComparisonTarget::Column`. -/
structure NdcComparisonTarget where
  name : String
  fieldPath : Option (List String)
deriving DecidableEq

namespace NdcComparisonTarget

/-- `NdcComparisonTarget::column`. -/
def column (name : String) : NdcComparisonTarget := ⟨name, none⟩

end NdcComparisonTarget

/-- `NdcComparisonValue::Scalar`. -/
structure NdcComparisonValue where
  value : Value
deriving DecidableEq

/-- `NdcExpression`. -/
inductive NdcExpression where
  | and (expressions : List NdcExpression)
  | or (expressions : List NdcExpression)
  | not (expression : NdcExpression)
  | unaryComparisonOperator (column : NdcComparisonTarget) (operator : NdcUnaryOperator)
  | binaryComparisonOperator (column : NdcComparisonTarget) (operator : String)
      (value : NdcComparisonValue)

/-! ## The JSON of a predicate -/

def NdcUnaryOperator.toValue : NdcUnaryOperator → Value
  | isNull => .string "is_null"

def NdcComparisonTarget.toValue (target : NdcComparisonTarget) : Value :=
  let path := target.fieldPath.elim [] fun path =>
    [("field_path", Value.array (path.map .string))]
  .object (path ++ [("name", .string target.name), ("type", .string "column")])

def NdcComparisonValue.toValue (value : NdcComparisonValue) : Value :=
  .object [("type", .string "scalar"), ("value", value.value)]

namespace NdcExpression

mutual

/-- `serde_json::to_value` of an expression: an object tagged with its kind. -/
def toValue : NdcExpression → Value
  | .and expressions =>
      .object [("expressions", .array (toValues expressions)), ("type", .string "and")]
  | .or expressions =>
      .object [("expressions", .array (toValues expressions)), ("type", .string "or")]
  | .not expression =>
      .object [("expression", toValue expression), ("type", .string "not")]
  | .unaryComparisonOperator column operator =>
      .object [("column", column.toValue), ("operator", operator.toValue),
        ("type", .string "unary_comparison_operator")]
  | .binaryComparisonOperator column operator value =>
      .object [("column", column.toValue), ("operator", .string operator),
        ("type", .string "binary_comparison_operator"), ("value", value.toValue)]

def toValues : List NdcExpression → List Value
  | [] => []
  | expression :: expressions => toValue expression :: toValues expressions

end

end NdcExpression

/-! ## Procedure calls -/

mutual

/-- `NdcMutationFields`: what a procedure is asked to answer with. -/
inductive NdcMutationFields where
  | object (fields : List (String × NdcResultField))
  | array (fields : NdcMutationFields)

/-- `NdcResultField::Column`. -/
inductive NdcResultField where
  | column (column : String) (fields : Option NdcMutationFields)

end

/-- `NdcMutationFields::affected_rows_only`. -/
def NdcMutationFields.affectedRowsOnly : NdcMutationFields :=
  .object [("affected_rows", .column "affected_rows" none)]

/-- `NdcMutationOperation::Procedure`. -/
structure NdcMutationOperation where
  name : String
  arguments : BTreeMap String Value
  fields : Option NdcMutationFields

/-- `NdcMutationRequest`. -/
structure NdcMutationRequest where
  operations : List NdcMutationOperation
  collectionRelationships : BTreeMap String Value
  requestArguments : Option (BTreeMap String Value)

end Ndc
end SaasFabric
