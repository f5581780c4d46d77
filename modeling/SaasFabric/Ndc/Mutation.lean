import Mathlib.Tactic.Common
import SaasFabric.Connector.Execution
import SaasFabric.Ndc.Expression
import SaasFabric.Ndc.Registration

/-!
# Mutations as procedure calls

`fabric-connector-ndc`'s translation of a scoped mutation into the one procedure call
its mapping names, argument by argument.
-/

namespace SaasFabric
namespace Ndc

/-! ## Payloads -/

/-- `row_to_json`: a row as the object of its fields. -/
def rowToJson (row : Row) : Value :=
  .object (row.fields.toList.map fun entry => (entry.1.value, entry.2))

/-- `shaped_row_to_json`: as it is, or with every field wrapped for a column that takes
set operations. -/
def shapedRowToJson (row : Row) (shape : PayloadShape) : Value :=
  match shape with
  | .values => rowToJson row
  | .setOperations =>
      .object (row.fields.toList.map fun entry =>
        (entry.1.value, .object [("_set", entry.2)]))

/-- A row can be read back from its JSON, in either shape. -/
theorem shapedRowToJson_injective (shape : PayloadShape) :
    Function.Injective (shapedRowToJson · shape) := by
  intro left right h
  have hlist : left.fields.toList = right.fields.toList := by
    cases shape with
    | values =>
        simp only [shapedRowToJson, rowToJson, Value.object.injEq] at h
        refine List.map_injective_iff.mpr ?_ h
        rintro ⟨field, value⟩ ⟨field', value'⟩ hentry
        simp only [Prod.mk.injEq] at hentry
        rw [Identifier.value_injective hentry.1, hentry.2]
    | setOperations =>
        simp only [shapedRowToJson, Value.object.injEq] at h
        refine List.map_injective_iff.mpr ?_ h
        rintro ⟨field, value⟩ ⟨field', value'⟩ hentry
        simp only [Prod.mk.injEq, Value.object.injEq, List.cons.injEq, and_true,
          true_and] at hentry
        rw [Identifier.value_injective hentry.1, hentry.2]
  cases left
  cases right
  exact congrArg Row.mk (Std.ExtTreeMap.toList_inj.mp hlist)

/-! ## Arguments -/

/-- `arguments::require`. -/
def require (binding : Option ProcedureBinding) (feature : UnsupportedFeature)
    (operation collection : String) : Except ConnectorError ProcedureBinding :=
  match binding with
  | some binding => .ok binding
  | none => .error (feature.refusedBecause
      s!"no {operation} procedure is mapped for {collection}")

/-- `arguments::payload`. -/
def payload (binding : ProcedureBinding) (value : Value) :
    Except ConnectorError (BTreeMap String Value) :=
  match binding.payloadArgument with
  | some name => .ok ((∅ : BTreeMap String Value).insert name value)
  | none => .error (.invalidOperation
      s!"procedure {binding.procedure} needs a payload_argument to carry the rows to write")

/-- `arguments::for_insert`. -/
def forInsert (binding : ProcedureBinding) (rows : List Row) :
    Except ConnectorError (BTreeMap String Value) :=
  payload binding (.array (rows.map rowToJson))

/-- `arguments::add_predicate`: the whole filter of the mutation, under the mapping's
`filter_argument`.  Encoding an expression as JSON does not fail. -/
def addPredicate (arguments : BTreeMap String Value) (binding : ProcedureBinding)
    (filter : Option Filter) (spec : MutationSpec) (index : SchemaIndex) :
    Except ConnectorError (BTreeMap String Value × Filter) :=
  match binding.filterArgument with
  | none => .error (.invalidOperation
      (s!"procedure {binding.procedure} has no filter_argument, so the tenant predicate could " ++
        "not be sent"))
  | some name =>
      match filter with
      | none => .error (.invalidOperation
          s!"a {spec.operationName} on {spec.collection} reached the connector with no predicate")
      | some filter => do
          let expression ← toExpression spec.collection filter index
          .ok (arguments.insert name expression.toValue, filter)

/-! ## Key arguments -/

/-- The value of an equality on a field. -/
def equalityOn (field : String) : Filter → Option Value
  | .compare candidate .equal value => if candidate.value = field then some value else none
  | _ => none

/-- `direct_equalities`: the equalities on a field that the whole predicate demands, as
itself or as a clause of its outermost conjunction. -/
def directEqualities (filter : Filter) (field : String) : List Value :=
  match filter with
  | .and clauses => clauses.filterMap (equalityOn field)
  | filter => (equalityOn field filter).toList

/-- The loop of `single_equality`: each value once, in order. -/
def distinctValues (values : List Value) : List Value :=
  values.foldl (fun distinct value =>
    if distinct.any (·.equals value) then distinct else distinct ++ [value]) []

/-- `single_equality`. -/
def singleEquality (filter : Filter) (field : String) : Except String Value :=
  match distinctValues (directEqualities filter field) with
  | [] => .error ("the predicate has no equality for that field; a keyed procedure cannot be " ++
      "called without its key")
  | [value] => .ok value
  | _ => .error ("the predicate has more than one differing equality for that field; a keyed " ++
      "procedure cannot be called against a contradictory predicate")

/-- `existing_setting`. -/
def existingSetting (binding : ProcedureBinding) (argument : String) : String :=
  if binding.payloadArgument = some argument then
    "payload_argument"
  else if binding.filterArgument = some argument then
    "filter_argument"
  else
    match binding.keyArguments.toList.find? fun entry => entry.2 == argument with
    | none => "another setting"
    | some (field, _) => s!"the key argument for field `{field}`"

/-- One round of the loop of `add_key_arguments`. -/
def addKeyArgument (binding : ProcedureBinding) (filter : Filter) (spec : MutationSpec)
    (arguments : BTreeMap String Value) (entry : String × String) :
    Except ConnectorError (BTreeMap String Value) :=
  let (field, argument) := entry
  match singleEquality filter field with
  | .error reason => .error (.invalidOperation
      (s!"a {spec.operationName} on {spec.collection} maps key field `{field}` to argument " ++
        s!"`{argument}`, but {reason}"))
  | .ok value =>
      if (arguments[argument]?).isSome then
        .error (.invalidOperation
          (s!"a {spec.operationName} on {spec.collection} maps key field `{field}` to argument " ++
            s!"`{argument}`, but {existingSetting binding argument} already writes that " ++
            "argument; one argument map, so the key would overwrite it rather than add to it"))
      else
        .ok (arguments.insert argument value)

/-- `add_key_arguments`. -/
def addKeyArguments (arguments : BTreeMap String Value) (binding : ProcedureBinding)
    (filter : Filter) (spec : MutationSpec) : Except ConnectorError (BTreeMap String Value) :=
  binding.keyArguments.toList.foldlM (addKeyArgument binding filter spec) arguments

/-! ## The request -/

/-- `unmapped_verb_feature`. -/
def unmappedVerbFeature : MutationSpec → UnsupportedFeature
  | .insert _ _ => .insertsOnCollection
  | .update _ _ _ => .updatesOnCollection
  | .delete _ _ => .deletesOnCollection

/-- `ensure_procedure_accepts`. -/
def ensureProcedureAccepts (binding : ProcedureBinding) (config : NdcConnectorConfig)
    (index : SchemaIndex) : Except ConnectorError Unit :=
  if !index.hasProcedure binding.procedure then
    .error (.invalidOperation
      s!"connector {config.id} does not expose a procedure named {binding.procedure}")
  else
    match binding.filterArgument with
    | none => .ok ()
    | some filter =>
        if index.procedureArgument binding.procedure filter = some .predicate then
          .ok ()
        else
          .error (.invalidOperation
            (s!"connector {config.id}: procedure {binding.procedure} does not declare " ++
              s!"{filter} as a predicate argument, so the tenant predicate could not be sent " ++
              "where it would take effect"))

/-- The mapping a mutation goes by, and the arguments it is sent with. -/
def procedureArguments (spec : MutationSpec) (procedures : CollectionProcedures)
    (index : SchemaIndex) : Except ConnectorError (ProcedureBinding × BTreeMap String Value) :=
  let collection := spec.collection.value
  let verb := spec.operationName
  let feature := unmappedVerbFeature spec
  match spec with
  | .insert _ rows => do
      let binding ← require procedures.insert feature verb collection
      let built ← forInsert binding rows
      .ok (binding, built)
  | .update _ filter changes => do
      let binding ← require procedures.update feature verb collection
      let built ← payload binding (shapedRowToJson changes binding.payloadShape)
      let (built, predicate) ← addPredicate built binding filter spec index
      let built ← addKeyArguments built binding predicate spec
      .ok (binding, built)
  | .delete _ filter => do
      let binding ← require procedures.delete feature verb collection
      let (built, predicate) ← addPredicate ∅ binding filter spec index
      let built ← addKeyArguments built binding predicate spec
      .ok (binding, built)

/-- `to_mutation_request`. -/
def toMutationRequest (spec : MutationSpec)
    (requestArguments : Option (BTreeMap String Value)) (config : NdcConnectorConfig)
    (index : SchemaIndex) : Except ConnectorError NdcMutationRequest :=
  match config.procedures[spec.collection.value]? with
  | none => .error (UnsupportedFeature.writesToCollection.refusedBecause
      s!"no procedure mapping is configured for {spec.collection}")
  | some procedures => do
      let (binding, arguments) ← procedureArguments spec procedures index
      ensureProcedureAccepts binding config index
      .ok {
        operations := [{
          name := binding.procedure
          arguments
          fields := some .affectedRowsOnly }]
        collectionRelationships := ∅
        requestArguments }

end Ndc
end SaasFabric
