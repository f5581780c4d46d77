import Mathlib.Data.List.Induction
import Mathlib.Tactic.Common
import SaasFabric.Connector.Execution
import SaasFabric.Ndc.Wire

/-!
# The schema index

`fabric-connector-ndc`'s `schema_index/`: what a connector declared, arranged for
lookup.  Each lookup is tied to the schema response it was built from: a name the
index gives for a meaning is one the column's scalar type declares with it.
-/

namespace SaasFabric
namespace Ndc

/-! ## Meanings of operators -/

/-- `OperatorFit`. -/
inductive OperatorFit where
  | exact
  | widened
deriving DecidableEq

/-- `SemanticOperator`. -/
inductive SemanticOperator where
  | equal
  | «in»
  | lessThan
  | lessThanOrEqual
  | greaterThan
  | greaterThanOrEqual
  | contains
deriving DecidableEq

namespace SemanticOperator

/-- `SemanticOperator::refused_feature`. -/
def refusedFeature : SemanticOperator → UnsupportedFeature
  | equal => .comparison .equal
  | «in» => .membership
  | lessThan => .comparison .lessThan
  | lessThanOrEqual => .comparison .lessThanOrEqual
  | greaterThan => .comparison .greaterThan
  | greaterThanOrEqual => .comparison .greaterThanOrEqual
  | contains => .comparison .contains

def asStr : SemanticOperator → String
  | equal => "equal"
  | «in» => "in"
  | lessThan => "less_than"
  | lessThanOrEqual => "less_than_or_equal"
  | greaterThan => "greater_than"
  | greaterThanOrEqual => "greater_than_or_equal"
  | contains => "contains"

/-- `SemanticOperator::for_neutral`: inequality needs the equality operator. -/
def forNeutral : ComparisonOperator → SemanticOperator
  | .equal => equal
  | .notEqual => equal
  | .lessThan => lessThan
  | .lessThanOrEqual => lessThanOrEqual
  | .greaterThan => greaterThan
  | .greaterThanOrEqual => greaterThanOrEqual
  | .contains => contains

/-- `SemanticOperator::from_definition`. -/
def fromDefinition : NdcComparisonOperatorDefinition → Option (SemanticOperator × OperatorFit)
  | .equal => some (equal, .exact)
  | .in => some («in», .exact)
  | .lessThan => some (lessThan, .exact)
  | .lessThanOrEqual => some (lessThanOrEqual, .exact)
  | .greaterThan => some (greaterThan, .exact)
  | .greaterThanOrEqual => some (greaterThanOrEqual, .exact)
  | .contains => some (contains, .exact)
  | .containsInsensitive => some (contains, .widened)
  | .startsWith => none
  | .startsWithInsensitive => none
  | .endsWith => none
  | .endsWithInsensitive => none
  | .custom => none

/-- The definition that fits a meaning exactly. -/
def definition : SemanticOperator → NdcComparisonOperatorDefinition
  | equal => .equal
  | «in» => .in
  | lessThan => .lessThan
  | lessThanOrEqual => .lessThanOrEqual
  | greaterThan => .greaterThan
  | greaterThanOrEqual => .greaterThanOrEqual
  | contains => .contains

/-- Exactly one definition fits a meaning exactly. -/
theorem fromDefinition_exact {definition : NdcComparisonOperatorDefinition}
    {semantic : SemanticOperator} :
    fromDefinition definition = some (semantic, .exact) ↔ definition = semantic.definition := by
  cases definition <;> cases semantic <;>
    simp [fromDefinition, SemanticOperator.definition]

/-- The one widening is of containment, by its case-insensitive form. -/
theorem fromDefinition_widened {definition : NdcComparisonOperatorDefinition}
    {semantic : SemanticOperator} :
    fromDefinition definition = some (semantic, .widened) ↔
      definition = .containsInsensitive ∧ semantic = contains := by
  cases definition <;> cases semantic <;> simp [fromDefinition]

/-- Declaration order, the derived `Ord` the index is keyed by. -/
def rank : SemanticOperator → Nat
  | equal => 0
  | «in» => 1
  | lessThan => 2
  | lessThanOrEqual => 3
  | greaterThan => 4
  | greaterThanOrEqual => 5
  | contains => 6

theorem rank_injective : Function.Injective rank := by
  intro a b h
  cases a <;> cases b <;> first | rfl | cases h

instance : Ord SemanticOperator := ⟨fun a b => compare a.rank b.rank⟩

instance : Std.TransOrd SemanticOperator where
  eq_swap {a b} := (Std.OrientedOrd.eq_swap : compare a.rank b.rank = _)
  isLE_trans {a _ c} hab hbc := (Std.TransOrd.isLE_trans hab hbc : (compare a.rank c.rank).isLE)

instance : Std.LawfulEqOrd SemanticOperator where
  eq_of_compare {a b} h :=
    rank_injective (Std.LawfulEqOrd.eq_of_compare (h : compare a.rank b.rank = .eq))
  compare_self {a} := (Std.ReflOrd.compare_self : compare a.rank a.rank = .eq)

end SemanticOperator

/-! ## The operator index -/

/-- `OperatorIndex`: scalar type, meaning, the connector's own name for it. -/
abbrev OperatorIndex := BTreeMap String (BTreeMap SemanticOperator String)

/-- The names kept so far, each with how well it fits. -/
abbrev BestSoFar := BTreeMap SemanticOperator (OperatorFit × String)

/-- A name replaces the one kept where there is none, or where it fits exactly and the
one kept widens. -/
def improves (kept : Option (OperatorFit × String)) (fit : OperatorFit) : Bool :=
  match kept with
  | none => true
  | some (kept, _) => kept == .widened && fit == .exact

/-- One round of the loop of `best_names`. -/
def keepBest (best : BestSoFar) (entry : String × NdcComparisonOperatorDefinition) :
    BestSoFar :=
  match SemanticOperator.fromDefinition entry.2 with
  | none => best
  | some (semantic, fit) =>
      if improves best[semantic]? fit then best.insert semantic (fit, entry.1) else best

/-- `best_names`. -/
def bestNames (scalar : NdcScalarType) : BTreeMap SemanticOperator String :=
  (scalar.comparisonOperators.toList.foldl keepBest ∅).map fun _ kept => kept.2

/-- `operator_index::build`. -/
def buildOperators (schema : NdcSchemaResponse) : OperatorIndex :=
  schema.scalarTypes.map fun _ scalar => bestNames scalar

/-- An operator was declared with a meaning, and fits it so. -/
def Fits (semantic : SemanticOperator) (fit : OperatorFit)
    (entry : String × NdcComparisonOperatorDefinition) : Bool :=
  decide (SemanticOperator.fromDefinition entry.2 = some (semantic, fit))

/-- The name that is best for a meaning: the first that fits exactly, or where none
does the first that widens. -/
def bestOf (entries : List (String × NdcComparisonOperatorDefinition))
    (semantic : SemanticOperator) : Option (OperatorFit × String) :=
  ((entries.find? (Fits semantic .exact)).map fun entry => (.exact, entry.1)).or
    ((entries.find? (Fits semantic .widened)).map fun entry => (.widened, entry.1))

/-- An operator that has another meaning, or none, changes nothing. -/
theorem bestOf_append_of_not_fits
    {entries : List (String × NdcComparisonOperatorDefinition)}
    {entry : String × NdcComparisonOperatorDefinition} {semantic : SemanticOperator}
    (h : ∀ fit, Fits semantic fit entry = false) :
    bestOf (entries ++ [entry]) semantic = bestOf entries semantic := by
  simp [bestOf, List.find?_append, h]

/-- One round keeps the best name of every meaning. -/
theorem getElem?_keepBest {best : BestSoFar}
    {entries : List (String × NdcComparisonOperatorDefinition)}
    (hbest : ∀ semantic, best[semantic]? = bestOf entries semantic)
    (entry : String × NdcComparisonOperatorDefinition) (semantic : SemanticOperator) :
    (keepBest best entry)[semantic]? = bestOf (entries ++ [entry]) semantic := by
  unfold keepBest
  cases hdefinition : SemanticOperator.fromDefinition entry.2 with
  | none =>
      rw [bestOf_append_of_not_fits (by simp [Fits, hdefinition])]
      exact hbest semantic
  | some meant =>
      obtain ⟨meant, fit⟩ := meant
      by_cases hmeant : meant = semantic
      · subst hmeant
        -- What was kept decides: an exact name, one that widens, or nothing.
        cases hexact : entries.find? (Fits meant .exact) with
        | some kept => simp [bestOf, List.find?_append, hexact, hbest, improves]
        | none =>
            cases hwidened : entries.find? (Fits meant .widened) with
            | some kept =>
                cases fit <;>
                  simp [bestOf, List.find?_append, hexact, hwidened, hbest, improves, Fits,
                    hdefinition]
            | none =>
                cases fit <;>
                  simp [bestOf, List.find?_append, hexact, hwidened, hbest, improves, Fits,
                    hdefinition]
      · rw [bestOf_append_of_not_fits (by simp [Fits, hdefinition, hmeant])]
        simp only
        split
        · rw [Library.getElem?_insert_ne _ _ hmeant]
          exact hbest semantic
        · exact hbest semantic

/-- The loop of `best_names` ends with the best name of every meaning. -/
theorem getElem?_foldl_keepBest (entries : List (String × NdcComparisonOperatorDefinition))
    (semantic : SemanticOperator) :
    (entries.foldl keepBest ∅)[semantic]? = bestOf entries semantic := by
  induction entries using List.reverseRecOn generalizing semantic with
  | nil => simp [bestOf]
  | append_singleton entries entry ih =>
      rw [List.foldl_append, List.foldl_cons, List.foldl_nil]
      exact getElem?_keepBest ih entry semantic

/-- A name kept for a meaning is one the scalar type declares with it; and where it
widens, the scalar type declares no exact one. -/
theorem getElem?_bestNames {scalar : NdcScalarType} {semantic : SemanticOperator}
    {name : String} (h : (bestNames scalar)[semantic]? = some name) :
    ∃ definition, scalar.comparisonOperators[name]? = some definition ∧
      (definition = semantic.definition ∨
        definition = .containsInsensitive ∧ semantic = .contains ∧
          ∀ other : String, scalar.comparisonOperators[other]? ≠
            some NdcComparisonOperatorDefinition.contains) := by
  unfold bestNames at h
  rw [Std.ExtTreeMap.getElem?_map, Option.map_eq_some_iff] at h
  obtain ⟨⟨fit, kept⟩, hkept, rfl⟩ := h
  rw [getElem?_foldl_keepBest] at hkept
  unfold bestOf at hkept
  cases hexact : scalar.comparisonOperators.toList.find? (Fits semantic .exact) with
  | some entry =>
      rw [hexact] at hkept
      cases hkept
      have hfits : SemanticOperator.fromDefinition entry.2 = some (semantic, .exact) := by
        simpa [Fits] using List.find?_some hexact
      refine ⟨entry.2, ?_, Or.inl (SemanticOperator.fromDefinition_exact.mp hfits)⟩
      exact Std.ExtTreeMap.mem_toList_iff_getElem?_eq_some.mp (List.mem_of_find?_eq_some hexact)
  | none =>
      rw [hexact, Option.map_none, Option.none_or, Option.map_eq_some_iff] at hkept
      obtain ⟨entry, hwidened, heq⟩ := hkept
      cases heq
      have hfits : SemanticOperator.fromDefinition entry.2 = some (semantic, .widened) := by
        simpa [Fits] using List.find?_some hwidened
      obtain ⟨hdefinition, hsemantic⟩ := SemanticOperator.fromDefinition_widened.mp hfits
      refine ⟨entry.2, ?_, Or.inr ⟨hdefinition, hsemantic, ?_⟩⟩
      · exact Std.ExtTreeMap.mem_toList_iff_getElem?_eq_some.mp
          (List.mem_of_find?_eq_some hwidened)
      · intro other hother
        have hnone := List.find?_eq_none.mp hexact (other, NdcComparisonOperatorDefinition.contains)
          (Std.ExtTreeMap.mem_toList_iff_getElem?_eq_some.mpr hother)
        subst hsemantic
        exact hnone (by simp [Fits, SemanticOperator.fromDefinition])

/-! ## The collection index -/

/-- `CollectionIndex`: collection, field, and the scalar type under it, if any. -/
abbrev CollectionIndex := BTreeMap String (BTreeMap String (Option String))

/-- `collection_index::build`.  A collection whose object type is missing is left
out; of several of one name the last is kept. -/
def buildCollections (schema : NdcSchemaResponse) : CollectionIndex :=
  Library.collect (schema.collections.filterMap fun collection =>
    (schema.objectTypes[collection.collectionType]?).map fun objectType =>
      (collection.name, objectType.fields.map fun _ field => field.fieldType.namedScalar))

/-- The collection index holds what the schema declares. -/
theorem getElem?_buildCollections (schema : NdcSchemaResponse) (collection : String) :
    (buildCollections schema)[collection]? =
      (schema.fieldsOf collection).map
        fun fields => fields.map fun _ field => field.fieldType.namedScalar := by
  unfold buildCollections NdcSchemaResponse.fieldsOf
  rw [Library.getElem?_collect, ← List.filterMap_reverse, List.find?_filterMap]
  have hsame : ∀ info : NdcCollectionInfo,
      (((schema.objectTypes[info.collectionType]?).map fun objectType =>
          (info.name, objectType.fields.map fun _ field => field.fieldType.namedScalar)).any
        fun entry => decide (entry.1 = collection)) =
      (decide (info.name = collection) &&
        (schema.objectTypes[info.collectionType]?).isSome) := by
    intro info
    cases schema.objectTypes[info.collectionType]? <;> simp
  simp only [hsame]
  cases schema.collections.reverse.find? fun info =>
      decide (info.name = collection) && (schema.objectTypes[info.collectionType]?).isSome with
  | none => rfl
  | some info => cases hobject : schema.objectTypes[info.collectionType]? <;> simp [hobject]

/-! ## The procedure index -/

/-- `ArgumentKind`. -/
inductive ArgumentKind where
  | predicate
  | value
deriving DecidableEq

def ArgumentKind.describe : ArgumentKind → String
  | predicate => "a predicate"
  | value => "not a predicate"

/-- `ArgumentInfo`. -/
structure ArgumentInfo where
  kind : ArgumentKind
  required : Bool
deriving DecidableEq

/-- `kind_of`: a nullable predicate is still a predicate. -/
def kindOf : NdcType → ArgumentKind
  | .predicate _ => .predicate
  | .nullable underlyingType => kindOf underlyingType
  | .named _ => .value
  | .array _ => .value

def isNullable : NdcType → Bool
  | .nullable _ => true
  | .named _ => false
  | .array _ => false
  | .predicate _ => false

def argumentInfo (argument : NdcArgumentInfo) : ArgumentInfo where
  kind := kindOf argument.argumentType
  required := !isNullable argument.argumentType

/-- `ProcedureIndex`: procedure, argument, what is known of it. -/
abbrev ProcedureIndex := BTreeMap String (BTreeMap String ArgumentInfo)

/-- `procedure_index::build`. -/
def buildProcedures (schema : NdcSchemaResponse) : ProcedureIndex :=
  Library.collect (schema.procedures.map fun procedure =>
    (procedure.name, procedure.arguments.map fun _ info => argumentInfo info))

/-- The procedure index holds what the schema declares. -/
theorem getElem?_buildProcedures (schema : NdcSchemaResponse) (procedure : String) :
    (buildProcedures schema)[procedure]? =
      (schema.procedureOf procedure).map
        fun info => info.arguments.map fun _ argument => argumentInfo argument := by
  unfold buildProcedures NdcSchemaResponse.procedureOf
  rw [Library.getElem?_collect, ← List.map_reverse, List.find?_map, Option.map_map]
  rfl

/-! ## The index -/

/-- `SchemaIndex`. -/
structure SchemaIndex where
  collections : CollectionIndex
  operators : OperatorIndex
  procedures : ProcedureIndex
  neutral : ConnectorSchema

/-- `collection_index::to_neutral_schema`: what the platform's identifiers can name. -/
def toNeutralSchema (index : CollectionIndex) : ConnectorSchema :=
  .new (index.toList.filterMap fun (collectionName, fields) =>
    (Identifier.tryNew .collectionName collectionName).toOption.map fun name =>
      (name, .new (fields.keys.filterMap fun field =>
        (Identifier.tryNew .fieldName field).toOption)))

namespace SchemaIndex

/-- `SchemaIndex::build`. -/
def build (schema : NdcSchemaResponse) : SchemaIndex where
  collections := buildCollections schema
  operators := buildOperators schema
  procedures := buildProcedures schema
  neutral := toNeutralSchema (buildCollections schema)

variable (index : SchemaIndex)

def hasProcedure (name : String) : Bool := (index.procedures[name]?).isSome

/-- `procedure_argument`: what kind of argument a procedure declares under a name. -/
def procedureArgument (procedure argument : String) : Option ArgumentKind :=
  (index.procedures[procedure]?).bind fun arguments =>
    (arguments[argument]?).map ArgumentInfo.kind

def declaredArguments (procedure : String) : List String :=
  ((index.procedures[procedure]?).map fun arguments => arguments.keys).getD []

def requiredArguments (procedure : String) : List String :=
  ((index.procedures[procedure]?).map fun arguments =>
    (arguments.toList.filter fun entry => entry.2.required).map Prod.fst).getD []

def hasField (collection : CollectionName) (field : FieldName) : Bool :=
  (index.collections[collection.value]?).any fun fields => (fields[field.value]?).isSome

/-- `operator_name`: the connector's own name for a meaning, on a column's type. -/
def operatorName (collection : CollectionName) (field : FieldName)
    (semantic : SemanticOperator) : Option String :=
  (index.collections[collection.value]?).bind fun fields =>
    (fields[field.value]?).join.bind fun scalar =>
      (index.operators[scalar]?).bind fun bySemantic => bySemantic[semantic]?

end SchemaIndex

/-! ## What a lookup says about the schema -/

section Build

variable {schema : NdcSchemaResponse}

/-- A column the index has is a field the schema declares. -/
theorem hasField_build {collection : CollectionName} {field : FieldName} :
    (SchemaIndex.build schema).hasField collection field =
      (schema.fieldOf collection.value field.value).isSome := by
  unfold SchemaIndex.hasField SchemaIndex.build NdcSchemaResponse.fieldOf
  simp only [getElem?_buildCollections]
  cases schema.fieldsOf collection.value with
  | none => rfl
  | some fields => simp

/-- The scalar type of a field declares an operator that contains exactly. -/
def NdcSchemaResponse.ContainsExactly (schema : NdcSchemaResponse) (collection : CollectionName)
    (field : FieldName) : Prop :=
  ∃ operator, schema.operatorOf collection.value field.value operator = some .contains

/-- A name the index gives for a meaning is one the field's scalar type declares with
that meaning, or where it declares no exact containment, with the case-insensitive
form of containment. -/
theorem operatorName_build {collection : CollectionName} {field : FieldName}
    {semantic : SemanticOperator} {name : String}
    (h : (SchemaIndex.build schema).operatorName collection field semantic = some name) :
    ∃ definition,
      schema.operatorOf collection.value field.value name = some definition ∧
        (definition = semantic.definition ∨
          definition = .containsInsensitive ∧ semantic = .contains ∧
            ¬ schema.ContainsExactly collection field) := by
  unfold SchemaIndex.operatorName SchemaIndex.build at h
  simp only [getElem?_buildCollections, Option.bind_eq_some_iff, Option.map_eq_some_iff] at h
  obtain ⟨_, ⟨fields, hfields, rfl⟩, scalar, hscalar, bySemantic, hbySemantic, hname⟩ := h
  rw [Option.join_eq_some_iff, Std.ExtTreeMap.getElem?_map, Option.map_eq_some_iff] at hscalar
  obtain ⟨declared, hdeclared, hnamed⟩ := hscalar
  unfold buildOperators at hbySemantic
  rw [Std.ExtTreeMap.getElem?_map, Option.map_eq_some_iff] at hbySemantic
  obtain ⟨definitions, hdefinitions, rfl⟩ := hbySemantic
  have hoperatorOf : ∀ operator, schema.operatorOf collection.value field.value operator =
      definitions.comparisonOperators[operator]? := by
    intro operator
    simp [NdcSchemaResponse.operatorOf, NdcSchemaResponse.fieldOf, hfields, hdeclared, hnamed,
      hdefinitions]
  obtain ⟨definition, hdefinition, hfits⟩ := getElem?_bestNames hname
  refine ⟨definition, (hoperatorOf name).trans hdefinition, ?_⟩
  rcases hfits with hexact | ⟨hinsensitive, hsemantic, hnone⟩
  · exact Or.inl hexact
  · refine Or.inr ⟨hinsensitive, hsemantic, ?_⟩
    rintro ⟨operator, hoperator⟩
    exact hnone operator ((hoperatorOf operator).symm.trans hoperator)

/-- A procedure the index has is one the schema declares. -/
theorem hasProcedure_build {procedure : String} :
    (SchemaIndex.build schema).hasProcedure procedure =
      (schema.procedureOf procedure).isSome := by
  simp [SchemaIndex.hasProcedure, SchemaIndex.build, getElem?_buildProcedures]

/-- The kind the index has for an argument is that of its declared type. -/
theorem procedureArgument_build {procedure argument : String} :
    (SchemaIndex.build schema).procedureArgument procedure argument =
      (schema.argumentOf procedure argument).map kindOf := by
  unfold SchemaIndex.procedureArgument SchemaIndex.build NdcSchemaResponse.argumentOf
  simp only [getElem?_buildProcedures]
  cases schema.procedureOf procedure with
  | none => rfl
  | some info =>
      simp only [Option.map_some, Option.bind_some, Std.ExtTreeMap.getElem?_map,
        Option.map_map]
      rfl

/-- An argument a procedure declares with a type that is not nullable is one the index
requires. -/
theorem mem_requiredArguments_build {procedure argument : String} {argumentType : NdcType}
    (hargument : schema.argumentOf procedure argument = some argumentType)
    (hrequired : isNullable argumentType = false) :
    argument ∈ (SchemaIndex.build schema).requiredArguments procedure := by
  unfold NdcSchemaResponse.argumentOf at hargument
  simp only [Option.bind_eq_some_iff, Option.map_eq_some_iff] at hargument
  obtain ⟨info, hinfo, declared, hdeclared, rfl⟩ := hargument
  unfold SchemaIndex.requiredArguments SchemaIndex.build
  simp only [getElem?_buildProcedures, hinfo, Option.map_some, Option.getD_some, List.mem_map,
    List.mem_filter]
  refine ⟨(argument, argumentInfo declared), ⟨?_, ?_⟩, rfl⟩
  · rw [Std.ExtTreeMap.mem_toList_iff_getElem?_eq_some, Std.ExtTreeMap.getElem?_map, hdeclared]
    rfl
  · simp [argumentInfo, hrequired]

end Build

end Ndc
end SaasFabric
