import Mathlib.Tactic.Common
import SaasFabric.Connector.Filter

/-!
# Where an operation runs

`fabric-connector`'s `execution/` and the reads and writes that are scoped to an
execution target: which DataSource, which connection of which connector, and how
this tenant's records are kept apart from every other's.
-/

namespace SaasFabric

/-- `SecretRef`: the path of a secret, never its value. -/
structure SecretRef where
  path : String
deriving DecidableEq

namespace SecretRef

/-- `SecretRef::distinctness_key`: what survives a resolver's projection.  Case,
and which non-alphanumeric character it is, do not. -/
def distinctnessKey (reference : SecretRef) : String :=
  reference.path.map fun c => if isAsciiAlphanumeric c then c.toUpper else '_'

end SecretRef

/-- `ConnectionSelector`. -/
inductive ConnectionSelector where
  | default
  | named (name : ConnectionName)
  | secret (reference : SecretRef)
deriving DecidableEq

/-- `IsolationModel`. -/
inductive IsolationModel where
  | database
  | schema (schema : SchemaName)
  | discriminator (column : FieldName) (value : String)
deriving DecidableEq

namespace IsolationModel

/-- `IsolationModel::tenant_predicate`: only a discriminator scopes by predicate. -/
def tenantPredicate : IsolationModel → Option Filter
  | database => none
  | schema _ => none
  | discriminator column value => some (.compare column .equal (.string value))

def telemetryLabel : IsolationModel → String
  | database => "database"
  | schema _ => "schema"
  | discriminator _ _ => "discriminator"

/-- Isolation that is supposed to come from the connection alone. -/
def IsStructural : IsolationModel → Prop
  | database => True
  | schema _ => True
  | discriminator _ _ => False

instance : DecidablePred IsStructural := fun isolation => by
  cases isolation <;> unfold IsStructural <;> infer_instance

theorem not_isStructural_iff {isolation : IsolationModel} :
    ¬ isolation.IsStructural ↔ ∃ column value, isolation = discriminator column value := by
  cases isolation <;> simp [IsStructural]

end IsolationModel

/-- `ExecutionTarget`. -/
structure ExecutionTarget where
  tenant : TenantId
  tenantRevision : BindingRevision
  dataSource : DataSourceId
  dataSourceRevision : BindingRevision
  connector : ConnectorId
  connection : ConnectionSelector
  isolation : IsolationModel
deriving DecidableEq

/-! ## Schemas -/

/-- `CollectionSchema`. -/
structure CollectionSchema where
  fields : BTreeSet FieldName

namespace CollectionSchema

/-- `CollectionSchema::new`. -/
def new (fields : List FieldName) : CollectionSchema := ⟨.ofList fields compare⟩

end CollectionSchema

/-- `ConnectorSchema`. -/
structure ConnectorSchema where
  collections : BTreeMap CollectionName CollectionSchema

namespace ConnectorSchema

/-- `ConnectorSchema::new`. -/
def new (collections : List (CollectionName × CollectionSchema)) : ConnectorSchema :=
  ⟨Library.collect collections⟩

/-- `ConnectorSchema::collection`. -/
def collection (schema : ConnectorSchema) (name : CollectionName) : Option CollectionSchema :=
  schema.collections[name]?

end ConnectorSchema

/-! ## Reads -/

/-- `SortDirection`. -/
inductive SortDirection where
  | ascending
  | descending
deriving DecidableEq, Repr

/-- `SortField`. -/
structure SortField where
  field : FieldName
  direction : SortDirection
deriving DecidableEq

/-- `QuerySpec`. -/
structure QuerySpec where
  collection : CollectionName
  fields : List FieldName
  filter : Option Filter
  sort : List SortField
  limit : Option U32
  offset : Option U32

namespace QuerySpec

/-- `QuerySpec::for_target`: the same read, scoped to the target's tenant. -/
def forTarget (spec : QuerySpec) (target : ExecutionTarget) : QuerySpec :=
  match target.isolation.tenantPredicate with
  | none => spec
  | some tenantPredicate =>
      let filter := match spec.filter with
        | some callerFilter => callerFilter.andWith tenantPredicate
        | none => tenantPredicate
      { spec with filter := some filter }

end QuerySpec

/-! ## Writes -/

/-- `MutationSpec`. -/
inductive MutationSpec where
  | insert (collection : CollectionName) (rows : List Row)
  | update (collection : CollectionName) (filter : Option Filter) (changes : Row)
  | delete (collection : CollectionName) (filter : Option Filter)

/-- `stamp`: writes the discriminator into a row, over whatever it held there. -/
def stamp (row : Row) (target : ExecutionTarget) : Row :=
  match target.isolation with
  | .discriminator column value => row.with column (.string value)
  | .database => row
  | .schema _ => row

/-- `conjoin`: the caller's predicate and the tenant's. -/
def conjoin (caller : Option Filter) (tenant : Filter) : Filter :=
  match caller with
  | some filter => filter.andWith tenant
  | none => tenant

namespace MutationSpec

def collection : MutationSpec → CollectionName
  | insert collection _ => collection
  | update collection _ _ => collection
  | delete collection _ => collection

def operationName : MutationSpec → String
  | insert _ _ => "insert"
  | update _ _ _ => "update"
  | delete _ _ => "delete"

/-- `MutationSpec::for_target`.  An update is stamped as well as scoped: it must
not be able to move a row out of this tenant. -/
def forTarget (spec : MutationSpec) (target : ExecutionTarget) : MutationSpec :=
  match target.isolation.tenantPredicate with
  | none => spec
  | some tenantPredicate =>
      match spec with
      | insert collection rows => insert collection (rows.map (stamp · target))
      | update collection filter changes =>
          update collection (some (conjoin filter tenantPredicate)) (stamp changes target)
      | delete collection filter =>
          delete collection (some (conjoin filter tenantPredicate))

end MutationSpec

end SaasFabric
