import SaasFabric.ClientModel.Authorization
import SaasFabric.Connector.Errors
import SaasFabric.Identity.Resolver
import SaasFabric.Runtime.Resolution

/-!
# Resources, limits and errors

`fabric-data-api`'s `catalog/`, `config.rs` and `errors/`: what a resource name stands for, what
a request may cost, and every way a request can end without a result.
-/

namespace SaasFabric

open Publication (OperationKind)

/-- `OperationKind::is_write`. -/
def Publication.OperationKind.isWrite : OperationKind → Bool
  | .create | .update | .delete => true
  | .read | .list => false

namespace DataApi

/-! ## Resources -/

/-- `ResourceDefinition`. -/
structure ResourceDefinition where
  dataSource : LogicalDataSourceName
  collection : CollectionName
  keyField : FieldName
  operations : List OperationKind
  queryableFields : List FieldName
deriving DecidableEq

namespace ResourceDefinition

variable (resource : ResourceDefinition)

/-- `ResourceDefinition::allows`. -/
def allows (operation : OperationKind) : Bool := resource.operations.contains operation

/-- `ResourceDefinition::permits_field`: no list at all restricts nothing. -/
def permitsField (field : FieldName) : Bool :=
  resource.queryableFields.isEmpty || resource.queryableFields.contains field

/-- `ResourceDefinition::projection`. -/
def projection (selected : List FieldName) : List FieldName :=
  if selected.isEmpty then resource.queryableFields else selected

theorem mem_queryableFields_of_permitsField {resource : ResourceDefinition} {field : FieldName}
    (hlisted : resource.queryableFields ≠ []) (h : resource.permitsField field = true) :
    field ∈ resource.queryableFields := by
  unfold permitsField at h
  simpa [hlisted] using h

end ResourceDefinition

/-! ## Errors -/

/-- `CheckFailure`: why the authorization service gave no decision. -/
inductive CheckFailure where
  | unavailable
  | internal
  | notConfigured
deriving DecidableEq

/-- `DataApiError`. -/
inductive DataApiError where
  | identity (error : Identity.IdentityError)
  | resolve (error : Runtime.ResolveError)
  | unknownResource (name : LogicalResourceName)
  | operationNotAllowed (resource operation : String)
  | resourceIsReadOnly (resource : String)
  | forbidden (resource operation : String)
  | authorizationUndecided (failure : CheckFailure)
  | badRequest (message : String)
  | notFound
  | partiallyApplied (requested applied : U64)
  | connector (error : ConnectorError) (operation : OperationKind)
deriving DecidableEq

/-! ## The catalogue -/

/-- `ResourceCatalog`. -/
structure ResourceCatalog where
  resources : BTreeMap LogicalResourceName ResourceDefinition

/-- `ResourceCatalog::resolve`. -/
def ResourceCatalog.resolve (catalogue : ResourceCatalog) (name : LogicalResourceName) :
    Except DataApiError ResourceDefinition :=
  match catalogue.resources[name]? with
  | some resource => .ok resource
  | none => .error (.unknownResource name)

/-! ## Limits -/

/-- `DataApiConfig`. -/
structure DataApiConfig where
  defaultLimit : U32
  maxLimit : U32
  maxFilters : U32
  maxSortFields : U32
  maxSelectFields : U32
  maxFilterDepth : U32
  maxMutationBatchSize : U32

/-- `DataApiConfig::effective_limit`. -/
def DataApiConfig.effectiveLimit (config : DataApiConfig) (requested : Option U32) : U32 :=
  match requested with
  | some limit => if config.maxLimit < limit then config.maxLimit else limit
  | none => config.defaultLimit

/-- `within`. -/
def within (what : String) (actual : Nat) (max : U32) : Except DataApiError Unit :=
  if max.val < actual then
    .error (.badRequest s!"too many {what}: at most {max} allowed")
  else
    .ok ()

/-- `enforce_batch_size`. -/
def enforceBatchSize (rows : Nat) (config : DataApiConfig) : Except DataApiError Unit :=
  within "records in one request" rows config.maxMutationBatchSize

mutual

/-- `depth`. -/
def depth : Filter → Nat
  | .and clauses => 1 + deepest clauses
  | .or clauses => 1 + deepest clauses
  | .not clause => 1 + depth clause
  | .compare _ _ _ => 1
  | .isNull _ => 1
  | .in _ _ => 1

/-- The greatest depth of any clause, nothing being none. -/
def deepest : List Filter → Nat
  | [] => 0
  | clause :: clauses => max (depth clause) (deepest clauses)

end

end DataApi
end SaasFabric
