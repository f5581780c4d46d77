import SaasFabric.DataApi.Authorization
import SaasFabric.DataApi.ListQuery

/-!
# The service

`fabric-data-api`'s `execution/` and the responses of `models/`: the steps every operation
takes, in their order.  An operation ends in a refusal or in one call to a connector with what
is to be made of its answer, so what the connector is asked is a value that can be looked at.
-/

namespace SaasFabric
namespace DataApi

open Publication (OperationKind)
open SaasFabric.Runtime (ResolutionView ResolvedDataSource)

/-! ## Connectors -/

/-- `QueryOutcome`. -/
structure QueryOutcome where
  rows : List Row
  totalCount : Option U64

/-- `MutationOutcome`. -/
structure MutationOutcome where
  affectedRows : U64
  returnedRows : List Row

/-- `DataConnector`: what a connector answers. -/
structure DataConnector where
  id : ConnectorId
  query : ExecutionTarget → QuerySpec → Except ConnectorError QueryOutcome
  mutate : ExecutionTarget → MutationSpec → Except ConnectorError MutationOutcome

/-- `ConnectorRegistry`. -/
structure ConnectorRegistry where
  connectors : BTreeMap ConnectorId DataConnector

/-- `ConnectorRegistry::get`. -/
def ConnectorRegistry.get (registry : ConnectorRegistry) (id : ConnectorId) :
    Except ConnectorError DataConnector :=
  match registry.connectors[id]? with
  | some connector => .ok connector
  | none => .error (.unknownConnector id)

/-! ## Fields -/

/-- `discriminator_column`. -/
def discriminatorColumn : IsolationModel → Option FieldName
  | .discriminator column _ => some column
  | .database | .schema _ => none

/-- `VisibleFields`. -/
structure VisibleFields where
  resource : ResourceDefinition
  discriminator : Option FieldName

/-- `VisibleFields::permits`: exactly the column's own spelling is hidden. -/
def VisibleFields.permits (visible : VisibleFields) (field : FieldName) : Bool :=
  visible.discriminator != some field && visible.resource.permitsField field

/-- `WritableFields`. -/
structure WritableFields where
  resource : ResourceDefinition
  discriminator : Option FieldName

/-- `WritableFields::names_discriminator`: under any casing. -/
def WritableFields.namesDiscriminator (writable : WritableFields) (field : FieldName) : Bool :=
  writable.discriminator.any fun column => Text.eqIgnoreAsciiCase column.value field.value

/-- `WritableFields::permits`. -/
def WritableFields.permits (writable : WritableFields) (field : FieldName) : Bool :=
  !writable.namesDiscriminator field && writable.resource.permitsField field

/-! ## Responses -/

/-- `RowResponse`: its fields, the names of which are written as they are spelled. -/
structure RowResponse where
  fields : BTreeMap FieldName Value
deriving DecidableEq

/-- `RowResponse::project`. -/
def RowResponse.project (row : Row) (visible : VisibleFields) : RowResponse :=
  ⟨row.fields.filter fun field _ => visible.permits field⟩

/-- The record of a read by key: the first row, if there is one. -/
def firstRow (visible : VisibleFields) (outcome : QueryOutcome) :
    Except DataApiError RowResponse :=
  match outcome.rows with
  | row :: _ => .ok (.project row visible)
  | [] => .error .notFound

/-- `PagingInfo`. -/
structure PagingInfo where
  limit : U32
  offset : U32
  returned : Nat
  hasMore : Bool
deriving DecidableEq

/-- `ListResponse`. -/
structure ListResponse where
  data : List RowResponse
  paging : PagingInfo
deriving DecidableEq

/-- `ListResponse::from_outcome`. -/
def ListResponse.fromOutcome (outcome : QueryOutcome) (visible : VisibleFields)
    (limit offset : U32) : ListResponse :=
  let hasMore := decide (limit.val < outcome.rows.length)
  let data := (outcome.rows.take limit.val).map (RowResponse.project · visible)
  { data, paging := { limit, offset, returned := data.length, hasMore } }

/-- `WriteResponse`. -/
structure WriteResponse where
  affected : U64
  data : List RowResponse
deriving DecidableEq

/-- `WriteResponse::from_outcome`. -/
def WriteResponse.fromOutcome (outcome : MutationOutcome) (visible : VisibleFields) :
    WriteResponse where
  affected := outcome.affectedRows
  data := outcome.returnedRows.map (RowResponse.project · visible)

/-! ## Rows -/

/-- A JSON object, its members in order. -/
abbrev JsonObject := List (String × Value)

/-- `key_filter`. -/
def keyFilter (resource : ResourceDefinition) (key : String) : Filter :=
  .compare resource.keyField .equal (.string key)

/-- `refuse_key_change`. -/
def refuseKeyChange (resource : ResourceDefinition) (changes : JsonObject) :
    Except DataApiError Unit :=
  if changes.any fun change => Text.eqIgnoreAsciiCase change.1 resource.keyField.value then
    .error (.badRequest (s!"the key field {resource.keyField} cannot be changed by PATCH; " ++
      "delete the record and create it again to give it a new key"))
  else
    .ok ()

/-- What one member of an object adds to a row. -/
def addMember (permits : FieldName → Bool) (row : Row) (member : String × Value) :
    Except DataApiError Row := do
  let (name, value) := member
  let field ← (Identifier.tryNew .fieldName name).mapError fun error =>
    .badRequest s!"invalid field name: {error}"
  if permits field then
    .ok (row.with field value)
  else
    .error (.badRequest s!"unknown field {field}")

/-- `to_row`. -/
def toRow (permits : FieldName → Bool) (object : JsonObject) : Except DataApiError Row :=
  object.foldlM (addMember permits) .new

/-! ## Write integrity -/

/-- `RowBudget`. -/
inductive RowBudget where
  | batch (rows : U64)
  | oneRecord

/-- `RowBudget::ceiling`. -/
def RowBudget.ceiling : RowBudget → U64
  | batch rows => rows
  | oneRecord => 1

/-- `u64::try_from(n).unwrap_or(u64::MAX)`. -/
def U64.ofLength (n : Nat) : U64 :=
  if h : n < 2 ^ 64 then ⟨n, h⟩ else ⟨2 ^ 64 - 1, SaasFabric.U64.max_lt⟩

/-- `ensure_consistent`. -/
def ensureConsistent (budget : RowBudget) (outcome : MutationOutcome) (connector : ConnectorId)
    (operation : OperationKind) : Except DataApiError Unit :=
  let affected := outcome.affectedRows
  let ceiling := budget.ceiling
  if ceiling < affected then
    .error (.connector (.malformedResponse connector
      s!"reported {affected} rows affected for a write of at most {ceiling}") operation)
  else match budget with
    | .batch sent => if affected < sent then .error (.partiallyApplied sent affected) else .ok ()
    | .oneRecord => .ok ()

/-! ## Preparation -/

/-- `DataApiService`, with the view of the published state that a request pins. -/
structure DataApiService where
  view : ResolutionView ResourceCatalog
  connectors : ConnectorRegistry
  authorization : DataAuthorization
  config : DataApiConfig

/-- `Prepared`. -/
structure Prepared where
  resource : ResourceDefinition
  resolved : ResolvedDataSource
  connector : DataConnector
  operation : OperationKind

namespace Prepared

variable (prepared : Prepared)

/-- The column the tenant of a prepared operation is told apart by, if it is by one. -/
def discriminator : Option FieldName := discriminatorColumn prepared.resolved.target.isolation

/-- `Prepared::visible_fields`. -/
def visibleFields : VisibleFields := ⟨prepared.resource, prepared.discriminator⟩

/-- `Prepared::writable_fields`. -/
def writableFields : WritableFields := ⟨prepared.resource, prepared.discriminator⟩

end Prepared

namespace DataApiService

variable (service : DataApiService)

/-- `DataApiService::pinned`: the catalogue entry, none where no catalogue is installed. -/
def pinned (name : LogicalResourceName) : Except DataApiError (Option ResourceDefinition) :=
  match service.view.catalogue with
  | none => .ok none
  | some catalogue => (catalogue.resolve name).map some

/-- `DataApiService::authorize`. -/
def authorize (caller : Caller) (operation : OperationKind) (name : LogicalResourceName)
    (key : Option String) : Except DataApiError Unit :=
  (service.authorization.decide caller operation name key).mapError fun
    | .denied _ => .forbidden name.value operation.asStr
    | .undecided failure => .authorizationUndecided failure

/-- `DataApiService::unavailable`. -/
def unavailable : DataApiError := .resolve .runtimeUnavailable

/-- What `prepare` does once the caller is known to be entitled to an answer. -/
def place (caller : Caller) (name : LogicalResourceName) (operation : OperationKind)
    (resource : Option ResourceDefinition) : Except DataApiError Prepared := do
  let resource ← resource.elim (.error unavailable) .ok
  if !resource.allows operation then
    .error (.operationNotAllowed name.value operation.asStr)
  else do
    let resolved ← (service.view.resolveDataSource caller.identity.tenant
      resource.dataSource).mapError .resolve
    if operation.isWrite && !resolved.dataSource.capabilities.writable then
      .error (.resourceIsReadOnly name.value)
    else do
      let connector ← (service.connectors.get resolved.target.connector).mapError
        (.connector · operation)
      .ok { resource, resolved, connector, operation }

/-- `DataApiService::prepare`. -/
def prepare (caller : Caller) (name : LogicalResourceName) (operation : OperationKind)
    (key : Option String) : Except DataApiError Prepared := do
  let resource ← service.pinned name
  service.authorize caller operation name key
  service.place caller name operation resource

end DataApiService

/-! ## Operations -/

/-- The predicate of a write, where it has one. -/
def predicateOf : MutationSpec → Option Filter
  | .insert _ _ => none
  | .update _ filter _ => filter
  | .delete _ filter => filter

/-- What a connector is asked. -/
inductive Call where
  | query (spec : QuerySpec)
  | mutate (spec : MutationSpec)

/-- The one call an operation makes, and what it makes of the answer. -/
inductive Dispatch (α : Type) where
  | query (connector : DataConnector) (target : ExecutionTarget) (spec : QuerySpec)
      (answer : Except ConnectorError QueryOutcome → Except DataApiError α)
  | mutate (connector : DataConnector) (target : ExecutionTarget) (spec : MutationSpec)
      (answer : Except ConnectorError MutationOutcome → Except DataApiError α)

namespace Dispatch

variable {α β : Type}

/-- What is asked. -/
def call : Dispatch α → Call
  | query _ _ spec _ => .query spec
  | mutate _ _ spec _ => .mutate spec

/-- Asks, and makes of the answer what is to be made of it. -/
def run : Dispatch α → Except DataApiError α
  | query connector target spec answer => answer (connector.query target spec)
  | mutate connector target spec answer => answer (connector.mutate target spec)

/-- Makes something else of the result. -/
def map (f : α → β) : Dispatch α → Dispatch β
  | query connector target spec answer =>
      query connector target spec fun outcome => (answer outcome).map f
  | mutate connector target spec answer =>
      mutate connector target spec fun outcome => (answer outcome).map f

@[simp] theorem call_map (f : α → β) (dispatch : Dispatch α) :
    (dispatch.map f).call = dispatch.call := by
  cases dispatch <;> rfl

@[simp] theorem run_map (f : α → β) (dispatch : Dispatch α) :
    (dispatch.map f).run = dispatch.run.map f := by
  cases dispatch <;> rfl

end Dispatch

/-- `execute_query`, and what follows it. -/
def executeQuery {α : Type} (prepared : Prepared) (spec : QuerySpec)
    (answer : QueryOutcome → Except DataApiError α) : Dispatch α :=
  let target := prepared.resolved.target
  .query prepared.connector target (spec.forTarget target) fun outcome => do
    let outcome ← outcome.mapError (.connector · prepared.operation)
    answer outcome

/-- `dispatch`. -/
def dispatch (prepared : Prepared) (spec : MutationSpec) (budget : RowBudget) :
    Dispatch WriteResponse :=
  let target := prepared.resolved.target
  .mutate prepared.connector target (spec.forTarget target) fun outcome => do
    let outcome ← outcome.mapError (.connector · prepared.operation)
    ensureConsistent budget outcome prepared.connector.id prepared.operation
    .ok (.fromOutcome outcome prepared.visibleFields)

/-- `u32::saturating_add(1)`. -/
def U32.saturatingSucc (n : U32) : U32 := if h : n.val + 1 < 2 ^ 32 then ⟨n.val + 1, h⟩ else n

namespace DataApiService

variable (service : DataApiService)

/-- `list`, after its preparation and with the fields a caller may name.  One row more than the
page is asked for, so whether there are more is known. -/
def listPrepared (permits : FieldName → Bool) (prepared : Prepared) (rawQuery : String) :
    Except DataApiError (Dispatch ListResponse) := do
  let query ← ListQuery.parse permits rawQuery
  enforceQuery query service.config
  let limit := service.config.effectiveLimit query.limit
  let offset := query.offset.getD 0
  let spec : QuerySpec :=
    { collection := prepared.resource.collection
      fields := prepared.resource.projection query.select
      filter := query.toFilter
      sort := query.sort
      limit := some (U32.saturatingSucc limit)
      offset := some offset }
  .ok (executeQuery prepared spec fun outcome =>
    .ok (.fromOutcome outcome prepared.visibleFields limit offset))

/-- `DataApiService::list`. -/
def list (caller : Caller) (name : LogicalResourceName) (rawQuery : String) :
    Except DataApiError (Dispatch ListResponse) := do
  let prepared ← service.prepare caller name .list none
  service.listPrepared prepared.resource.permitsField prepared rawQuery

/-- `DataApiService::read`. -/
def read (caller : Caller) (name : LogicalResourceName) (key : String) :
    Except DataApiError (Dispatch RowResponse) := do
  let prepared ← service.prepare caller name .read (some key)
  let spec : QuerySpec :=
    { collection := prepared.resource.collection
      fields := prepared.resource.projection []
      filter := some (keyFilter prepared.resource key)
      sort := []
      limit := some 1
      offset := none }
  .ok (executeQuery prepared spec (firstRow prepared.visibleFields))

/-- `create`, after its preparation and with the fields a caller may name. -/
def createPrepared (permits : FieldName → Bool) (prepared : Prepared) (rows : List JsonObject) :
    Except DataApiError (Dispatch WriteResponse) :=
  if rows.isEmpty then
    .error (.badRequest "no records to create")
  else do
    enforceBatchSize rows.length service.config
    let rows ← rows.mapM (toRow permits)
    let budget := RowBudget.batch (U64.ofLength rows.length)
    .ok (dispatch prepared (.insert prepared.resource.collection rows) budget)

/-- `DataApiService::create`. -/
def create (caller : Caller) (name : LogicalResourceName) (rows : List JsonObject) :
    Except DataApiError (Dispatch WriteResponse) := do
  let prepared ← service.prepare caller name .create none
  service.createPrepared prepared.writableFields.permits prepared rows

/-- `update`, after its preparation and with the fields a caller may name. -/
def updatePrepared (permits : FieldName → Bool) (prepared : Prepared) (key : String)
    (changes : JsonObject) : Except DataApiError (Dispatch WriteResponse) :=
  if changes.isEmpty then
    .error (.badRequest "no fields to update")
  else do
    refuseKeyChange prepared.resource changes
    let changes ← toRow permits changes
    .ok (dispatch prepared (.update prepared.resource.collection
      (some (keyFilter prepared.resource key)) changes) .oneRecord)

/-- `DataApiService::update`. -/
def update (caller : Caller) (name : LogicalResourceName) (key : String) (changes : JsonObject) :
    Except DataApiError (Dispatch WriteResponse) := do
  let prepared ← service.prepare caller name .update (some key)
  updatePrepared prepared.writableFields.permits prepared key changes

/-- `DataApiService::delete`. -/
def delete (caller : Caller) (name : LogicalResourceName) (key : String) :
    Except DataApiError (Dispatch WriteResponse) := do
  let prepared ← service.prepare caller name .delete (some key)
  .ok (dispatch prepared (.delete prepared.resource.collection
    (some (keyFilter prepared.resource key))) .oneRecord)

end DataApiService

/-! ## Requests -/

/-- A request, whichever of the five it is. -/
inductive Request where
  | list (rawQuery : String)
  | read (key : String)
  | create (rows : List JsonObject)
  | update (key : String) (changes : JsonObject)
  | delete (key : String)

namespace Request

/-- The operation a request is. -/
def operation : Request → OperationKind
  | list _ => .list
  | read _ => .read
  | create _ => .create
  | update _ _ => .update
  | delete _ => .delete

/-- The key of the record a request is about, if it is about one. -/
def key : Request → Option String
  | list _ => none
  | read key => some key
  | create _ => none
  | update key _ => some key
  | delete key => some key

end Request

/-- What a request is answered with when it succeeds. -/
inductive Answer where
  | list (response : ListResponse)
  | row (response : RowResponse)
  | written (response : WriteResponse)
deriving DecidableEq

/-- The rows an answer carries. -/
def Answer.rows : Answer → List RowResponse
  | list response => response.data
  | row response => [response]
  | written response => response.data

namespace DataApiService

variable (service : DataApiService)

/-- What the service asks a connector for a request, if it does not refuse it. -/
def plan (caller : Caller) (name : LogicalResourceName) :
    Request → Except DataApiError (Dispatch Answer)
  | .list rawQuery => (service.list caller name rawQuery).map (·.map .list)
  | .read key => (service.read caller name key).map (·.map .row)
  | .create rows => (service.create caller name rows).map (·.map .written)
  | .update key changes => (service.update caller name key changes).map (·.map .written)
  | .delete key => (service.delete caller name key).map (·.map .written)

/-- The answer to a request. -/
def respond (caller : Caller) (name : LogicalResourceName) (request : Request) :
    Except DataApiError Answer := do
  let dispatch ← service.plan caller name request
  dispatch.run

end DataApiService

end DataApi
end SaasFabric
