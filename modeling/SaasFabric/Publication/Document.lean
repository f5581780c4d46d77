import SaasFabric.Library.Codec
import SaasFabric.Library.Revisions
import SaasFabric.Runtime.DataSource
import SaasFabric.Runtime.Tenant

/-!
# The documents of a publication

`fabric-runtime-publication`'s `document/`, `ids/`, `manifest.rs` and `errors.rs`.  The
producer declares the types of its documents itself and shares none with the reader;
what a reader's decoder makes of each is a map from one to the other.
-/

namespace SaasFabric
namespace Publication

/-- What a file holds. -/
abbrev Bytes := ByteArray

/-- `DocumentRevision`. -/
abbrev DocumentRevision := U64

/-- `CONTRACT_VERSION`. -/
def CONTRACT_VERSION : U32 := 3

/-- `DocumentKind`. -/
inductive DocumentKind where
  | tenants
  | dataSources
  | catalog
deriving DecidableEq, Repr

/-- `{document:?}`. -/
instance : ToString DocumentKind where
  toString
    | .tenants => "Tenants"
    | .dataSources => "DataSources"
    | .catalog => "Catalog"

/-! ## DataSources -/

/-- `ConnectionSelectorDocument`. -/
inductive ConnectionSelectorDocument where
  | default
  | named (name : ConnectionName)
  | secret (reference : String)
deriving DecidableEq

/-- `PlacementClassDocument`. -/
inductive PlacementClassDocument where
  | shared
  | dedicated
  | highAvailability
  | regulated
  | development
  | ephemeral
deriving DecidableEq

/-- `DataResidencyDocument`. -/
structure DataResidencyDocument where
  region : String
  jurisdiction : Option String
deriving DecidableEq

/-- `PoolSettingsDocument`. -/
structure PoolSettingsDocument where
  maxConnections : U32
  idleTimeoutSeconds : U64
  acquireTimeoutSeconds : U64
deriving DecidableEq

/-- `DataSourceCapabilitiesDocument`. -/
structure DataSourceCapabilitiesDocument where
  writable : Bool
  acceptsNewTenants : Bool
deriving DecidableEq

/-- `DataSourceDocument`. -/
structure DataSourceDocument where
  id : DataSourceId
  revision : BindingRevision
  connector : ConnectorId
  connection : ConnectionSelectorDocument
  placement : PlacementClassDocument
  residency : DataResidencyDocument
  pool : PoolSettingsDocument
  capabilities : DataSourceCapabilitiesDocument
  labels : BTreeMap String String
deriving DecidableEq

/-! ## Tenants -/

/-- `IsolationModelDocument`. -/
inductive IsolationModelDocument where
  | database
  | schema (schema : SchemaName)
  | discriminator (column : FieldName) (value : String)
deriving DecidableEq

/-- `TenantDataBindingDocument`. -/
structure TenantDataBindingDocument where
  dataSource : DataSourceId
  isolation : IsolationModelDocument
deriving DecidableEq

/-- `ConfigurationBindingDocument`. -/
structure ConfigurationBindingDocument where
  store : String
  profile : Option String
deriving DecidableEq

/-- `StorageBindingDocument`. -/
structure StorageBindingDocument where
  provider : String
  container : String
  pathPrefix : Option String
  credentials : Option String
deriving DecidableEq

/-- `TenantDataBindings`: a decoded one may be empty. -/
abbrev TenantDataBindings := BTreeMap LogicalDataSourceName TenantDataBindingDocument

/-- `TenantBindingDocument`. -/
structure TenantBindingDocument where
  tenant : TenantId
  revision : BindingRevision
  data : TenantDataBindings
  configuration : Option ConfigurationBindingDocument
  secrets : Option String
  features : BTreeMap String Bool
  storage : BTreeMap String StorageBindingDocument
deriving DecidableEq

/-! ## The catalogue -/

/-- `OperationKind`. -/
inductive OperationKind where
  | read
  | list
  | create
  | update
  | delete
deriving DecidableEq

/-- `ResourceDefinitionDocument`. -/
structure ResourceDefinitionDocument where
  dataSource : LogicalDataSourceName
  collection : CollectionName
  keyField : FieldName
  operations : List OperationKind
  queryableFields : List FieldName
deriving DecidableEq

/-- `CatalogDocument`. -/
abbrev CatalogDocument := BTreeMap LogicalResourceName ResourceDefinitionDocument

/-! ## As a reader decodes them -/

/-- The connection selector a reader decodes. -/
def ConnectionSelectorDocument.toRuntime : ConnectionSelectorDocument → ConnectionSelector
  | .default => .default
  | .named name => .named name
  | .secret reference => .secret ⟨reference⟩

/-- The placement class a reader decodes. -/
def PlacementClassDocument.toRuntime : PlacementClassDocument → Runtime.PlacementClass
  | .shared => .shared
  | .dedicated => .dedicated
  | .highAvailability => .highAvailability
  | .regulated => .regulated
  | .development => .development
  | .ephemeral => .ephemeral

/-- The DataSource a reader decodes. -/
def DataSourceDocument.toRuntime (document : DataSourceDocument) : Runtime.DataSource where
  id := document.id
  revision := document.revision
  connector := document.connector
  connection := document.connection.toRuntime
  placement := document.placement.toRuntime
  residency := ⟨document.residency.region, document.residency.jurisdiction⟩
  pool := ⟨document.pool.maxConnections, document.pool.idleTimeoutSeconds,
    document.pool.acquireTimeoutSeconds⟩
  capabilities := ⟨document.capabilities.writable, document.capabilities.acceptsNewTenants⟩
  labels := document.labels

/-- The isolation model a reader decodes. -/
def IsolationModelDocument.toRuntime : IsolationModelDocument → IsolationModel
  | .database => .database
  | .schema name => .schema name
  | .discriminator column value => .discriminator column value

/-- The data binding a reader decodes. -/
def TenantDataBindingDocument.toRuntime (binding : TenantDataBindingDocument) :
    Runtime.TenantDataBinding :=
  ⟨binding.dataSource, binding.isolation.toRuntime⟩

/-- The storage binding a reader decodes. -/
def StorageBindingDocument.toRuntime (binding : StorageBindingDocument) :
    Runtime.StorageBinding where
  provider := binding.provider
  container := binding.container
  pathPrefix := binding.pathPrefix
  credentials := binding.credentials.map SecretRef.mk

/-- The tenant binding a reader decodes. -/
def TenantBindingDocument.toRuntime (document : TenantBindingDocument) :
    Runtime.TenantRuntimeBinding where
  tenant := document.tenant
  revision := document.revision
  data := document.data.map fun _ binding => binding.toRuntime
  configuration := document.configuration.map fun binding => ⟨binding.store, binding.profile⟩
  secrets := document.secrets.map SecretRef.mk
  features := document.features
  storage := document.storage.map fun _ binding => binding.toRuntime

section Decoded

variable {document : TenantBindingDocument}

theorem TenantBindingDocument.validate_toRuntime :
    document.toRuntime.validate = .ok () ↔ document.data.isEmpty = false := by
  have hempty : document.toRuntime.data.isEmpty = document.data.isEmpty :=
    Bool.eq_iff_iff.mpr (Std.ExtTreeMap.isEmpty_iff.trans
      (Std.ExtTreeMap.map_eq_empty_iff.trans Std.ExtTreeMap.isEmpty_iff.symm))
  unfold Runtime.TenantRuntimeBinding.validate
  rw [hempty]
  cases document.data.isEmpty <;> simp only [Bool.false_eq_true, if_false, if_true, reduceCtorEq]

/-- A decoded binding names the DataSources that the document binds. -/
theorem TenantBindingDocument.names_toRuntime {dataSource : DataSourceId} :
    document.toRuntime.Names dataSource ↔
      ∃ entry ∈ document.data.toList, entry.2.dataSource = dataSource := by
  unfold Runtime.TenantRuntimeBinding.Names TenantBindingDocument.toRuntime
  simp only [Std.ExtTreeMap.getElem?_map, Option.map_eq_some_iff, Prod.exists,
    Std.ExtTreeMap.mem_toList_iff_getElem?_eq_some]
  constructor
  · rintro ⟨logical, _, ⟨binding, hbinding, rfl⟩, rfl⟩
    exact ⟨logical, binding, hbinding, rfl⟩
  · rintro ⟨logical, binding, hbinding, rfl⟩
    exact ⟨logical, _, ⟨binding, hbinding, rfl⟩, rfl⟩

end Decoded

end Publication
end SaasFabric
