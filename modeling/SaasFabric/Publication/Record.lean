import SaasFabric.Library.Sorted
import SaasFabric.Reader.Generation
import SaasFabric.Publication.Registry

/-!
# The publication record

`fabric-runtime-publication`'s `record.rs`, `manifest.rs`, `resource_history.rs` and
`rollback_floor.rs`: the record names the revision and the digest of each document, the
issuer registry, and the highest revision every resource was published at.
-/

namespace SaasFabric
namespace Publication

/-! ## Errors -/

/-- `PublicationError`; a cause is its text. -/
inductive PublicationError where
  | staleRevision (document : DocumentKind) (held offered : DocumentRevision)
  | divergentPayload (document : DocumentKind) (revision : DocumentRevision)
  | danglingDataSource (tenant : TenantId) (logical : LogicalDataSourceName)
      (dataSource : DataSourceId)
  | retiredDataSourceStillBound (dataSource : DataSourceId) (tenant : TenantId)
  | emptyingNotIntended (document : DocumentKind)
  | emptyCatalogue
  | emptyTenantData (tenant : TenantId)
  | heldPayloadLost (document : DocumentKind)
  | resourceRevisionNotAdvanced (document : DocumentKind) (resource : String)
      (held offered : BindingRevision)
  | tenantRemoved (tenant : TenantId) (held : BindingRevision)
  | catalogueEntryUnbound (resource : LogicalResourceName) (dataSource : LogicalDataSourceName)
  | belowRollbackFloor (floor publisher : U32)
  | registry (refusal : RegistryRefusal)
  | unreadable (document : DocumentKind) (cause : String)
  | unwritable (document : DocumentKind) (cause : String)
deriving DecidableEq

instance : ToString PublicationError where
  toString
    | .staleRevision document held offered =>
        s!"{document} is held at revision {held}, but an older revision {offered} was offered"
    | .divergentPayload document revision =>
        s!"{document} at revision {revision} was offered with different bytes than are held"
    | .danglingDataSource tenant logical dataSource =>
        s!"tenant {tenant}'s {logical} binding names data source {dataSource}, " ++
          "which this publication does not include"
    | .retiredDataSourceStillBound dataSource tenant =>
        s!"data source {dataSource} was dropped, " ++
          s!"but the held tenants document still binds it to tenant {tenant}"
    | .emptyingNotIntended document =>
        s!"{document} would become empty, and Emptying::Intended was not given for it"
    | .emptyCatalogue => "the catalogue document has no entries"
    | .emptyTenantData tenant =>
        s!"tenant {tenant}'s data map has no entries, and would be dropped on arrival"
    | .heldPayloadLost document =>
        s!"{document}'s manifest is held, but its payload is gone -- " ++
          "restore the payload file or remove the manifest before publishing again"
    | .resourceRevisionNotAdvanced document resource held offered =>
        s!"{document} resource {resource} was published at revision {held} " ++
          s!"and is offered at {offered} without advancing"
    | .tenantRemoved tenant held =>
        s!"tenant {tenant}, published at revision {held}, would be removed"
    | .catalogueEntryUnbound resource dataSource =>
        s!"catalogue resource {resource} is on {dataSource}, which no tenant binds"
    | .belowRollbackFloor floor publisher =>
        s!"the held publication record requires publisher contract {floor}; " ++
          s!"this publisher is {publisher}"
    | .registry refusal => toString refusal
    | .unreadable document cause => s!"{document} could not be read: {cause}"
    | .unwritable document cause => s!"{document} could not be written: {cause}"

/-! ## Manifests and the record -/

/-- `DocumentManifest`. -/
structure DocumentManifest where
  contractVersion : U32
  document : DocumentKind
  revision : DocumentRevision
deriving DecidableEq

/-- `DocumentManifest::new`. -/
def DocumentManifest.new (document : DocumentKind) (revision : DocumentRevision) :
    DocumentManifest :=
  ⟨CONTRACT_VERSION, document, revision⟩

/-- `RecordedDocument`. -/
structure RecordedDocument where
  revision : DocumentRevision
  sha256 : String
deriving DecidableEq

/-- `RecordedDocuments`. -/
structure RecordedDocuments where
  tenants : RecordedDocument
  dataSources : RecordedDocument
  catalog : RecordedDocument
deriving DecidableEq

/-- `ResourceHistory`. -/
structure ResourceHistory where
  tenants : BTreeMap TenantId BindingRevision
  dataSources : BTreeMap DataSourceId BindingRevision
deriving DecidableEq

namespace ResourceHistory

/-- `ResourceHistory::default`. -/
def empty : ResourceHistory := ⟨∅, ∅⟩

/-- `ResourceHistory::tenant`. -/
def tenant (history : ResourceHistory) (tenant : TenantId) : Option BindingRevision :=
  history.tenants[tenant]?

/-- `ResourceHistory::data_source`. -/
def dataSource (history : ResourceHistory) (dataSource : DataSourceId) :
    Option BindingRevision :=
  history.dataSources[dataSource]?

/-- `ResourceHistory::including`. -/
def including (history : ResourceHistory) (tenants : List TenantBindingDocument)
    (dataSources : List DataSourceDocument) : ResourceHistory where
  tenants := Library.raiseBy TenantBindingDocument.tenant TenantBindingDocument.revision
    history.tenants tenants
  dataSources := Library.raiseBy DataSourceDocument.id DataSourceDocument.revision
    history.dataSources dataSources

end ResourceHistory

/-- `MINIMUM_READER_CONTRACT`. -/
def MINIMUM_READER_CONTRACT : U32 := 1

/-- `PublicationRecord`. -/
structure PublicationRecord where
  contractVersion : U32
  minimumReaderContract : U32
  minimumPublisherContract : U32
  generation : U64
  documents : RecordedDocuments
  resources : ResourceHistory
  registry : Option RecordedRegistry
deriving DecidableEq

/-- `PublicationRecord::new`. -/
def PublicationRecord.new (generation : U64) (documents : RecordedDocuments)
    (resources : ResourceHistory) : PublicationRecord where
  contractVersion := CONTRACT_VERSION
  minimumReaderContract := MINIMUM_READER_CONTRACT
  minimumPublisherContract := CONTRACT_VERSION
  generation := generation
  documents := documents
  resources := resources
  registry := none

/-- `PublicationRecord::with_registry`. -/
def PublicationRecord.withRegistry (record : PublicationRecord)
    (registry : Option RecordedRegistry) : PublicationRecord :=
  { record with registry }

/-! ## Bytes -/

/-- The code a publisher is given and does not own: SHA-256, what serde writes and reads
of each document, the record's floor read on its own, and what serde makes of a resource
as a JSON value. -/
structure Codecs where
  sha256 : Bytes → Runtime.RecordDigest
  tenants : Library.Codec (List TenantBindingDocument)
  dataSources : Library.Codec (List DataSourceDocument)
  catalog : Library.Codec CatalogDocument
  manifest : Library.Codec DocumentManifest
  record : Library.Codec PublicationRecord
  registry : Library.Codec IssuerRegistryDocument
  readFloor : Bytes → Except String U32
  JsonValue : Type
  decEqJsonValue : DecidableEq JsonValue
  tenantValue : TenantBindingDocument → Except String JsonValue
  dataSourceValue : DataSourceDocument → Except String JsonValue

attribute [instance] Codecs.decEqJsonValue

/-- Every resource has a JSON value, of its own. -/
structure TellsApart {T V : Type} (toValue : T → Except String V) : Prop where
  total : ∀ resource, ∃ value, toValue resource = .ok value
  injective : Function.Injective toValue

/-- What is relied on: each codec reads back what it wrote, the floor read on its own is
the one in the record, and JSON values tell resources apart. -/
structure Codecs.Lawful (codecs : Codecs) : Prop where
  tenants : codecs.tenants.Faithful
  dataSources : codecs.dataSources.Faithful
  catalog : codecs.catalog.Faithful
  manifest : codecs.manifest.Faithful
  record : codecs.record.Faithful
  registry : codecs.registry.Faithful
  floor : ∀ record bytes, codecs.record.line record = .ok bytes →
    codecs.readFloor bytes = .ok record.minimumPublisherContract
  tenantValue : TellsApart codecs.tenantValue
  dataSourceValue : TellsApart codecs.dataSourceValue

variable (codecs : Codecs)

/-- `sha256_hex`. -/
def Codecs.sha256Hex (bytes : Bytes) : String := toString (codecs.sha256 bytes)

/-- `RecordedDocument::of`. -/
def RecordedDocument.of (revision : DocumentRevision) (bytes : Bytes) : RecordedDocument :=
  ⟨revision, codecs.sha256Hex bytes⟩

/-- Some documents, ordered by their key. -/
def sortedBy {T K : Type} [Ord K] (key : T → K) (documents : List T) : List T :=
  documents.mergeSort fun left right => (compare (key left) (key right)).isLE

/-- `tenants_canonical_json`. -/
def tenantsCanonicalJson (bindings : List TenantBindingDocument) : Except String Bytes :=
  codecs.tenants.line (sortedBy TenantBindingDocument.tenant bindings)

/-- `data_sources_canonical_json`. -/
def dataSourcesCanonicalJson (dataSources : List DataSourceDocument) : Except String Bytes :=
  codecs.dataSources.line (sortedBy DataSourceDocument.id dataSources)

/-- `check_publisher_floor`. -/
def checkPublisherFloor (bytes : Bytes) (publisher : U32) : Except PublicationError Unit := do
  let floor ← (codecs.readFloor bytes).mapError (.unreadable .tenants)
  if publisher < floor then .error (.belowRollbackFloor floor publisher) else .ok ()

/-- `PublicationRecord::parse_held`. -/
def PublicationRecord.parseHeld (bytes : Bytes) : Except PublicationError PublicationRecord := do
  checkPublisherFloor codecs bytes CONTRACT_VERSION
  (codecs.record.read bytes).mapError (.unreadable .tenants)

/-! ## What the bytes keep -/

theorem mem_sortedBy {T K : Type} [Ord K] {key : T → K} {documents : List T} {document : T} :
    document ∈ sortedBy key documents ↔ document ∈ documents :=
  (List.mergeSort_perm documents _).mem_iff

theorem nodup_map_sortedBy {T K : Type} [Ord K] {key : T → K} {documents : List T} :
    ((sortedBy key documents).map key).Nodup ↔ (documents.map key).Nodup :=
  ((List.mergeSort_perm documents _).map key).nodup_iff

/-- Documents with keys of their own come out in one order, however they were listed. -/
theorem sortedBy_eq_of_perm {T K : Type} [Ord K] [Std.TransOrd K] [Std.LawfulEqOrd K]
    {key : T → K} {documents others : List T} (hnodup : (documents.map key).Nodup)
    (hperm : documents.Perm others) : sortedBy key documents = sortedBy key others :=
  Library.sorted_eq_of_perm hnodup hperm

theorem length_sortedBy {T K : Type} [Ord K] {key : T → K} {documents : List T} :
    (sortedBy key documents).length = documents.length :=
  (List.mergeSort_perm documents _).length_eq

variable {codecs}

/-- A record that this publisher wrote is one it can hold. -/
theorem PublicationRecord.parseHeld_line (hlawful : codecs.Lawful) {record : PublicationRecord}
    (hcontract : record.minimumPublisherContract = CONTRACT_VERSION) {bytes : Bytes}
    (h : codecs.record.line record = .ok bytes) :
    PublicationRecord.parseHeld codecs bytes = .ok record := by
  have hfloor : codecs.readFloor bytes = .ok CONTRACT_VERSION := by
    rw [hlawful.floor record bytes h, hcontract]
  unfold PublicationRecord.parseHeld checkPublisherFloor
  rw [hfloor, hlawful.record.read_line h]
  rfl

end Publication
end SaasFabric
