import SaasFabric.Publication.Revisions

/-!
# The plan of a publication

`fabric-runtime-publication`'s `plan.rs`, `plan/`, `registry/plan.rs` and
`registry/generation_choice.rs`: what is held and what is offered decide, document by
document, what is written, and the record that would make it one generation.
-/

namespace SaasFabric
namespace Publication

/-! ## What is held -/

/-- `HeldDocument`. -/
structure HeldDocument where
  manifest : Option DocumentManifest
  payload : Option Bytes

/-- `HeldDocument::absent`. -/
def HeldDocument.absent : HeldDocument := ⟨none, none⟩

/-- `HeldDocument::held`. -/
def HeldDocument.held (document : HeldDocument) (recorded : Option DocumentRevision) :
    Option Held :=
  ((document.manifest.map DocumentManifest.revision).or recorded).map fun revision =>
    ⟨revision, document.payload⟩

/-- `HeldDocuments`. -/
structure HeldDocuments where
  tenants : HeldDocument
  dataSources : HeldDocument
  catalog : HeldDocument
  record : Option Bytes
  registry : Option Bytes

/-- `parse_documents`. -/
def parseDocuments {T : Type} (codec : Library.Codec (List T)) (payload : Option Bytes)
    (document : DocumentKind) : Except PublicationError (List T) :=
  match payload with
  | none => .ok []
  | some bytes => (codec.read bytes).mapError (.unreadable document)

/-- `parse_held_documents`. -/
def parseHeldDocuments {T : Type} (codec : Library.Codec (List T)) (held : HeldDocument)
    (document : DocumentKind) : Except PublicationError (List T) :=
  match held.manifest, held.payload with
  | some _, none => .error (.heldPayloadLost document)
  | _, payload => parseDocuments codec payload document

variable (codecs : Codecs)

/-- The record that is held, where one is. -/
def HeldDocuments.parseRecord (held : HeldDocuments) :
    Except PublicationError (Option PublicationRecord) :=
  match held.record with
  | none => .ok none
  | some bytes => some <$> PublicationRecord.parseHeld codecs bytes

/-- `HeldDocuments::resources`. -/
def HeldDocuments.resources (held : HeldDocuments) :
    Except PublicationError PublishedResources := do
  let record ← held.parseRecord codecs
  let tenants ← parseHeldDocuments codecs.tenants held.tenants .tenants
  let dataSources ← parseHeldDocuments codecs.dataSources held.dataSources .dataSources
  let history := ((record.map PublicationRecord.resources).getD ResourceHistory.empty).including
    tenants dataSources
  let catalog := held.catalog.payload.bind fun bytes => (codecs.catalog.read bytes).toOption
  .ok { tenants, dataSources, catalog, history }

/-- `PublishedRevisions`. -/
structure PublishedRevisions where
  tenants : Option DocumentRevision
  dataSources : Option DocumentRevision
  catalog : Option DocumentRevision
  registry : Option RegistryGeneration

/-- `HeldDocuments::revisions`. -/
def HeldDocuments.revisions (held : HeldDocuments) : PublishedRevisions :=
  let record := held.record.bind fun bytes => (PublicationRecord.parseHeld codecs bytes).toOption
  let revision (document : HeldDocument) (pick : RecordedDocuments → RecordedDocument) :=
    (document.manifest.map DocumentManifest.revision).or
      (record.map fun record => (pick record.documents).revision)
  { tenants := revision held.tenants RecordedDocuments.tenants
    dataSources := revision held.dataSources RecordedDocuments.dataSources
    catalog := revision held.catalog RecordedDocuments.catalog
    registry := (record.bind PublicationRecord.registry).map RecordedRegistry.generation }

/-! ## One document -/

/-- `DocumentOutcome`. -/
inductive DocumentOutcome where
  | written
  | unchanged
deriving DecidableEq

/-- `From<Verdict>`. -/
def Verdict.outcome : Verdict → DocumentOutcome
  | .write => .written
  | .unchanged => .unchanged

/-- `DocumentPlan`. -/
structure DocumentPlan where
  outcome : DocumentOutcome
  bytes : Bytes
  revision : DocumentRevision

/-- `decide`. -/
def decideDocument (document : DocumentKind) (held : Option Held) (revision : DocumentRevision)
    (bytes : Except String Bytes) : Except PublicationError DocumentPlan := do
  let bytes ← bytes.mapError (.unwritable document)
  let verdict ← verdict held ⟨document, revision, bytes⟩
  .ok { outcome := verdict.outcome, bytes, revision }

/-! ## The registry -/

/-- `RegistryPlan`. -/
structure RegistryPlan where
  outcome : DocumentOutcome
  document : IssuerRegistryDocument
  bytes : Bytes

/-- `RegistryPlan::recorded`. -/
def RegistryPlan.recorded (plan : RegistryPlan) : RecordedRegistry :=
  ⟨plan.document.generation, codecs.sha256Hex plan.bytes⟩

/-- `held_generation`. -/
def heldGeneration (held : Bytes) : Except PublicationError RegistryGeneration :=
  ((codecs.registry.read held).map IssuerRegistryDocument.generation).mapError
    (.unreadable .tenants)

/-- The generations of the registry that is held, where one is. -/
def heldGenerations (held : Option Bytes) :
    Except PublicationError (Option RegistryGeneration) :=
  match held with
  | none => .ok none
  | some held => some <$> heldGeneration codecs held

/-- `render`. -/
def render (generation : RegistryGeneration) (offered : List IssuerRegistration) :
    Except PublicationError (IssuerRegistryDocument × Bytes) := do
  let document ← (IssuerRegistryDocument.new generation offered).mapError .registry
  let bytes ← (codecs.registry.line document).mapError (.unwritable .tenants)
  .ok (document, bytes)

/-- A held registry that no record names yet. -/
def aheadOf (held committed : Option RegistryGeneration) : Option RegistryGeneration :=
  match held, committed with
  | some held, some committed => if committed < held then some held else none
  | held, none => held
  | none, some _ => none

/-- The recorded generation, where its registry is the one that is offered. -/
def keptRecorded (recorded : Option RecordedRegistry) (ahead : Option RegistryGeneration)
    (offered : List IssuerRegistration) :
    Except PublicationError (Option RegistryGeneration) :=
  match recorded, ahead with
  | some recorded, none => do
      let rendered ← render codecs recorded.generation offered
      .ok (if codecs.sha256Hex rendered.2 = recorded.sha256 then some recorded.generation
        else none)
  | _, _ => .ok none

/-- The held generation ahead of the record, where its registry is the one that is offered. -/
def keptAhead (ahead : Option RegistryGeneration) (held : Option Bytes)
    (offered : List IssuerRegistration) :
    Except PublicationError (Option RegistryGeneration) :=
  match ahead, held with
  | some generation, some held => do
      let rendered ← render codecs generation offered
      .ok (if rendered.2 = held then some generation else none)
  | _, _ => .ok none

/-- The generation after the highest there is. -/
def nextGeneration : Option RegistryGeneration → Except PublicationError RegistryGeneration
  | none => .ok RegistryGeneration.FIRST
  | some highest =>
      match highest.next with
      | some next => .ok next
      | none => .error (.registry (.generationExhausted highest))

/-- `generation_for`. -/
def generationFor (recorded : Option RecordedRegistry) (held : Option Bytes)
    (offered : List IssuerRegistration) : Except PublicationError RegistryGeneration := do
  let heldGeneration ← heldGenerations codecs held
  let committed := recorded.map RecordedRegistry.generation
  let ahead := aheadOf heldGeneration committed
  match ← keptRecorded codecs recorded ahead offered with
  | some generation => .ok generation
  | none =>
      match ← keptAhead codecs ahead held offered with
      | some generation => .ok generation
      | none => nextGeneration (Library.maxFloor heldGeneration committed)

/-- `registry::decide`. -/
def decideRegistry (recorded : Option RecordedRegistry) (held : Option Bytes)
    (snapshot : RuntimeSnapshot) : Except PublicationError (Option RegistryPlan) :=
  match snapshot.registry with
  | none =>
      match recorded with
      | some recorded => .error (.registry (.withdrawn recorded.generation))
      | none => .ok none
  | some offered =>
      let bound := snapshot.tenants.payload.map TenantBindingDocument.tenant
      match offered.find? fun registration => decide (registration.tenant ∉ bound) with
      | some unbound => .error (.registry (.tenantUnbound unbound.issuer unbound.tenant))
      | none => do
          let generation ← generationFor codecs recorded held offered
          let (document, bytes) ← render codecs generation offered
          let outcome := if held = some bytes then .unchanged else .written
          .ok (some { outcome, document, bytes })

/-! ## The record -/

/-- `RecordStamp`. -/
structure RecordStamp where
  generation : U64
  sha256 : Runtime.RecordDigest

/-- `RecordPlan`. -/
structure RecordPlan where
  outcome : DocumentOutcome
  record : PublicationRecord
  bytes : Bytes
  stamp : RecordStamp

/-- The record that is kept or written, and the bytes it is held as. -/
def chooseRecord (held : Option (PublicationRecord × Bytes)) (documents : RecordedDocuments)
    (resources : ResourceHistory) (registry : Option RecordedRegistry) :
    DocumentOutcome × PublicationRecord × Option Bytes :=
  match held with
  | some (held, heldBytes) =>
      if (PublicationRecord.new held.generation documents resources).withRegistry registry =
          held then
        (.unchanged, held, some heldBytes)
      else
        (.written, (PublicationRecord.new held.generation.saturatingSucc documents
          resources).withRegistry registry, none)
  | none => (.written, (PublicationRecord.new 1 documents resources).withRegistry registry, none)

/-- `record::decide`. -/
def decideRecord (held : Option (PublicationRecord × Bytes))
    (dataSources catalog tenants : DocumentPlan) (resources : ResourceHistory)
    (registry : Option RegistryPlan) : Except PublicationError RecordPlan := do
  let documents :=
    { tenants := RecordedDocument.of codecs tenants.revision tenants.bytes
      dataSources := RecordedDocument.of codecs dataSources.revision dataSources.bytes
      catalog := RecordedDocument.of codecs catalog.revision catalog.bytes }
  let (outcome, record, heldBytes) := chooseRecord held documents resources
    (registry.map (RegistryPlan.recorded codecs))
  let bytes ← (codecs.record.line record).mapError (.unwritable .tenants)
  .ok { outcome, record, bytes
        stamp := ⟨record.generation, codecs.sha256 (heldBytes.getD bytes)⟩ }

/-! ## The plan -/

/-- `PublicationPlan`. -/
structure PublicationPlan where
  dataSources : DocumentPlan
  catalog : DocumentPlan
  tenants : DocumentPlan
  registry : Option RegistryPlan
  record : RecordPlan

/-- `plan_publication`. -/
def planPublication (snapshot : RuntimeSnapshot) (held : HeldDocuments) :
    Except PublicationError PublicationPlan := do
  let heldRecord ← held.parseRecord codecs
  let published ← held.resources codecs
  validateSnapshot snapshot published.tenants published.dataSources
  let recorded := heldRecord.map PublicationRecord.documents
  let dataSources ← decideDocument .dataSources
    (held.dataSources.held (recorded.map fun documents => documents.dataSources.revision))
    snapshot.dataSources.revision
    (dataSourcesCanonicalJson codecs snapshot.dataSources.payload)
  let catalog ← decideDocument .catalog
    (held.catalog.held (recorded.map fun documents => documents.catalog.revision))
    snapshot.catalog.revision (codecs.catalog.line snapshot.catalog.payload)
  let tenants ← decideDocument .tenants
    (held.tenants.held (recorded.map fun documents => documents.tenants.revision))
    snapshot.tenants.revision (tenantsCanonicalJson codecs snapshot.tenants.payload)
  refuseResourceChanges codecs snapshot published
  let history := published.history.including snapshot.tenants.payload
    snapshot.dataSources.payload
  let registry ← decideRegistry codecs (heldRecord.bind PublicationRecord.registry)
    held.registry snapshot
  let heldRecord := heldRecord.bind fun record => held.record.map fun bytes => (record, bytes)
  let record ← decideRecord codecs heldRecord dataSources catalog tenants history registry
  .ok { dataSources, catalog, tenants, registry, record }

end Publication
end SaasFabric
