import SaasFabric.Publication.Completeness

/-!
# Diagnosing what is held

`fabric-runtime-publication`'s `held_recovery/`: what is held, and every reason it is not
clear, read without writing and without the plan's order of refusals.  No text quotes what
is held.
-/

namespace SaasFabric
namespace Publication
namespace HeldRecovery

/-! ## Reading -/

/-- What serde reads of bytes as a JSON value: an object, or something else. -/
inductive JsonShape where
  | object
  | other
deriving DecidableEq

/-- A publisher's codecs, with what serde reads of bytes as any JSON value, and the category
and position of one of its errors. -/
structure RecoveryCodecs extends Codecs where
  readValue : Bytes → Except String JsonShape
  sanitized : String → String

variable (codecs : RecoveryCodecs)

/-- `record_refusal`. -/
def recordRefusal : PublicationError → String
  | .unreadable _ cause => codecs.sanitized cause
  | .belowRollbackFloor floor publisher =>
      toString (PublicationError.belowRollbackFloor floor publisher)
  | _ => "unusable"

/-- `ManifestReading`. -/
inductive ManifestReading where
  | missing
  | malformed (detail : String)
  | conflicting (detail : String)
  | newer (manifest : DocumentManifest)
  | valid (manifest : DocumentManifest)
deriving DecidableEq

/-- `read_manifest`: bytes that are no object are malformed, and an object that is not this
document's supported manifest is in conflict. -/
def readManifest (bytes : Option Bytes) (document : DocumentKind) : ManifestReading :=
  match bytes with
  | none => .missing
  | some bytes =>
      match codecs.readValue bytes with
      | .ok .other => .malformed "not a JSON object"
      | .error cause => .malformed (codecs.sanitized cause)
      | .ok .object =>
          match codecs.manifest.read bytes with
          | .error cause => .conflicting s!"unsupported manifest: {codecs.sanitized cause}"
          | .ok manifest =>
              if manifest.document ≠ document then
                .conflicting s!"the manifest describes {manifest.document}, not {document}"
              else if CONTRACT_VERSION < manifest.contractVersion then
                .newer manifest
              else
                .valid manifest

/-- `Parsed`. -/
inductive Parsed where
  | tenants (tenants : List TenantBindingDocument)
  | dataSources (dataSources : List DataSourceDocument)
  | catalog

/-- `parse_payload`. -/
def parsePayload (bytes : Bytes) : DocumentKind → Except String Parsed
  | .tenants => ((codecs.tenants.read bytes).map .tenants).mapError codecs.sanitized
  | .dataSources => ((codecs.dataSources.read bytes).map .dataSources).mapError codecs.sanitized
  | .catalog => .ok .catalog

/-- What a payload blocks a publication with, beside a manifest. -/
def blockingPayload (document : DocumentKind) (manifest : ManifestReading)
    (payload : Option Bytes) : Option String :=
  match payload with
  | none =>
      if manifest ≠ .missing ∧ document ≠ .catalog then
        some "held payload lost: the manifest is held but the payload is gone"
      else
        none
  | some bytes =>
      match parsePayload codecs bytes document with
      | .ok _ => none
      | .error detail => some s!"unreadable payload: {detail}"

/-- `blocking`. -/
def blocking (document : DocumentKind) (held : ObservedDocument) : Option String :=
  match readManifest codecs held.manifest document with
  | .malformed detail => some s!"unreadable manifest: {detail}"
  | .conflicting detail => some s!"conflicting manifest: {detail}"
  | manifest => blockingPayload codecs document manifest held.payload

/-! ## The parts -/

/-- `Part`. -/
inductive Part where
  | observation
  | record
  | tenants
  | dataSources
  | catalog
  | issuerRegistry
deriving DecidableEq

/-- `From<DocumentKind>`. -/
def Part.ofDocument : DocumentKind → Part
  | .tenants => .tenants
  | .dataSources => .dataSources
  | .catalog => .catalog

/-- `ProblemKind`. -/
inductive ProblemKind where
  | unstable
  | blocksPublication
  | mismatch
  | unusable
deriving DecidableEq

/-- `Problem`. -/
structure Problem where
  part : Part
  kind : ProblemKind
  detail : String
deriving DecidableEq

/-- `RecordState`. -/
inductive RecordState where
  | absent
  | held (generation : U64) (sha256 : String)
  | unusable (detail sha256 : String)

/-- `ManifestState`. -/
inductive ManifestState where
  | absent
  | held (revision : DocumentRevision)
  | newer (revision : DocumentRevision) (contractVersion : U32)
  | malformed (detail : String)
  | conflicting (detail : String)

/-- `DocumentDiagnosis`. -/
structure DocumentDiagnosis where
  manifest : ManifestState
  payloadSha256 : Option String
  recorded : Option RecordedDocument
  matchesRecord : Option Bool

/-- `RegistryDiagnosis`. -/
structure RegistryDiagnosis where
  recorded : Option RecordedRegistry
  heldSha256 : Option String
  heldGeneration : Option U64

/-- `HeldDiagnosis`. -/
structure HeldDiagnosis where
  stable : Bool
  record : RecordState
  tenants : DocumentDiagnosis
  dataSources : DocumentDiagnosis
  catalog : DocumentDiagnosis
  issuerRegistry : RegistryDiagnosis
  problems : List Problem
  clear : Bool

/-- `record_state`. -/
def recordState (bytes : Option Bytes) : RecordState × Option PublicationRecord :=
  match bytes with
  | none => (.absent, none)
  | some bytes =>
      match PublicationRecord.parseHeld codecs.toCodecs bytes with
      | .ok record => (.held record.generation (codecs.sha256Hex bytes), some record)
      | .error error => (.unusable (recordRefusal codecs error) (codecs.sha256Hex bytes), none)

/-- The state a manifest is reported in. -/
def ManifestReading.state : ManifestReading → ManifestState
  | .missing => .absent
  | .valid manifest => .held manifest.revision
  | .newer manifest => .newer manifest.revision manifest.contractVersion
  | .malformed detail => .malformed detail
  | .conflicting detail => .conflicting detail

/-- `document`. -/
def document (kind : DocumentKind) (held : ObservedDocument) (recorded : Option RecordedDocument) :
    DocumentDiagnosis :=
  let payloadSha256 := held.payload.map codecs.sha256Hex
  { manifest := (readManifest codecs held.manifest kind).state
    payloadSha256
    recorded
    matchesRecord := recorded.map fun recorded => payloadSha256 == some recorded.sha256 }

/-! ## What the resources mean -/

/-- `repeats`: the first place of each key that comes again, and the place it comes at. -/
def repeatsFrom {K : Type} [DecidableEq K] (first : List (K × Nat)) (index : Nat) :
    List K → List (Nat × Nat)
  | [] => []
  | key :: rest =>
      match first.lookup key with
      | some earlier => (earlier, index) :: repeatsFrom first (index + 1) rest
      | none => repeatsFrom ((key, index) :: first) (index + 1) rest

/-- `repeats`. -/
def repeats {K : Type} [DecidableEq K] (keys : List K) : List (Nat × Nat) := repeatsFrom [] 0 keys

/-- The places of the elements with some property. -/
def positions {T : Type} (elements : List T) (wrong : T → Bool) : List Nat :=
  (elements.zipIdx.filter fun element => wrong element.1).map Prod.snd

/-- `tenant_problems`. -/
def tenantProblems (tenants : List TenantBindingDocument) : List String :=
  ((repeats (tenants.map TenantBindingDocument.tenant)).map fun (earlier, index) =>
      s!"tenant at position {index} is bound more than once (first at {earlier})") ++
    (positions tenants fun tenant => tenant.data.isEmpty).map fun index =>
      s!"tenant at position {index} has no data binding"

/-- `data_source_problems`. -/
def dataSourceProblems (dataSources : List DataSourceDocument) : List String :=
  (repeats (dataSources.map DataSourceDocument.id)).map fun (earlier, index) =>
    s!"data source at position {index} is declared more than once (first at {earlier})"

/-- `dangling`. -/
def dangling (tenants : List TenantBindingDocument) (dataSources : List DataSourceDocument) :
    List String :=
  let declared := dataSources.map DataSourceDocument.id
  (positions tenants fun tenant =>
      tenant.data.toList.any fun entry => decide (entry.2.dataSource ∉ declared)).map fun index =>
    s!"tenant at position {index} binds a data source that is not declared"

/-- What dangles, where both documents can be read. -/
def danglingOf (tenants : Option (List TenantBindingDocument))
    (dataSources : Option (List DataSourceDocument)) : List String :=
  match tenants, dataSources with
  | some tenants, some dataSources => dangling tenants dataSources
  | _, _ => []

/-- The issuers of tenants that are not bound, where the tenants can be read. -/
def unboundProblems (issuers : List IssuerRegistration)
    (tenants : Option (List TenantBindingDocument)) : List String :=
  match tenants with
  | none => []
  | some tenants =>
      let bound := tenants.map TenantBindingDocument.tenant
      (positions issuers fun registration => decide (registration.tenant ∉ bound)).map
        fun index => s!"issuer at position {index} is registered to a tenant that is not bound"

/-- What is wrong with a registry that was read. -/
def issuerProblems (registry : IssuerRegistryDocument) (recorded : RecordedRegistry)
    (tenants : Option (List TenantBindingDocument)) : List String :=
  (if registry.schemaVersion ≠ REGISTRY_SCHEMA_VERSION then
      [s!"the issuer registry is schema {registry.schemaVersion}, not {REGISTRY_SCHEMA_VERSION}"]
    else []) ++
  (if registry.generation ≠ recorded.generation then
      ["the issuer registry's generation is not the recorded one"]
    else []) ++
  ((repeats (registry.issuers.map IssuerRegistration.issuer)).map fun (earlier, index) =>
      s!"issuer at position {index} is registered more than once (first at {earlier})") ++
  unboundProblems registry.issuers tenants

/-- `registry_problems`. -/
def registryProblems (bytes : Option Bytes) (recorded : RecordedRegistry)
    (tenants : Option (List TenantBindingDocument)) : List String :=
  match bytes with
  | none => ["the record names an issuer registry, but none is held"]
  | some bytes =>
      if codecs.sha256Hex bytes ≠ recorded.sha256 then
        ["the held issuer registry is not the bytes the record names"]
      else
        match codecs.registry.read bytes with
        | .error cause => [s!"the issuer registry does not parse: {codecs.sanitized cause}"]
        | .ok registry => issuerProblems registry recorded tenants

/-- `parsed_tenants`. -/
def parsedTenants (observation : TargetObservation) : Option (List TenantBindingDocument) :=
  observation.tenants.payload.bind fun bytes =>
    match parsePayload codecs bytes .tenants with
    | .ok (.tenants tenants) => some tenants
    | _ => none

/-- `parsed_data_sources`. -/
def parsedDataSources (observation : TargetObservation) : Option (List DataSourceDocument) :=
  observation.dataSources.payload.bind fun bytes =>
    match parsePayload codecs bytes .dataSources with
    | .ok (.dataSources dataSources) => some dataSources
    | _ => none

/-- `resource_problems`. -/
def resourceProblems (observation : TargetObservation)
    (recordedRegistry : Option RecordedRegistry) : List Problem :=
  let heldTenants := parsedTenants codecs observation
  let heldDataSources := parsedDataSources codecs observation
  ((heldTenants.map tenantProblems).getD []).map (⟨.tenants, .unusable, ·⟩) ++
    ((heldDataSources.map dataSourceProblems).getD []).map (⟨.dataSources, .unusable, ·⟩) ++
    (danglingOf heldTenants heldDataSources).map (⟨.tenants, .unusable, ·⟩) ++
    ((recordedRegistry.map fun recorded =>
      registryProblems codecs observation.registry recorded heldTenants).getD []).map
        (⟨.issuerRegistry, .unusable, ·⟩)

/-! ## The diagnosis -/

/-- `HeldObservation`. -/
structure HeldObservation where
  observation : TargetObservation
  stable : Bool

/-- The problem of a manifest at another revision than the record's. -/
def revisionProblems (kind : DocumentKind) (manifest : ManifestState)
    (recorded : Option RecordedDocument) : List Problem :=
  match manifest, recorded with
  | .held revision, some recorded =>
      if revision ≠ recorded.revision then
        [⟨.ofDocument kind, .mismatch,
          s!"the manifest states revision {revision}, the record {recorded.revision}"⟩]
      else []
  | _, _ => []

/-- The problems of one document. -/
def documentProblems (kind : DocumentKind) (held : ObservedDocument)
    (recorded : Option RecordedDocument) : List Problem :=
  let diagnosis := document codecs kind held recorded
  ((blocking codecs kind held).toList.map (⟨.ofDocument kind, .blocksPublication, ·⟩)) ++
    (if diagnosis.matchesRecord = some false then
        [⟨.ofDocument kind, .mismatch, "the held payload is not the bytes the record names"⟩]
      else []) ++
    revisionProblems kind diagnosis.manifest recorded

/-- The problem of a record that cannot be used. -/
def RecordState.problems : RecordState → List Problem
  | .unusable detail _ => [⟨.record, .blocksPublication, detail⟩]
  | _ => []

/-- `diagnose`. -/
def diagnose (held : HeldObservation) : HeldDiagnosis :=
  let observation := held.observation
  let (record, parsed) := recordState codecs observation.record
  let documents := parsed.map PublicationRecord.documents
  let recordedRegistry := parsed.bind PublicationRecord.registry
  let problems :=
    (if held.stable then [] else
      [⟨.observation, .unstable, "the record changed while the target was read; inspect again"⟩]) ++
    record.problems ++
    documentProblems codecs .tenants observation.tenants (documents.map (·.tenants)) ++
    documentProblems codecs .dataSources observation.dataSources
      (documents.map (·.dataSources)) ++
    documentProblems codecs .catalog observation.catalog (documents.map (·.catalog)) ++
    resourceProblems codecs observation recordedRegistry
  { stable := held.stable
    record
    tenants := document codecs .tenants observation.tenants (documents.map (·.tenants))
    dataSources := document codecs .dataSources observation.dataSources
      (documents.map (·.dataSources))
    catalog := document codecs .catalog observation.catalog (documents.map (·.catalog))
    issuerRegistry :=
      { recorded := recordedRegistry
        heldSha256 := observation.registry.map codecs.sha256Hex
        heldGeneration := (observation.registry.bind fun bytes =>
          (codecs.registry.read bytes).toOption).map fun registry => registry.generation.val }
    problems
    clear := problems.isEmpty }

end HeldRecovery
end Publication
end SaasFabric
