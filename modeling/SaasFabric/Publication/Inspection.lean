import SaasFabric.Library.Json
import SaasFabric.Publication.Completeness
import SaasFabric.Publication.Serving

/-!
# What inspection and a reader make of one record

A publication record is parsed twice: by an inspection of the target, as `PublicationRecord`,
and by every reader, as `ReaderRecord`.  Both are derived, one refuses what it does not know
and one ignores it, and each of them can be written as an array as well.
-/

namespace SaasFabric
namespace Publication

open Library (Json Shape)
open Library.Json (fields required defaulted optional text)

/-! ## What is derived -/

/-- A record's text. -/
abbrev RecordJson := Json Number

/-- `u64`, as serde reads it. -/
def readU64 : RecordJson → Option U64
  | .number (.posInt n) => some n
  | _ => none

/-- `u32`, as serde reads it. -/
def readU32 : RecordJson → Option U32
  | .number (.posInt n) => if h : n.val < 2 ^ 32 then some ⟨n.val, h⟩ else none
  | _ => none

/-- `RegistryGeneration`, as serde reads it. -/
def RegistryGeneration.ofJson (json : RecordJson) : Option RegistryGeneration :=
  (readU64 json).bind fun generation => if h : 0 < generation then some ⟨generation, h⟩ else none

/-- A `BTreeMap` of identifiers, as serde reads it: of a repeated key the last value stays. -/
def readMap {V : Type} (kind : IdentifierKind) (read : RecordJson → Option V) :
    RecordJson → Option (BTreeMap (Identifier kind) V)
  | .object members =>
      members.foldlM (fun map member => do
        let key ← (Identifier.tryNew kind member.1).toOption
        let value ← read member.2
        some (map.insert key value)) ∅
  | _ => none

def recordedDocumentShape : Shape := ⟨["revision", "sha256"], true⟩

/-- `RecordedDocument`, as serde reads it. -/
def RecordedDocument.ofJson (json : RecordJson) : Option RecordedDocument := do
  let taken ← fields recordedDocumentShape json
  let revision ← required taken "revision" readU64
  let sha256 ← required taken "sha256" text
  some { revision, sha256 }

def recordedDocumentsShape : Shape := ⟨["tenants", "data-sources", "catalog"], true⟩

/-- `RecordedDocuments`, as serde reads it. -/
def RecordedDocuments.ofJson (json : RecordJson) : Option RecordedDocuments := do
  let taken ← fields recordedDocumentsShape json
  let tenants ← required taken "tenants" RecordedDocument.ofJson
  let dataSources ← required taken "data-sources" RecordedDocument.ofJson
  let catalog ← required taken "catalog" RecordedDocument.ofJson
  some { tenants, dataSources, catalog }

def resourceHistoryShape : Shape := ⟨["tenants", "data-sources"], true⟩

/-- `ResourceHistory`, as serde reads it. -/
def ResourceHistory.ofJson (json : RecordJson) : Option ResourceHistory := do
  let taken ← fields resourceHistoryShape json
  let tenants ← required taken "tenants" (readMap .tenantId readU64)
  let dataSources ← required taken "data-sources" (readMap .dataSourceId readU64)
  some { tenants, dataSources }

def recordedRegistryShape : Shape := ⟨["generation", "sha256"], true⟩

/-- `RecordedRegistry`, as serde reads it. -/
def RecordedRegistry.ofJson (json : RecordJson) : Option RecordedRegistry := do
  let taken ← fields recordedRegistryShape json
  let generation ← required taken "generation" RegistryGeneration.ofJson
  let sha256 ← required taken "sha256" text
  some { generation, sha256 }

def publicationRecordShape : Shape where
  fields := ["contract_version", "minimum_reader_contract", "minimum_publisher_contract",
    "generation", "documents", "resources", "registry"]
  closed := true

/-- `PublicationRecord`, as serde reads it. -/
def PublicationRecord.ofJson (json : RecordJson) : Option PublicationRecord := do
  let taken ← fields publicationRecordShape json
  let contractVersion ← required taken "contract_version" readU32
  let minimumReaderContract ← required taken "minimum_reader_contract" readU32
  let minimumPublisherContract ← required taken "minimum_publisher_contract" readU32
  let generation ← required taken "generation" readU64
  let documents ← required taken "documents" RecordedDocuments.ofJson
  let resources ← defaulted taken "resources" ResourceHistory.ofJson ResourceHistory.empty
  let registry ← defaulted taken "registry" (optional RecordedRegistry.ofJson) none
  some { contractVersion, minimumReaderContract, minimumPublisherContract, generation, documents,
         resources, registry }

def readerDocumentShape : Shape := ⟨["sha256"], false⟩

/-- `ReaderDocument`, as serde reads it. -/
def readerDocument (json : RecordJson) : Option Reader.ReaderDocument := do
  let taken ← fields readerDocumentShape json
  let sha256 ← required taken "sha256" text
  some { sha256 }

def readerDocumentsShape : Shape := ⟨["tenants", "data-sources", "catalog"], false⟩

/-- `ReaderDocuments`, as serde reads it. -/
def readerDocuments (json : RecordJson) : Option Reader.ReaderDocuments := do
  let taken ← fields readerDocumentsShape json
  let tenants ← required taken "tenants" readerDocument
  let dataSources ← required taken "data-sources" readerDocument
  let catalog ← required taken "catalog" readerDocument
  some { tenants, dataSources, catalog }

def readerRecordShape : Shape := ⟨["minimum_reader_contract", "generation", "documents"], false⟩

/-- `ReaderRecord`, as serde reads it. -/
def readerRecord (json : RecordJson) : Option Reader.ReaderRecord := do
  let taken ← fields readerRecordShape json
  let minimumReaderContract ← required taken "minimum_reader_contract" readU32
  let generation ← required taken "generation" readU64
  let documents ← required taken "documents" readerDocuments
  some { minimumReaderContract, generation, documents }

/-! ## One record, read twice -/

theorem RecordedDocument.ofJson_eq_some {json : RecordJson} {recorded : RecordedDocument} :
    RecordedDocument.ofJson json = some recorded ↔
      ∃ taken, fields recordedDocumentShape json = some taken ∧
        required taken "revision" readU64 = some recorded.revision ∧
          required taken "sha256" text = some recorded.sha256 := by
  simp only [RecordedDocument.ofJson, Option.bind_eq_bind, Option.bind_eq_some_iff,
    Option.some.injEq]
  constructor
  · rintro ⟨taken, htaken, revision, hrevision, sha256, hsha256, rfl⟩
    exact ⟨taken, htaken, hrevision, hsha256⟩
  · rintro ⟨taken, htaken, hrevision, hsha256⟩
    exact ⟨taken, htaken, _, hrevision, _, hsha256, rfl⟩

theorem RecordedDocuments.ofJson_eq_some {json : RecordJson} {recorded : RecordedDocuments} :
    RecordedDocuments.ofJson json = some recorded ↔
      ∃ taken, fields recordedDocumentsShape json = some taken ∧
        required taken "tenants" RecordedDocument.ofJson = some recorded.tenants ∧
          required taken "data-sources" RecordedDocument.ofJson = some recorded.dataSources ∧
            required taken "catalog" RecordedDocument.ofJson = some recorded.catalog := by
  simp only [RecordedDocuments.ofJson, Option.bind_eq_bind, Option.bind_eq_some_iff,
    Option.some.injEq]
  constructor
  · rintro ⟨taken, htaken, tenants, htenants, dataSources, hdataSources, catalog, hcatalog, rfl⟩
    exact ⟨taken, htaken, htenants, hdataSources, hcatalog⟩
  · rintro ⟨taken, htaken, htenants, hdataSources, hcatalog⟩
    exact ⟨taken, htaken, _, htenants, _, hdataSources, _, hcatalog, rfl⟩

/-- What inspection takes from a record, of what a reader takes too. -/
theorem PublicationRecord.ofJson_eq_some {json : RecordJson} {record : PublicationRecord}
    (h : PublicationRecord.ofJson json = some record) :
    ∃ taken, fields publicationRecordShape json = some taken ∧
      required taken "minimum_reader_contract" readU32 = some record.minimumReaderContract ∧
        required taken "generation" readU64 = some record.generation ∧
          required taken "documents" RecordedDocuments.ofJson = some record.documents := by
  simp only [PublicationRecord.ofJson, Option.bind_eq_bind, Option.bind_eq_some_iff,
    Option.some.injEq] at h
  obtain ⟨taken, htaken, _, -, _, hreader, _, -, _, hgeneration, _, hdocuments, _, -, _, -, rfl⟩ := h
  exact ⟨taken, htaken, hreader, hgeneration, hdocuments⟩

theorem readerDocuments_eq_some {json : RecordJson} {documents : Reader.ReaderDocuments} :
    readerDocuments json = some documents ↔
      ∃ taken, fields readerDocumentsShape json = some taken ∧
        required taken "tenants" readerDocument = some documents.tenants ∧
          required taken "data-sources" readerDocument = some documents.dataSources ∧
            required taken "catalog" readerDocument = some documents.catalog := by
  simp only [readerDocuments, Option.bind_eq_bind, Option.bind_eq_some_iff, Option.some.injEq]
  constructor
  · rintro ⟨taken, htaken, tenants, htenants, dataSources, hdataSources, catalog, hcatalog, rfl⟩
    exact ⟨taken, htaken, htenants, hdataSources, hcatalog⟩
  · rintro ⟨taken, htaken, htenants, hdataSources, hcatalog⟩
    exact ⟨taken, htaken, _, htenants, _, hdataSources, _, hcatalog, rfl⟩

theorem readerRecord_eq_some {json : RecordJson} {record : Reader.ReaderRecord} :
    readerRecord json = some record ↔ ∃ taken, fields readerRecordShape json = some taken ∧
      required taken "minimum_reader_contract" readU32 = some record.minimumReaderContract ∧
        required taken "generation" readU64 = some record.generation ∧
          required taken "documents" readerDocuments = some record.documents := by
  simp only [readerRecord, Option.bind_eq_bind, Option.bind_eq_some_iff, Option.some.injEq]
  constructor
  · rintro ⟨taken, htaken, contract, hcontract, generation, hgeneration, documents, hdocuments, rfl⟩
    exact ⟨taken, htaken, hcontract, hgeneration, hdocuments⟩
  · rintro ⟨taken, htaken, hcontract, hgeneration, hdocuments⟩
    exact ⟨taken, htaken, _, hcontract, _, hgeneration, _, hdocuments, rfl⟩

theorem readerDocument_eq_some {json : RecordJson} {document : Reader.ReaderDocument} :
    readerDocument json = some document ↔ ∃ taken, fields readerDocumentShape json = some taken ∧
      required taken "sha256" text = some document.sha256 := by
  simp only [readerDocument, Option.bind_eq_bind, Option.bind_eq_some_iff, Option.some.injEq]
  constructor
  · rintro ⟨taken, htaken, sha256, hsha256, rfl⟩
    exact ⟨taken, htaken, hsha256⟩
  · rintro ⟨taken, htaken, hsha256⟩
    exact ⟨taken, htaken, _, hsha256, rfl⟩

/-- What is recorded of a document is read by a reader exactly where it is written as an
object, and as the same digest. -/
theorem readerDocument_iff {json : RecordJson} {recorded : RecordedDocument}
    (h : RecordedDocument.ofJson json = some recorded) {document : Reader.ReaderDocument} :
    readerDocument json = some document ↔ json.IsObject ∧ document = ⟨recorded.sha256⟩ := by
  obtain ⟨taken, htaken, hrevision, hsha256⟩ := RecordedDocument.ofJson_eq_some.mp h
  rw [readerDocument_eq_some]
  cases json with
  | object members =>
      obtain ⟨fewer, hfewer, hlookup⟩ :=
        @Json.fields_of_subset _ readerDocumentShape _ _ _ (by decide) rfl htaken
      have hsame : required fewer "sha256" text = some recorded.sha256 := by
        unfold required
        rw [hlookup "sha256" (by decide)]
        exact hsha256
      rw [hfewer]
      constructor
      · rintro ⟨_, ⟨⟩, hdocument⟩
        rw [hsame, Option.some.injEq] at hdocument
        exact ⟨⟨members, rfl⟩, congrArg Reader.ReaderDocument.mk hdocument.symm⟩
      · rintro ⟨-, rfl⟩
        exact ⟨fewer, rfl, hsame⟩
  | array items =>
      -- The second item is the recorded digest, and a reader has no second field.
      obtain ⟨found, hfound, -⟩ := Json.required_eq_some.mp hsha256
      have htwo : 1 < items.length :=
        Json.lt_of_lookup_fields htaken (by decide) 1 rfl hfound
      constructor
      · rintro ⟨fewer, hfewer, -⟩
        have hone : items.length ≤ 1 := (Json.fields_array_eq_some.mp hfewer).1
        omega
      · rintro ⟨⟨members, hmembers⟩, -⟩
        cases hmembers
  | null | bool | number | string => cases htaken

/-- What a record says of each document is written as an object. -/
def DocumentsInObjects (json : RecordJson) : Prop :=
  ∀ name ∈ recordedDocumentsShape.fields, ∀ document,
    json.field recordedDocumentsShape name = some document → document.IsObject

/-- A record is written as an object, and so is what it says of each document. -/
def WrittenInObjects (json : RecordJson) : Prop :=
  json.IsObject ∧ ∀ documents, json.field publicationRecordShape "documents" = some documents →
    DocumentsInObjects documents

/-- A field that inspection reads is read by a reader, where it is written as an object. -/
theorem required_readerDocument_iff {taken fewer : List (String × RecordJson)} {name : String}
    {recorded : RecordedDocument} (hlookup : fewer.lookup name = taken.lookup name)
    (h : required taken name RecordedDocument.ofJson = some recorded)
    {document : Reader.ReaderDocument} :
    required fewer name readerDocument = some document ↔
      (∀ json, taken.lookup name = some json → json.IsObject) ∧ document = ⟨recorded.sha256⟩ := by
  obtain ⟨json, hjson, hrecorded⟩ := Json.required_eq_some.mp h
  rw [Json.required_eq_some, hlookup, hjson]
  simp only [Option.some.injEq, exists_eq_left', forall_eq', readerDocument_iff hrecorded]

theorem readerDocuments_iff {json : RecordJson} {recorded : RecordedDocuments}
    (h : RecordedDocuments.ofJson json = some recorded) {documents : Reader.ReaderDocuments} :
    readerDocuments json = some documents ↔ DocumentsInObjects json ∧
      documents = ⟨⟨recorded.tenants.sha256⟩, ⟨recorded.dataSources.sha256⟩,
        ⟨recorded.catalog.sha256⟩⟩ := by
  obtain ⟨taken, htaken, htenants, hdataSources, hcatalog⟩ :=
    RecordedDocuments.ofJson_eq_some.mp h
  -- As an array the two are one shape, and as an object a reader finds the same members.
  obtain ⟨fewer, hfewer, hlookup⟩ : ∃ fewer, fields readerDocumentsShape json = some fewer ∧
      ∀ name ∈ recordedDocumentsShape.fields, fewer.lookup name = taken.lookup name := by
    cases json with
    | object members =>
        exact @Json.fields_of_subset _ readerDocumentsShape recordedDocumentsShape _ _
          (List.Subset.refl _) rfl htaken
    | array items => exact ⟨taken, htaken, fun _ _ => rfl⟩
    | null | bool | number | string => cases htaken
  have hobjects : DocumentsInObjects json ↔
      (∀ found, taken.lookup "tenants" = some found → found.IsObject) ∧
        (∀ found, taken.lookup "data-sources" = some found → found.IsObject) ∧
          ∀ found, taken.lookup "catalog" = some found → found.IsObject := by
    unfold DocumentsInObjects
    simp only [Json.field_of_fields htaken]
    simp only [recordedDocumentsShape, List.forall_mem_cons, List.not_mem_nil, false_implies,
      implies_true, and_true]
  rw [readerDocuments_eq_some, hfewer, hobjects]
  simp only [Option.some.injEq, exists_eq_left',
    required_readerDocument_iff (hlookup "tenants" (by decide)) htenants,
    required_readerDocument_iff (hlookup "data-sources" (by decide)) hdataSources,
    required_readerDocument_iff (hlookup "catalog" (by decide)) hcatalog]
  obtain ⟨tenants, dataSources, catalog⟩ := documents
  simp only [Reader.ReaderDocuments.mk.injEq]
  tauto

/-- A record that inspection parses is parsed by a reader exactly where it is written in
objects, and as what a reader takes from it. -/
theorem readerRecord_iff {json : RecordJson} {record : PublicationRecord}
    (h : PublicationRecord.ofJson json = some record) {parsed : Reader.ReaderRecord} :
    readerRecord json = some parsed ↔ WrittenInObjects json ∧ parsed = record.toReader := by
  obtain ⟨taken, htaken, hcontract, hgeneration, hdocuments⟩ := PublicationRecord.ofJson_eq_some h
  obtain ⟨documents, hfound, hrecorded⟩ := Json.required_eq_some.mp hdocuments
  rw [readerRecord_eq_some]
  cases json with
  | object members =>
      obtain ⟨fewer, hfewer, hlookup⟩ :=
        @Json.fields_of_subset _ readerRecordShape _ _ _ (by decide) rfl htaken
      have hobjects : WrittenInObjects (.object members) ↔ DocumentsInObjects documents := by
        unfold WrittenInObjects
        rw [Json.field_of_fields htaken, hfound]
        simp only [Json.IsObject, Json.object.injEq, exists_eq', true_and, Option.some.injEq,
          forall_eq']
      rw [hfewer, hobjects]
      simp only [Option.some.injEq, exists_eq_left', required,
        hlookup "minimum_reader_contract" (by decide), hlookup "generation" (by decide),
        hlookup "documents" (by decide), hfound, Option.bind_some, readerDocuments_iff hrecorded]
      unfold required at hcontract hgeneration
      rw [hcontract, hgeneration]
      obtain ⟨contract, generation, named⟩ := parsed
      simp only [Option.some.injEq, PublicationRecord.toReader, Reader.ReaderRecord.mk.injEq]
      tauto
  | array items =>
      -- The documents are the fifth item, and a reader takes three.
      have hfive : 4 < items.length := Json.lt_of_lookup_fields htaken (by decide) 4 rfl hfound
      constructor
      · rintro ⟨fewer, hfewer, -⟩
        have hthree : items.length ≤ 3 := (Json.fields_array_eq_some.mp hfewer).1
        omega
      · rintro ⟨⟨⟨members, hmembers⟩, -⟩, -⟩
        cases hmembers
  | null | bool | number | string => cases htaken

/-! ## One target, judged twice -/

/-- Inspection and a reader digest alike, and read what serde makes of a record's text.  Bytes
that are no JSON text are no record to inspection. -/
structure ReadsRecords {Catalogue : Type} (parse : Bytes → Option RecordJson) (codecs : Codecs)
    (reader : Reader.Codecs Catalogue) : Prop where
  sha256 : reader.sha256 = codecs.sha256
  inspected : ∀ bytes record, codecs.record.read bytes = .ok record ↔
    (parse bytes).bind PublicationRecord.ofJson = some record
  read : ∀ bytes json, parse bytes = some json → ∀ record,
    reader.readRecord bytes = .ok record ↔ readerRecord json = some record

/-- A target holds a record and the payloads of the three documents. -/
structure Target.HoldsPayloads (observation : TargetObservation)
    (record dataSources tenants catalog : Bytes) : Prop where
  record : observation.record = some record
  dataSources : observation.dataSources.payload = some dataSources
  tenants : observation.tenants.payload = some tenants
  catalog : observation.catalog.payload = some catalog

/-- A gap that a reader does not see: of a manifest, or of the issuer registry. -/
def CompletenessGap.Unread (gap : CompletenessGap) : Prop :=
  gap.part = .issuerRegistry ∨ gap.kind = .manifestMissing ∨ gap.kind = .manifestUnreadable ∨
    gap.kind = .revisionMismatch

section Judged

variable {Catalogue : Type} {parse : Bytes → Option RecordJson} {codecs : Codecs}
  {reader : Reader.Codecs Catalogue}

theorem manifestGap_kind {kind : DocumentKind} {manifest : Option Bytes}
    {recorded : RecordedDocument} {gap : GapKind}
    (h : manifestGap codecs kind manifest recorded = some gap) :
    gap = .manifestMissing ∨ gap = .manifestUnreadable ∨ gap = .revisionMismatch := by
  unfold manifestGap at h
  split at h
  · cases h
    exact Or.inl rfl
  · cases h
    exact Or.inr (Or.inl rfl)
  · split at h
    · cases h
      exact Or.inr (Or.inr rfl)
    · cases h

/-- Where a document's payload is the recorded one, only its manifest can be a gap. -/
theorem unread_documentGaps {kind : DocumentKind} {observed : ObservedDocument}
    {recorded : RecordedDocument} {bytes : Bytes} (hpayload : observed.payload = some bytes)
    (hdigest : codecs.sha256Hex bytes = recorded.sha256) :
    ∀ gap ∈ documentGaps codecs kind observed recorded, gap.Unread := by
  intro gap hgap
  unfold documentGaps at hgap
  rw [payloadGap_eq_nil.mpr ⟨bytes, hpayload, hdigest⟩, List.append_nil] at hgap
  obtain ⟨found, hfound, rfl⟩ := List.mem_map.mp hgap
  exact Or.inr (manifestGap_kind (Option.mem_toList.mp hfound))

theorem unread_registryGaps {registry : Option Bytes} {recorded : Option RecordedRegistry} :
    ∀ gap ∈ registryGaps codecs registry recorded, gap.Unread := by
  intro gap hgap
  cases recorded with
  | none => cases hgap
  | some named =>
      rcases mem_payloadGap.mp hgap with ⟨-, rfl⟩ | ⟨bytes, -, -, rfl⟩ <;> exact Or.inl rfl

/-- A document without a gap has the recorded payload. -/
theorem payload_of_documentGaps {kind : DocumentKind} {observed : ObservedDocument}
    {recorded : RecordedDocument} (h : documentGaps codecs kind observed recorded = []) :
    ∃ bytes, observed.payload = some bytes ∧ codecs.sha256Hex bytes = recorded.sha256 :=
  payloadGap_eq_nil.mp (List.append_eq_nil_iff.mp h).2

theorem documentGaps_eq_nil {kind : DocumentKind} {observed : ObservedDocument}
    {recorded : RecordedDocument} {bytes : Bytes}
    (hmanifest : manifestGap codecs kind observed.manifest recorded = none)
    (hpayload : observed.payload = some bytes)
    (hdigest : codecs.sha256Hex bytes = recorded.sha256) :
    documentGaps codecs kind observed recorded = [] := by
  unfold documentGaps
  rw [hmanifest, payloadGap_eq_nil.mpr ⟨bytes, hpayload, hdigest⟩]
  rfl

/-- What is assessed of a target whose record did not change. -/
theorem assess_of_read {observation : TargetObservation} {bytes : Bytes}
    {record : PublicationRecord} (hrecord : observation.record = some bytes)
    (hread : codecs.record.read bytes = .ok record) :
    assess codecs observation observation.record =
      if (recordGaps codecs observation record).isEmpty then
        .complete ⟨record.generation, codecs.sha256 bytes⟩
      else
        .incomplete ⟨record.generation, codecs.sha256 bytes⟩
          (recordGaps codecs observation record) := by
  unfold assess
  rw [if_neg (not_not.mpr rfl), hrecord]
  dsimp only
  rw [hread]

/-- A target that is complete has a record, and every payload it names. -/
theorem holdsPayloads_of_complete {observation : TargetObservation} {stamp : RecordStamp}
    (h : assess codecs observation observation.record = .complete stamp) :
    ∃ bytes record dataSources tenants catalog,
      observation.HoldsPayloads bytes dataSources tenants catalog ∧
        codecs.record.read bytes = .ok record ∧
          stamp = ⟨record.generation, codecs.sha256 bytes⟩ ∧
            codecs.sha256Hex dataSources = record.documents.dataSources.sha256 ∧
              codecs.sha256Hex tenants = record.documents.tenants.sha256 ∧
                codecs.sha256Hex catalog = record.documents.catalog.sha256 := by
  cases hrecord : observation.record with
  | none =>
      unfold assess at h
      rw [if_neg (not_not.mpr rfl), hrecord] at h
      cases h
  | some bytes =>
      cases hread : codecs.record.read bytes with
      | error cause =>
          unfold assess at h
          rw [if_neg (not_not.mpr rfl), hrecord] at h
          dsimp only at h
          rw [hread] at h
          cases h
      | ok record =>
          rw [assess_of_read hrecord hread] at h
          split at h
          · rename_i hempty
            cases h
            have hgaps := List.isEmpty_iff.mp hempty
            unfold recordGaps at hgaps
            simp only [List.append_eq_nil_iff] at hgaps
            obtain ⟨⟨⟨htenants, hdataSources⟩, hcatalog⟩, -⟩ := hgaps
            obtain ⟨tenants, htenantsHeld, htenantsDigest⟩ := payload_of_documentGaps htenants
            obtain ⟨dataSources, hdataSourcesHeld, hdataSourcesDigest⟩ :=
              payload_of_documentGaps hdataSources
            obtain ⟨catalog, hcatalogHeld, hcatalogDigest⟩ := payload_of_documentGaps hcatalog
            exact ⟨bytes, record, dataSources, tenants, catalog,
              ⟨hrecord, hdataSourcesHeld, htenantsHeld, hcatalogHeld⟩, hread, rfl,
              hdataSourcesDigest, htenantsDigest, hcatalogDigest⟩
          · cases h

/-- Where the payloads of a record are held, no gap is one that a reader sees. -/
theorem unread_recordGaps {observation : TargetObservation} {record : PublicationRecord}
    {bytes dataSources tenants catalog : Bytes}
    (hholds : observation.HoldsPayloads bytes dataSources tenants catalog)
    (hdataSources : codecs.sha256Hex dataSources = record.documents.dataSources.sha256)
    (htenants : codecs.sha256Hex tenants = record.documents.tenants.sha256)
    (hcatalog : codecs.sha256Hex catalog = record.documents.catalog.sha256) :
    ∀ gap ∈ recordGaps codecs observation record, gap.Unread := by
  intro gap hgap
  unfold recordGaps at hgap
  simp only [List.mem_append] at hgap
  rcases hgap with ((h | h) | h) | h
  · exact unread_documentGaps hholds.tenants htenants gap h
  · exact unread_documentGaps hholds.dataSources hdataSources gap h
  · exact unread_documentGaps hholds.catalog hcatalog gap h
  · exact unread_registryGaps gap h

/-- Inspection and readers agree about completeness.  A complete target is complete to every
reader its record admits, at the same generation and digest, where the record is written in
objects; what is complete to a reader is complete to inspection but for what no reader reads. -/
theorem inspection_agrees_with_readers (hreads : ReadsRecords parse codecs reader)
    (observation : TargetObservation) :
    (∀ stamp, assess codecs observation observation.record = .complete stamp →
      ∃ bytes dataSources tenants catalog json record,
        observation.HoldsPayloads bytes dataSources tenants catalog ∧
          parse bytes = some json ∧ PublicationRecord.ofJson json = some record ∧
            (record.minimumReaderContract ≤ Reader.READER_CONTRACT → ∀ origin,
              (∃ complete, Reader.CompleteGeneration.verify reader bytes dataSources tenants
                  catalog origin = .ok complete ∧ complete.generation = stamp.generation ∧
                    complete.recordDigest = stamp.sha256) ↔ WrittenInObjects json)) ∧
      ∀ bytes dataSources tenants catalog,
        observation.HoldsPayloads bytes dataSources tenants catalog →
          ∀ origin complete, Reader.CompleteGeneration.verify reader bytes dataSources tenants
              catalog origin = .ok complete →
            ∀ record, codecs.record.read bytes = .ok record →
              assess codecs observation observation.record =
                  .complete ⟨complete.generation, complete.recordDigest⟩ ∨
                ∃ gaps, assess codecs observation observation.record =
                    .incomplete ⟨complete.generation, complete.recordDigest⟩ gaps ∧
                  ∀ gap ∈ gaps, gap.Unread := by
  have hhex : reader.sha256Hex = codecs.sha256Hex := by
    funext bytes
    unfold Reader.Codecs.sha256Hex Codecs.sha256Hex
    rw [hreads.sha256]
  constructor
  · intro stamp hcomplete
    obtain ⟨bytes, record, dataSources, tenants, catalog, hholds, hread, rfl, hdataSources,
      htenants, hcatalog⟩ := holdsPayloads_of_complete hcomplete
    obtain ⟨json, hjson, hrecord⟩ := Option.bind_eq_some_iff.mp
      ((hreads.inspected bytes record).mp hread)
    refine ⟨bytes, dataSources, tenants, catalog, json, record, hholds, hjson, hrecord,
      fun hcontract origin => ⟨?_, fun hobjects => ?_⟩⟩
    -- A reader takes the record as one of objects, the array form is none to it.
    · rintro ⟨complete, hverify, -, -⟩
      obtain ⟨hsame, -⟩ := Reader.CompleteGeneration.verify_eq_ok reader hverify
      -- The digests that a reader checks are those of the record that inspection reads.
      obtain ⟨parsed, hnames⟩ := complete.named
      rw [hsame] at hnames
      exact ((readerRecord_iff hrecord).mp ((hreads.read bytes json hjson parsed).mp
        hnames.reads)).1
    · have hparsed : reader.readRecord bytes = .ok record.toReader :=
        (hreads.read bytes json hjson _).mpr ((readerRecord_iff hrecord).mpr ⟨hobjects, rfl⟩)
      have hnames : Reader.Names reader bytes record.generation dataSources tenants catalog
          record.toReader :=
        ⟨hparsed, hcontract, rfl, hhex ▸ hcatalog, hhex ▸ hdataSources, hhex ▸ htenants⟩
      let complete : Reader.CompleteGeneration reader :=
        ⟨bytes, record.generation, dataSources, tenants, catalog, _, hnames⟩
      have hdigest : complete.recordDigest = codecs.sha256 bytes := by
        show reader.sha256 bytes = codecs.sha256 bytes
        rw [hreads.sha256]
      exact ⟨complete, Reader.CompleteGeneration.verify_self reader complete origin, rfl, hdigest⟩
  · intro bytes dataSources tenants catalog hholds origin complete hverify record hread
    obtain ⟨hbytes, hdataSources, htenants, hcatalog⟩ :=
      Reader.CompleteGeneration.verify_eq_ok reader hverify
    obtain ⟨parsed, hnames⟩ := complete.named
    rw [hbytes, hdataSources, htenants, hcatalog] at hnames
    obtain ⟨json, hjson, hrecord⟩ := Option.bind_eq_some_iff.mp
      ((hreads.inspected bytes record).mp hread)
    obtain ⟨-, rfl⟩ := (readerRecord_iff hrecord).mp
      ((hreads.read bytes json hjson parsed).mp hnames.reads)
    have hstamp : (⟨record.generation, codecs.sha256 bytes⟩ : RecordStamp) =
        ⟨complete.generation, complete.recordDigest⟩ := by
      unfold Reader.CompleteGeneration.recordDigest
      rw [hbytes, hreads.sha256, ← hnames.generation]
      rfl
    rw [assess_of_read hholds.record hread, hstamp]
    split
    · exact Or.inl rfl
    · exact Or.inr ⟨_, rfl, unread_recordGaps hholds (hhex ▸ hnames.dataSources)
        (hhex ▸ hnames.tenants) (hhex ▸ hnames.catalog)⟩

end Judged

/-! ## A record in objects, and one that is an array -/

/-- What is recorded of a document at revision 1. -/
def recordedJson (digest : Runtime.RecordDigest) : RecordJson :=
  .object [("revision", .number (.posInt 1)), ("sha256", .string (toString digest))]

/-- What is recorded of the orders. -/
def ordersJson : RecordJson :=
  .object [("tenants", recordedJson emptyDigest), ("data-sources", recordedJson emptyDigest),
    ("catalog", recordedJson ordersDigest)]

/-- The first record of the orders, in objects. -/
def objectJson : RecordJson :=
  .object [("contract_version", .number (.posInt 3)),
    ("minimum_reader_contract", .number (.posInt 1)),
    ("minimum_publisher_contract", .number (.posInt 3)), ("generation", .number (.posInt 1)),
    ("documents", ordersJson),
    ("resources", .object [("tenants", .object []), ("data-sources", .object [])])]

/-- The same record as an array, which leaves out what has a default. -/
def arrayJson : RecordJson :=
  .array [.number (.posInt 3), .number (.posInt 1), .number (.posInt 3), .number (.posInt 1),
    ordersJson]

/-- What is recorded of a document, on no line of its own. -/
def recordedText (digest : Runtime.RecordDigest) : String :=
  "\x7b\"revision\":1,\"sha256\":\"" ++ toString digest ++ "\"\x7d"

/-- The array, as it is written. -/
def arrayText : String :=
  "[3,1,3,1,\x7b\"tenants\":" ++ recordedText emptyDigest ++ ",\"data-sources\":" ++
    recordedText emptyDigest ++ ",\"catalog\":" ++ recordedText ordersDigest ++ "\x7d]"

/-- What the two records parse as. -/
def parseRecords : Bytes → Option RecordJson :=
  Library.tabled [(bareRecordText "1" "1" ordersDigest ++ "\n", some objectJson),
    (arrayText ++ "\n", some arrayJson)] none

/-- Codecs that read what serde makes of the two records. -/
noncomputable def inspectedCodecs : Codecs :=
  { bareSamples.codecs with
    sha256 := Library.tabled ((arrayText ++ "\n",
      ⟨0x62a2f44695262b798c27fe4e052b7aae69b11f6d7b4b216101c81142345fd2ef⟩) ::
        bareSamples.digests) ⟨0⟩
    record := ⟨bareSamples.codecs.record.write, fun bytes =>
      match (parseRecords bytes).bind PublicationRecord.ofJson with
      | some record => .ok record
      | none => .error "no record"⟩ }

/-- A reader's codecs, for the two records. -/
noncomputable def readingCodecs : Reader.Codecs CatalogDocument :=
  { inspectedCodecs.reader with
    readRecord := fun bytes =>
      match (parseRecords bytes).bind readerRecord with
      | some record => .ok record
      | none => .error "no record" }

theorem readingCodecs_readRecord (bytes : Bytes) : readingCodecs.readRecord bytes =
    match (parseRecords bytes).bind readerRecord with
    | some record => .ok record
    | none => .error "no record" := rfl

theorem readsRecords : ReadsRecords parseRecords inspectedCodecs readingCodecs where
  sha256 := rfl
  inspected bytes record := by
    show (match (parseRecords bytes).bind PublicationRecord.ofJson with
      | some record => Except.ok record
      | none => .error "no record") = .ok record ↔ _
    cases (parseRecords bytes).bind PublicationRecord.ofJson <;> simp
  read bytes json hjson record := by
    rw [readingCodecs_readRecord, hjson, Option.bind_some]
    cases readerRecord json <;> simp

/-- The orders as they are first published, with some record. -/
def ordersTarget (record : Bytes) : Target where
  tenants := ⟨some (lineOf (manifestText "tenants" "1")), some (lineOf "[]")⟩
  dataSources := ⟨some (lineOf (manifestText "data-sources" "1")), some (lineOf "[]")⟩
  catalog := ⟨some (lineOf (manifestText "catalog" "1")), some (lineOf ordersText)⟩
  record := some record
  registry := none

/-- Both records are read as one. -/
theorem ofJson_orders : PublicationRecord.ofJson objectJson = some (bareRecord 1 1 ordersDigest) ∧
    PublicationRecord.ofJson arrayJson = some (bareRecord 1 1 ordersDigest) := by
  constructor <;> rfl

theorem parseRecords_orders : parseRecords (lineOf (bareRecordText "1" "1" ordersDigest)) =
    some objectJson ∧ parseRecords (lineOf arrayText) = some arrayJson := by
  unfold parseRecords Library.tabled
  constructor
  · rw [List.find?_cons_of_pos (by decide +kernel)]
  · rw [List.find?_cons_of_neg (by decide +kernel), List.find?_cons_of_pos (by decide +kernel)]

theorem read_orders {bytes : Bytes} {json : RecordJson} (hparse : parseRecords bytes = some json)
    (hjson : PublicationRecord.ofJson json = some (bareRecord 1 1 ordersDigest)) :
    inspectedCodecs.record.read bytes = .ok (bareRecord 1 1 ordersDigest) := by
  refine (readsRecords.inspected bytes _).mpr ?_
  rw [hparse]
  exact hjson

/-- With either record the target is complete. -/
theorem complete_ordersTarget {bytes : Bytes}
    (hread : inspectedCodecs.record.read bytes = .ok (bareRecord 1 1 ordersDigest)) :
    assess inspectedCodecs (ordersTarget bytes) (ordersTarget bytes).record =
      .complete ⟨1, inspectedCodecs.sha256 bytes⟩ := by
  have hmanifest : ∀ {manifest : DocumentManifest} {text : String},
      (manifest, text.toUTF8) ∈ firstManifests.entries → ∀ recorded : RecordedDocument,
        recorded.revision = manifest.revision →
          manifestGap inspectedCodecs manifest.document (some (lineOf text)) recorded = none := by
    intro manifest text hmem recorded hrevision
    have hok : inspectedCodecs.manifest.read (lineOf text) = .ok manifest :=
      firstManifests.faithful_codec.read_line (Sample.line_of_mem hmem)
    unfold manifestGap
    simp only [Option.map_some, hok, Except.toOption, Option.filter, decide_true, if_true,
      hrevision, ne_eq, not_true_eq_false, if_false]
  have hempty : inspectedCodecs.sha256 (lineOf "[]") = emptyDigest := by decide +kernel
  have horders : inspectedCodecs.sha256 (lineOf ordersText) = ordersDigest := by decide +kernel
  have htenants := @documentGaps_eq_nil inspectedCodecs .tenants (ordersTarget bytes).tenants
    ⟨1, toString emptyDigest⟩ _ (hmanifest List.mem_cons_self _ rfl) rfl (congrArg toString hempty)
  have hdataSources := @documentGaps_eq_nil inspectedCodecs .dataSources
    (ordersTarget bytes).dataSources ⟨1, toString emptyDigest⟩ _
    (hmanifest (List.mem_cons_of_mem _ List.mem_cons_self) _ rfl) rfl (congrArg toString hempty)
  have hcatalog := @documentGaps_eq_nil inspectedCodecs .catalog (ordersTarget bytes).catalog
    ⟨1, toString ordersDigest⟩ _
    (hmanifest (List.mem_cons_of_mem _ (List.mem_cons_of_mem _ List.mem_cons_self)) _ rfl) rfl
    (congrArg toString horders)
  have hgaps : recordGaps inspectedCodecs (ordersTarget bytes) (bareRecord 1 1 ordersDigest) =
      [] := by
    unfold recordGaps
    exact List.append_eq_nil_iff.mpr ⟨List.append_eq_nil_iff.mpr
      ⟨List.append_eq_nil_iff.mpr ⟨htenants, hdataSources⟩, hcatalog⟩, rfl⟩
  rw [assess_of_read rfl hread, hgaps]
  rfl

theorem orders_contract :
    (bareRecord 1 1 ordersDigest).minimumReaderContract ≤ Reader.READER_CONTRACT :=
  Fin.le_def.mpr (Nat.le_refl 1)

theorem objectJson_inObjects : WrittenInObjects objectJson := by
  refine ⟨⟨_, rfl⟩, fun documents hdocuments => ?_⟩
  obtain rfl : ordersJson = documents := Option.some.inj hdocuments
  intro name hname document hdocument
  have hnames : name = "tenants" ∨ name = "data-sources" ∨ name = "catalog" := by
    simpa [recordedDocumentsShape] using hname
  rcases hnames with rfl | rfl | rfl <;> exact ⟨_, (Option.some.inj hdocument).symm⟩

/-- The orders are complete to inspection, and so to a reader, as one generation. -/
theorem ordersTarget_agrees :
    ∃ complete, Reader.CompleteGeneration.verify readingCodecs
        (lineOf (bareRecordText "1" "1" ordersDigest)) (lineOf "[]") (lineOf "[]")
        (lineOf ordersText) "published" = .ok complete ∧ complete.generation = 1 ∧
      complete.recordDigest = inspectedCodecs.sha256 (lineOf (bareRecordText "1" "1" ordersDigest)) := by
  have hread := read_orders parseRecords_orders.1 ofJson_orders.1
  obtain ⟨bytes, dataSources, tenants, catalog, json, record, hholds, hparse, hrecord, hverifies⟩ :=
    (inspection_agrees_with_readers readsRecords (ordersTarget _)).1 _ (complete_ordersTarget hread)
  obtain ⟨hbytes, hdataSources, htenants, hcatalog⟩ := hholds
  cases hbytes
  cases hdataSources
  cases htenants
  cases hcatalog
  rw [parseRecords_orders.1] at hparse
  cases hparse
  rw [ofJson_orders.1] at hrecord
  obtain rfl := Option.some.inj hrecord
  obtain ⟨complete, hverify, hgeneration, hdigest⟩ :=
    (hverifies orders_contract "published").mpr objectJson_inObjects
  dsimp only at hdigest
  exact ⟨complete, hverify, hgeneration, hdigest⟩

/-- A record that is an array is complete to inspection, and no reader takes it. -/
theorem arrayRecord_not_verified :
    ReadsRecords parseRecords inspectedCodecs readingCodecs ∧
      assess inspectedCodecs (ordersTarget (lineOf arrayText))
          (ordersTarget (lineOf arrayText)).record =
        .complete ⟨1, inspectedCodecs.sha256 (lineOf arrayText)⟩ ∧
      inspectedCodecs.record.read (lineOf arrayText) = .ok (bareRecord 1 1 ordersDigest) ∧
      (bareRecord 1 1 ordersDigest).minimumReaderContract ≤ Reader.READER_CONTRACT ∧
      ∀ origin, Reader.CompleteGeneration.verify readingCodecs (lineOf arrayText) (lineOf "[]")
        (lineOf "[]") (lineOf ordersText) origin = .error (.malformed origin "no record") := by
  have hread := read_orders parseRecords_orders.2 ofJson_orders.2
  refine ⟨readsRecords, complete_ordersTarget hread, hread, orders_contract, fun origin => ?_⟩
  have hrefused : readingCodecs.readRecord (lineOf arrayText) = .error "no record" := by
    rw [readingCodecs_readRecord, parseRecords_orders.2]
    rfl
  unfold Reader.CompleteGeneration.verify
  split
  · rename_i detail hdetail
    rw [hrefused] at hdetail
    cases hdetail
    rfl
  · rename_i parsed hparsed
    rw [hrefused] at hparsed
    cases hparsed

end Publication
end SaasFabric
