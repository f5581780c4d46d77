import Mathlib.Tactic.DeriveCountable
import SaasFabric.Library.SampledCodec
import SaasFabric.Publication.Attempts

/-!
# Sampled codecs of a publication

Codecs that are known on a few documents of each type.  They show that what is relied on
of a publisher's codecs can be met together with the bytes that serde writes, and with them
a first publication is planned byte by byte.
-/

namespace SaasFabric

instance {kind : IdentifierKind} : Countable (Identifier kind) :=
  Identifier.value_injective.countable

instance {K V : Type} [Ord K] [Std.TransOrd K] [Countable K] [Countable V] :
    Countable (BTreeMap K V) :=
  Function.Injective.countable (f := fun map => map.toList) fun _ _ h =>
    Std.ExtTreeMap.ext_toList (List.Perm.of_eq h)

namespace Publication

theorem RegistryIssuer.value_injective : Function.Injective RegistryIssuer.value := by
  rintro ⟨value, _⟩ ⟨_, _⟩ rfl
  rfl

instance : Countable RegistryIssuer := RegistryIssuer.value_injective.countable

deriving instance Countable for ConnectionSelectorDocument, PlacementClassDocument,
  DataResidencyDocument, PoolSettingsDocument, DataSourceCapabilitiesDocument,
  DataSourceDocument

deriving instance Countable for IsolationModelDocument

deriving instance Countable for TenantDataBindingDocument

deriving instance Countable for ConfigurationBindingDocument, StorageBindingDocument

deriving instance Countable for TenantBindingDocument

deriving instance Countable for OperationKind

deriving instance Countable for ResourceDefinitionDocument

deriving instance Countable for DocumentKind

deriving instance Countable for DocumentManifest

deriving instance Countable for RecordedDocument

deriving instance Countable for RecordedDocuments, ResourceHistory, RecordedRegistry

deriving instance Countable for PublicationRecord

deriving instance Countable for IssuerRegistration

deriving instance Countable for IssuerRegistryDocument

/-- Samples of a type: some values, what each is written as, and that they are told apart. -/
structure Sample (T : Type) where
  entries : List (T × Bytes)
  sample : ∀ entry ∈ entries, Library.IsSample entry.2
  values : (entries.map Prod.fst).Nodup
  apart : entries.Pairwise fun first second => first.2.data.toList ≠ second.2.data.toList

/-- No sample. -/
def Sample.none {T : Type} : Sample T := ⟨[], by simp, List.nodup_nil, List.Pairwise.nil⟩

/-- One sample. -/
def Sample.one {T : Type} (value : T) (bytes : Bytes) (h : Library.IsSample bytes) : Sample T where
  entries := [(value, bytes)]
  sample := by simpa using h
  values := List.nodup_singleton _
  apart := List.pairwise_singleton _ _

/-- The codec of some samples. -/
noncomputable def Sample.codec {T : Type} [DecidableEq T] [Countable T] (sample : Sample T) :
    Library.Codec T :=
  Library.Codec.sampled sample.entries

theorem Sample.faithful_codec {T : Type} [DecidableEq T] [Countable T] (sample : Sample T) :
    sample.codec.Faithful := by
  refine ⟨Library.Codec.roundTrips_sampled sample.sample ?_,
    Library.Codec.skipsNewline_sampled _⟩
  intro first hfirst second hsecond hbytes
  -- Two different samples are apart, whichever of them comes first.
  have hsymmetric : Std.Symm fun first second : T × Bytes =>
      first.2.data.toList ≠ second.2.data.toList := ⟨fun _ _ h => h.symm⟩
  by_contra hne
  exact sample.apart.forall hfirst hsecond hne hbytes

/-- A sample is written as it is given. -/
theorem Sample.write_of_mem {T : Type} [DecidableEq T] [Countable T] {sample : Sample T}
    {value : T} {bytes : Bytes} (h : (value, bytes) ∈ sample.entries) :
    sample.codec.write value = .ok bytes := by
  have hfind : sample.entries.find? (fun entry => entry.1 == value) = some (value, bytes) := by
    cases hfound : sample.entries.find? fun entry => entry.1 == value with
    | none => exact absurd (beq_self_eq_true value) (List.find?_eq_none.mp hfound _ h)
    | some entry =>
        have hvalue : entry.1 = value := beq_iff_eq.mp (List.find?_some hfound :)
        exact congrArg some (List.inj_on_of_nodup_map sample.values
          (List.mem_of_find?_eq_some hfound) h hvalue)
  unfold Sample.codec Library.Codec.sampled
  dsimp only
  rw [hfind]

/-- On a line, too. -/
theorem Sample.line_of_mem {T : Type} [DecidableEq T] [Countable T] {sample : Sample T}
    {value : T} {bytes : Bytes} (h : (value, bytes) ∈ sample.entries) :
    sample.codec.line value = .ok (bytes.push 10) := by
  unfold Library.Codec.line
  rw [sample.write_of_mem h]
  rfl

/-- Samples of each type, and the digests of some texts. -/
structure Samples where
  digests : List (String × Runtime.RecordDigest)
  tenants : Sample (List TenantBindingDocument)
  dataSources : Sample (List DataSourceDocument)
  catalog : Sample CatalogDocument
  manifest : Sample DocumentManifest
  record : Sample PublicationRecord
  registry : Sample IssuerRegistryDocument

/-- The codecs of some samples; a resource is its own JSON value. -/
noncomputable def Samples.codecs (samples : Samples) : Codecs where
  sha256 := Library.tabled samples.digests ⟨0⟩
  tenants := samples.tenants.codec
  dataSources := samples.dataSources.codec
  catalog := samples.catalog.codec
  manifest := samples.manifest.codec
  record := samples.record.codec
  registry := samples.registry.codec
  readFloor bytes :=
    (samples.record.codec.read bytes).map PublicationRecord.minimumPublisherContract
  JsonValue := TenantBindingDocument ⊕ DataSourceDocument
  decEqJsonValue := inferInstance
  tenantValue tenant := .ok (.inl tenant)
  dataSourceValue dataSource := .ok (.inr dataSource)

/-- What is relied on of codecs can be met. -/
theorem Samples.lawful (samples : Samples) : samples.codecs.Lawful where
  tenants := samples.tenants.faithful_codec
  dataSources := samples.dataSources.faithful_codec
  catalog := samples.catalog.faithful_codec
  manifest := samples.manifest.faithful_codec
  record := samples.record.faithful_codec
  registry := samples.registry.faithful_codec
  floor record bytes hline := by
    have hread := samples.record.faithful_codec.read_line hline
    show (samples.record.codec.read bytes).map _ = _
    rw [hread]
    rfl
  tenantValue := ⟨fun tenant => ⟨.inl tenant, rfl⟩, fun _ _ h => by cases h; rfl⟩
  dataSourceValue := ⟨fun dataSource => ⟨.inr dataSource, rfl⟩, fun _ _ h => by cases h; rfl⟩

theorem Samples.sha256_of {samples : Samples} {bytes : Bytes} {digest : Runtime.RecordDigest}
    (h : Library.tabled samples.digests ⟨0⟩ bytes = digest) :
    samples.codecs.sha256 bytes = digest := h

theorem Samples.sha256Hex_of {samples : Samples} {bytes : Bytes} (digest : Runtime.RecordDigest)
    (h : Library.tabled samples.digests ⟨0⟩ bytes = digest) :
    samples.codecs.sha256Hex bytes = toString digest := by
  rw [← h]
  rfl

/-- A document is recorded with the digest that is tabled for its bytes. -/
theorem Samples.recordedDocument_of {samples : Samples} {revision : DocumentRevision}
    {bytes : Bytes} (digest : Runtime.RecordDigest)
    (h : Library.tabled samples.digests ⟨0⟩ bytes = digest) :
    RecordedDocument.of samples.codecs revision bytes = ⟨revision, toString digest⟩ :=
  congrArg (RecordedDocument.mk revision) (samples.sha256Hex_of digest h)

/-! ## A first publication -/

section First

variable {codecs : Codecs} {snapshot : RuntimeSnapshot}

/-- What is read where nothing is held. -/
def PublishedResources.nothing : PublishedResources where
  tenants := []
  dataSources := []
  catalog := none
  history := ResourceHistory.empty.including [] []

/-- The record of a first publication. -/
def firstRecord (codecs : Codecs) (snapshot : RuntimeSnapshot)
    (dataSources catalog tenants : Bytes) : PublicationRecord :=
  PublicationRecord.new 1
    { tenants := RecordedDocument.of codecs snapshot.tenants.revision tenants
      dataSources := RecordedDocument.of codecs snapshot.dataSources.revision dataSources
      catalog := RecordedDocument.of codecs snapshot.catalog.revision catalog }
    (PublishedResources.nothing.history.including snapshot.tenants.payload
      snapshot.dataSources.payload)

/-- The plan of a first publication, from its registry and the bytes of its documents. -/
def firstPlan (codecs : Codecs) (snapshot : RuntimeSnapshot) (registry : Option RegistryPlan)
    (dataSources catalog tenants record : Bytes) : PublicationPlan where
  dataSources := ⟨.written, dataSources, snapshot.dataSources.revision⟩
  catalog := ⟨.written, catalog, snapshot.catalog.revision⟩
  tenants := ⟨.written, tenants, snapshot.tenants.revision⟩
  registry := registry
  record := ⟨.written, (firstRecord codecs snapshot dataSources catalog tenants).withRegistry
    (registry.map (RegistryPlan.recorded codecs)), record, ⟨1, codecs.sha256 record⟩⟩

theorem decideDocument_first {document : DocumentKind} {revision : DocumentRevision}
    {bytes : Bytes} : decideDocument document none revision (.ok bytes) =
      .ok ⟨.written, bytes, revision⟩ := rfl

/-- A snapshot that is valid by itself is published where nothing is held. -/
theorem planned_first (hlawful : codecs.Lawful) (hvalid : Validated snapshot [] [])
    {registry : Option RegistryPlan} (hregistry : decideRegistry codecs none none snapshot =
      .ok registry) {dataSources catalog tenants record : Bytes}
    (hdataSources : dataSourcesCanonicalJson codecs snapshot.dataSources.payload =
      .ok dataSources)
    (hcatalog : codecs.catalog.line snapshot.catalog.payload = .ok catalog)
    (htenants : tenantsCanonicalJson codecs snapshot.tenants.payload = .ok tenants)
    (hrecord : codecs.record.line ((firstRecord codecs snapshot dataSources catalog
      tenants).withRegistry (registry.map (RegistryPlan.recorded codecs))) = .ok record) :
    planPublication codecs snapshot HeldDocuments.absent =
      .ok (firstPlan codecs snapshot registry dataSources catalog tenants record) := by
  have hnothing : ∀ {T : Type} [DecidableEq T] {kind : IdentifierKind}
      (key : T → Identifier kind) (revision : T → BindingRevision) (resource : T),
      Library.Admitted key revision ∅ (heldCopy key revision ∅ [] resource) resource := by
    intro T _ kind key revision resource
    refine Or.inl fun bound hbound => ?_
    rw [Std.ExtTreeMap.getElem?_empty] at hbound
    exact absurd hbound (Library.not_atLeast_none _)
  refine (planPublication_eq_ok hlawful).mpr ⟨none, PublishedResources.nothing,
    ⟨rfl, rfl, rfl, rfl, rfl⟩, hvalid, ?_, ?_, ?_, ⟨?_, ?_, ?_⟩, hregistry, ?_⟩
  · rw [hdataSources]
    exact decideDocument_first
  · rw [hcatalog]
    exact decideDocument_first
  · rw [htenants]
    exact decideDocument_first
  · exact fun source _ => hnothing DataSourceDocument.id DataSourceDocument.revision source
  · exact fun tenant _ => hnothing TenantBindingDocument.tenant TenantBindingDocument.revision
      tenant
  · exact Or.inr fun held hheld => absurd hheld List.not_mem_nil
  · refine Library.bind_eq_ok.mpr ⟨record, Library.mapError_eq_ok.mpr hrecord, rfl⟩

end First

/-! ## A catalogue by itself -/

/-- A text on a line of its own. -/
def lineOf (text : String) : Bytes := text.toUTF8.push 10

theorem lineOf_eq (text : String) : lineOf text = (text ++ "\n").toUTF8 := by
  have hpush : ∀ bytes : ByteArray, bytes.push 10 = bytes ++ "\n".toByteArray := by
    intro bytes
    ext1
    show bytes.data.push 10 = (bytes ++ "\n".toByteArray).data
    rw [ByteArray.data_append]
    rfl
  show text.toByteArray.push 10 = (text ++ "\n").toByteArray
  rw [String.toByteArray_append, hpush]

/-- What is tabled for a line. -/
theorem Samples.tabled_line {samples : Samples} {text : String} {digest : Runtime.RecordDigest}
    (hapart : (samples.digests.map Prod.fst).Nodup) (h : (text ++ "\n", digest) ∈ samples.digests) :
    Library.tabled samples.digests ⟨0⟩ (lineOf text) = digest := by
  rw [lineOf_eq]
  exact Library.tabled_of_mem hapart h

/-- The digest of an empty list, on a line. -/
def emptyDigest : Runtime.RecordDigest :=
  ⟨0x37517e5f3dc66819f61f5a7bb8ace1921282415f10551d2defa5c3eb0985b570⟩

theorem resource_accepted :
    (IdentifierKind.logicalResourceName.parse "orders").isOk = true := by decide

theorem primary_accepted :
    (IdentifierKind.logicalDataSourceName.parse "primary").isOk = true := by decide

/-- The catalogue of one resource, with some operations. -/
def catalogueOf (operations : List OperationKind) : CatalogDocument :=
  (∅ : CatalogDocument).insert ⟨"orders", resource_accepted⟩
    { dataSource := ⟨"primary", primary_accepted⟩
      collection := ⟨"orders", ordersCollection_accepted⟩
      keyField := ⟨"id", idField_accepted⟩
      operations
      queryableFields := [] }

/-- The catalogue of one resource, as it is published. -/
def catalogueText (operations : String) : String := "\x7b" ++
  ("\n  \"orders\": \x7b\n    \"data_source\": \"primary\",\n    \"collection\": \"orders\"," ++
    "\n    \"key_field\": \"id\",\n    \"operations\": [" ++ operations ++
    "\n    ],\n    \"queryable_fields\": []\n  \x7d\n") ++ "\x7d"

/-- A catalogue to read and to list. -/
def ordersCatalog : CatalogDocument := catalogueOf [.read, .list]

def ordersText : String := catalogueText "\n      \"read\",\n      \"list\""

def ordersDigest : Runtime.RecordDigest :=
  ⟨0xf063fe6d6f40168a2b7a90e7d526ab5cd4c1d28a6068b96ced344002f716c30e⟩

/-- A catalogue to read alone. -/
def readOnlyCatalog : CatalogDocument := catalogueOf [.read]

def readOnlyText : String := catalogueText "\n      \"read\""

def readOnlyDigest : Runtime.RecordDigest :=
  ⟨0x5413f8747610aecb8ee90cbb9bd0f0b327dd2788718c412dc1d939dc063b44f7⟩

/-- A snapshot of a catalogue, before there is any tenant. -/
def bareSnapshot (catalog : CatalogDocument) (revision : DocumentRevision) : RuntimeSnapshot where
  tenants := ⟨1, [], .notIntended⟩
  dataSources := ⟨1, [], .notIntended⟩
  catalog := ⟨revision, catalog, .notIntended⟩
  registry := none

/-- The record of such a snapshot. -/
def bareRecord (generation : U64) (revision : DocumentRevision)
    (digest : Runtime.RecordDigest) : PublicationRecord :=
  PublicationRecord.new generation
    { tenants := ⟨1, toString emptyDigest⟩
      dataSources := ⟨1, toString emptyDigest⟩
      catalog := ⟨revision, toString digest⟩ }
    ResourceHistory.empty

/-- The record of such a snapshot, as it is published. -/
def bareRecordText (generation revision : String) (digest : Runtime.RecordDigest) : String :=
  "\x7b" ++ ("\n  \"contract_version\": 3,\n  \"minimum_reader_contract\": 1," ++
    "\n  \"minimum_publisher_contract\": 3,\n  \"generation\": " ++ generation ++
    (",\n  \"documents\": \x7b\n    \"tenants\": \x7b\n      \"revision\": 1," ++
      "\n      \"sha256\": \"" ++ toString emptyDigest ++
      "\"\n    \x7d,\n    \"data-sources\": \x7b\n      \"revision\": 1," ++
      "\n      \"sha256\": \"" ++ toString emptyDigest ++
      "\"\n    \x7d,\n    \"catalog\": \x7b\n      \"revision\": ") ++ revision ++
    (",\n      \"sha256\": \"" ++ toString digest ++
      "\"\n    \x7d\n  \x7d,\n  \"resources\": \x7b\n    \"tenants\": \x7b\x7d," ++
      "\n    \"data-sources\": \x7b\x7d\n  \x7d\n")) ++ "\x7d"

/-- A manifest, as it is published. -/
def manifestText (document revision : String) : String := "\x7b" ++
  ("\n  \"contract_version\": 3,\n  \"document\": \"" ++ document ++
    "\",\n  \"revision\": " ++ revision ++ "\n") ++ "\x7d"

/-- The manifests of revision 1, and one of revision 2. -/
def firstManifests : Sample DocumentManifest where
  entries :=
    [(DocumentManifest.new .tenants 1, (manifestText "tenants" "1").toUTF8),
      (DocumentManifest.new .dataSources 1, (manifestText "data-sources" "1").toUTF8),
      (DocumentManifest.new .catalog 1, (manifestText "catalog" "1").toUTF8),
      (DocumentManifest.new .catalog 2, (manifestText "catalog" "2").toUTF8)]
  sample := by
    intro entry hentry
    simp only [List.mem_cons, List.not_mem_nil, or_false] at hentry
    rcases hentry with rfl | rfl | rfl | rfl <;> exact Library.isSample_braces _
  values := by decide +kernel
  apart := by decide +kernel

/-- The catalogues. -/
def catalogues : Sample CatalogDocument where
  entries := [(ordersCatalog, ordersText.toUTF8), (readOnlyCatalog, readOnlyText.toUTF8)]
  sample := by
    intro entry hentry
    simp only [List.mem_cons, List.not_mem_nil, or_false] at hentry
    rcases hentry with rfl | rfl <;> exact Library.isSample_braces _
  values := by decide +kernel
  apart := by decide +kernel

/-- Records of the catalogues: the first, and what follows it at two revisions. -/
def bareRecords : Sample PublicationRecord where
  entries :=
    [(bareRecord 1 1 ordersDigest, (bareRecordText "1" "1" ordersDigest).toUTF8),
      (bareRecord 2 2 readOnlyDigest, (bareRecordText "2" "2" readOnlyDigest).toUTF8),
      (bareRecord 2 1 readOnlyDigest, (bareRecordText "2" "1" readOnlyDigest).toUTF8)]
  sample := by
    intro entry hentry
    simp only [List.mem_cons, List.not_mem_nil, or_false] at hentry
    rcases hentry with rfl | rfl | rfl <;> exact Library.isSample_braces _
  values := by decide +kernel
  apart := by decide +kernel

/-- What serde writes of such snapshots, and what its digests are. -/
def bareSamples : Samples where
  digests :=
    [("[]\n", emptyDigest), (ordersText ++ "\n", ordersDigest),
      (readOnlyText ++ "\n", readOnlyDigest),
      (bareRecordText "1" "1" ordersDigest ++ "\n",
        ⟨0xf098ae45203305baecbe6dea815581d242c4f4bbd98511e45efaa365ec71cf5f⟩),
      (bareRecordText "2" "2" readOnlyDigest ++ "\n",
        ⟨0x9202c6d7735a695d7db60c5ec9581b9d6d2bac4da1e1f719265c3be9e51cb901⟩),
      (bareRecordText "2" "1" readOnlyDigest ++ "\n",
        ⟨0x28b3f730e752f085e184c9c33204d514e531a8aeed0d7b2f6510fbce998cc7c4⟩)]
  tenants := .one [] ("[" ++ "" ++ "]").toUTF8 (Library.isSample_brackets "")
  dataSources := .one [] ("[" ++ "" ++ "]").toUTF8 (Library.isSample_brackets "")
  catalog := catalogues
  manifest := firstManifests
  record := bareRecords
  registry := .none

theorem bareSnapshot_validated {catalog : CatalogDocument} (h : catalog.isEmpty = false)
    (revision : DocumentRevision) : Validated (bareSnapshot catalog revision) [] [] where
  catalog := h
  bound := fun tenant htenant => absurd htenant List.not_mem_nil
  entries := by rfl
  carried := fun tenant htenant => absurd htenant List.not_mem_nil
  retained := fun tenant htenant => absurd htenant List.not_mem_nil
  tenants := Or.inl rfl
  dataSources := Or.inl rfl

theorem bareSamples_tenants : tenantsCanonicalJson bareSamples.codecs [] = .ok (lineOf "[]") := by
  show bareSamples.tenants.codec.line (List.mergeSort [] _) = _
  rw [List.mergeSort_nil]
  exact Sample.line_of_mem (List.mem_singleton.mpr rfl)

theorem bareSamples_dataSources :
    dataSourcesCanonicalJson bareSamples.codecs [] = .ok (lineOf "[]") := by
  show bareSamples.dataSources.codec.line (List.mergeSort [] _) = _
  rw [List.mergeSort_nil]
  exact Sample.line_of_mem (List.mem_singleton.mpr rfl)

theorem bareSamples_empty (revision : DocumentRevision) :
    RecordedDocument.of bareSamples.codecs revision (lineOf "[]") =
      ⟨revision, toString emptyDigest⟩ :=
  Samples.recordedDocument_of emptyDigest (by decide +kernel)

theorem bareSamples_orders (revision : DocumentRevision) :
    RecordedDocument.of bareSamples.codecs revision (lineOf ordersText) =
      ⟨revision, toString ordersDigest⟩ :=
  Samples.recordedDocument_of ordersDigest (by decide +kernel)

theorem bareSamples_readOnly (revision : DocumentRevision) :
    RecordedDocument.of bareSamples.codecs revision (lineOf readOnlyText) =
      ⟨revision, toString readOnlyDigest⟩ :=
  Samples.recordedDocument_of readOnlyDigest (by decide +kernel)

theorem ordersSnapshot_record : firstRecord bareSamples.codecs (bareSnapshot ordersCatalog 1)
    (lineOf "[]") (lineOf ordersText) (lineOf "[]") = bareRecord 1 1 ordersDigest := by
  show PublicationRecord.new 1 ⟨RecordedDocument.of _ 1 _, RecordedDocument.of _ 1 _,
    RecordedDocument.of _ 1 _⟩ _ = _
  rw [bareSamples_empty, bareSamples_orders]
  rfl

/-- The snapshot is published where nothing is held. -/
theorem ordersSnapshot_planned : planPublication bareSamples.codecs (bareSnapshot ordersCatalog 1)
    HeldDocuments.absent = .ok (firstPlan bareSamples.codecs (bareSnapshot ordersCatalog 1) none
      (lineOf "[]") (lineOf ordersText) (lineOf "[]")
      (lineOf (bareRecordText "1" "1" ordersDigest))) := by
  refine planned_first bareSamples.lawful (bareSnapshot_validated (by decide) 1) rfl
    bareSamples_dataSources ?_ bareSamples_tenants ?_
  · exact Sample.line_of_mem List.mem_cons_self
  · rw [ordersSnapshot_record]
    exact Sample.line_of_mem List.mem_cons_self

/-! ## One tenant -/

/-- A tenant on one database, as it is published. -/
def acmeText : String :=
  "  \x7b\n    \"tenant\": \"acme\",\n    \"revision\": 1,\n    \"data\": \x7b" ++
    "\n      \"primary\": \x7b\n        \"data_source\": \"main\",\n        \"isolation\": \x7b" ++
    "\n          \"kind\": \"database\"\n        \x7d\n      \x7d\n    \x7d," ++
    "\n    \"features\": \x7b\x7d,\n    \"storage\": \x7b\x7d\n  \x7d"

/-- The DataSource it is on, as it is published. -/
def mainText : String := "[" ++
  ("\n  \x7b\n    \"id\": \"main\",\n    \"revision\": 1,\n    \"connector\": \"postgres\"," ++
    "\n    \"connection\": \x7b\n      \"kind\": \"default\"\n    \x7d," ++
    "\n    \"placement\": \"dedicated\",\n    \"residency\": \x7b\n      \"region\": \"nz\"" ++
    "\n    \x7d,\n    \"pool\": \x7b\n      \"max_connections\": 20," ++
    "\n      \"idle_timeout_seconds\": 300,\n      \"acquire_timeout_seconds\": 5\n    \x7d," ++
    "\n    \"capabilities\": \x7b\n      \"writable\": false," ++
    "\n      \"accepts_new_tenants\": false\n    \x7d,\n    \"labels\": \x7b\x7d\n  \x7d" ++
    "\n") ++ "]"

def mainDigest : Runtime.RecordDigest :=
  ⟨0x8afa9d32bedae0704598cf25ba88e7a1ec7bafb793166c9c31e168bfc6dd62bb⟩

/-- The record of that tenant's publication, from its generation, the digest of the tenants and
what it says of a registry. -/
def acmeRecordText (generation tenants registry : String) : String := "\x7b" ++
  ("\n  \"contract_version\": 3,\n  \"minimum_reader_contract\": 1," ++
    "\n  \"minimum_publisher_contract\": 3,\n  \"generation\": " ++ generation ++
    ",\n  \"documents\": \x7b\n    \"tenants\": \x7b" ++
    "\n      \"revision\": 1,\n      \"sha256\": \"" ++ tenants ++
    "\"\n    \x7d,\n    \"data-sources\": \x7b\n      \"revision\": 1," ++
    "\n      \"sha256\": \"" ++ toString mainDigest ++
    "\"\n    \x7d,\n    \"catalog\": \x7b\n      \"revision\": 1," ++
    "\n      \"sha256\": \"" ++ toString ordersDigest ++
    "\"\n    \x7d\n  \x7d,\n  \"resources\": \x7b\n    \"tenants\": \x7b\n      \"acme\": 1" ++
    "\n    \x7d,\n    \"data-sources\": \x7b\n      \"main\": 1\n    \x7d\n  \x7d" ++
    registry ++ "\n") ++ "\x7d"

/-- A tenant on one database. -/
def acmeTenant : TenantBindingDocument where
  tenant := ⟨"acme", acme_accepted⟩
  revision := 1
  data := (∅ : TenantDataBindings).insert ⟨"primary", primary_accepted⟩
    ⟨⟨"main", by decide⟩, .database⟩
  configuration := none
  secrets := none
  features := ∅
  storage := ∅

theorem postgres_accepted : (IdentifierKind.connectorId.parse "postgres").isOk = true := by decide

/-- The DataSource it is on. -/
def mainDataSource : DataSourceDocument where
  id := ⟨"main", by decide⟩
  revision := 1
  connector := ⟨"postgres", postgres_accepted⟩
  connection := .default
  placement := .dedicated
  residency := ⟨"nz", none⟩
  pool := ⟨20, 300, 5⟩
  capabilities := ⟨false, false⟩
  labels := ∅

/-- A snapshot of some tenants on that DataSource. -/
def acmeSnapshot (tenants : List TenantBindingDocument) : RuntimeSnapshot where
  tenants := ⟨1, tenants, .notIntended⟩
  dataSources := ⟨1, [mainDataSource], .notIntended⟩
  catalog := ⟨1, ordersCatalog, .notIntended⟩
  registry := none

/-- The record of its publication, from its generation and the digest of the tenants. -/
def acmeRecord (generation : U64) (tenants : String) : PublicationRecord :=
  PublicationRecord.new generation
    { tenants := ⟨1, tenants⟩
      dataSources := ⟨1, toString mainDigest⟩
      catalog := ⟨1, toString ordersDigest⟩ }
    (ResourceHistory.empty.including [acmeTenant] [mainDataSource])

/-- What serde writes of that snapshot, from what it writes of the tenants and the digests of
that and of the record. -/
def acmeSamples (tenants : List TenantBindingDocument) (text : String)
    (digest record : Runtime.RecordDigest) : Samples where
  digests :=
    [("[" ++ text ++ "]\n", digest),
      (mainText ++ "\n", mainDigest), (ordersText ++ "\n", ordersDigest),
      (acmeRecordText "1" (toString digest) "" ++ "\n", record)]
  tenants := .one tenants ("[" ++ text ++ "]").toUTF8 (Library.isSample_brackets text)
  dataSources := .one [mainDataSource] mainText.toUTF8 (Library.isSample_brackets _)
  catalog := .one ordersCatalog ordersText.toUTF8 (Library.isSample_braces _)
  manifest := firstManifests
  record := .one (acmeRecord 1 (toString digest)) (acmeRecordText "1" (toString digest) "").toUTF8
    (Library.isSample_braces _)
  registry := .none

/-- One tenant, as it is published. -/
def oneAcmeText : String := "\n" ++ acmeText ++ "\n"

def oneAcmeDigest : Runtime.RecordDigest :=
  ⟨0x6120fa4a5bcc5120db9559bd077cbbf96353a40cfdbe3cf03124e1a7786b82ed⟩

/-- What serde writes of a snapshot of one tenant. -/
def oneAcmeSamples : Samples :=
  acmeSamples [acmeTenant] oneAcmeText oneAcmeDigest
    ⟨0xd63163ec9dfcb3a7e844eb4751c8986848914e5a6e22b19d69c2018dc76c0810⟩

section Acme

variable {tenants : List TenantBindingDocument} {text : String}
  {digest record : Runtime.RecordDigest}

/-- A snapshot of some copies of the tenant is valid by itself. -/
theorem acmeSnapshot_validated (hnonempty : tenants ≠ [])
    (hcopies : ∀ tenant ∈ tenants, tenant = acmeTenant) :
    Validated (acmeSnapshot tenants) [] [] := by
  have hdata : ∀ entry ∈ acmeTenant.data.toList,
      carries [mainDataSource] entry.2.dataSource = true := by decide
  refine ⟨(bareSnapshot_validated (by decide) 1).catalog, ?_, ?_, ?_, ?_, Or.inl rfl, Or.inl rfl⟩
  · intro tenant htenant
    rw [hcopies tenant htenant]
    decide
  · have hbinds : ∀ entry ∈ ordersCatalog.toList,
        (acmeTenant.data.toList.any fun bound => bound.1 == entry.2.dataSource) = true := by
      decide
    obtain ⟨first, hfirst⟩ := List.exists_mem_of_ne_nil tenants hnonempty
    have hempty : tenants.isEmpty = false := List.isEmpty_eq_false_iff.mpr hnonempty
    show unboundCatalogueEntries ordersCatalog tenants = []
    unfold unboundCatalogueEntries
    rw [hempty, if_neg Bool.false_ne_true, List.map_eq_nil_iff, List.filter_eq_nil_iff]
    intro entry hentry
    rw [Bool.not_eq_true, Bool.not_eq_false']
    refine List.any_eq_true.mpr ⟨first, hfirst, ?_⟩
    rw [hcopies first hfirst]
    exact hbinds entry hentry
  · intro tenant htenant
    rw [hcopies tenant htenant]
    exact hdata
  · exact fun tenant htenant => absurd htenant List.not_mem_nil

/-- A snapshot of some copies of the tenant is published where nothing is held. -/
theorem acmeSnapshot_planned (hnonempty : tenants ≠ [])
    (hcopies : ∀ tenant ∈ tenants, tenant = acmeTenant)
    (hhistory : (ResourceHistory.empty.including [] []).including tenants [mainDataSource] =
      ResourceHistory.empty.including [acmeTenant] [mainDataSource])
    (htenants : Library.tabled (acmeSamples tenants text digest record).digests ⟨0⟩
      (lineOf ("[" ++ text ++ "]")) = digest)
    (hmain : Library.tabled (acmeSamples tenants text digest record).digests ⟨0⟩
      (lineOf mainText) = mainDigest)
    (horders : Library.tabled (acmeSamples tenants text digest record).digests ⟨0⟩
      (lineOf ordersText) = ordersDigest) :
    planPublication (acmeSamples tenants text digest record).codecs (acmeSnapshot tenants)
      HeldDocuments.absent =
        .ok (firstPlan (acmeSamples tenants text digest record).codecs (acmeSnapshot tenants)
          none (lineOf mainText) (lineOf ordersText) (lineOf ("[" ++ text ++ "]"))
          (lineOf (acmeRecordText "1" (toString digest) ""))) := by
  have hsorted : sortedBy TenantBindingDocument.tenant tenants = tenants := by
    refine List.mergeSort_of_pairwise (List.pairwise_of_forall_mem_list ?_)
    intro first hfirst second hsecond
    rw [hcopies first hfirst, hcopies second hsecond]
    decide
  have hrecord : firstRecord (acmeSamples tenants text digest record).codecs
      (acmeSnapshot tenants) (lineOf mainText) (lineOf ordersText)
      (lineOf ("[" ++ text ++ "]")) = acmeRecord 1 (toString digest) := by
    show PublicationRecord.new 1 ⟨RecordedDocument.of _ 1 _, RecordedDocument.of _ 1 _,
      RecordedDocument.of _ 1 _⟩ ((ResourceHistory.empty.including [] []).including tenants
        [mainDataSource]) = _
    rw [Samples.recordedDocument_of _ htenants, Samples.recordedDocument_of _ hmain,
      Samples.recordedDocument_of _ horders, hhistory]
    rfl
  refine planned_first (acmeSamples tenants text digest record).lawful
    (acmeSnapshot_validated hnonempty hcopies) rfl ?_ ?_ ?_ ?_
  · show (acmeSamples tenants text digest record).dataSources.codec.line
      (List.mergeSort [mainDataSource] _) = _
    rw [List.mergeSort_singleton]
    exact Sample.line_of_mem List.mem_cons_self
  · exact Sample.line_of_mem List.mem_cons_self
  · show (acmeSamples tenants text digest record).tenants.codec.line
      (sortedBy TenantBindingDocument.tenant tenants) = _
    rw [hsorted]
    exact Sample.line_of_mem List.mem_cons_self
  · rw [hrecord]
    exact Sample.line_of_mem List.mem_cons_self

end Acme

end Publication
end SaasFabric
