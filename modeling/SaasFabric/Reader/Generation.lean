import Mathlib.Data.List.Nodup
import SaasFabric.Library.Fallible
import SaasFabric.Reader.Install

/-!
# A complete generation

`fabric-tenant-runtime`'s `publication/complete_generation.rs`, `parsed_generation.rs`
and `record.rs`: four files of bytes are one generation where the record names the
digests of the other three, and a generation can be served where its documents decode
and fit together.
-/

namespace SaasFabric
namespace Reader

open SaasFabric.Runtime
open RegistryResource (KIND key validate)

/-- What a file holds. -/
abbrev Bytes := ByteArray

/-- A `RecordDigest` is shown as 64 lowercase hexadecimal digits, the highest first. -/
instance : ToString RecordDigest where
  toString digest := String.ofList ((List.range 64).map fun place =>
    Nat.digitChar (digest.bits.toNat / 16 ^ (63 - place) % 16))

/-- Two hexadecimal digits that look alike are one. -/
theorem digitChar_inj {first second : Nat} (hfirst : first < 16) (hsecond : second < 16)
    (h : Nat.digitChar first = Nat.digitChar second) : first = second := by
  have hall : ∀ first < 16, ∀ second < 16, Nat.digitChar first = Nat.digitChar second →
      first = second := by decide
  exact hall first hfirst second hsecond h

/-- A digest is known by what it is shown as. -/
theorem toString_digest_injective : Function.Injective (toString : RecordDigest → String) := by
  rintro ⟨first⟩ ⟨second⟩ h
  have hdigits := List.map_inj_left.mp (String.ofList_injective h)
  have hplace : ∀ place < 64, first.toNat / 16 ^ place % 16 = second.toNat / 16 ^ place % 16 := by
    intro place hlt
    have hdigit := hdigits (63 - place) (List.mem_range.mpr (by omega))
    rw [show 63 - (63 - place) = place by omega] at hdigit
    exact digitChar_inj (Nat.mod_lt _ (by decide)) (Nat.mod_lt _ (by decide)) hdigit
  have hlow : ∀ count ≤ 64, first.toNat % 16 ^ count = second.toNat % 16 ^ count := by
    intro count hle
    induction count with
    | zero => rw [Nat.pow_zero, Nat.mod_one, Nat.mod_one]
    | succ count ih =>
        rw [Nat.mod_pow_succ, Nat.mod_pow_succ, ih (by omega), hplace count (by omega)]
  have hall := hlow 64 le_rfl
  have hbound : (2 : Nat) ^ 256 = 16 ^ 64 := by decide
  have hfirst : first.toNat < 16 ^ 64 := hbound ▸ first.isLt
  have hsecond : second.toNat < 16 ^ 64 := hbound ▸ second.isLt
  rw [Nat.mod_eq_of_lt hfirst, Nat.mod_eq_of_lt hsecond] at hall
  rw [BitVec.eq_of_toNat_eq hall]
/-- `READER_CONTRACT`. -/
def READER_CONTRACT : U32 := 1

/-- `ReaderDocument`. -/
structure ReaderDocument where
  sha256 : String
deriving DecidableEq

/-- `ReaderDocuments`. -/
structure ReaderDocuments where
  tenants : ReaderDocument
  dataSources : ReaderDocument
  catalog : ReaderDocument
deriving DecidableEq

/-- `ReaderRecord`. -/
structure ReaderRecord where
  minimumReaderContract : U32
  generation : U64
  documents : ReaderDocuments
deriving DecidableEq

/-- The code a reader is given and does not own: SHA-256, the JSON decoders of the record
and of the two resource documents, and the host's decoder of the catalogue. -/
structure Codecs (Catalogue : Type) where
  sha256 : Bytes → RecordDigest
  readRecord : Bytes → Except String ReaderRecord
  readDataSources : Bytes → Except String (List DataSource)
  readTenants : Bytes → Except String (List TenantRuntimeBinding)
  decodeCatalogue : Bytes → Except String Catalogue

variable {Catalogue : Type} (codecs : Codecs Catalogue)

/-- `sha256_hex`. -/
def Codecs.sha256Hex (bytes : Bytes) : String := toString (codecs.sha256 bytes)

/-- `parse`: a decoder's verdict, as an error of the origin. -/
def parse {T : Type} (read : Bytes → Except String T) (bytes : Bytes) (origin : String) :
    Except SourceError T :=
  (read bytes).mapError (.malformed origin)

theorem parse_eq_ok {T : Type} {read : Bytes → Except String T} {bytes : Bytes}
    {origin : String} {value : T} : parse read bytes origin = .ok value ↔ read bytes = .ok value := by
  unfold parse
  cases read bytes <;> simp [Except.mapError]

/-! ## Complete -/

/-- A record this reader reads names a generation and the digests of three documents. -/
structure Names (record : Bytes) (generation : U64) (dataSources tenants catalog : Bytes)
    (parsed : ReaderRecord) : Prop where
  reads : codecs.readRecord record = .ok parsed
  contract : parsed.minimumReaderContract ≤ READER_CONTRACT
  generation : parsed.generation = generation
  catalog : codecs.sha256Hex catalog = parsed.documents.catalog.sha256
  dataSources : codecs.sha256Hex dataSources = parsed.documents.dataSources.sha256
  tenants : codecs.sha256Hex tenants = parsed.documents.tenants.sha256

/-- `CompleteGeneration`: a record, and the three documents it names. -/
structure CompleteGeneration where
  record : Bytes
  generation : U64
  dataSources : Bytes
  tenants : Bytes
  catalog : Bytes
  named : ∃ parsed, Names codecs record generation dataSources tenants catalog parsed

namespace CompleteGeneration

variable {codecs}

/-- `CompleteGeneration::record_sha256`. -/
def recordSha256 (complete : CompleteGeneration codecs) : String :=
  codecs.sha256Hex complete.record

/-- `CompleteGeneration::record_digest`. -/
def recordDigest (complete : CompleteGeneration codecs) : RecordDigest :=
  codecs.sha256 complete.record

end CompleteGeneration

/-- The documents in the order they are compared in, each with the digest named for it. -/
def namedDocuments (documents : ReaderDocuments) (dataSources tenants catalog : Bytes) :
    List (String × Bytes × String) :=
  [("catalog", catalog, documents.catalog.sha256),
    ("data-sources", dataSources, documents.dataSources.sha256),
    ("tenants", tenants, documents.tenants.sha256)]

/-- The first document that is not the one its record names. -/
def mismatched (documents : ReaderDocuments) (dataSources tenants catalog : Bytes) :
    Option (String × Bytes × String) :=
  (namedDocuments documents dataSources tenants catalog).find? fun named =>
    codecs.sha256Hex named.2.1 != named.2.2

theorem mismatched_eq_none {documents : ReaderDocuments} {dataSources tenants catalog : Bytes} :
    mismatched codecs documents dataSources tenants catalog = none ↔
      codecs.sha256Hex catalog = documents.catalog.sha256 ∧
        codecs.sha256Hex dataSources = documents.dataSources.sha256 ∧
          codecs.sha256Hex tenants = documents.tenants.sha256 := by
  simp [mismatched, namedDocuments, List.find?_eq_none]

/-- `CompleteGeneration::verify`. -/
def CompleteGeneration.verify (record dataSources tenants catalog : Bytes) (origin : String) :
    Except SourceError (CompleteGeneration codecs) :=
  match hparsed : codecs.readRecord record with
  | .error detail => .error (.malformed origin detail)
  | .ok parsed =>
      if hcontract : READER_CONTRACT < parsed.minimumReaderContract then
        .error (.unsupportedContract origin parsed.minimumReaderContract READER_CONTRACT)
      else
        match hnamed : mismatched codecs parsed.documents dataSources tenants catalog with
        | some (document, _) => .error (.incompleteGeneration origin parsed.generation document)
        | none =>
            .ok { record, generation := parsed.generation, dataSources, tenants, catalog
                  named := ⟨parsed, hparsed, not_lt.mp hcontract, rfl,
                    ((mismatched_eq_none codecs).mp hnamed).1,
                    ((mismatched_eq_none codecs).mp hnamed).2.1,
                    ((mismatched_eq_none codecs).mp hnamed).2.2⟩ }

/-- What verifies is a generation of these bytes. -/
theorem CompleteGeneration.verify_eq_ok {record dataSources tenants catalog : Bytes}
    {origin : String} {complete : CompleteGeneration codecs}
    (h : CompleteGeneration.verify codecs record dataSources tenants catalog origin =
      .ok complete) :
    complete.record = record ∧ complete.dataSources = dataSources ∧
      complete.tenants = tenants ∧ complete.catalog = catalog := by
  unfold CompleteGeneration.verify at h
  split at h
  · cases h
  · split at h
    · cases h
    · split at h
      · cases h
      · cases h
        exact ⟨rfl, rfl, rfl, rfl⟩

/-- A generation's own bytes verify, as the same generation, wherever they come from. -/
theorem CompleteGeneration.verify_self (complete : CompleteGeneration codecs) (origin : String) :
    CompleteGeneration.verify codecs complete.record complete.dataSources complete.tenants
      complete.catalog origin = .ok complete := by
  obtain ⟨record, generation, dataSources, tenants, catalog, parsed, hnames⟩ := complete
  have hnone : mismatched codecs parsed.documents dataSources tenants catalog = none :=
    (mismatched_eq_none codecs).mpr ⟨hnames.catalog, hnames.dataSources, hnames.tenants⟩
  unfold CompleteGeneration.verify
  dsimp only
  split
  · rename_i detail hdetail
    rw [hnames.reads] at hdetail
    cases hdetail
  · rename_i found hfound
    rw [hnames.reads] at hfound
    cases hfound
    rw [dif_neg (not_lt.mpr hnames.contract)]
    split
    · rename_i document _ hsome
      rw [hnone] at hsome
      cases hsome
    · simp only [hnames.generation]

/-! ## Fit to be served -/

/-- `ParsedGeneration`. -/
structure ParsedGeneration where
  complete : CompleteGeneration codecs
  dataSources : List DataSource
  tenants : List TenantRuntimeBinding
  catalogue : Catalogue

variable {codecs}

/-- `ParsedGeneration::generation`. -/
def ParsedGeneration.generation (parsed : ParsedGeneration codecs) : U64 :=
  parsed.complete.generation

/-- `decode_catalogue`. -/
def decodeCatalogue (complete : CompleteGeneration codecs) (origin : String) :
    Except SourceError Catalogue :=
  (codecs.decodeCatalogue complete.catalog).mapError
    (.unusable origin complete.generation "catalog")

/-- `ParsedGeneration::parse`. -/
def ParsedGeneration.parse (complete : CompleteGeneration codecs) (origin : String) :
    Except SourceError (ParsedGeneration codecs) := do
  let dataSources ← Reader.parse codecs.readDataSources complete.dataSources origin
  let tenants ← Reader.parse codecs.readTenants complete.tenants origin
  let catalogue ← decodeCatalogue complete origin
  .ok { complete, dataSources, tenants, catalogue }

/-- The loop of `each_valid_once`, over the keys seen so far. -/
def eachValidFrom {T Key Facts : Type} [RegistryResource T Key Facts] (seen : List Key) :
    List T → Except String Unit
  | [] => .ok ()
  | resource :: rest =>
      match validate resource with
      | .error error => .error s!"{KIND T} {key resource}: {error}"
      | .ok () =>
          if key resource ∈ seen then
            .error s!"{KIND T} {key resource} appears twice"
          else
            eachValidFrom (key resource :: seen) rest

/-- `each_valid_once`. -/
def eachValidOnce {T Key Facts : Type} [RegistryResource T Key Facts] (resources : List T) :
    Except String Unit :=
  eachValidFrom [] resources

/-- The inner loop of `every_binding_resolves`. -/
def bindingsResolve (tenant : TenantId) (carried : List DataSourceId) :
    List (LogicalDataSourceName × TenantDataBinding) → Except String Unit
  | [] => .ok ()
  | (logical, binding) :: rest =>
      if binding.dataSource ∈ carried then
        bindingsResolve tenant carried rest
      else
        .error (s!"tenant {tenant} binds {logical} to data source {binding.dataSource}, " ++
          "which this generation does not carry")

/-- `every_binding_resolves`. -/
def everyBindingResolves (tenants : List TenantRuntimeBinding) (dataSources : List DataSource) :
    Except String Unit :=
  tenants.forM fun tenant =>
    bindingsResolve tenant.tenant (dataSources.map DataSource.id) tenant.data.toList

/-- `ParsedGeneration::validate`. -/
def ParsedGeneration.validate (complete : CompleteGeneration codecs) (origin : String) :
    Except SourceError (ParsedGeneration codecs) := do
  let unusable := SourceError.unusable origin complete.generation
  let dataSources ← (Reader.parse codecs.readDataSources complete.dataSources origin).mapError
    fun error => unusable "data-sources" (toString error)
  let tenants ← (Reader.parse codecs.readTenants complete.tenants origin).mapError
    fun error => unusable "tenants" (toString error)
  (eachValidOnce dataSources).mapError (unusable "data-sources")
  (eachValidOnce tenants).mapError (unusable "tenants")
  (everyBindingResolves tenants dataSources).mapError (unusable "tenants")
  let catalogue ← decodeCatalogue complete origin
  .ok { complete, dataSources, tenants, catalogue }

/-! ## What validation asks -/

/-- Every resource is valid and no key is seen twice. -/
theorem eachValidFrom_eq_ok {T Key Facts : Type} [RegistryResource T Key Facts]
    {resources : List T} {seen : List Key} :
    eachValidFrom seen resources = .ok () ↔
      (∀ resource ∈ resources, validate resource = .ok () ∧ key resource ∉ seen) ∧
        (resources.map (key : T → Key)).Nodup := by
  induction resources generalizing seen with
  | nil => exact iff_of_true rfl ⟨by simp, List.nodup_nil⟩
  | cons first rest ih =>
      show (match validate first with
        | .error error => Except.error s!"{KIND T} {key first}: {error}"
        | .ok () =>
            if key first ∈ seen then .error s!"{KIND T} {key first} appears twice"
            else eachValidFrom (key first :: seen) rest) = .ok () ↔ _
      cases hvalid : validate first with
      | error error => simp [hvalid]
      | ok =>
          dsimp only
          by_cases hseen : key first ∈ seen
          · simp [hseen]
          · rw [if_neg hseen, ih]
            simp only [List.mem_cons, not_or, forall_eq_or_imp, List.map_cons, List.nodup_cons,
              List.mem_map, not_exists, not_and]
            constructor
            · rintro ⟨hrest, hnodup⟩
              exact ⟨⟨⟨hvalid, hseen⟩, fun resource hresource =>
                ⟨(hrest resource hresource).1, (hrest resource hresource).2.2⟩⟩,
                fun resource hresource => (hrest resource hresource).2.1, hnodup⟩
            · rintro ⟨⟨-, hrest⟩, hfirst, hnodup⟩
              exact ⟨fun resource hresource => ⟨(hrest resource hresource).1,
                hfirst resource hresource, (hrest resource hresource).2⟩, hnodup⟩

theorem eachValidOnce_eq_ok {T Key Facts : Type} [RegistryResource T Key Facts]
    {resources : List T} :
    eachValidOnce resources = .ok () ↔
      (∀ resource ∈ resources, validate resource = .ok ()) ∧
        (resources.map (key : T → Key)).Nodup := by
  unfold eachValidOnce
  rw [eachValidFrom_eq_ok]
  simp

theorem bindingsResolve_eq_ok {tenant : TenantId} {carried : List DataSourceId}
    {bindings : List (LogicalDataSourceName × TenantDataBinding)} :
    bindingsResolve tenant carried bindings = .ok () ↔
      ∀ entry ∈ bindings, entry.2.dataSource ∈ carried := by
  induction bindings with
  | nil => simp [bindingsResolve]
  | cons entry rest ih =>
      obtain ⟨logical, binding⟩ := entry
      rw [bindingsResolve]
      by_cases hcarried : binding.dataSource ∈ carried
      · simp [hcarried, ih]
      · simp [hcarried]

/-- Every tenant is bound only to DataSources that are carried. -/
theorem everyBindingResolves_eq_ok {tenants : List TenantRuntimeBinding}
    {dataSources : List DataSource} :
    everyBindingResolves tenants dataSources = .ok () ↔
      ∀ tenant ∈ tenants, ∀ dataSource, tenant.Names dataSource →
        dataSource ∈ dataSources.map DataSource.id := by
  unfold everyBindingResolves TenantRuntimeBinding.Names
  rw [Library.forM_eq_ok]
  simp only [bindingsResolve_eq_ok, Prod.forall, Std.ExtTreeMap.mem_toList_iff_getElem?_eq_some]
  constructor
  · rintro h tenant htenant _ ⟨logical, data, hdata, rfl⟩
    exact h tenant htenant logical data hdata
  · intro h tenant htenant logical data hdata
    exact h tenant htenant _ ⟨logical, data, hdata, rfl⟩

/-- A generation that can be served: its documents decode, each tenant and DataSource is
in them once, every tenant is bound to something, and only to what is carried. -/
structure ParsedGeneration.Servable (parsed : ParsedGeneration codecs) : Prop where
  dataSources : codecs.readDataSources parsed.complete.dataSources = .ok parsed.dataSources
  tenants : codecs.readTenants parsed.complete.tenants = .ok parsed.tenants
  catalogue : codecs.decodeCatalogue parsed.complete.catalog = .ok parsed.catalogue
  dataSourcesOnce : (parsed.dataSources.map DataSource.id).Nodup
  tenantsOnce : (parsed.tenants.map TenantRuntimeBinding.tenant).Nodup
  tenantsBound : ∀ tenant ∈ parsed.tenants, tenant.validate = .ok ()
  bindingsCarried : ∀ tenant ∈ parsed.tenants, ∀ dataSource, tenant.Names dataSource →
    dataSource ∈ parsed.dataSources.map DataSource.id

/-- What validation accepts, whatever origin its errors would name. -/
theorem ParsedGeneration.validate_eq_ok {complete : CompleteGeneration codecs}
    {origin : String} {parsed : ParsedGeneration codecs} :
    ParsedGeneration.validate complete origin = .ok parsed ↔
      parsed.complete = complete ∧ parsed.Servable := by
  unfold ParsedGeneration.validate decodeCatalogue
  simp only [Library.bind_eq_ok, Unique.exists_iff, PUnit.default_eq_unit, Library.mapError_eq_ok,
    parse_eq_ok, eachValidOnce_eq_ok, everyBindingResolves_eq_ok, Except.ok.injEq]
  constructor
  · rintro ⟨dataSources, hdataSources, tenants, htenants, ⟨-, hdataSourcesOnce⟩,
      ⟨hbound, htenantsOnce⟩, hcarried, catalogue, hcatalogue, rfl⟩
    exact ⟨rfl, hdataSources, htenants, hcatalogue, hdataSourcesOnce, htenantsOnce, hbound,
      hcarried⟩
  · rintro ⟨rfl, h⟩
    exact ⟨parsed.dataSources, h.dataSources, parsed.tenants, h.tenants,
      ⟨fun _ _ => rfl, h.dataSourcesOnce⟩, ⟨h.tenantsBound, h.tenantsOnce⟩,
      h.bindingsCarried, parsed.catalogue, h.catalogue, rfl⟩

end Reader
end SaasFabric
