import SaasFabric.Runtime.Resolution
import SaasFabric.Runtime.TakesWhole

/-!
# Installing what a reader loaded

`fabric-tenant-runtime`'s `publication/published_state.rs` and
`resource/refresher/install.rs`: a loaded state is put in the two registries and then
published as one view.  A recorded generation is refused before anything is written,
so that the second registry cannot fail after the first was written.
-/

namespace SaasFabric
namespace Reader

open SaasFabric.Runtime
open RegistryResource (key)

/-- `SourceError`. -/
inductive SourceError where
  | unreadable (origin cause : String)
  | malformed (origin detail : String)
  | incompleteGeneration (origin : String) (generation : U64) (document : String)
  | unsupportedContract (origin : String) (required supported : U32)
  | unusable (origin : String) (generation : U64) (document reason : String)
  | regressed (origin : String) (held : U64) (found : String)
  | nothingUsable (origin : String) (count : Nat) (reason : String)
deriving DecidableEq

instance : ToString SourceError where
  toString
    | .unreadable origin _ => s!"could not read from {origin}"
    | .malformed origin detail => s!"contents of {origin} are malformed: {detail}"
    | .incompleteGeneration origin generation document =>
        s!"{document} in {origin} is not the one generation {generation} names; " ++
          "holding the last complete generation"
    | .unsupportedContract origin required supported =>
        s!"{origin} requires reader contract {required}; this reader is {supported}"
    | .unusable origin generation document reason =>
        s!"generation {generation} in {origin} cannot be served: {document}: {reason}; " ++
          "holding the last complete generation"
    | .regressed origin held found =>
        s!"{origin} offers {found}, below generation {held} this replica holds; " ++
          "holding the last complete generation"
    | .nothingUsable origin count reason =>
        s!"all {count} resources from {origin} failed validation; first was {reason}"

/-- `GenerationOrigin`. -/
inductive GenerationOrigin where
  | published
  | lastKnownGood (heldBecause : String)
deriving DecidableEq

/-- `PublishedState`. -/
inductive PublishedState (Catalogue : Type) where
  | generation (generation : U64) (recordSha256 : RecordDigest) (origin : GenerationOrigin)
      (dataSources : List DataSource) (tenants : List TenantRuntimeBinding)
      (catalogue : Catalogue)
  | unrecorded (dataSources : List DataSource) (tenants : List TenantRuntimeBinding)
      (catalogue : Catalogue)

/-- `Serving`. -/
inductive Serving where
  | nothing
  | unrecorded
  | generation (generation : U64) (origin : GenerationOrigin)
deriving DecidableEq

/-- `Installed`. -/
structure Installed where
  serving : Serving
  recorded : Option (U64 × RecordDigest)
deriving DecidableEq

/-- `Registries`: the published view, and the two registries behind it. -/
structure Registries (Catalogue : Type) where
  generation : Option (ResolutionView Catalogue)
  dataSources : ResourceRegistry DataSource
  tenants : ResourceRegistry TenantRuntimeBinding

/-- The orders in which the two registries happen to list what they hold. -/
structure ListedAs where
  dataSources : IterationOrder DataSourceId DataSource
  tenants : IterationOrder TenantId TenantRuntimeBinding

/-- `served_origin`. -/
def servedOrigin : GenerationOrigin → ServedOrigin
  | .published => .published
  | .lastKnownGood _ => .lastKnownGood

/-- `apply`: a sync of one registry, which a refusal leaves as it is. -/
def apply {T Key Facts : Type} [RegistryResource T Key Facts] (registry : ResourceRegistry T)
    (origin : String) (resources : List T) (order : IterationOrder Key T) :
    Except SourceError (ResourceRegistry T) :=
  match applyAll registry resources order with
  | .error refused => .error (.nothingUsable origin refused.published refused.reason)
  | .ok (written, _) => .ok (some written.snapshot)

variable {Catalogue : Type}

namespace Registries

/-- `PublishedGeneration::publish`. -/
def publish (registries : Registries Catalogue) (catalogue : Catalogue)
    (served : Option ReaderGenerationReport) : Registries Catalogue :=
  { registries with
    generation := some ⟨some catalogue, registries.tenants, registries.dataSources, served⟩ }

/-- The two registry writes.  What the first wrote stays written when the second fails. -/
def applyBoth (registries : Registries Catalogue) (origin : String)
    (dataSources : List DataSource) (tenants : List TenantRuntimeBinding) (listed : ListedAs) :
    Registries Catalogue × Except SourceError Unit :=
  match apply registries.dataSources origin dataSources listed.dataSources with
  | .error error => (registries, .error error)
  | .ok written =>
      let registries := { registries with dataSources := written }
      match apply registries.tenants origin tenants listed.tenants with
      | .error error => (registries, .error error)
      | .ok written => ({ registries with tenants := written }, .ok ())

end Registries

/-- `install`, with what it leaves whether it succeeds or fails. -/
def install (state : PublishedState Catalogue) (registries : Registries Catalogue)
    (origin : String) (listed : ListedAs) :
    Registries Catalogue × Except SourceError Installed :=
  match state with
  | .generation number recordSha256 readFrom dataSources tenants catalogue =>
      match refusesWhole registries.dataSources dataSources with
      | some reason => (registries, .error (.unusable origin number "data-sources" reason))
      | none =>
          match refusesWhole registries.tenants tenants with
          | some reason => (registries, .error (.unusable origin number "tenants" reason))
          | none =>
              match registries.applyBoth origin dataSources tenants listed with
              | (registries, .error error) => (registries, .error error)
              | (registries, .ok ()) =>
                  (registries.publish catalogue
                      (some (.new number recordSha256 (servedOrigin readFrom))),
                    .ok ⟨.generation number readFrom, some (number, recordSha256)⟩)
  | .unrecorded dataSources tenants catalogue =>
      match registries.applyBoth origin dataSources tenants listed with
      | (registries, .error error) => (registries, .error error)
      | (registries, .ok ()) =>
          (registries.publish catalogue none, .ok ⟨.unrecorded, none⟩)

/-! ## A generation whole or not at all -/

/-- A registry that refuses nothing of a set takes it, and then holds exactly it. -/
theorem exists_apply_of_takes {T Key Facts : Type} [RegistryResource T Key Facts]
    {registry : ResourceRegistry T} {offered : List T}
    (h : refusesWhole registry offered = none) (origin : String) (order : IterationOrder Key T) :
    ∃ snapshot, apply registry origin offered order = .ok (some snapshot) ∧
      Holds snapshot offered := by
  obtain ⟨written, report, happlied, hholds⟩ := exists_applyAll_of_takes h order
  refine ⟨written.snapshot, ?_, hholds⟩
  unfold apply
  rw [happlied]

/-- A view that serves one recorded generation: the resources offered, the catalogue
beside them, and the stamp of their record. -/
structure Serves (registries : Registries Catalogue) (number : U64)
    (recordSha256 : RecordDigest) (origin : GenerationOrigin) (dataSources : List DataSource)
    (tenants : List TenantRuntimeBinding) (catalogue : Catalogue) : Prop where
  view : ∃ view, registries.generation = some view ∧
    view.dataSources = registries.dataSources ∧ view.tenants = registries.tenants ∧
    view.catalogue = some catalogue ∧
    view.served = some ⟨READER_GENERATION_CONTRACT, number, recordSha256, servedOrigin origin⟩
  dataSources : ∃ snapshot, registries.dataSources = some snapshot ∧ Holds snapshot dataSources
  tenants : ∃ snapshot, registries.tenants = some snapshot ∧ Holds snapshot tenants

section Generation

variable (registries : Registries Catalogue) (origin : String) (listed : ListedAs)
  (number : U64) (recordSha256 : RecordDigest) (readFrom : GenerationOrigin)
  (dataSources : List DataSource) (tenants : List TenantRuntimeBinding)
  (catalogue : Catalogue)

/-- A generation neither registry refuses is installed. -/
theorem install_of_takes (hdataSources : refusesWhole registries.dataSources dataSources = none)
    (htenants : refusesWhole registries.tenants tenants = none) :
    let installed := install (.generation number recordSha256 readFrom dataSources tenants
      catalogue) registries origin listed
    Serves installed.1 number recordSha256 readFrom dataSources tenants catalogue ∧
      installed.2 = .ok ⟨.generation number readFrom, some (number, recordSha256)⟩ := by
  obtain ⟨heldDataSources, happliedDataSources, hholdsDataSources⟩ :=
    exists_apply_of_takes hdataSources origin listed.dataSources
  obtain ⟨heldTenants, happliedTenants, hholdsTenants⟩ :=
    exists_apply_of_takes htenants origin listed.tenants
  have hboth : registries.applyBoth origin dataSources tenants listed =
      ({ registries with dataSources := some heldDataSources, tenants := some heldTenants },
        .ok ()) := by
    unfold Registries.applyBoth
    rw [happliedDataSources]
    dsimp only
    rw [happliedTenants]
  dsimp only [install]
  rw [hdataSources, htenants]
  dsimp only
  rw [hboth]
  exact ⟨⟨⟨_, rfl, rfl, rfl, rfl, rfl⟩, ⟨heldDataSources, rfl, hholdsDataSources⟩,
    ⟨heldTenants, rfl, hholdsTenants⟩⟩, rfl⟩

/-- A generation is installed exactly when neither registry refuses it, and an install
that fails writes nothing. -/
theorem install_generation :
    let installed := install (.generation number recordSha256 readFrom dataSources tenants
      catalogue) registries origin listed
    (∃ error, installed.2 = .error error ∧ installed.1 = registries ∧
      (refusesWhole registries.dataSources dataSources ≠ none ∨
        refusesWhole registries.tenants tenants ≠ none)) ∨
    (installed.2 = .ok ⟨.generation number readFrom, some (number, recordSha256)⟩ ∧
      Serves installed.1 number recordSha256 readFrom dataSources tenants catalogue ∧
      refusesWhole registries.dataSources dataSources = none ∧
      refusesWhole registries.tenants tenants = none) := by
  intro installed
  cases hdataSources : refusesWhole registries.dataSources dataSources with
  | some reason =>
      have hrefused : installed =
          (registries, .error (.unusable origin number "data-sources" reason)) := by
        show install _ _ _ _ = _
        dsimp only [install]
        rw [hdataSources]
      rw [hrefused]
      exact Or.inl ⟨_, rfl, rfl, Or.inl (by simp)⟩
  | none =>
      cases htenants : refusesWhole registries.tenants tenants with
      | some reason =>
          have hrefused : installed =
              (registries, .error (.unusable origin number "tenants" reason)) := by
            show install _ _ _ _ = _
            dsimp only [install]
            rw [hdataSources, htenants]
          rw [hrefused]
          exact Or.inl ⟨_, rfl, rfl, Or.inr (by simp)⟩
      | none =>
          obtain ⟨hserves, hok⟩ := install_of_takes registries origin listed number recordSha256
            readFrom dataSources tenants catalogue hdataSources htenants
          exact Or.inr ⟨hok, hserves, rfl, rfl⟩

end Generation

/-- A recorded generation is installed whole or not at all, whatever the view and the
two registries hold: a failed install leaves all three as they were; after a successful
one they hold exactly the resources offered, one for each key, with the catalogue
offered and a stamp of that generation's number and record.  A registry lets a set pass
exactly when a sync of it succeeds and reports that it took every resource. -/
theorem install_whole_or_not_at_all (Catalogue : Type) :
    (∀ (registries : Registries Catalogue) (origin : String) (listed : ListedAs)
        (number : U64) (recordSha256 : RecordDigest) (readFrom : GenerationOrigin)
        (dataSources : List DataSource) (tenants : List TenantRuntimeBinding)
        (catalogue : Catalogue),
      let installed := install (.generation number recordSha256 readFrom dataSources tenants
        catalogue) registries origin listed
      (∀ error, installed.2 = .error error → installed.1 = registries) ∧
      (∀ result, installed.2 = .ok result →
        result = ⟨.generation number readFrom, some (number, recordSha256)⟩ ∧
        Serves installed.1 number recordSha256 readFrom dataSources tenants catalogue)) ∧
    (∀ (T Key Facts : Type) [RegistryResource T Key Facts] (registry : ResourceRegistry T)
        (offered : List T) (order : IterationOrder Key T),
      refusesWhole registry offered = none ↔
        ∃ written report, applyAll registry offered order = .ok (written, report) ∧
          report.tookEveryResource = true) := by
  constructor
  · intro registries origin listed number recordSha256 readFrom dataSources tenants catalogue
    rcases install_generation registries origin listed number recordSha256 readFrom dataSources
        tenants catalogue with
      ⟨refused, hfailed, hkept, -⟩ | ⟨hok, hserves, -⟩
    · refine ⟨fun _ _ => hkept, fun result h => ?_⟩
      rw [hfailed] at h
      cases h
    · refine ⟨fun error h => ?_, fun result h => ?_⟩
      · rw [hok] at h
        cases h
      · rw [hok] at h
        cases h
        exact ⟨rfl, hserves⟩
  · intro T Key Facts _ registry offered order
    exact refusesWhole_eq_none_iff_took order

/-- The entries of the two held maps as they are stored. -/
def listedAsStored : ListedAs := ⟨⟨id, fun _ => .refl _⟩, ⟨id, fun _ => .refl _⟩⟩

/-- A first generation of one DataSource and one tenant on it is served whole. -/
theorem acme_generation_served :
    Serves (install (.generation 7 ⟨0⟩ .published [warehouseSource sourceA]
        [boundTenant acme sourceA .database] ()) ⟨none, none, none⟩ "files" listedAsStored).1
      7 ⟨0⟩ .published [warehouseSource sourceA] [boundTenant acme sourceA .database] () :=
  (((install_whole_or_not_at_all Unit).1 ⟨none, none, none⟩ "files" listedAsStored 7 ⟨0⟩
    .published [warehouseSource sourceA] [boundTenant acme sourceA .database] ()).2
      ⟨.generation 7 .published, some (7, ⟨0⟩)⟩ (by decide)).2

end Reader
end SaasFabric
