import SaasFabric.Library.Fallible
import SaasFabric.Publication.Record

/-!
# What a snapshot is checked for

`fabric-runtime-publication`'s `snapshot.rs`, `validate.rs`, `catalogue_bindings.rs` and
`verdict.rs`: what a snapshot must hold by itself and beside what is held already, and
what becomes of one document.
-/

namespace SaasFabric
namespace Publication

/-! ## Snapshots -/

/-- `Emptying`. -/
inductive Emptying where
  | notIntended
  | intended
deriving DecidableEq

/-- `DocumentInput`. -/
structure DocumentInput (T : Type) where
  revision : DocumentRevision
  payload : T
  emptying : Emptying

/-- `RuntimeSnapshot`. -/
structure RuntimeSnapshot where
  tenants : DocumentInput (List TenantBindingDocument)
  dataSources : DocumentInput (List DataSourceDocument)
  catalog : DocumentInput CatalogDocument
  registry : Option (List IssuerRegistration)

/-! ## The checks -/

/-- `refuse_empty_catalogue`. -/
def refuseEmptyCatalogue (catalog : CatalogDocument) : Except PublicationError Unit :=
  if catalog.isEmpty then .error .emptyCatalogue else .ok ()

/-- `refuse_empty_tenant_data`. -/
def refuseEmptyTenantData (tenants : List TenantBindingDocument) :
    Except PublicationError Unit :=
  tenants.forM fun tenant =>
    if tenant.data.isEmpty then .error (.emptyTenantData tenant.tenant) else .ok ()

/-- `unbound_catalogue_entries`. -/
def unboundCatalogueEntries (catalog : CatalogDocument) (tenants : List TenantBindingDocument) :
    List (LogicalResourceName × LogicalDataSourceName) :=
  if tenants.isEmpty then
    []
  else
    (catalog.toList.filter fun entry =>
      !tenants.any fun tenant =>
        tenant.data.toList.any fun bound => bound.1 == entry.2.dataSource).map fun entry =>
          (entry.1, entry.2.dataSource)

/-- `refuse_unbound_catalogue_entries`. -/
def refuseUnboundCatalogueEntries (catalog : CatalogDocument)
    (tenants : List TenantBindingDocument) : Except PublicationError Unit :=
  match unboundCatalogueEntries catalog tenants with
  | (resource, dataSource) :: _ => .error (.catalogueEntryUnbound resource dataSource)
  | [] => .ok ()

/-- Some DataSource has an id. -/
def carries (dataSources : List DataSourceDocument) (id : DataSourceId) : Bool :=
  dataSources.any fun dataSource => dataSource.id == id

/-- `refuse_dangling_data_sources`. -/
def refuseDanglingDataSources (tenants : List TenantBindingDocument)
    (dataSources : List DataSourceDocument) : Except PublicationError Unit :=
  tenants.forM fun tenant =>
    tenant.data.toList.forM fun (logical, binding) =>
      if carries dataSources binding.dataSource then .ok ()
      else .error (.danglingDataSource tenant.tenant logical binding.dataSource)

/-- `refuse_retired_data_source_still_bound`. -/
def refuseRetiredDataSourceStillBound (heldTenants : List TenantBindingDocument)
    (dataSources : List DataSourceDocument) : Except PublicationError Unit :=
  heldTenants.forM fun tenant =>
    tenant.data.toList.forM fun (_, binding) =>
      if carries dataSources binding.dataSource then .ok ()
      else .error (.retiredDataSourceStillBound binding.dataSource tenant.tenant)

/-- `refuse_unintended_emptying`. -/
def refuseUnintendedEmptying (document : DocumentKind) (heldLen incomingLen : Nat)
    (emptying : Emptying) : Except PublicationError Unit :=
  if (0 < heldLen ∧ incomingLen = 0) ∧ emptying = .notIntended then
    .error (.emptyingNotIntended document)
  else
    .ok ()

/-- `validate_snapshot`. -/
def validateSnapshot (snapshot : RuntimeSnapshot) (heldTenants : List TenantBindingDocument)
    (heldDataSources : List DataSourceDocument) : Except PublicationError Unit := do
  refuseEmptyCatalogue snapshot.catalog.payload
  refuseEmptyTenantData snapshot.tenants.payload
  refuseUnboundCatalogueEntries snapshot.catalog.payload snapshot.tenants.payload
  refuseDanglingDataSources snapshot.tenants.payload snapshot.dataSources.payload
  refuseRetiredDataSourceStillBound heldTenants snapshot.dataSources.payload
  refuseUnintendedEmptying .tenants heldTenants.length snapshot.tenants.payload.length
    snapshot.tenants.emptying
  refuseUnintendedEmptying .dataSources heldDataSources.length
    snapshot.dataSources.payload.length snapshot.dataSources.emptying

/-! ## What the checks ask -/

/-- Every binding of some tenants is to a DataSource that is carried. -/
def AllCarried (tenants : List TenantBindingDocument) (dataSources : List DataSourceDocument) :
    Prop :=
  ∀ tenant ∈ tenants, ∀ entry ∈ tenant.data.toList,
    carries dataSources entry.2.dataSource = true

/-- A document is not emptied, or that is intended. -/
def EmptyingIntended (heldLen incomingLen : Nat) (emptying : Emptying) : Prop :=
  heldLen = 0 ∨ incomingLen ≠ 0 ∨ emptying = .intended

/-- What a snapshot that passes comes to. -/
structure Validated (snapshot : RuntimeSnapshot) (heldTenants : List TenantBindingDocument)
    (heldDataSources : List DataSourceDocument) : Prop where
  catalog : snapshot.catalog.payload.isEmpty = false
  bound : ∀ tenant ∈ snapshot.tenants.payload, tenant.data.isEmpty = false
  entries : unboundCatalogueEntries snapshot.catalog.payload snapshot.tenants.payload = []
  carried : AllCarried snapshot.tenants.payload snapshot.dataSources.payload
  retained : AllCarried heldTenants snapshot.dataSources.payload
  tenants : EmptyingIntended heldTenants.length snapshot.tenants.payload.length
    snapshot.tenants.emptying
  dataSources : EmptyingIntended heldDataSources.length snapshot.dataSources.payload.length
    snapshot.dataSources.emptying

theorem ite_ok_eq_ok {E : Type} {p : Prop} [Decidable p] {error : E} :
    (if p then Except.ok () else .error error) = .ok () ↔ p := by
  split <;> simp_all

theorem ite_error_eq_ok {E : Type} {p : Prop} [Decidable p] {error : E} :
    (if p then .error error else Except.ok ()) = .ok () ↔ ¬ p := by
  split <;> simp_all

theorem refuseUnboundCatalogueEntries_eq_ok {catalog : CatalogDocument}
    {tenants : List TenantBindingDocument} :
    refuseUnboundCatalogueEntries catalog tenants = .ok () ↔
      unboundCatalogueEntries catalog tenants = [] := by
  unfold refuseUnboundCatalogueEntries
  cases unboundCatalogueEntries catalog tenants <;> simp

theorem refuseDanglingDataSources_eq_ok {tenants : List TenantBindingDocument}
    {dataSources : List DataSourceDocument} :
    refuseDanglingDataSources tenants dataSources = .ok () ↔ AllCarried tenants dataSources := by
  unfold refuseDanglingDataSources AllCarried
  simp only [Library.forM_eq_ok, ite_ok_eq_ok]

theorem refuseRetiredDataSourceStillBound_eq_ok {heldTenants : List TenantBindingDocument}
    {dataSources : List DataSourceDocument} :
    refuseRetiredDataSourceStillBound heldTenants dataSources = .ok () ↔
      AllCarried heldTenants dataSources := by
  unfold refuseRetiredDataSourceStillBound AllCarried
  simp only [Library.forM_eq_ok, ite_ok_eq_ok]

theorem refuseUnintendedEmptying_eq_ok {document : DocumentKind} {heldLen incomingLen : Nat}
    {emptying : Emptying} :
    refuseUnintendedEmptying document heldLen incomingLen emptying = .ok () ↔
      EmptyingIntended heldLen incomingLen emptying := by
  unfold refuseUnintendedEmptying EmptyingIntended
  rw [ite_error_eq_ok]
  cases emptying with
  | notIntended =>
      simp only [and_true, reduceCtorEq, or_false]
      omega
  | intended => simp

/-- What validation accepts. -/
theorem validateSnapshot_eq_ok {snapshot : RuntimeSnapshot}
    {heldTenants : List TenantBindingDocument} {heldDataSources : List DataSourceDocument} :
    validateSnapshot snapshot heldTenants heldDataSources = .ok () ↔
      Validated snapshot heldTenants heldDataSources := by
  unfold validateSnapshot refuseEmptyCatalogue refuseEmptyTenantData
  simp only [Library.bind_eq_ok, Unique.exists_iff, PUnit.default_eq_unit, Library.forM_eq_ok,
    ite_error_eq_ok, Bool.not_eq_true, refuseUnboundCatalogueEntries_eq_ok,
    refuseDanglingDataSources_eq_ok, refuseRetiredDataSourceStillBound_eq_ok,
    refuseUnintendedEmptying_eq_ok]
  constructor
  · rintro ⟨hcatalog, hbound, hentries, hcarried, hretained, htenants, hdataSources⟩
    exact ⟨hcatalog, hbound, hentries, hcarried, hretained, htenants, hdataSources⟩
  · intro h
    exact ⟨h.catalog, h.bound, h.entries, h.carried, h.retained, h.tenants, h.dataSources⟩

/-! ## One document -/

/-- `Verdict`. -/
inductive Verdict where
  | write
  | unchanged
deriving DecidableEq

/-- `Held`. -/
structure Held where
  revision : DocumentRevision
  payload : Option Bytes

/-- `Incoming`. -/
structure Incoming where
  document : DocumentKind
  revision : DocumentRevision
  payload : Bytes

/-- `verdict`. -/
def verdict (held : Option Held) (incoming : Incoming) : Except PublicationError Verdict :=
  match held with
  | none => .ok .write
  | some held =>
      if incoming.revision < held.revision then
        .error (.staleRevision incoming.document held.revision incoming.revision)
      else
        match held.payload with
        | none => .ok .write
        | some heldPayload =>
            if held.revision < incoming.revision then .ok .write
            else if heldPayload = incoming.payload then .ok .unchanged
            else .error (.divergentPayload incoming.document incoming.revision)

/-- What a verdict answers: nothing older is taken, what is unchanged is held as it is,
and a revision that is held already is not written over. -/
theorem verdict_eq_ok {held : Option Held} {incoming : Incoming} {answer : Verdict} :
    verdict held incoming = .ok answer ↔
      (held = none ∧ .write = answer) ∨
      ∃ copy, held = some copy ∧ copy.revision ≤ incoming.revision ∧
        ((copy.payload = none ∧ .write = answer) ∨
          (copy.payload.isSome ∧ copy.revision < incoming.revision ∧ .write = answer) ∨
          (copy.payload = some incoming.payload ∧ copy.revision = incoming.revision ∧
            .unchanged = answer)) := by
  unfold verdict
  cases held with
  | none => simp
  | some copy =>
      obtain ⟨revision, payload⟩ := copy
      simp only [reduceCtorEq, false_and, Option.some.injEq, exists_eq_left', false_or]
      by_cases hstale : incoming.revision < revision
      · simp [hstale, not_le.mpr hstale]
      · have hle : revision ≤ incoming.revision := not_lt.mp hstale
        rw [if_neg hstale]
        cases payload with
        | none => simp [hle]
        | some payload =>
            dsimp only
            by_cases hnewer : revision < incoming.revision
            · simp [hnewer, hle, hnewer.ne]
            · have hsame : revision = incoming.revision := le_antisymm hle (not_lt.mp hnewer)
              by_cases hpayload : payload = incoming.payload
              · simp [hsame, hpayload]
              · simp [hsame, hpayload]

end Publication
end SaasFabric
