import Mathlib.Tactic.Common
import SaasFabric.Library.Fallible
import SaasFabric.Runtime.DataSource
import SaasFabric.Runtime.Tenant

/-!
# Resolution

`fabric-tenant-runtime`'s `resolution/`: from a tenant and a logical name to the
execution target, over one view of the published state.  Isolation that the connection
alone is to provide is granted exactly where no other tenant reaches the destination.
-/

namespace SaasFabric
namespace Runtime

/-- `RecordDigest`: a SHA-256. -/
structure RecordDigest where
  bits : BitVec 256
deriving DecidableEq

/-- `ServedOrigin`. -/
inductive ServedOrigin where
  | published
  | lastKnownGood
deriving DecidableEq

/-- `READER_GENERATION_CONTRACT`. -/
def READER_GENERATION_CONTRACT : U32 := 1

/-- `ReaderGenerationReport`. -/
structure ReaderGenerationReport where
  contract : U32
  generation : U64
  recordSha256 : RecordDigest
  origin : ServedOrigin
deriving DecidableEq

/-- `ReaderGenerationReport::new`. -/
def ReaderGenerationReport.new (generation : U64) (recordSha256 : RecordDigest)
    (origin : ServedOrigin) : ReaderGenerationReport :=
  ⟨READER_GENERATION_CONTRACT, generation, recordSha256, origin⟩

/-- `ResolveError`. -/
inductive ResolveError where
  | runtimeUnavailable
  | unknownTenant (tenant : TenantId)
  | unboundDataSource (tenant : TenantId) (logical : LogicalDataSourceName)
  | missingDataSource (logical : LogicalDataSourceName) (dataSource : DataSourceId)
  | isolationNotEnforceable (tenant : TenantId) (dataSource : DataSourceId) (isolation : String)
deriving DecidableEq

/-- `ResolvedDataSource`. -/
structure ResolvedDataSource where
  target : ExecutionTarget
  dataSource : DataSource
deriving DecidableEq

/-- `ResolutionView`: one immutable look at the published state. -/
structure ResolutionView (Catalogue : Type) where
  catalogue : Option Catalogue
  tenants : Option (ResourceSnapshot TenantRuntimeBinding)
  dataSources : Option (ResourceSnapshot DataSource)
  served : Option ReaderGenerationReport

/-! ## Exclusivity -/

/-- `Exclusivity`. -/
inductive Exclusivity where
  | exclusive
  | shared
deriving DecidableEq

/-- `destination_exclusivity::observe`. -/
def observe (coTenancy : Option CoTenancy) (reuse : Option DestinationReuse)
    (tenant : TenantId) (dataSource : DataSourceId) : Exclusivity :=
  let shared := coTenancy.any fun coTenancy =>
    coTenancy.hasTenantsOtherThan dataSource tenant ||
      reuse.any fun reuse => (reuse.peersOf dataSource).any fun peer =>
        coTenancy.hasTenantsOtherThan peer tenant
  if shared then .shared else .exclusive

/-- `check_isolation_is_enforceable`.  A discriminator carries its own predicate and is
safe wherever it is. -/
def checkIsolationIsEnforceable (tenant : TenantId) (dataSource : DataSource)
    (isolation : IsolationModel) (exclusivity : Exclusivity) : Except ResolveError Unit :=
  match isolation with
  | .discriminator _ _ => .ok ()
  | .database | .schema _ =>
      if dataSource.placement = .shared ∨ exclusivity = .shared then
        .error (.isolationNotEnforceable tenant dataSource.id isolation.telemetryLabel)
      else
        .ok ()

/-- `TenantRuntimeBinding::data_binding`. -/
def TenantRuntimeBinding.dataBinding (binding : TenantRuntimeBinding)
    (name : LogicalDataSourceName) : Except ResolveError TenantDataBinding :=
  match binding.data[name]? with
  | some data => .ok data
  | none => .error (.unboundDataSource binding.tenant name)

/-- The execution target: the DataSource supplies the connector and the connection, the
tenant's binding the isolation. -/
def targetOf (binding : TenantRuntimeBinding) (dataSource : DataSource)
    (isolation : IsolationModel) : ExecutionTarget where
  tenant := binding.tenant
  tenantRevision := binding.revision
  dataSource := dataSource.id
  dataSourceRevision := dataSource.revision
  connector := dataSource.connector
  connection := dataSource.connection
  isolation := isolation

namespace ResolutionView

variable {Catalogue : Type} (view : ResolutionView Catalogue)

/-- `ResolutionView::tenant`. -/
def tenant (tenant : TenantId) : Except ResolveError TenantRuntimeBinding :=
  (lookup view.tenants tenant).mapError fun
    | .unavailable => .runtimeUnavailable
    | .notFound => .unknownTenant tenant

/-- `ResolutionView::data_source`. -/
def dataSource (logical : LogicalDataSourceName) (id : DataSourceId) :
    Except ResolveError DataSource :=
  (lookup view.dataSources id).mapError fun
    | .unavailable => .runtimeUnavailable
    | .notFound => .missingDataSource logical id

/-- `ResolutionView::resolve_data_source`. -/
def resolveDataSource (tenant : TenantId) (logical : LogicalDataSourceName) :
    Except ResolveError ResolvedDataSource := do
  let binding ← view.tenant tenant
  let dataBinding ← binding.dataBinding logical
  let dataSource ← view.dataSource logical dataBinding.dataSource
  let exclusivity := observe (view.tenants.map (·.facts)) (view.dataSources.map (·.facts))
    binding.tenant dataSource.id
  checkIsolationIsEnforceable binding.tenant dataSource dataBinding.isolation exclusivity
  .ok { target := targetOf binding dataSource dataBinding.isolation, dataSource }

end ResolutionView

/-! ## Who else reaches a destination -/

/-- Two selectors reach one destination: both the default one, or one name, or two
secrets that a resolver may not tell apart. -/
inductive SameDestination : ConnectionSelector → ConnectionSelector → Prop where
  | default : SameDestination .default .default
  | named (name : ConnectionName) : SameDestination (.named name) (.named name)
  | secret (first second : SecretRef) (h : first.distinctnessKey = second.distinctnessKey) :
      SameDestination (.secret first) (.secret second)

theorem destination_eq_iff {first second : ConnectionSelector} :
    destination first = destination second ↔ SameDestination first second := by
  constructor
  · intro h
    cases first <;> cases second <;>
      simp only [destination, Destination.named.injEq, Destination.secret.injEq,
        reduceCtorEq] at h
    · exact .default
    · rw [h]
      exact .named _
    · exact .secret _ _ h
  · rintro (_ | _ | ⟨_, _, h⟩)
    · rfl
    · rfl
    · exact congrArg Destination.secret h

theorem SameDestination.symm {first second : ConnectionSelector}
    (h : SameDestination first second) : SameDestination second first :=
  destination_eq_iff.mp (destination_eq_iff.mpr h).symm

/-- Some data binding of a tenant reaches the destination of a DataSource: it names that
DataSource, or another one with the same connector and destination. -/
def Reaches (sources : HashMap DataSourceId DataSource) (binding : TenantRuntimeBinding)
    (source : DataSource) : Prop :=
  ∃ (logical : LogicalDataSourceName) (data : TenantDataBinding),
    binding.data[logical]? = some data ∧
      (data.dataSource = source.id ∨
        ∃ peer, sources.lookup data.dataSource = some peer ∧
          peer.connector = source.connector ∧
          SameDestination peer.connection source.connection)

section Exclusive

variable {tenants : HashMap TenantId TenantRuntimeBinding}
  {sources : HashMap DataSourceId DataSource}
  (htenants : OwnKeys tenants) (hsources : OwnKeys sources)

include htenants hsources

/-- A destination is shared exactly when another tenant reaches it. -/
theorem observe_derived_eq_shared {tenant : TenantId} {source : DataSource}
    (hsource : sources.lookup source.id = some source) :
    observe (some (.derive tenants)) (some (.derive sources)) tenant source.id = .shared ↔
      ∃ other binding, other ≠ tenant ∧ tenants.lookup other = some binding ∧
        Reaches sources binding source := by
  have hobserve : observe (some (.derive tenants)) (some (.derive sources)) tenant source.id =
      .shared ↔
      ((CoTenancy.derive tenants).hasTenantsOtherThan source.id tenant = true ∨
        ∃ peer ∈ (DestinationReuse.derive sources).peersOf source.id,
          (CoTenancy.derive tenants).hasTenantsOtherThan peer tenant = true) := by
    simp [observe, or_iff_not_imp_left]
  rw [hobserve]
  simp only [hasTenantsOtherThan_derive htenants, mem_peersOf_derive hsources]
  constructor
  · rintro (⟨other, binding, hne, hbinding, logical, data, hdata, hnames⟩ |
      ⟨peer, ⟨-, source', peer', hsource', hpeer, hclaim⟩, other, binding, hne, hbinding,
        logical, data, hdata, hnames⟩)
    · exact ⟨other, binding, hne, hbinding, logical, data, hdata, Or.inl hnames⟩
    · rw [hsource] at hsource'
      cases hsource'
      rw [← hnames] at hpeer
      refine ⟨other, binding, hne, hbinding, logical, data, hdata, Or.inr ⟨peer', hpeer, ?_, ?_⟩⟩
      · exact congrArg Prod.fst hclaim
      · exact destination_eq_iff.mp (congrArg Prod.snd hclaim)
  · rintro ⟨other, binding, hne, hbinding, logical, data, hdata, hreaches⟩
    by_cases hself : data.dataSource = source.id
    · exact Or.inl ⟨other, binding, hne, hbinding, logical, data, hdata, hself⟩
    · rcases hreaches with hsame | ⟨peer, hpeer, hconnector, hdestination⟩
      · exact absurd hsame hself
      · refine Or.inr ⟨data.dataSource, ⟨hself, source, peer, hsource, hpeer, ?_⟩,
          other, binding, hne, hbinding, logical, data, hdata, rfl⟩
        exact Prod.ext hconnector (destination_eq_iff.mpr hdestination)

end Exclusive

/-- A view whose two snapshots were built from these entries. -/
structure BuiltFrom {Catalogue : Type} (view : ResolutionView Catalogue)
    (tenants : HashMap TenantId TenantRuntimeBinding)
    (sources : HashMap DataSourceId DataSource) : Prop where
  tenants_eq : view.tenants = some (.new tenants)
  dataSources_eq : view.dataSources = some (.new sources)
  ownTenants : OwnKeys tenants
  ownDataSources : OwnKeys sources

section Resolve

variable {Catalogue : Type} {view : ResolutionView Catalogue} {tenant : TenantId}
  {logical : LogicalDataSourceName} {tenants : HashMap TenantId TenantRuntimeBinding}
  {sources : HashMap DataSourceId DataSource} (hview : BuiltFrom view tenants sources)

include hview

/-- A resolution is of a tenant the view holds, through one of its bindings, to a
DataSource the view holds, once the isolation is found enforceable. -/
theorem resolveDataSource_eq_ok {resolved : ResolvedDataSource} :
    view.resolveDataSource tenant logical = .ok resolved ↔
      ∃ binding data source, tenants.lookup tenant = some binding ∧
        binding.data[logical]? = some data ∧ sources.lookup data.dataSource = some source ∧
        checkIsolationIsEnforceable binding.tenant source data.isolation
          (observe (some (.derive tenants)) (some (.derive sources)) binding.tenant
            source.id) = .ok () ∧
        resolved = ⟨targetOf binding source data.isolation, source⟩ := by
  have htenant : ∀ binding, view.tenant tenant = .ok binding ↔
      tenants.lookup tenant = some binding := by
    intro binding
    unfold ResolutionView.tenant lookup
    rw [hview.tenants_eq]
    cases h : tenants.lookup tenant <;> simp [h, Except.mapError]
  have hsource : ∀ id source, view.dataSource logical id = .ok source ↔
      sources.lookup id = some source := by
    intro id source
    unfold ResolutionView.dataSource lookup
    rw [hview.dataSources_eq]
    cases h : sources.lookup id <;> simp [h, Except.mapError]
  have hdata : ∀ (binding : TenantRuntimeBinding) data, binding.dataBinding logical = .ok data ↔
      binding.data[logical]? = some data := by
    intro binding data
    unfold TenantRuntimeBinding.dataBinding
    cases h : binding.data[logical]? <;> simp
  unfold ResolutionView.resolveDataSource
  simp only [Library.bind_eq_ok, htenant, hdata, hsource, hview.tenants_eq,
    hview.dataSources_eq, Option.map_some, ResourceSnapshot.facts_new, Except.ok.injEq]
  constructor
  · rintro ⟨binding, hbinding, data, hdata, source, hsource, _, hcheck, rfl⟩
    exact ⟨binding, data, source, hbinding, hdata, hsource, hcheck, rfl⟩
  · rintro ⟨binding, data, source, hbinding, hdata, hsource, hcheck, rfl⟩
    exact ⟨binding, hbinding, data, hdata, source, hsource, (), hcheck, rfl⟩

/-- Where a binding and its DataSource are held, only the isolation is left to be refused. -/
theorem resolveDataSource_of_found {binding : TenantRuntimeBinding} {data : TenantDataBinding}
    {source : DataSource} (hbinding : tenants.lookup tenant = some binding)
    (hdata : binding.data[logical]? = some data)
    (hsource : sources.lookup data.dataSource = some source) :
    view.resolveDataSource tenant logical =
      (checkIsolationIsEnforceable binding.tenant source data.isolation
        (observe (some (.derive tenants)) (some (.derive sources)) binding.tenant source.id)).map
          fun _ => ⟨targetOf binding source data.isolation, source⟩ := by
  have htenant : view.tenant tenant = .ok binding := by
    unfold ResolutionView.tenant lookup
    rw [hview.tenants_eq]
    simp [hbinding, Except.mapError]
  have hfound : binding.dataBinding logical = .ok data := by
    unfold TenantRuntimeBinding.dataBinding
    rw [hdata]
  have hheld : view.dataSource logical data.dataSource = .ok source := by
    unfold ResolutionView.dataSource lookup
    rw [hview.dataSources_eq]
    simp [hsource, Except.mapError]
  unfold ResolutionView.resolveDataSource
  rw [htenant, hview.tenants_eq, hview.dataSources_eq]
  simp only [bind, Except.bind, hfound, hheld, Option.map_some, ResourceSnapshot.facts_new]
  cases checkIsolationIsEnforceable binding.tenant source data.isolation
    (observe (some (.derive tenants)) (some (.derive sources)) binding.tenant source.id) <;> rfl

/-- A structural isolation whose destination another tenant reaches is refused as one that
cannot be enforced. -/
theorem resolveDataSource_of_reached {binding otherBinding : TenantRuntimeBinding}
    {data : TenantDataBinding} {source : DataSource} {other : TenantId}
    (hbinding : tenants.lookup tenant = some binding)
    (hdata : binding.data[logical]? = some data)
    (hsource : sources.lookup data.dataSource = some source)
    (hstructural : data.isolation.IsStructural) (hne : other ≠ tenant)
    (hother : tenants.lookup other = some otherBinding)
    (hreaches : Reaches sources otherBinding source) :
    view.resolveDataSource tenant logical =
      .error (.isolationNotEnforceable tenant source.id data.isolation.telemetryLabel) := by
  have hid : source.id = data.dataSource := hview.ownDataSources _ _ hsource
  have hkey : binding.tenant = tenant := hview.ownTenants _ _ hbinding
  have hown : sources.lookup source.id = some source := by rw [hid, hsource]
  have hshared : observe (some (.derive tenants)) (some (.derive sources)) tenant source.id =
      .shared := (observe_derived_eq_shared hview.ownTenants hview.ownDataSources hown).mpr
    ⟨other, otherBinding, hne, hother, hreaches⟩
  rw [resolveDataSource_of_found hview hbinding hdata hsource, hkey, hshared]
  unfold checkIsolationIsEnforceable
  cases hisolation : data.isolation with
  | discriminator column value => simp [hisolation, IsolationModel.IsStructural] at hstructural
  | database => simp [Except.map]
  | schema schema => simp [Except.map]

/-- Structural isolation is granted exactly where the DataSource is not placed as shared
and no other tenant reaches its destination. -/
theorem resolves_iff_unshared {binding : TenantRuntimeBinding} {data : TenantDataBinding}
    {source : DataSource} (hbinding : tenants.lookup tenant = some binding)
    (hdata : binding.data[logical]? = some data)
    (hsource : sources.lookup data.dataSource = some source)
    (hstructural : data.isolation.IsStructural) :
    (view.resolveDataSource tenant logical).isOk = true ↔
      source.placement ≠ .shared ∧
        ∀ other otherBinding, other ≠ tenant → tenants.lookup other = some otherBinding →
          ¬ Reaches sources otherBinding source := by
  have hid : source.id = data.dataSource := hview.ownDataSources _ _ hsource
  have hkey : binding.tenant = tenant := hview.ownTenants _ _ hbinding
  have hown : sources.lookup source.id = some source := by rw [hid, hsource]
  have hshared : observe (some (.derive tenants)) (some (.derive sources)) binding.tenant
      source.id = .shared ↔ _ :=
    observe_derived_eq_shared hview.ownTenants hview.ownDataSources hown
  have hisOk : (view.resolveDataSource tenant logical).isOk = true ↔
      checkIsolationIsEnforceable binding.tenant source data.isolation
        (observe (some (.derive tenants)) (some (.derive sources)) binding.tenant
          source.id) = .ok () := by
    constructor
    · intro hok
      cases hresolve : view.resolveDataSource tenant logical with
      | error error => simp [hresolve, Except.isOk, Except.toBool] at hok
      | ok resolved =>
          obtain ⟨binding', data', source', hbinding', hdata', hsource', hcheck, -⟩ :=
            (resolveDataSource_eq_ok hview).mp hresolve
          rw [hbinding] at hbinding'
          cases hbinding'
          rw [hdata] at hdata'
          cases hdata'
          rw [hsource] at hsource'
          cases hsource'
          exact hcheck
    · intro hcheck
      rw [(resolveDataSource_eq_ok hview).mpr
        ⟨binding, data, source, hbinding, hdata, hsource, hcheck, rfl⟩]
      rfl
  have hcheck : ∀ exclusivity, checkIsolationIsEnforceable binding.tenant source data.isolation
      exclusivity = .ok () ↔ ¬ (source.placement = .shared ∨ exclusivity = .shared) := by
    intro exclusivity
    unfold checkIsolationIsEnforceable
    cases hisolation : data.isolation with
    | discriminator column value => simp [hisolation, IsolationModel.IsStructural] at hstructural
    | database => simp
    | schema schema => simp
  rw [hisOk, hcheck, not_or, hshared, hkey]
  simp only [not_exists, not_and]

/-- Where one tenant's structurally isolated binding resolves, no other tenant resolves
onto its destination. -/
theorem not_sameDestination_of_structural {other : TenantId}
    {otherLogical : LogicalDataSourceName} {resolved otherResolved : ResolvedDataSource}
    (hne : other ≠ tenant) (h : view.resolveDataSource tenant logical = .ok resolved)
    (hother : view.resolveDataSource other otherLogical = .ok otherResolved)
    (hstructural : resolved.target.isolation.IsStructural)
    (hconnector : otherResolved.target.connector = resolved.target.connector) :
    ¬ SameDestination otherResolved.target.connection resolved.target.connection := by
  intro hdestination
  obtain ⟨binding, data, source, hbinding, hdata, hsource, -, rfl⟩ :=
    (resolveDataSource_eq_ok hview).mp h
  obtain ⟨otherBinding, otherData, peer, hotherBinding, hotherData, hpeer, -, rfl⟩ :=
    (resolveDataSource_eq_ok hview).mp hother
  have hunshared := (resolves_iff_unshared hview hbinding hdata hsource hstructural).mp
    (by rw [h]; rfl)
  exact hunshared.2 other otherBinding hne hotherBinding
    ⟨otherLogical, otherData, hotherData, Or.inr ⟨peer, hpeer, hconnector, hdestination⟩⟩

end Resolve

/-- Structural isolation is granted exactly when the destination is unshared: in a view
built from any two sets of entries, a tenant's structurally isolated binding resolves if
and only if its DataSource is not placed as shared and no other tenant has a binding, of
any name and isolation, that reaches the destination.  So where two tenants both resolve
onto one destination of one connector, both are isolated by discriminator. -/
theorem structural_isolation_iff_unshared {Catalogue : Type} (view : ResolutionView Catalogue)
    (tenants : HashMap TenantId TenantRuntimeBinding)
    (sources : HashMap DataSourceId DataSource) (hview : BuiltFrom view tenants sources) :
    (∀ tenant logical binding data source, tenants.lookup tenant = some binding →
      binding.data[(logical : LogicalDataSourceName)]? = some data →
      sources.lookup data.dataSource = some source → data.isolation.IsStructural →
      ((view.resolveDataSource tenant logical).isOk = true ↔
        source.placement ≠ .shared ∧
          ∀ other otherBinding, other ≠ tenant → tenants.lookup other = some otherBinding →
            ¬ Reaches sources otherBinding source)) ∧
    (∀ first second firstLogical secondLogical firstResolved secondResolved, first ≠ second →
      view.resolveDataSource first firstLogical = .ok firstResolved →
      view.resolveDataSource second secondLogical = .ok secondResolved →
      firstResolved.target.connector = secondResolved.target.connector →
      SameDestination firstResolved.target.connection secondResolved.target.connection →
      (∃ column value, firstResolved.target.isolation = .discriminator column value) ∧
        ∃ column value, secondResolved.target.isolation = .discriminator column value) := by
  constructor
  · intro tenant logical binding data source hbinding hdata hsource hstructural
    exact resolves_iff_unshared hview hbinding hdata hsource hstructural
  · intro first second firstLogical secondLogical firstResolved secondResolved hne hfirst hsecond
      hconnector hdestination
    rw [← IsolationModel.not_isStructural_iff, ← IsolationModel.not_isStructural_iff]
    constructor
    · intro hstructural
      exact not_sameDestination_of_structural hview hne.symm hfirst hsecond hstructural
        hconnector.symm hdestination.symm
    · intro hstructural
      exact not_sameDestination_of_structural hview hne hsecond hfirst hstructural hconnector
        hdestination

/-- A DataSource on the default connection of the warehouse. -/
def warehouseSource (id : DataSourceId) : DataSource where
  id := id
  revision := 1
  connector := ⟨"warehouse", warehouse_accepted⟩
  connection := .default
  placement := .dedicated
  residency := ⟨"au-east", none⟩
  pool := ⟨20, 300, 5⟩
  capabilities := ⟨true, true⟩
  labels := ∅

/-- A tenant with one binding, under one name. -/
def boundTenant (tenant : TenantId) (dataSource : DataSourceId) (isolation : IsolationModel) :
    TenantRuntimeBinding where
  tenant := tenant
  revision := 1
  data := (∅ : BTreeMap LogicalDataSourceName TenantDataBinding).insert ⟨"main", by decide⟩
    ⟨dataSource, isolation⟩
  configuration := none
  secrets := none
  features := ∅
  storage := ∅

def acme : TenantId := ⟨"acme", acme_accepted⟩

def globex : TenantId := ⟨"globex", by decide⟩

def sourceA : DataSourceId := ⟨"pg-a", by decide⟩

def sourceB : DataSourceId := ⟨"pg-b", by decide⟩

/-- Two tenants on two DataSources that reach one destination. -/
def collidingTenants : HashMap TenantId TenantRuntimeBinding :=
  ((∅ : HashMap TenantId TenantRuntimeBinding).insert acme
    (boundTenant acme sourceA .database)).insert globex (boundTenant globex sourceB .database)

def collidingSources : HashMap DataSourceId DataSource :=
  ((∅ : HashMap DataSourceId DataSource).insert sourceA (warehouseSource sourceA)).insert
    sourceB (warehouseSource sourceB)

/-- Neither is served as if the destination were its own. -/
theorem colliding_tenant_refused :
    ((⟨none, some (.new collidingTenants), some (.new collidingSources), none⟩ :
      ResolutionView Unit).resolveDataSource acme ⟨"main", by decide⟩).isOk ≠ true :=
  mt ((structural_isolation_iff_unshared _ collidingTenants collidingSources
    ⟨rfl, rfl, (OwnKeys.empty.insert (boundTenant acme sourceA .database)).insert
        (boundTenant globex sourceB .database),
      (OwnKeys.empty.insert (warehouseSource sourceA)).insert (warehouseSource sourceB)⟩).1
    acme ⟨"main", by decide⟩ (boundTenant acme sourceA .database) ⟨sourceA, .database⟩
    (warehouseSource sourceA) (by decide) (by decide) (by decide) (by decide)).mp
    fun hunshared => hunshared.2 globex (boundTenant globex sourceB .database) (by decide)
      (by decide) ⟨⟨"main", by decide⟩, ⟨sourceB, .database⟩, by decide,
        Or.inr ⟨warehouseSource sourceB, by decide, rfl, .default⟩⟩

end Runtime
end SaasFabric
