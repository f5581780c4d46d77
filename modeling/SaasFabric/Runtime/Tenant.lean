import Mathlib.Data.List.Nodup
import Mathlib.Tactic.Common
import SaasFabric.Connector.Execution
import SaasFabric.Runtime.Resource

/-!
# Tenants and the DataSources they occupy

`fabric-tenant-runtime`'s `tenant/`: what a tenant's logical names are bound to, and
which DataSources more than one tenant is bound to.
-/

namespace SaasFabric
namespace Runtime

/-- `TenantDataBinding`. -/
structure TenantDataBinding where
  dataSource : DataSourceId
  isolation : IsolationModel
deriving DecidableEq

/-- `ConfigurationBinding`. -/
structure ConfigurationBinding where
  store : String
  profile : Option String
deriving DecidableEq

/-- `StorageBinding`. -/
structure StorageBinding where
  provider : String
  container : String
  pathPrefix : Option String
  credentials : Option SecretRef
deriving DecidableEq

/-- `TenantRuntimeBinding`. -/
structure TenantRuntimeBinding where
  tenant : TenantId
  revision : BindingRevision
  data : BTreeMap LogicalDataSourceName TenantDataBinding
  configuration : Option ConfigurationBinding
  secrets : Option SecretRef
  features : BTreeMap String Bool
  storage : BTreeMap String StorageBinding
deriving DecidableEq

/-- `TenantRuntimeBinding::validate`. -/
def TenantRuntimeBinding.validate (binding : TenantRuntimeBinding) :
    Except ConfigurationError Unit :=
  if binding.data.isEmpty then
    .error (.tenantHasNoDataBindings binding.tenant)
  else
    .ok ()

/-- The DataSources a binding names, each once and in order. -/
def TenantRuntimeBinding.distinct (binding : TenantRuntimeBinding) : List DataSourceId :=
  (Std.ExtTreeSet.ofList (binding.data.toList.map fun entry => entry.2.dataSource)
    compare).toList

/-- Some logical name of a binding is bound to a DataSource. -/
def TenantRuntimeBinding.Names (binding : TenantRuntimeBinding) (dataSource : DataSourceId) :
    Prop :=
  ∃ (logical : LogicalDataSourceName) (data : TenantDataBinding),
    binding.data[logical]? = some data ∧ data.dataSource = dataSource

theorem TenantRuntimeBinding.mem_distinct_iff {binding : TenantRuntimeBinding}
    {dataSource : DataSourceId} :
    dataSource ∈ binding.distinct ↔ binding.Names dataSource := by
  unfold TenantRuntimeBinding.distinct TenantRuntimeBinding.Names
  rw [Std.ExtTreeSet.mem_toList, Std.ExtTreeSet.mem_ofList]
  simp only [List.contains_iff_mem, List.mem_map, Prod.exists,
    Std.ExtTreeMap.mem_toList_iff_getElem?_eq_some]

theorem TenantRuntimeBinding.nodup_distinct (binding : TenantRuntimeBinding) :
    binding.distinct.Nodup := by
  refine Std.ExtTreeSet.distinct_toList.imp fun hne heq => hne ?_
  rw [heq]
  exact Std.ReflOrd.compare_self

/-! ## Occupancy -/

/-- `Occupancy`: the one tenant bound to a DataSource, or several. -/
abbrev Occupancy := Library.Held TenantId

/-- `CoTenancy`. -/
structure CoTenancy where
  occupancy : HashMap DataSourceId Occupancy

namespace CoTenancy

/-- Each tenant beside each DataSource it is bound to. -/
def occupants (bindings : HashMap TenantId TenantRuntimeBinding) :
    List (DataSourceId × TenantId) :=
  (HashMap.values bindings).flatMap fun binding =>
    binding.distinct.map fun id => (id, binding.tenant)

/-- `CoTenancy::derive`. -/
def derive (bindings : HashMap TenantId TenantRuntimeBinding) : CoTenancy where
  occupancy := Library.holdAll ∅ (occupants bindings)

/-- `CoTenancy::has_tenants_other_than`. -/
def hasTenantsOtherThan (coTenancy : CoTenancy) (dataSource : DataSourceId)
    (tenant : TenantId) : Bool :=
  match coTenancy.occupancy.lookup dataSource with
  | none => false
  | some .several => true
  | some (.one occupant) => occupant != tenant

end CoTenancy

/-- `RegistryResource` for `TenantRuntimeBinding`. -/
instance : RegistryResource TenantRuntimeBinding TenantId CoTenancy where
  KIND := "tenant"
  key := TenantRuntimeBinding.tenant
  revision := TenantRuntimeBinding.revision
  validate := TenantRuntimeBinding.validate
  deriveSetFacts := CoTenancy.derive

/-! ## What the derived occupancy says -/

section Derived

variable {bindings : HashMap TenantId TenantRuntimeBinding} (hkeys : OwnKeys bindings)

/-- The tenants beside one DataSource. -/
def CoTenancy.tenantsOf (bindings : HashMap TenantId TenantRuntimeBinding)
    (dataSource : DataSourceId) : List TenantId :=
  ((CoTenancy.occupants bindings).filter fun entry => decide (entry.1 = dataSource)).map
    Prod.snd

include hkeys

theorem mem_tenantsOf_iff {dataSource : DataSourceId} {tenant : TenantId} :
    tenant ∈ CoTenancy.tenantsOf bindings dataSource ↔
      ∃ binding, bindings.lookup tenant = some binding ∧ binding.Names dataSource := by
  unfold CoTenancy.tenantsOf CoTenancy.occupants
  simp only [List.mem_map, List.mem_filter, List.mem_flatMap, decide_eq_true_eq, Prod.exists,
    Prod.mk.injEq, TenantRuntimeBinding.mem_distinct_iff]
  constructor
  · rintro ⟨_, _, ⟨⟨binding, hbinding, id, hnames, rfl, rfl⟩, rfl⟩, rfl⟩
    exact ⟨binding, hkeys.lookup_of_mem hbinding, hnames⟩
  · rintro ⟨binding, hbinding, hnames⟩
    exact ⟨_, _, ⟨⟨binding, Library.mem_values_iff.mpr ⟨_, hbinding⟩, _, hnames, rfl,
      hkeys _ _ hbinding⟩, rfl⟩, rfl⟩

/-- No tenant is beside one DataSource twice, however many of its names are bound to it. -/
theorem nodup_tenantsOf (dataSource : DataSourceId) :
    (CoTenancy.tenantsOf bindings dataSource).Nodup := by
  have hoccupants : (CoTenancy.occupants bindings).Nodup := by
    unfold CoTenancy.occupants
    rw [List.nodup_flatMap]
    constructor
    · intro binding _
      exact binding.nodup_distinct.map fun _ _ h => congrArg Prod.fst h
    · refine (List.pairwise_map.mp (Library.nodup_values_map hkeys)).imp ?_
      intro left right hne entry hleft hright
      obtain ⟨_, -, rfl⟩ := List.mem_map.mp hleft
      obtain ⟨_, -, heq⟩ := List.mem_map.mp hright
      exact hne (congrArg Prod.snd heq).symm
  refine (hoccupants.filter _).map_on ?_
  rintro ⟨_, _⟩ hleft ⟨_, _⟩ hright rfl
  simp only [List.mem_filter, decide_eq_true_eq] at hleft hright
  rw [hleft.2, hright.2]

/-- The occupancy tells whether any other tenant is bound to a DataSource. -/
theorem hasTenantsOtherThan_derive {dataSource : DataSourceId} {tenant : TenantId} :
    (CoTenancy.derive bindings).hasTenantsOtherThan dataSource tenant = true ↔
      ∃ other binding, other ≠ tenant ∧ bindings.lookup other = some binding ∧
        binding.Names dataSource := by
  have hlookup : (CoTenancy.derive bindings).occupancy.lookup dataSource =
      Library.heldOf (CoTenancy.tenantsOf bindings dataSource) :=
    Library.lookup_holdAll _ _
  have hknown : (CoTenancy.derive bindings).hasTenantsOtherThan dataSource tenant = true ↔
      (Library.heldOf (CoTenancy.tenantsOf bindings dataSource) = some .several ∨
        ∃ held, Library.heldOf (CoTenancy.tenantsOf bindings dataSource) = some (.one held) ∧
          held ≠ tenant) := by
    unfold CoTenancy.hasTenantsOtherThan
    rw [hlookup]
    split <;> simp_all
  rw [hknown, Library.heldOf_other_iff (nodup_tenantsOf hkeys dataSource)]
  simp only [mem_tenantsOf_iff hkeys]
  constructor
  · rintro ⟨other, ⟨binding, hbinding, hnames⟩, hne⟩
    exact ⟨other, binding, hne, hbinding, hnames⟩
  · rintro ⟨other, binding, hne, hbinding, hnames⟩
    exact ⟨other, ⟨binding, hbinding, hnames⟩, hne⟩

end Derived

end Runtime
end SaasFabric
