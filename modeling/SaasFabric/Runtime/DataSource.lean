import Mathlib.Tactic.Common
import SaasFabric.Connector.Execution
import SaasFabric.Runtime.Resource

/-!
# DataSources and the destinations they reuse

`fabric-tenant-runtime`'s `data_source/`: a destination tenants can be placed on, and
which DataSources reach the same destination.
-/

namespace SaasFabric
namespace Runtime

/-- `PlacementClass`. -/
inductive PlacementClass where
  | shared
  | dedicated
  | highAvailability
  | regulated
  | development
  | ephemeral
deriving DecidableEq

/-- `DataResidency`. -/
structure DataResidency where
  region : String
  jurisdiction : Option String
deriving DecidableEq

/-- `PoolSettings`. -/
structure PoolSettings where
  maxConnections : U32
  idleTimeoutSeconds : U64
  acquireTimeoutSeconds : U64
deriving DecidableEq

/-- `DataSourceCapabilities`. -/
structure DataSourceCapabilities where
  writable : Bool
  acceptsNewTenants : Bool
deriving DecidableEq

/-- `DataSource`. -/
structure DataSource where
  id : DataSourceId
  revision : BindingRevision
  connector : ConnectorId
  connection : ConnectionSelector
  placement : PlacementClass
  residency : DataResidency
  pool : PoolSettings
  capabilities : DataSourceCapabilities
  labels : BTreeMap String String
deriving DecidableEq

/-- `DataSource::validate`: nothing is left to check once it is decoded. -/
def DataSource.validate (_ : DataSource) : Except ConfigurationError Unit := .ok ()

/-! ## Destinations -/

/-- `Destination`. -/
inductive Destination where
  | default
  | named (name : ConnectionName)
  | secret (distinctnessKey : String)
deriving DecidableEq

/-- `destination`: what a selector reaches, once secrets that a resolver cannot tell
apart are one. -/
def destination : ConnectionSelector → Destination
  | .default => .default
  | .named name => .named name
  | .secret reference => .secret reference.distinctnessKey

/-- What a DataSource claims. -/
def DataSource.claim (source : DataSource) : ConnectorId × Destination :=
  (source.connector, destination source.connection)

/-- `DestinationReuse`: for each DataSource, the others at its destination. -/
structure DestinationReuse where
  peers : HashMap DataSourceId (List DataSourceId)

namespace DestinationReuse

/-- The claims that more than one DataSource makes. -/
def contested (sources : HashMap DataSourceId DataSource) : List (List DataSourceId) :=
  let claims := Library.extendAll ∅ ((HashMap.values sources).map fun source =>
    (source.claim, [source.id]))
  (HashMap.values claims).filter fun claimants => decide (1 < claimants.length)

/-- `DestinationReuse::derive`. -/
def derive (sources : HashMap DataSourceId DataSource) : DestinationReuse where
  peers := Library.extendAll ∅ ((contested sources).flatMap fun claimants =>
    claimants.map fun id => (id, claimants.filter fun other => decide (other ≠ id)))

/-- `DestinationReuse::peers`. -/
def peersOf (reuse : DestinationReuse) (dataSource : DataSourceId) : List DataSourceId :=
  (reuse.peers.lookup dataSource).getD []

end DestinationReuse

/-- `RegistryResource` for `DataSource`. -/
instance : RegistryResource DataSource DataSourceId DestinationReuse where
  KIND := "data source"
  key := DataSource.id
  revision := DataSource.revision
  validate := DataSource.validate
  deriveSetFacts := DestinationReuse.derive

/-! ## What the derived reuse says -/

section Derived

variable {sources : HashMap DataSourceId DataSource} (hkeys : OwnKeys sources)

/-- The claimants of one claim: the DataSources that make it. -/
theorem mem_claimants_iff {claim : ConnectorId × Destination} {id : DataSourceId} :
    id ∈ ((Library.extendAll ∅ ((HashMap.values sources).map fun source =>
        (source.claim, [source.id]))).lookup claim).getD [] ↔
      ∃ source ∈ HashMap.values sources, source.claim = claim ∧ source.id = id := by
  rw [Library.mem_getD_lookup_extendAll]
  simp only [List.mem_map, Prod.mk.injEq]
  constructor
  · rintro ⟨values, ⟨source, hsource, hclaim, rfl⟩, hid⟩
    exact ⟨source, hsource, hclaim, (List.mem_singleton.mp hid).symm⟩
  · rintro ⟨source, hsource, hclaim, rfl⟩
    exact ⟨[source.id], ⟨source, hsource, hclaim, rfl⟩, List.mem_singleton_self _⟩

/-- Two members of a list that differ make it longer than one. -/
theorem one_lt_length_of_mem_of_ne {K : Type} {items : List K} {a b : K} (ha : a ∈ items)
    (hb : b ∈ items) (hne : a ≠ b) : 1 < items.length := by
  match items with
  | [] => cases ha
  | [_] => exact (hne ((List.mem_singleton.mp ha).trans (List.mem_singleton.mp hb).symm)).elim
  | _ :: _ :: _ => simp

/-- Two different DataSources share a contested claim exactly when they make one claim. -/
theorem exists_contested_iff {id peer : DataSourceId} (hne : peer ≠ id) :
    (∃ claimants ∈ DestinationReuse.contested sources, id ∈ claimants ∧ peer ∈ claimants) ↔
      ∃ source ∈ HashMap.values sources, ∃ other ∈ HashMap.values sources,
        source.id = id ∧ other.id = peer ∧ other.claim = source.claim := by
  unfold DestinationReuse.contested
  simp only [List.mem_filter, decide_eq_true_eq]
  constructor
  · rintro ⟨claimants, ⟨hclaimed, -⟩, hid, hpeer⟩
    obtain ⟨claim, hclaim⟩ := Library.mem_values_iff.mp hclaimed
    have hclaimants := @mem_claimants_iff sources claim
    rw [hclaim] at hclaimants
    obtain ⟨source, hsource, rfl, rfl⟩ := hclaimants.mp hid
    obtain ⟨other, hother, hsame, rfl⟩ := hclaimants.mp hpeer
    exact ⟨source, hsource, other, hother, rfl, rfl, hsame⟩
  · rintro ⟨source, hsource, other, hother, rfl, rfl, hsame⟩
    have hid := mem_claimants_iff.mpr ⟨source, hsource, rfl, rfl⟩
    have hpeer := mem_claimants_iff.mpr ⟨other, hother, hsame, rfl⟩
    cases hclaim : (Library.extendAll ∅ ((HashMap.values sources).map fun source =>
        (source.claim, [source.id]))).lookup source.claim with
    | none => simp [hclaim] at hid
    | some claimants =>
        rw [hclaim] at hid hpeer
        exact ⟨claimants, ⟨Library.mem_values_iff.mpr ⟨source.claim, hclaim⟩,
          one_lt_length_of_mem_of_ne hid hpeer hne.symm⟩, hid, hpeer⟩

include hkeys

/-- The peers of a DataSource are the others that make its claim. -/
theorem mem_peersOf_derive {id peer : DataSourceId} :
    peer ∈ (DestinationReuse.derive sources).peersOf id ↔
      peer ≠ id ∧ ∃ source other, sources.lookup id = some source ∧
        sources.lookup peer = some other ∧ other.claim = source.claim := by
  unfold DestinationReuse.derive DestinationReuse.peersOf
  rw [Library.mem_getD_lookup_extendAll]
  simp only [List.mem_flatMap, List.mem_map, Prod.mk.injEq]
  constructor
  · rintro ⟨_, ⟨claimants, hcontested, id, hid, rfl, rfl⟩, hpeer⟩
    obtain ⟨hpeer, hne⟩ : peer ∈ claimants ∧ peer ≠ id := by simpa using hpeer
    obtain ⟨source, hsource, other, hother, rfl, rfl, hsame⟩ :=
      (exists_contested_iff hne).mp ⟨claimants, hcontested, hid, hpeer⟩
    exact ⟨hne, source, other, hkeys.lookup_of_mem hsource, hkeys.lookup_of_mem hother, hsame⟩
  · rintro ⟨hne, source, other, hsource, hother, hsame⟩
    have hclaims : ∃ source ∈ HashMap.values sources, ∃ other ∈ HashMap.values sources,
        source.id = id ∧ other.id = peer ∧ other.claim = source.claim :=
      ⟨source, Library.mem_values_iff.mpr ⟨_, hsource⟩, other,
        Library.mem_values_iff.mpr ⟨_, hother⟩, hkeys _ _ hsource, hkeys _ _ hother, hsame⟩
    obtain ⟨claimants, hcontested, hid, hpeer⟩ := (exists_contested_iff hne).mpr hclaims
    exact ⟨_, ⟨claimants, hcontested, _, hid, rfl, rfl⟩, by simp [hpeer, hne]⟩

end Derived

end Runtime
end SaasFabric
