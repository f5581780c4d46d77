import SaasFabric.Library.Weighted
import SaasFabric.Platform.Passes
import SaasFabric.Platform.Placements

/-!
# Composing a snapshot

`fabric-platform-management`'s `publication/snapshot.rs`, `placement_history.rs` and
`compose_error.rs`: the documents of one pass, from what is declared and recorded, held to the
tenants document published last.
-/

namespace SaasFabric
namespace Platform

open Library (bind_eq_ok forM_eq_ok mapM_eq_ok)
open Publication (CatalogDocument PublishedResources PublishedRevisions RuntimeSnapshot
  TenantBindingDocument TenantDataBindingDocument TenantDataBindings sortedBy)

/-- `ComposeError`. -/
inductive ComposeError where
  | duplicatePlacement (tenant : TenantId) (logical : LogicalDataSourceName)
  | emptyTenantBinding (tenant : TenantId)
  | placementRemoved (tenant : TenantId) (logical : LogicalDataSourceName)
  | placementLowered (tenant : TenantId) (published recorded : BindingRevision)
deriving DecidableEq

instance : ToString ComposeError where
  toString
    | .duplicatePlacement tenant logical => s!"{tenant} has two placements for {logical}"
    | .emptyTenantBinding tenant => s!"{tenant} has no logical data source bindings"
    | .placementRemoved tenant logical =>
        s!"{tenant} was published with {logical}, and no placement records it any more"
    | .placementLowered tenant published recorded =>
        s!"{tenant} was published at revision {published}; its placements now record {recorded} " ++
          "for the same data, which does not advance it"

/-- What a record binds its logical data source to. -/
def PlacementRecord.binding (record : PlacementRecord) : TenantDataBindingDocument :=
  ⟨record.dataSource, record.isolation⟩

/-- What a record is for. -/
def PlacementRecord.pair (record : PlacementRecord) : TenantId × LogicalDataSourceName :=
  (record.tenant, record.logical)

/-! ## What was published is still recorded -/

/-- The first record of a tenant's logical data source. -/
def recordOf (placements : List PlacementRecord) (tenant : TenantId)
    (logical : LogicalDataSourceName) : Option PlacementRecord :=
  placements.find? fun record => record.tenant == tenant && record.logical == logical

/-- What the records of a published tenant come to: `kept` and `changed`. -/
structure Recorded where
  revision : BindingRevision
  changed : Bool

/-- One logical data source of a published tenant. -/
def Recorded.step (placements : List PlacementRecord) (tenant : TenantId) (kept : Recorded)
    (entry : LogicalDataSourceName × TenantDataBindingDocument) : Except ComposeError Recorded :=
  match recordOf placements tenant entry.1 with
  | none => .error (.placementRemoved tenant entry.1)
  | some record => .ok
      { revision := kept.revision.saturatingAdd record.revision
        changed := kept.changed || (record.dataSource != entry.2.dataSource ||
          record.isolation != entry.2.isolation) }

/-- The loop over the logical data sources of a published tenant. -/
def keptOf (placements : List PlacementRecord) (tenant : TenantBindingDocument) :
    Except ComposeError Recorded :=
  tenant.data.toList.foldlM (Recorded.step placements tenant.tenant) ⟨0, false⟩

/-- One published tenant. -/
def refuseLowered (placements : List PlacementRecord) (tenant : TenantBindingDocument) :
    Except ComposeError Unit := do
  let kept ← keptOf placements tenant
  if kept.revision < tenant.revision ∨ (kept.changed ∧ kept.revision = tenant.revision) then
    .error (.placementLowered tenant.tenant tenant.revision kept.revision)
  else
    .ok ()

/-- `refuse_removed_or_lowered`. -/
def refuseRemovedOrLowered (placements : List PlacementRecord)
    (published : List TenantBindingDocument) : Except ComposeError Unit :=
  published.forM (refuseLowered placements)

/-! ## Composing -/

/-- `Accumulator`. -/
structure Accumulator where
  data : TenantDataBindings
  revision : BindingRevision

/-- `Accumulator::default`. -/
def Accumulator.empty : Accumulator := ⟨∅, 0⟩

/-- What a tenant has accumulated. -/
def accumulated (byTenant : BTreeMap TenantId Accumulator) (tenant : TenantId) : Accumulator :=
  byTenant[tenant]?.getD Accumulator.empty

/-- One placement goes into its tenant's accumulator. -/
def accumulate (byTenant : BTreeMap TenantId Accumulator) (placement : PlacementRecord) :
    Except ComposeError (BTreeMap TenantId Accumulator) :=
  let accumulator := accumulated byTenant placement.tenant
  if accumulator.data[placement.logical]?.isSome then
    .error (.duplicatePlacement placement.tenant placement.logical)
  else
    .ok (byTenant.insert placement.tenant
      { data := accumulator.data.insert placement.logical placement.binding
        revision := accumulator.revision.saturatingAdd placement.revision })

/-- The document of what a tenant accumulated: nothing produces the rest of one yet. -/
def Accumulator.document (accumulator : Accumulator) (tenant : TenantId) :
    TenantBindingDocument where
  tenant := tenant
  revision := accumulator.revision
  data := accumulator.data
  configuration := none
  secrets := none
  features := ∅
  storage := ∅

/-- One tenant of the document. -/
def bindTenant (entry : TenantId × Accumulator) : Except ComposeError TenantBindingDocument :=
  if entry.2.data.isEmpty then .error (.emptyTenantBinding entry.1)
  else .ok (entry.2.document entry.1)

/-- `compose_tenants`. -/
def composeTenants (placements : List PlacementRecord) :
    Except ComposeError (List TenantBindingDocument) := do
  let byTenant ← placements.foldlM accumulate ∅
  byTenant.toList.mapM bindTenant

/-- `compose`. -/
def compose (declarations : List DataSourceDeclaration) (placements : List PlacementRecord)
    (catalog : CatalogDocument) (held : PublishedRevisions) (published : PublishedResources) :
    Except ComposeError RuntimeSnapshot := do
  refuseRemovedOrLowered placements published.tenants
  let dataSources := sortedBy Publication.DataSourceDocument.id
    (declarations.map DataSourceDeclaration.intoDocument)
  let tenants ← composeTenants placements
  .ok
    { tenants := ⟨revisionOrFirst held.tenants, tenants, .notIntended⟩
      dataSources := ⟨revisionOrFirst held.dataSources, dataSources, .notIntended⟩
      catalog := ⟨revisionOrFirst held.catalog, catalog, .notIntended⟩
      registry := none }

/-! ## Records -/

/-- Each tenant's logical data source is recorded once. -/
def RecordedOnce (placements : List PlacementRecord) : Prop :=
  (placements.map PlacementRecord.pair).Nodup

/-- The records of a tenant. -/
def recordsOf (placements : List PlacementRecord) (tenant : TenantId) : List PlacementRecord :=
  placements.filter fun record => record.tenant = tenant

/-- The revisions of some records, added up. -/
def revisionSum (records : List PlacementRecord) : Nat :=
  (records.map fun record => record.revision.val).sum

section Records

variable {placements : List PlacementRecord} {tenant : TenantId}

theorem mem_recordsOf {record : PlacementRecord} :
    record ∈ recordsOf placements tenant ↔ record ∈ placements ∧ record.tenant = tenant := by
  unfold recordsOf
  rw [List.mem_filter, decide_eq_true_eq]

theorem revisionSum_append (placements : List PlacementRecord) (placement : PlacementRecord)
    (tenant : TenantId) : revisionSum (recordsOf (placements ++ [placement]) tenant) =
      revisionSum (recordsOf placements tenant) +
        if placement.tenant = tenant then placement.revision.val else 0 := by
  unfold revisionSum recordsOf
  rw [List.filter_append, List.map_append, List.sum_append]
  by_cases htenant : placement.tenant = tenant <;> simp [htenant]

theorem mem_of_recordOf {logical : LogicalDataSourceName} {record : PlacementRecord}
    (h : recordOf placements tenant logical = some record) :
    record ∈ placements ∧ record.tenant = tenant ∧ record.logical = logical := by
  have hpair := List.find?_some h
  rw [Bool.and_eq_true, beq_iff_eq, beq_iff_eq] at hpair
  exact ⟨List.mem_of_find?_eq_some h, hpair⟩

/-- Where everything is recorded once, the record that is found is the only one. -/
theorem recordOf_eq_some (honce : RecordedOnce placements) {logical : LogicalDataSourceName}
    {record : PlacementRecord} : recordOf placements tenant logical = some record ↔
      record ∈ placements ∧ record.tenant = tenant ∧ record.logical = logical := by
  refine ⟨mem_of_recordOf, fun h => ?_⟩
  obtain ⟨hmem, rfl, rfl⟩ := h
  cases hfound : recordOf placements record.tenant record.logical with
  | none =>
      have hnone := List.find?_eq_none.mp hfound record hmem
      simp at hnone
  | some found =>
      obtain ⟨hfoundMem, htenant, hlogical⟩ := mem_of_recordOf hfound
      have hpair : found.pair = record.pair := Prod.ext htenant hlogical
      rw [List.inj_on_of_nodup_map honce hfoundMem hmem hpair]

theorem recordOf_perm (honce : RecordedOnce placements) {others : List PlacementRecord}
    (hperm : placements.Perm others) : recordOf placements = recordOf others := by
  have hothers : RecordedOnce others := (hperm.map PlacementRecord.pair).nodup_iff.mp honce
  ext tenant logical record
  rw [recordOf_eq_some honce, recordOf_eq_some hothers,
    hperm.mem_iff]

end Records

/-! ## What accumulates -/

/-- What some placements accumulate into. -/
structure Accumulates (placements : List PlacementRecord)
    (byTenant : BTreeMap TenantId Accumulator) : Prop where
  present : ∀ tenant, byTenant[tenant]?.isSome ↔ ∃ record ∈ placements, record.tenant = tenant
  data : ∀ tenant logical binding,
    (accumulated byTenant tenant).data[logical]? = some binding ↔
      ∃ record ∈ placements, record.pair = (tenant, logical) ∧ record.binding = binding
  revision : ∀ tenant, (accumulated byTenant tenant).revision.val =
    min (revisionSum (recordsOf placements tenant)) (2 ^ 64 - 1)

namespace Accumulates

variable {placements : List PlacementRecord} {byTenant : BTreeMap TenantId Accumulator}

theorem nil : Accumulates [] ∅ := by
  constructor
  · simp
  · simp [accumulated, Accumulator.empty]
  · intro tenant
    simp [accumulated, Accumulator.empty, recordsOf, revisionSum]

/-- A logical data source has accumulated where one is recorded. -/
theorem isSome_data_iff (h : Accumulates placements byTenant) {tenant : TenantId}
    {logical : LogicalDataSourceName} :
    (accumulated byTenant tenant).data[logical]?.isSome ↔
      (tenant, logical) ∈ placements.map PlacementRecord.pair := by
  rw [Option.isSome_iff_exists]
  simp only [h.data, List.mem_map]
  constructor
  · rintro ⟨_, record, hmem, hpair, -⟩
    exact ⟨record, hmem, hpair⟩
  · rintro ⟨record, hmem, hpair⟩
    exact ⟨_, record, hmem, hpair, rfl⟩

theorem accumulated_insert (byTenant : BTreeMap TenantId Accumulator) (tenant other : TenantId)
    (accumulator : Accumulator) : accumulated (byTenant.insert tenant accumulator) other =
      if tenant = other then accumulator else accumulated byTenant other := by
  unfold accumulated
  split
  · rename_i hsame
    subst hsame
    rw [Library.getElem?_insert_self]
    rfl
  · rename_i hother
    rw [Library.getElem?_insert_ne _ _ hother]

/-- One placement more, recorded for the first time. -/
theorem append (h : Accumulates placements byTenant) {placement : PlacementRecord}
    (hfresh : placement.pair ∉ placements.map PlacementRecord.pair) :
    Accumulates (placements ++ [placement]) (byTenant.insert placement.tenant
      { data := (accumulated byTenant placement.tenant).data.insert placement.logical
          placement.binding
        revision := (accumulated byTenant placement.tenant).revision.saturatingAdd
          placement.revision }) := by
  constructor
  · intro tenant
    rw [Library.isSome_insert_iff, h.present]
    simp only [List.mem_append, List.mem_singleton, or_and_right, exists_or, exists_eq_left]
    rw [or_comm, eq_comm]
  · intro tenant logical binding
    simp only [List.mem_append, List.mem_singleton, or_and_right, exists_or, exists_eq_left]
    rw [accumulated_insert, ← h.data]
    split
    · rename_i hsame
      subst hsame
      by_cases hlogical : placement.logical = logical
      · -- It is the first binding of this logical data source.
        subst hlogical
        have hnone : (accumulated byTenant placement.tenant).data[placement.logical]? = none := by
          rw [← Option.not_isSome_iff_eq_none, h.isSome_data_iff]
          exact hfresh
        rw [Library.getElem?_insert_self, hnone]
        simp [PlacementRecord.pair]
      · rw [Library.getElem?_insert_ne _ _ hlogical]
        simp [PlacementRecord.pair, hlogical]
    · rename_i hother
      simp [PlacementRecord.pair, hother]
  · intro tenant
    rw [accumulated_insert]
    rw [revisionSum_append]
    have hold := h.revision tenant
    split
    · rename_i hsame
      subst hsame
      rw [U64.val_saturatingAdd, hold]
      omega
    · rw [Nat.add_zero]
      exact hold

/-- What placements accumulate into does not depend on their order. -/
theorem perm (h : Accumulates placements byTenant) {others : List PlacementRecord}
    (hperm : placements.Perm others) : Accumulates others byTenant := by
  have hsum : ∀ tenant, revisionSum (recordsOf others tenant) =
      revisionSum (recordsOf placements tenant) := fun tenant =>
    ((hperm.filter _).map fun record : PlacementRecord => record.revision.val).sum_eq.symm
  refine ⟨fun tenant => ?_, fun tenant logical binding => ?_, fun tenant => ?_⟩
  · rw [h.present]
    simp only [hperm.mem_iff]
  · rw [h.data]
    simp only [hperm.mem_iff]
  · rw [hsum]
    exact h.revision tenant

/-- Placements accumulate into one thing. -/
theorem unique (h : Accumulates placements byTenant) {other : BTreeMap TenantId Accumulator}
    (hother : Accumulates placements other) : byTenant = other := by
  have haccumulated : ∀ tenant, accumulated byTenant tenant = accumulated other tenant := by
    intro tenant
    have hdata : (accumulated byTenant tenant).data = (accumulated other tenant).data := by
      apply Std.ExtTreeMap.ext_getElem?
      intro logical
      ext binding
      rw [h.data, hother.data]
    have hrevision : (accumulated byTenant tenant).revision =
        (accumulated other tenant).revision :=
      Fin.ext ((h.revision tenant).trans (hother.revision tenant).symm)
    cases hleft : accumulated byTenant tenant
    cases hright : accumulated other tenant
    rw [hleft, hright] at hdata hrevision
    exact congrArg₂ Accumulator.mk hdata hrevision
  apply Std.ExtTreeMap.ext_getElem?
  intro tenant
  have hpresent : byTenant[tenant]?.isSome = other[tenant]?.isSome := by
    rw [Bool.eq_iff_iff, h.present, hother.present]
  have hsame := haccumulated tenant
  unfold accumulated at hsame
  cases hleft : byTenant[tenant]? with
  | none =>
      rw [hleft] at hpresent
      exact (Option.not_isSome_iff_eq_none.mp (by rw [← hpresent]; exact Bool.false_ne_true)).symm
  | some accumulator =>
      rw [hleft] at hpresent hsame
      obtain ⟨found, hright⟩ := Option.isSome_iff_exists.mp hpresent.symm
      rw [hright] at hsame ⊢
      exact congrArg some hsame

end Accumulates

/-! ## What composes -/

section Composed

variable {placements : List PlacementRecord}

theorem accumulate_eq_ok {byTenant next : BTreeMap TenantId Accumulator}
    (h : Accumulates placements byTenant) {placement : PlacementRecord} :
    accumulate byTenant placement = .ok next ↔
      placement.pair ∉ placements.map PlacementRecord.pair ∧
        byTenant.insert placement.tenant
          { data := (accumulated byTenant placement.tenant).data.insert placement.logical
              placement.binding
            revision := (accumulated byTenant placement.tenant).revision.saturatingAdd
              placement.revision } = next := by
  have hseen := @Accumulates.isSome_data_iff _ _ h placement.tenant placement.logical
  have hpair : placement.pair = (placement.tenant, placement.logical) := rfl
  unfold accumulate
  dsimp only
  rw [hpair, ← hseen]
  split
  · rename_i hsome
    simp [hsome]
  · rename_i hnone
    simp [hnone]

/-- What some placements were accumulated into. -/
theorem accumulates_of_foldlM {byTenant : BTreeMap TenantId Accumulator}
    (h : placements.foldlM accumulate ∅ = .ok byTenant) :
    RecordedOnce placements ∧ Accumulates placements byTenant := by
  induction placements using List.reverseRecOn generalizing byTenant with
  | nil =>
      cases h
      exact ⟨List.nodup_nil, Accumulates.nil⟩
  | append_singleton placements placement ih =>
      rw [List.foldlM_append, bind_eq_ok] at h
      obtain ⟨before, hbefore, hlast⟩ := h
      obtain ⟨honce, haccumulates⟩ := ih hbefore
      rw [List.foldlM_cons, bind_eq_ok] at hlast
      obtain ⟨_, hstep, hnil⟩ := hlast
      cases hnil
      obtain ⟨hfresh, rfl⟩ := (accumulate_eq_ok haccumulates).mp hstep
      refine ⟨?_, haccumulates.append hfresh⟩
      unfold RecordedOnce
      rw [List.map_append, List.map_singleton, List.nodup_append]
      refine ⟨honce, List.nodup_singleton _, fun pair hpair other hother heq => hfresh ?_⟩
      rw [← List.mem_singleton.mp hother, ← heq]
      exact hpair

theorem exists_foldlM_accumulate (honce : RecordedOnce placements) :
    ∃ byTenant, placements.foldlM accumulate ∅ = .ok byTenant := by
  induction placements using List.reverseRecOn with
  | nil => exact ⟨∅, rfl⟩
  | append_singleton placements placement ih =>
      unfold RecordedOnce at honce
      rw [List.map_append, List.map_singleton, List.nodup_append] at honce
      obtain ⟨before, hbefore⟩ := ih honce.1
      have haccumulates := (accumulates_of_foldlM hbefore).2
      have hfresh : placement.pair ∉ placements.map PlacementRecord.pair := fun hmem =>
        honce.2.2 _ hmem _ (List.mem_singleton.mpr rfl) rfl
      obtain ⟨next, hstep⟩ : ∃ next, accumulate before placement = .ok next :=
        ⟨_, (accumulate_eq_ok haccumulates).mpr ⟨hfresh, rfl⟩⟩
      refine ⟨next, ?_⟩
      rw [List.foldlM_append, hbefore]
      exact bind_eq_ok.mpr ⟨before, rfl, bind_eq_ok.mpr ⟨next, hstep, rfl⟩⟩

/-- The tenants of what was accumulated. -/
def documentsOf (byTenant : BTreeMap TenantId Accumulator) : List TenantBindingDocument :=
  byTenant.toList.map fun entry => entry.2.document entry.1

/-- Nothing accumulates without a binding. -/
theorem Accumulates.nonempty {byTenant : BTreeMap TenantId Accumulator}
    (h : Accumulates placements byTenant) {tenant : TenantId} {accumulator : Accumulator}
    (hfound : byTenant[tenant]? = some accumulator) : accumulator.data.isEmpty = false := by
  obtain ⟨record, hmem, rfl⟩ := (h.present tenant).mp (by rw [hfound]; rfl)
  have hdata := (h.data record.tenant record.logical record.binding).mpr ⟨record, hmem, rfl, rfl⟩
  have hsame : accumulated byTenant record.tenant = accumulator := by
    unfold accumulated
    rw [hfound]
    rfl
  rw [hsame] at hdata
  rw [Bool.eq_false_iff, Ne, Std.ExtTreeMap.isEmpty_iff]
  intro hempty
  rw [hempty] at hdata
  simp at hdata

/-- What is composed is one document for each tenant, of all that it accumulated. -/
theorem composeTenants_eq_ok {documents : List TenantBindingDocument} :
    composeTenants placements = .ok documents ↔ RecordedOnce placements ∧
      ∃ byTenant, Accumulates placements byTenant ∧ documents = documentsOf byTenant := by
  have hdocuments : ∀ byTenant, Accumulates placements byTenant →
      byTenant.toList.mapM bindTenant = .ok (documentsOf byTenant) := by
    intro byTenant haccumulates
    rw [mapM_eq_ok]
    unfold documentsOf
    rw [List.forall₂_map_right_iff, List.forall₂_same]
    rintro ⟨tenant, accumulator⟩ hentry
    have hnonempty := haccumulates.nonempty
      (Std.ExtTreeMap.mem_toList_iff_getElem?_eq_some.mp hentry)
    unfold bindTenant
    rw [hnonempty]
    rfl
  unfold composeTenants
  rw [bind_eq_ok]
  constructor
  · rintro ⟨byTenant, hfold, hmap⟩
    obtain ⟨honce, haccumulates⟩ := accumulates_of_foldlM hfold
    rw [hdocuments byTenant haccumulates] at hmap
    cases hmap
    exact ⟨honce, byTenant, haccumulates, rfl⟩
  · rintro ⟨honce, byTenant, haccumulates, rfl⟩
    obtain ⟨other, hfold⟩ := exists_foldlM_accumulate honce
    have hsame := haccumulates.unique (accumulates_of_foldlM hfold).2
    subst hsame
    exact ⟨byTenant, hfold, hdocuments byTenant haccumulates⟩

/-- The document of a tenant says what is recorded of it, and nothing else. -/
structure ComposedFrom (placements : List PlacementRecord) (document : TenantBindingDocument) :
    Prop where
  recorded : ∃ record ∈ placements, record.tenant = document.tenant
  data : ∀ logical binding, document.data[logical]? = some binding ↔
    ∃ record ∈ placements, record.pair = (document.tenant, logical) ∧ record.binding = binding
  revision : document.revision.val =
    min (revisionSum (recordsOf placements document.tenant)) (2 ^ 64 - 1)
  configuration : document.configuration = none
  secrets : document.secrets = none
  features : document.features = ∅
  storage : document.storage = ∅

theorem mem_composeTenants {documents : List TenantBindingDocument}
    (h : composeTenants placements = .ok documents) {document : TenantBindingDocument} :
    document ∈ documents ↔ ComposedFrom placements document := by
  obtain ⟨-, byTenant, haccumulates, rfl⟩ := composeTenants_eq_ok.mp h
  unfold documentsOf
  rw [List.mem_map]
  constructor
  · rintro ⟨⟨tenant, accumulator⟩, hentry, rfl⟩
    have hfound := Std.ExtTreeMap.mem_toList_iff_getElem?_eq_some.mp hentry
    have hsame : accumulated byTenant tenant = accumulator := by
      unfold accumulated
      rw [hfound]
      rfl
    subst hsame
    exact ⟨(haccumulates.present tenant).mp (by rw [hfound]; rfl), haccumulates.data tenant,
      haccumulates.revision tenant, rfl, rfl, rfl, rfl⟩
  · intro hcomposed
    obtain ⟨accumulator, hfound⟩ := Option.isSome_iff_exists.mp
      ((haccumulates.present document.tenant).mpr hcomposed.recorded)
    have hsame : accumulated byTenant document.tenant = accumulator := by
      unfold accumulated
      rw [hfound]
      rfl
    refine ⟨(document.tenant, accumulator),
      Std.ExtTreeMap.mem_toList_iff_getElem?_eq_some.mpr hfound, ?_⟩
    have hdata : accumulator.data = document.data := by
      apply Std.ExtTreeMap.ext_getElem?
      intro logical
      ext binding
      rw [← hsame, haccumulates.data, hcomposed.data]
    have hrevision : accumulator.revision = document.revision := by
      apply Fin.ext
      rw [← hsame, haccumulates.revision, hcomposed.revision]
    unfold Accumulator.document
    rw [hdata, hrevision, ← hcomposed.configuration, ← hcomposed.secrets, ← hcomposed.features,
      ← hcomposed.storage]

/-- A tenant that is recorded has a document. -/
theorem exists_mem_composeTenants {documents : List TenantBindingDocument}
    (h : composeTenants placements = .ok documents) {record : PlacementRecord}
    (hrecord : record ∈ placements) : ∃ document ∈ documents, document.tenant = record.tenant := by
  obtain ⟨-, byTenant, haccumulates, rfl⟩ := composeTenants_eq_ok.mp h
  obtain ⟨accumulator, hfound⟩ := Option.isSome_iff_exists.mp
    ((haccumulates.present record.tenant).mpr ⟨record, hrecord, rfl⟩)
  exact ⟨accumulator.document record.tenant, List.mem_map.mpr ⟨(record.tenant, accumulator),
    Std.ExtTreeMap.mem_toList_iff_getElem?_eq_some.mpr hfound, rfl⟩, rfl⟩

/-- Each tenant has one document. -/
theorem nodup_composeTenants {documents : List TenantBindingDocument}
    (h : composeTenants placements = .ok documents) :
    (documents.map TenantBindingDocument.tenant).Nodup := by
  obtain ⟨-, byTenant, -, rfl⟩ := composeTenants_eq_ok.mp h
  unfold documentsOf
  rw [List.map_map]
  refine List.pairwise_map.mpr (Std.ExtTreeMap.distinct_keys_toList.imp ?_)
  intro left right hne heq
  have htenant : left.1 = right.1 := heq
  rw [htenant] at hne
  exact hne Std.ReflOrd.compare_self

/-- The order in which placements are listed is not seen in the document. -/
theorem composeTenants_perm {others : List PlacementRecord} (hperm : placements.Perm others)
    {documents : List TenantBindingDocument} (h : composeTenants placements = .ok documents) :
    composeTenants others = .ok documents := by
  obtain ⟨honce, byTenant, haccumulates, hdocuments⟩ := composeTenants_eq_ok.mp h
  exact composeTenants_eq_ok.mpr ⟨(hperm.map PlacementRecord.pair).nodup_iff.mp honce, byTenant,
    haccumulates.perm hperm, hdocuments⟩

end Composed

end Platform
end SaasFabric
