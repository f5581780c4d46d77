import SaasFabric.Platform.Coherence
import SaasFabric.Platform.Snapshot

/-!
# What is composed can be published

A composed snapshot against the checks of its publisher: what was published is advanced or the
same, and no tenant is left out; a record that goes back is refused before anything is composed.
-/

namespace SaasFabric
namespace Platform

open Library (bind_eq_ok forM_eq_ok FailsWith)
open Publication (CatalogDocument Codecs PublicationError PublishedResources PublishedRevisions
  RuntimeSnapshot TellsApart TenantBindingDocument TenantDataBindingDocument heldCopies identityBy
  refuseRemovedTenants refuseResource refuseResourceChanges refuseUnadvanced)

/-! ## Published tenants that are still recorded -/

/-- The logical data sources of a tenant. -/
def logicalNames (tenant : TenantBindingDocument) : List LogicalDataSourceName :=
  tenant.data.toList.map Prod.fst

/-- What a logical data source adds to the revision of its tenant. -/
def recordedRevision (placements : List PlacementRecord) (tenant : TenantId)
    (logical : LogicalDataSourceName) : Nat :=
  ((recordOf placements tenant logical).map fun record => record.revision.val).getD 0

/-- The records of the logical data sources that a tenant was published with. -/
def keptRecords (placements : List PlacementRecord) (tenant : TenantBindingDocument) :
    List PlacementRecord :=
  (logicalNames tenant).filterMap (recordOf placements tenant.tenant)

/-- A published tenant that its records account for: its revision is reached, and where it is
not passed, nothing is bound otherwise. -/
structure StillRecorded (placements : List PlacementRecord) (tenant : TenantBindingDocument) :
    Prop where
  recorded : ∀ logical ∈ logicalNames tenant,
    ∃ record, recordOf placements tenant.tenant logical = some record
  reached : tenant.revision.val ≤ revisionSum (keptRecords placements tenant)
  unchanged : min (revisionSum (keptRecords placements tenant)) (2 ^ 64 - 1) =
      tenant.revision.val → ∀ logical record,
    recordOf placements tenant.tenant logical = some record → logical ∈ logicalNames tenant →
      tenant.data[logical]? = some record.binding

section StillRecorded

variable {placements : List PlacementRecord} {tenant : TenantBindingDocument}

theorem nodup_logicalNames (tenant : TenantBindingDocument) : (logicalNames tenant).Nodup := by
  refine List.pairwise_map.mpr (Std.ExtTreeMap.distinct_keys_toList.imp ?_)
  intro left right hne heq
  rw [heq] at hne
  exact hne Std.ReflOrd.compare_self

theorem mem_logicalNames {logical : LogicalDataSourceName} :
    logical ∈ logicalNames tenant ↔ ∃ binding, tenant.data[logical]? = some binding := by
  unfold logicalNames
  simp only [List.mem_map, Prod.exists, Std.ExtTreeMap.mem_toList_iff_getElem?_eq_some,
    exists_and_right, exists_eq_right]

theorem revisionSum_filterMap (names : List LogicalDataSourceName) (tenant : TenantId) :
    revisionSum (names.filterMap (recordOf placements tenant)) =
      (names.map (recordedRevision placements tenant)).sum := by
  unfold revisionSum recordedRevision
  induction names with
  | nil => rfl
  | cons logical names ih =>
      rw [List.filterMap_cons, List.map_cons, List.sum_cons, ← ih]
      cases recordOf placements tenant logical with
      | none => simp
      | some record => simp

/-- The loop over the logical data sources of a tenant adds up the revisions of their records,
and sees whether any is bound otherwise. -/
theorem foldlM_keep {tenant : TenantId}
    {entries : List (LogicalDataSourceName × TenantDataBindingDocument)} {kept result : Recorded}
    (h : entries.foldlM (Recorded.step placements tenant) kept = .ok result) :
    (∀ entry ∈ entries, ∃ record, recordOf placements tenant entry.1 = some record) ∧
      result.revision.val = min (kept.revision.val + ((entries.map Prod.fst).map
        (recordedRevision placements tenant)).sum) (2 ^ 64 - 1) ∧
      (result.changed = false → kept.changed = false ∧ ∀ entry ∈ entries, ∀ record,
        recordOf placements tenant entry.1 = some record → record.binding = entry.2) := by
  induction entries generalizing kept with
  | nil =>
      cases h
      have hbound := result.revision.isLt
      refine ⟨by simp, ?_, fun hchanged => ⟨hchanged, by simp⟩⟩
      simp only [List.map_nil, List.sum_nil, Nat.add_zero]
      omega
  | cons entry entries ih =>
      rw [List.foldlM_cons, bind_eq_ok] at h
      obtain ⟨next, hstep, hrest⟩ := h
      unfold Recorded.step at hstep
      split at hstep
      · cases hstep
      · rename_i record hrecord
        cases hstep
        obtain ⟨hrecorded, hrevision, hchanged⟩ := ih hrest
        have hadds : recordedRevision placements tenant entry.1 = record.revision.val := by
          unfold recordedRevision
          rw [hrecord]
          rfl
        refine ⟨List.forall_mem_cons.mpr ⟨⟨record, hrecord⟩, hrecorded⟩, ?_, fun hunchanged => ?_⟩
        · rw [hrevision, U64.val_saturatingAdd]
          simp only [List.map_cons, List.sum_cons, hadds]
          omega
        · obtain ⟨hbefore, hbound⟩ := hchanged hunchanged
          simp only [Bool.or_eq_false_iff, bne_eq_false_iff_eq] at hbefore
          refine ⟨hbefore.1, List.forall_mem_cons.mpr ⟨fun found hfound => ?_, hbound⟩⟩
          rw [hrecord] at hfound
          cases hfound
          unfold PlacementRecord.binding
          rw [hbefore.2.1, hbefore.2.2]

/-- A published tenant that is not refused is still recorded. -/
theorem stillRecorded_of_refuseLowered (h : refuseLowered placements tenant = .ok ()) :
    StillRecorded placements tenant := by
  unfold refuseLowered at h
  obtain ⟨kept, hkept, hrest⟩ := bind_eq_ok.mp h
  obtain ⟨hrecorded, hrevision, hchanged⟩ := foldlM_keep hkept
  have hsum : kept.revision.val =
      min (revisionSum (keptRecords placements tenant)) (2 ^ 64 - 1) := by
    unfold keptRecords
    rw [hrevision, revisionSum_filterMap, Fin.val_zero, Nat.zero_add]
    rfl
  split at hrest
  · cases hrest
  · rename_i hreached
    rw [not_or, not_lt, not_and, Fin.le_def] at hreached
    refine ⟨fun logical hlogical => ?_, by omega, fun heq logical record hrecord hlogical => ?_⟩
    · obtain ⟨entry, hentry, rfl⟩ := List.mem_map.mp hlogical
      exact hrecorded entry hentry
    · have hunchanged : kept.changed = false := by
        rw [← Bool.not_eq_true]
        intro hchanged'
        exact hreached.2 hchanged' (Fin.ext (hsum.trans heq))
      obtain ⟨binding, hbinding⟩ := mem_logicalNames.mp hlogical
      have hbound := (hchanged hunchanged).2 (logical, binding)
        (Std.ExtTreeMap.mem_toList_iff_getElem?_eq_some.mpr hbinding) record hrecord
      rw [hbinding, hbound]

/-- The records that are kept are some of the tenant's. -/
theorem keptRecords_subperm (tenant : TenantBindingDocument) :
    (keptRecords placements tenant).Subperm (recordsOf placements tenant.tenant) := by
  apply List.subperm_of_subset
  · refine (nodup_logicalNames tenant).filterMap fun first second record hfirst hsecond => ?_
    exact (mem_of_recordOf hfirst).2.2.symm.trans (mem_of_recordOf hsecond).2.2
  · intro record hrecord
    obtain ⟨logical, -, hfound⟩ := List.mem_filterMap.mp hrecord
    obtain ⟨hmem, htenant, -⟩ := mem_of_recordOf hfound
    exact mem_recordsOf.mpr ⟨hmem, htenant⟩

end StillRecorded

/-! ## What follows what was published -/

/-- Every record has a revision, and no tenant's add up to the greatest number. -/
structure Counted (placements : List PlacementRecord) : Prop where
  positive : ∀ record ∈ placements, 1 ≤ record.revision
  bounded : ∀ tenant, revisionSum (recordsOf placements tenant) < 2 ^ 64 - 1

/-- The document of a tenant as a pass publishes one: it has data, and nothing else. -/
structure OfData (tenant : TenantBindingDocument) : Prop where
  data : tenant.data.isEmpty = false
  configuration : tenant.configuration = none
  secrets : tenant.secrets = none
  features : tenant.features = ∅
  storage : tenant.storage = ∅

/-- Every tenant that is held is held at the highest revision it was published at. -/
def HoldsHighest (published : PublishedResources) : Prop :=
  ∀ tenant ∈ published.tenants, ∀ revision,
    published.history.tenant tenant.tenant = some revision → revision ≤ tenant.revision

section Follows

variable {placements : List PlacementRecord} {document held : TenantBindingDocument}

/-- The records of a tenant that is still recorded bring it past its published revision, or
leave it as it was published. -/
theorem follows_of_stillRecorded (hcounted : Counted placements)
    (hcomposed : ComposedFrom placements document) (hdata : OfData held)
    (htenant : held.tenant = document.tenant) (hstill : StillRecorded placements held) :
    held.revision < document.revision ∨ document = held := by
  have hbounded := hcounted.bounded document.tenant
  have hsubperm : (keptRecords placements held).Subperm (recordsOf placements held.tenant) :=
    keptRecords_subperm held
  rw [htenant] at hsubperm
  have hkept : revisionSum (keptRecords placements held) ≤
      revisionSum (recordsOf placements document.tenant) := Library.sum_le_of_subperm _ hsubperm
  have hrevision := hcomposed.revision
  have hreached := hstill.reached
  refine (le_or_gt document.revision held.revision).symm.imp id fun hle => ?_
  rw [Fin.le_def] at hle
  -- No revision is left for a record that was not published.
  have hperm : (keptRecords placements held).Perm (recordsOf placements document.tenant) := by
    refine Library.perm_of_sum_le (fun record => record.revision.val) hsubperm
      (fun record hrecord => ?_) ?_
    · exact Fin.le_def.mp (hcounted.positive record (mem_recordsOf.mp hrecord).1)
    · show revisionSum _ ≤ revisionSum _
      omega
  have hsum : revisionSum (keptRecords placements held) =
      revisionSum (recordsOf placements document.tenant) :=
    (hperm.map fun record : PlacementRecord => record.revision.val).sum_eq
  have hsame : document.revision = held.revision := by
    apply Fin.ext
    omega
  have hunchanged := hstill.unchanged (by omega)
  have hbindings : document.data = held.data := by
    apply Std.ExtTreeMap.ext_getElem?
    intro logical
    ext binding
    rw [hcomposed.data]
    constructor
    · rintro ⟨record, hmem, hpair, rfl⟩
      obtain ⟨hrecordTenant, rfl⟩ := Prod.mk.injEq .. ▸ hpair
      have hkeptRecord : record ∈ keptRecords placements held :=
        hperm.mem_iff.mpr (mem_recordsOf.mpr ⟨hmem, hrecordTenant⟩)
      obtain ⟨logical, hlogical, hfound⟩ := List.mem_filterMap.mp hkeptRecord
      have hname := (mem_of_recordOf hfound).2.2
      subst hname
      exact hunchanged _ record hfound hlogical
    · intro hbinding
      have hlogical := mem_logicalNames.mpr ⟨binding, hbinding⟩
      obtain ⟨record, hfound⟩ := hstill.recorded logical hlogical
      have hbound := hunchanged logical record hfound hlogical
      rw [hbinding] at hbound
      cases hbound
      obtain ⟨hmem, hrecordTenant, hname⟩ := mem_of_recordOf hfound
      exact ⟨record, hmem, Prod.ext (hrecordTenant.trans htenant) hname, rfl⟩
  cases document
  cases held
  simp only [TenantBindingDocument.mk.injEq]
  exact ⟨htenant.symm, hsame, hbindings, hcomposed.configuration.trans hdata.configuration.symm,
    hcomposed.secrets.trans hdata.secrets.symm, hcomposed.features.trans hdata.features.symm,
    hcomposed.storage.trans hdata.storage.symm⟩

end Follows

section Compose

variable {declarations : List DataSourceDeclaration} {placements : List PlacementRecord}
  {catalog : CatalogDocument} {held : PublishedRevisions} {published : PublishedResources}
  {snapshot : RuntimeSnapshot}

/-- What is composed: everything published is still recorded, and the documents are those of
what is declared and recorded. -/
theorem compose_eq_ok : compose declarations placements catalog held published = .ok snapshot ↔
    refuseRemovedOrLowered placements published.tenants = .ok () ∧
      ∃ tenants, composeTenants placements = .ok tenants ∧ snapshot =
        { tenants := ⟨revisionOrFirst held.tenants, tenants, .notIntended⟩
          dataSources := ⟨revisionOrFirst held.dataSources,
            Publication.sortedBy Publication.DataSourceDocument.id
              (declarations.map DataSourceDeclaration.intoDocument), .notIntended⟩
          catalog := ⟨revisionOrFirst held.catalog, catalog, .notIntended⟩
          registry := none } := by
  unfold compose
  rw [bind_eq_ok]
  simp only [bind_eq_ok, Except.ok.injEq, Unique.exists_iff, PUnit.default_eq_unit]
  refine and_congr_right fun _ => exists_congr fun tenants => and_congr_right fun _ => ?_
  exact eq_comm

/-- The publisher lets a composed tenant follow the copy of it that is held. -/
theorem refuseResource_of_compose {codecs : Codecs} (htells : TellsApart codecs.tenantValue)
    (hcounted : Counted placements) (hhighest : HoldsHighest published)
    (hdata : ∀ tenant ∈ published.tenants, OfData tenant)
    (h : compose declarations placements catalog held published = .ok snapshot)
    {document : TenantBindingDocument} (hdocument : document ∈ snapshot.tenants.payload)
    (hheld : ∃ tenant ∈ published.tenants, tenant.tenant = document.tenant) :
    refuseResource .tenants codecs.tenantValue
      ((heldCopies (identityBy TenantBindingDocument.tenant TenantBindingDocument.revision
        published.history.tenants) published.tenants).lookup (toString document.tenant))
      (toString document.tenant) document.revision (published.history.tenant document.tenant)
      document = .ok () := by
  obtain ⟨hrefuse, tenants, htenants, rfl⟩ := compose_eq_ok.mp h
  have hcomposed := (mem_composeTenants htenants).mp hdocument
  obtain ⟨copy, hcopy⟩ := Publication.exists_lookup_heldCopies
    TenantBindingDocument.tenant TenantBindingDocument.revision published.history.tenants hheld
  obtain ⟨hmem, htenant, hrevision⟩ := Publication.mem_of_lookup_heldCopies hcopy
  have hstill := stillRecorded_of_refuseLowered (forM_eq_ok.mp hrefuse copy.2 hmem)
  have hfollows := follows_of_stillRecorded hcounted hcomposed (hdata copy.2 hmem) htenant hstill
  have hfloor : Library.maxFloor (some copy.1) (published.history.tenant document.tenant) =
      some copy.1 := by
    cases hhistory : published.history.tenant document.tenant with
    | none => rfl
    | some floor =>
        have hle : floor ≤ copy.2.revision := hhighest copy.2 hmem floor (by rw [htenant, hhistory])
        rw [← hrevision] at hle
        exact congrArg some (max_eq_left hle)
  rw [hcopy]
  unfold refuseResource
  rw [Option.map_some, hfloor]
  dsimp only
  rw [if_pos]
  unfold Publication.advanced
  rw [Bool.or_eq_true, decide_eq_true_eq, hrevision]
  refine hfollows.imp id fun hsame => ?_
  subst hsame
  simp only [Option.any_some, Bool.and_eq_true, beq_iff_eq, Publication.sameContent_iff htells]
  exact ⟨⟨hrevision.symm, hrevision⟩, trivial⟩

/-- No tenant that is held is left out of what is composed. -/
theorem refuseRemovedTenants_of_compose (hdata : ∀ tenant ∈ published.tenants, OfData tenant)
    (h : compose declarations placements catalog held published = .ok snapshot) :
    refuseRemovedTenants snapshot published.tenants = .ok () := by
  obtain ⟨hrefuse, tenants, htenants, rfl⟩ := compose_eq_ok.mp h
  rw [Publication.refuseRemovedTenants_eq_ok]
  refine Or.inr fun tenant htenant => ?_
  have hstill := stillRecorded_of_refuseLowered (forM_eq_ok.mp hrefuse tenant htenant)
  -- It was published with some logical data source, which is recorded.
  have hnonempty : tenant.data ≠ ∅ := fun hempty => by
    have hfalse := (hdata tenant htenant).data
    rw [Std.ExtTreeMap.isEmpty_iff.mpr hempty] at hfalse
    cases hfalse
  obtain ⟨logical, hlogical⟩ : ∃ logical, logical ∈ logicalNames tenant := by
    by_contra hnone
    refine hnonempty (Std.ExtTreeMap.ext_getElem? fun logical => ?_)
    rw [Std.ExtTreeMap.getElem?_empty, Option.eq_none_iff_forall_ne_some]
    intro binding hbinding
    exact hnone ⟨logical, mem_logicalNames.mpr ⟨binding, hbinding⟩⟩
  obtain ⟨record, hrecord⟩ := hstill.recorded logical hlogical
  obtain ⟨hmem, hrecordTenant, -⟩ := mem_of_recordOf hrecord
  obtain ⟨document, hdocument, hsame⟩ := exists_mem_composeTenants htenants hmem
  exact List.mem_map.mpr ⟨document, hdocument, hsame.trans hrecordTenant⟩

/-- Why a publisher may refuse a snapshot, but not for what it holds. -/
def NotForHeld (published : PublishedResources) (error : PublicationError) : Prop :=
  (∀ tenant ∈ published.tenants, ∀ floor offered,
    error ≠ .resourceRevisionNotAdvanced .tenants (toString tenant.tenant) floor offered) ∧
  ∀ tenant floor, error ≠ .tenantRemoved tenant floor

theorem notForHeld_of_compose {codecs : Codecs} (htells : TellsApart codecs.tenantValue)
    (hcounted : Counted placements) (hhighest : HoldsHighest published)
    (hdata : ∀ tenant ∈ published.tenants, OfData tenant)
    (h : compose declarations placements catalog held published = .ok snapshot) :
    FailsWith (NotForHeld published) (refuseResourceChanges codecs snapshot published) := by
  unfold refuseResourceChanges
  refine FailsWith.bind ?_ fun _ => FailsWith.bind ?_ fun _ => ?_
  · -- A data source is refused as one.
    exact FailsWith.forM fun source _ =>
      Publication.failsWith_refuseResource fun floor => ⟨nofun, nofun⟩
  · refine FailsWith.forM fun document hdocument => ?_
    by_cases hheld : ∃ tenant ∈ published.tenants, tenant.tenant = document.tenant
    · have hok := refuseResource_of_compose htells hcounted hhighest hdata h hdocument hheld
      intro error herror
      exact nomatch hok.symm.trans herror
    · refine Publication.failsWith_refuseResource fun floor => ⟨?_, nofun⟩
      intro tenant htenant _ _ herror
      injection herror with _ hid
      exact hheld ⟨tenant, htenant, Identifier.ext hid.symm⟩
  · rw [refuseRemovedTenants_of_compose hdata h]
    exact FailsWith.ok ()

/-! ## Records that go back -/

/-- A record is gone, is at a lower revision, or binds its logical data source otherwise. -/
inductive Undone (after : List PlacementRecord) (old : PlacementRecord) : Prop where
  | removed (gone : ∀ new ∈ after, new.pair ≠ old.pair)
  | lowered {new : PlacementRecord} (recorded : new ∈ after) (same : new.pair = old.pair)
      (lower : new.revision < old.revision)
  | rebound {new : PlacementRecord} (recorded : new ∈ after) (same : new.pair = old.pair)
      (other : new.binding ≠ old.binding)

/-- One record of a tenant is undone, and no other of its records is raised. -/
structure Undoes (before after : List PlacementRecord) (old : PlacementRecord) : Prop where
  recorded : old ∈ before
  undone : Undone after old
  others : ∀ other ∈ before, other.tenant = old.tenant → other.pair ≠ old.pair →
    ∀ new ∈ after, new.pair = other.pair → new.revision ≤ other.revision

section Undoes

variable {binding : TenantBindingDocument} {old : PlacementRecord}

/-- The records of a tenant are those of the logical data sources it is composed with. -/
theorem revisionSum_of_composedFrom {before : List PlacementRecord} (honce : RecordedOnce before)
    (hcomposed : ComposedFrom before binding) :
    revisionSum (recordsOf before binding.tenant) =
      ((logicalNames binding).map (recordedRevision before binding.tenant)).sum := by
  have hperm : (keptRecords before binding).Perm (recordsOf before binding.tenant) := by
    refine (keptRecords_subperm binding).antisymm (List.subperm_of_subset
      ((List.Nodup.of_map _ honce).filter _) fun record hrecord => ?_)
    obtain ⟨hmem, htenant⟩ := mem_recordsOf.mp hrecord
    have hbound := (hcomposed.data record.logical record.binding).mpr
      ⟨record, hmem, Prod.ext htenant rfl, rfl⟩
    exact List.mem_filterMap.mpr ⟨record.logical, mem_logicalNames.mpr ⟨_, hbound⟩,
      (recordOf_eq_some honce).mpr ⟨hmem, htenant, rfl⟩⟩
  rw [← revisionSum_filterMap]
  exact (hperm.map fun record : PlacementRecord => record.revision.val).sum_eq.symm

/-- Where no record is raised, none that is kept is at a higher revision than the one it stands
for. -/
theorem recordedRevision_le {before : List PlacementRecord} (honce : RecordedOnce before)
    (hcomposed : ComposedFrom before binding) (hstill : StillRecorded placements binding)
    (htenant : old.tenant = binding.tenant) (hundoes : Undoes before placements old)
    (hunraised : ∀ new ∈ placements, new.pair = old.pair → new.revision ≤ old.revision) :
    ∀ logical ∈ logicalNames binding, recordedRevision placements binding.tenant logical ≤
      recordedRevision before binding.tenant logical := by
  intro logical hlogical
  obtain ⟨bound, hbound⟩ := mem_logicalNames.mp hlogical
  obtain ⟨earlier, hearlier, hpair, -⟩ := (hcomposed.data logical bound).mp hbound
  obtain ⟨hearlierTenant, hearlierName⟩ := Prod.mk.injEq .. ▸ hpair
  obtain ⟨later, hlater⟩ := hstill.recorded logical hlogical
  obtain ⟨hmem, hlaterTenant, hlaterName⟩ := mem_of_recordOf hlater
  have hfound := (recordOf_eq_some honce).mpr ⟨hearlier, hearlierTenant, hearlierName⟩
  have hsame : later.pair = earlier.pair :=
    Prod.ext (hlaterTenant.trans hearlierTenant.symm) (hlaterName.trans hearlierName.symm)
  unfold recordedRevision
  rw [hlater, hfound]
  by_cases hold : earlier.pair = old.pair
  · have holdEarlier : earlier = old :=
      List.inj_on_of_nodup_map honce hearlier hundoes.recorded hold
    subst holdEarlier
    exact hunraised later hmem hsame
  · exact hundoes.others earlier hearlier (hearlierTenant.trans htenant.symm) hold later hmem hsame

/-- A record that is undone, and not raised itself, is not published over. -/
theorem compose_refuses {before : List PlacementRecord} {bindings : List TenantBindingDocument}
    (hcounted : Counted before) (hbindings : composeTenants before = .ok bindings)
    (hbinding : binding ∈ bindings) (hpublished : binding ∈ published.tenants)
    (htenant : old.tenant = binding.tenant) (hundoes : Undoes before placements old)
    (hunraised : ∀ new ∈ placements, new.pair = old.pair → new.revision ≤ old.revision) :
    ∃ error, compose declarations placements catalog held published = .error error := by
  cases hcompose : compose declarations placements catalog held published with
  | error error => exact ⟨error, rfl⟩
  | ok snapshot =>
      exfalso
      obtain ⟨hrefuse, tenants, htenants, -⟩ := compose_eq_ok.mp hcompose
      have hbefore := (composeTenants_eq_ok.mp hbindings).1
      have hafter := (composeTenants_eq_ok.mp htenants).1
      have hcomposed := (mem_composeTenants hbindings).mp hbinding
      have hstill := stillRecorded_of_refuseLowered (forM_eq_ok.mp hrefuse binding hpublished)
      have hsum := revisionSum_of_composedFrom hbefore hcomposed
      have hkept : revisionSum (keptRecords placements binding) =
          ((logicalNames binding).map (recordedRevision placements binding.tenant)).sum :=
        revisionSum_filterMap _ _
      have hbounded := hcounted.bounded binding.tenant
      have hrevision := hcomposed.revision
      have hreached := hstill.reached
      -- The published revision is still reached, so no record is at a lower one.
      have hsame := Library.eq_of_sum_le
        (recordedRevision_le hbefore hcomposed hstill htenant hundoes hunraised) (by omega)
      have htotal : revisionSum (keptRecords placements binding) =
          revisionSum (recordsOf before binding.tenant) := by
        rw [hkept, hsum, List.map_congr_left hsame]
      have hunchanged := hstill.unchanged (by omega)
      have hbound := (hcomposed.data old.logical old.binding).mpr
        ⟨old, hundoes.recorded, Prod.ext htenant rfl, rfl⟩
      have hlogical := mem_logicalNames.mpr ⟨_, hbound⟩
      obtain ⟨later, hlater⟩ := hstill.recorded old.logical hlogical
      obtain ⟨hmem, hlaterTenant, hlaterName⟩ := mem_of_recordOf hlater
      have hpair : later.pair = old.pair := Prod.ext (hlaterTenant.trans htenant.symm) hlaterName
      cases hundoes.undone with
      | removed hgone => exact hgone later hmem hpair
      | lowered hnew hnewPair hlower =>
          have hlaterNew := List.inj_on_of_nodup_map hafter hmem hnew (hpair.trans hnewPair.symm)
          subst hlaterNew
          have heq := hsame old.logical hlogical
          unfold recordedRevision at heq
          rw [hlater, (recordOf_eq_some hbefore).mpr ⟨hundoes.recorded, htenant, rfl⟩] at heq
          exact absurd (Fin.ext heq) hlower.ne
      | rebound hnew hnewPair hother =>
          have hlaterNew := List.inj_on_of_nodup_map hafter hmem hnew (hpair.trans hnewPair.symm)
          subst hlaterNew
          have hkeeps := hunchanged old.logical later hlater hlogical
          rw [hbound, Option.some.injEq] at hkeeps
          exact hother hkeeps.symm

end Undoes

/-- The order in which declarations and placements are listed is not seen in what is
composed. -/
theorem compose_perm {otherDeclarations : List DataSourceDeclaration}
    {otherPlacements : List PlacementRecord}
    (hids : (declarations.map DataSourceDeclaration.id).Nodup)
    (hdeclarations : declarations.Perm otherDeclarations)
    (hplacements : placements.Perm otherPlacements)
    (h : compose declarations placements catalog held published = .ok snapshot) :
    compose otherDeclarations otherPlacements catalog held published = .ok snapshot := by
  obtain ⟨hrefuse, tenants, htenants, rfl⟩ := compose_eq_ok.mp h
  have honce := (composeTenants_eq_ok.mp htenants).1
  have hsorted : Publication.sortedBy Publication.DataSourceDocument.id
      (declarations.map DataSourceDeclaration.intoDocument) =
        Publication.sortedBy Publication.DataSourceDocument.id
          (otherDeclarations.map DataSourceDeclaration.intoDocument) := by
    refine Publication.sortedBy_eq_of_perm ?_ (hdeclarations.map _)
    rw [List.map_map]
    exact hids
  have hsame : refuseRemovedOrLowered otherPlacements published.tenants =
      refuseRemovedOrLowered placements published.tenants := by
    have hrecord := recordOf_perm honce hplacements
    unfold refuseRemovedOrLowered refuseLowered keptOf Recorded.step
    rw [hrecord]
  refine compose_eq_ok.mpr ⟨hsame.trans hrefuse, tenants, composeTenants_perm hplacements htenants,
    ?_⟩
  rw [hsorted]

end Compose

/-! ## A pass composes what its publisher takes -/

/-- What is composed is not refused for a tenant that is held as a pass publishes one, a record
that goes back is refused whatever is held, and the order of what is listed does not matter. -/
theorem composed_is_publishable :
    (∀ (codecs : Codecs) (declarations : List DataSourceDeclaration)
      (placements : List PlacementRecord) (catalog : CatalogDocument) (held : PublishedRevisions)
      (published : PublishedResources), codecs.Lawful → Counted placements →
        HoldsHighest published → (∀ tenant ∈ published.tenants, OfData tenant) → ∀ snapshot,
          compose declarations placements catalog held published = .ok snapshot → ∀ error,
            refuseResourceChanges codecs snapshot published = .error error →
              NotForHeld published error) ∧
    (∀ (declarations : List DataSourceDeclaration) (before placements : List PlacementRecord)
      (catalog : CatalogDocument) (held : PublishedRevisions) (published : PublishedResources)
      (bindings : List TenantBindingDocument), Counted before →
        composeTenants before = .ok bindings → ∀ binding ∈ bindings,
          binding ∈ published.tenants → ∀ old, old.tenant = binding.tenant →
            Undoes before placements old →
              (∀ new ∈ placements, new.pair = old.pair → new.revision ≤ old.revision) →
                ∃ error, compose declarations placements catalog held published =
                  .error error) ∧
    (∀ (declarations otherDeclarations : List DataSourceDeclaration)
      (placements otherPlacements : List PlacementRecord) (catalog : CatalogDocument)
      (held : PublishedRevisions) (published : PublishedResources),
        (declarations.map DataSourceDeclaration.id).Nodup →
          declarations.Perm otherDeclarations → placements.Perm otherPlacements → ∀ snapshot,
            compose declarations placements catalog held published = .ok snapshot →
              compose otherDeclarations otherPlacements catalog held published =
                .ok snapshot) := by
  refine ⟨?_, ?_, ?_⟩
  · intro codecs declarations placements catalog held published hlawful hcounted hhighest hdata
      snapshot hcompose
    exact notForHeld_of_compose hlawful.tenantValue hcounted hhighest hdata hcompose
  · intro declarations before placements catalog held published bindings hbefore hbindings binding
      hbinding hpublished old htenant hundoes hown
    exact compose_refuses hbefore hbindings hbinding hpublished htenant hundoes hown
  · intro declarations otherDeclarations placements otherPlacements catalog held published hids
      hdeclarations hplacements snapshot hcompose
    exact compose_perm hids hdeclarations hplacements hcompose

/-- What was published of the placement. -/
def acmePublished : TenantBindingDocument where
  tenant := acmePlacement.tenant
  revision := 1
  data := (∅ : Publication.TenantDataBindings).insert acmePlacement.logical acmePlacement.binding
  configuration := none
  secrets := none
  features := ∅
  storage := ∅

/-- One tenant published, and nothing else. -/
def publishedTenant (tenant : TenantBindingDocument) : PublishedResources where
  tenants := [tenant]
  dataSources := []
  catalog := none
  history := Publication.ResourceHistory.empty

/-- Nothing held. -/
def nothingHeld : PublishedRevisions := ⟨none, none, none, none⟩

theorem counted_singleton {placement : PlacementRecord} (hpositive : 1 ≤ placement.revision)
    (hbounded : placement.revision.val < 2 ^ 64 - 1) : Counted [placement] := by
  refine ⟨fun record hrecord => by rwa [List.mem_singleton.mp hrecord], fun tenant => ?_⟩
  have hsum := revisionSum_append [] placement tenant
  rw [List.nil_append] at hsum
  rw [hsum]
  unfold recordsOf revisionSum
  split
  · simpa using hbounded
  · simp

theorem holdsHighest_publishedTenant (tenant : TenantBindingDocument) :
    HoldsHighest (publishedTenant tenant) := by
  intro other _ revision hrevision
  have hnone : (publishedTenant tenant).history.tenant other.tenant = none :=
    Std.ExtTreeMap.getElem?_empty
  rw [hnone] at hrevision
  cases hrevision

theorem acmePublished_ofData : OfData acmePublished :=
  ⟨by decide +kernel, rfl, rfl, rfl, rfl⟩

theorem acmePublished_composed : composeTenants [acmePlacement] = .ok [acmePublished] := by
  decide +kernel

theorem ordersDatabase_ids : ([ordersDatabase].map DataSourceDeclaration.id).Nodup :=
  List.nodup_singleton _

/-- What is composed of one placement. -/
theorem exists_compose_acme (tenant : TenantBindingDocument) {placement : PlacementRecord}
    {composed : TenantBindingDocument}
    (hrefuse : refuseRemovedOrLowered [placement] [tenant] = .ok ())
    (hcomposed : composeTenants [placement] = .ok [composed]) :
    ∃ snapshot, compose [ordersDatabase] [placement] Publication.ordersCatalog nothingHeld
      (publishedTenant tenant) = .ok snapshot ∧ snapshot.tenants.payload = [composed] :=
  ⟨_, compose_eq_ok.mpr ⟨hrefuse, _, hcomposed, rfl⟩, rfl⟩

/-- The tenant is published again as it is, and its placement cannot be taken away. -/
theorem acme_is_publishable :
    (∃ snapshot, compose [ordersDatabase] [acmePlacement] Publication.ordersCatalog nothingHeld
      (publishedTenant acmePublished) = .ok snapshot ∧
        ∀ error, refuseResourceChanges Publication.bareSamples.codecs snapshot
          (publishedTenant acmePublished) = .error error →
            NotForHeld (publishedTenant acmePublished) error) ∧
    ∃ error, compose [ordersDatabase] [] Publication.ordersCatalog nothingHeld
      (publishedTenant acmePublished) = .error error := by
  have hdata : ∀ tenant ∈ (publishedTenant acmePublished).tenants, OfData tenant := by
    intro tenant htenant
    rw [List.mem_singleton.mp htenant]
    exact acmePublished_ofData
  have hcounted : Counted [acmePlacement] := counted_singleton (by decide) (by decide)
  constructor
  · obtain ⟨snapshot, hcompose, -⟩ := exists_compose_acme acmePublished
      (by decide +kernel) acmePublished_composed
    exact ⟨snapshot, hcompose, composed_is_publishable.1 _ _ _ _ _ _
      Publication.bareSamples.lawful hcounted (holdsHighest_publishedTenant _) hdata
        snapshot hcompose⟩
  · have hundoes : Undoes [acmePlacement] [] acmePlacement :=
      ⟨List.mem_singleton.mpr rfl, .removed (by simp), by simp⟩
    exact composed_is_publishable.2.1 _ _ _ _ _ _ _ hcounted acmePublished_composed _
      (List.mem_singleton.mpr rfl) (List.mem_singleton.mpr rfl) acmePlacement rfl hundoes (by simp)

/-- The tenant as it would be held with a feature that no pass publishes. -/
def featuredTenant : TenantBindingDocument :=
  { acmePublished with features := (∅ : BTreeMap String Bool).insert "beta" true }

/-- The placement on another database, at a revision of its own. -/
def movedPlacement : PlacementRecord :=
  { acmePlacement with revision := 2, dataSource := ⟨"billing-db", by decide⟩ }

/-- The tenant is offered without the feature, at the revision it is held at with it. -/
theorem featuredTenant_refused {snapshot : RuntimeSnapshot}
    (hpayload : snapshot.tenants.payload = [acmePublished]) :
    refuseResourceChanges Publication.bareSamples.codecs snapshot (publishedTenant featuredTenant) =
      .error (.resourceRevisionNotAdvanced .tenants (toString acmePublished.tenant) 1 1) := by
  have hsources : refuseUnadvanced .dataSources Publication.bareSamples.codecs.dataSourceValue
      (publishedTenant featuredTenant).dataSources snapshot.dataSources.payload
      (fun source => (toString source.id, source.revision,
        (publishedTenant featuredTenant).history.dataSource source.id)) = .ok () := by
    refine forM_eq_ok.mpr fun source _ => ?_
    have hnone : (publishedTenant featuredTenant).history.dataSource source.id = none :=
      Std.ExtTreeMap.getElem?_empty
    dsimp only
    rw [hnone]
    rfl
  have hlookup : (heldCopies (fun tenant : TenantBindingDocument => (toString tenant.tenant,
      tenant.revision, (publishedTenant featuredTenant).history.tenant tenant.tenant))
        [featuredTenant]).lookup (toString acmePublished.tenant) = some (1, featuredTenant) :=
    AList.lookup_insert _
  have hdiffers : Publication.sameContent Publication.bareSamples.codecs.tenantValue acmePublished
      featuredTenant = false := by
    rw [Bool.eq_false_iff, Ne, Publication.sameContent_iff Publication.bareSamples.lawful.tenantValue]
    decide +kernel
  have hfloor : (publishedTenant featuredTenant).history.tenant acmePublished.tenant = none :=
    Std.ExtTreeMap.getElem?_empty
  have htenant : refuseResource .tenants Publication.bareSamples.codecs.tenantValue
      (some (1, featuredTenant)) (toString acmePublished.tenant) acmePublished.revision none
      acmePublished =
        .error (.resourceRevisionNotAdvanced .tenants (toString acmePublished.tenant) 1 1) := by
    have hbehind : Publication.advanced Publication.bareSamples.codecs.tenantValue
        (some (1, featuredTenant)) 1 1 acmePublished = false := by
      unfold Publication.advanced
      rw [Option.any_some, hdiffers, Bool.and_false]
      rfl
    show (if Publication.advanced Publication.bareSamples.codecs.tenantValue
      (some (1, featuredTenant)) 1 1 acmePublished then Except.ok () else Except.error
        (PublicationError.resourceRevisionNotAdvanced .tenants (toString acmePublished.tenant)
          1 1)) = _
    rw [hbehind]
    rfl
  have htenants : refuseUnadvanced .tenants Publication.bareSamples.codecs.tenantValue
      (publishedTenant featuredTenant).tenants [acmePublished]
      (fun tenant => (toString tenant.tenant, tenant.revision,
        (publishedTenant featuredTenant).history.tenant tenant.tenant)) =
          .error (.resourceRevisionNotAdvanced .tenants (toString acmePublished.tenant) 1 1) := by
    show (refuseResource .tenants Publication.bareSamples.codecs.tenantValue
      ((heldCopies _ [featuredTenant]).lookup (toString acmePublished.tenant)) _ _ _ _ >>=
        fun _ => .ok ()) = _
    rw [hlookup, hfloor, htenant]
    rfl
  unfold refuseResourceChanges
  rw [hsources, hpayload, htenants]
  rfl

/-- A tenant that is held with more than data is refused, and a record that is rebound at a
revision of its own is published. -/
theorem not_composed_is_publishable :
    (¬ ∀ (codecs : Codecs), codecs.Lawful →
      ∀ (declarations : List DataSourceDeclaration) (placements : List PlacementRecord)
        (catalog : CatalogDocument) (held : PublishedRevisions) (published : PublishedResources),
        Counted placements → (declarations.map DataSourceDeclaration.id).Nodup →
          HoldsHighest published → ∀ snapshot,
            compose declarations placements catalog held published = .ok snapshot → ∀ error,
              refuseResourceChanges codecs snapshot published = .error error →
                NotForHeld published error) ∧
    ¬ ∀ (declarations : List DataSourceDeclaration) (before placements : List PlacementRecord)
        (catalog : CatalogDocument) (held : PublishedRevisions) (published : PublishedResources)
        (bindings : List TenantBindingDocument),
        Counted before → Counted placements → HoldsHighest published →
          composeTenants before = .ok bindings → ∀ binding ∈ bindings,
            binding ∈ published.tenants → ∀ old, old.tenant = binding.tenant →
              Undoes before placements old →
                ∃ error, compose declarations placements catalog held published =
                  .error error := by
  constructor
  · intro h
    obtain ⟨snapshot, hcompose, hpayload⟩ := exists_compose_acme featuredTenant
      (by decide +kernel) acmePublished_composed
    have hcounted : Counted [acmePlacement] := counted_singleton (by decide) (by decide)
    refine (h Publication.bareSamples.codecs Publication.bareSamples.lawful _ _ _ _ _ hcounted
      ordersDatabase_ids (holdsHighest_publishedTenant _) snapshot hcompose _
        (featuredTenant_refused hpayload)).1
        featuredTenant (List.mem_singleton.mpr rfl) 1 1 rfl
  · intro h
    have hmoved : composeTenants [movedPlacement] = .ok [{ acmePublished with
        revision := 2
        data := (∅ : Publication.TenantDataBindings).insert acmePlacement.logical
          movedPlacement.binding }] := by decide +kernel
    obtain ⟨snapshot, hcompose, -⟩ := exists_compose_acme acmePublished
      (by decide +kernel) hmoved
    have hundoes : Undoes [acmePlacement] [movedPlacement] acmePlacement := by
      refine ⟨List.mem_singleton.mpr rfl, .rebound (List.mem_singleton.mpr rfl) rfl (by decide), ?_⟩
      intro other hother _ hpair
      exact absurd (congrArg PlacementRecord.pair (List.mem_singleton.mp hother)) hpair
    obtain ⟨error, herror⟩ := h [ordersDatabase] [acmePlacement] [movedPlacement]
      Publication.ordersCatalog nothingHeld (publishedTenant acmePublished) _
      (counted_singleton (by decide) (by decide)) (counted_singleton (by decide) (by decide))
      (holdsHighest_publishedTenant _) acmePublished_composed _ (List.mem_singleton.mpr rfl)
      (List.mem_singleton.mpr rfl) acmePlacement rfl hundoes
    rw [hcompose] at herror
    cases herror

end Platform
end SaasFabric
