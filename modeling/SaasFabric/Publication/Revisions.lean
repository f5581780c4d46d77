import SaasFabric.Publication.Validate

/-!
# Resource revisions

`fabric-runtime-publication`'s `resource_revisions.rs`: no resource is offered below the
revision it was published at, nor changed at that revision, and no tenant is left out.
-/

namespace SaasFabric
namespace Publication

open Library (Admitted AtLeast)

/-! ## The checks -/

section Unadvanced

variable {T V : Type} [DecidableEq V]

/-- `same_content`. -/
def sameContent (toValue : T → Except String V) (offered held : T) : Bool :=
  match toValue offered, toValue held with
  | .ok offered, .ok held => offered == held
  | _, _ => false

/-- The held copies by their identity; the last of an identity is the one kept. -/
def heldCopies (identity : T → String × BindingRevision × Option BindingRevision)
    (held : List T) : HashMap String (BindingRevision × T) :=
  Library.hashCollect (held.map fun resource =>
    ((identity resource).1, ((identity resource).2.1, resource)))

/-- An offered resource is above its floor, or the same as a copy that is held there. -/
def advanced (toValue : T → Except String V) (heldCopy : Option (BindingRevision × T))
    (floor offeredRevision : BindingRevision) (resource : T) : Bool :=
  decide (floor < offeredRevision) ||
    heldCopy.any fun copy =>
      offeredRevision == copy.1 && copy.1 == floor && sameContent toValue resource copy.2

/-- The loop body of `refuse_unadvanced`. -/
def refuseResource (document : DocumentKind) (toValue : T → Except String V)
    (heldCopy : Option (BindingRevision × T)) (id : String)
    (offeredRevision : BindingRevision) (published : Option BindingRevision) (resource : T) :
    Except PublicationError Unit :=
  match Library.maxFloor (heldCopy.map Prod.fst) published with
  | none => .ok ()
  | some floor =>
      if advanced toValue heldCopy floor offeredRevision resource then .ok ()
      else .error (.resourceRevisionNotAdvanced document id floor offeredRevision)

/-- `refuse_unadvanced`. -/
def refuseUnadvanced (document : DocumentKind) (toValue : T → Except String V)
    (held offered : List T)
    (identity : T → String × BindingRevision × Option BindingRevision) :
    Except PublicationError Unit :=
  let copies := heldCopies identity held
  offered.forM fun resource =>
    let (id, offeredRevision, published) := identity resource
    refuseResource document toValue (copies.lookup id) id offeredRevision published resource

/-- A resource is refused for not being advanced, or not at all. -/
theorem failsWith_refuseResource {P : PublicationError → Prop} {document : DocumentKind}
    {toValue : T → Except String V} {copy : Option (BindingRevision × T)} {id : String}
    {offered : BindingRevision} {published : Option BindingRevision} {resource : T}
    (h : ∀ floor, P (.resourceRevisionNotAdvanced document id floor offered)) :
    Library.FailsWith P (refuseResource document toValue copy id offered published resource) := by
  unfold refuseResource
  cases Library.maxFloor (copy.map Prod.fst) published with
  | none => exact Library.FailsWith.ok ()
  | some floor =>
      exact Library.FailsWith.ite (Library.FailsWith.ok ()) (Library.FailsWith.error (h floor))

end Unadvanced

/-- `refuse_removed_tenants`. -/
def refuseRemovedTenants (snapshot : RuntimeSnapshot) (heldTenants : List TenantBindingDocument) :
    Except PublicationError Unit :=
  let offered := snapshot.tenants
  if offered.payload.isEmpty ∧ offered.emptying = .intended then
    .ok ()
  else
    heldTenants.forM fun held =>
      if offered.payload.any fun tenant => tenant.tenant == held.tenant then .ok ()
      else .error (.tenantRemoved held.tenant held.revision)

/-- `PublishedResources`. -/
structure PublishedResources where
  tenants : List TenantBindingDocument
  dataSources : List DataSourceDocument
  catalog : Option CatalogDocument
  history : ResourceHistory

/-- `refuse_resource_changes`. -/
def refuseResourceChanges (codecs : Codecs) (snapshot : RuntimeSnapshot)
    (held : PublishedResources) : Except PublicationError Unit := do
  refuseUnadvanced .dataSources codecs.dataSourceValue held.dataSources
    snapshot.dataSources.payload fun source =>
      (toString source.id, source.revision, held.history.dataSource source.id)
  refuseUnadvanced .tenants codecs.tenantValue held.tenants snapshot.tenants.payload
    fun tenant => (toString tenant.tenant, tenant.revision, held.history.tenant tenant.tenant)
  refuseRemovedTenants snapshot held.tenants

/-! ## What the checks ask -/

section Admission

variable {T V : Type} [DecidableEq V] {kind : IdentifierKind} (key : T → Identifier kind)
  (revision : T → BindingRevision) (floors : BTreeMap (Identifier kind) BindingRevision)

/-- How a resource with a key of its own is identified. -/
def identityBy (resource : T) : String × BindingRevision × Option BindingRevision :=
  (toString (key resource), revision resource, floors[key resource]?)

/-- The copy of a resource that is held. -/
def heldCopy (held : List T) (resource : T) : Option T :=
  ((heldCopies (identityBy key revision floors) held).lookup (toString (key resource))).map
    Prod.snd

variable {key revision floors} {held : List T} {resource : T}

/-- What is looked up for a resource is a held one of the same key. -/
theorem mem_of_lookup_heldCopies {copy : BindingRevision × T}
    (h : (heldCopies (identityBy key revision floors) held).lookup (toString (key resource)) =
      some copy) :
    copy.2 ∈ held ∧ key copy.2 = key resource ∧ copy.1 = revision copy.2 := by
  have hmem := Library.mem_of_lookup_hashCollect h
  obtain ⟨found, hfound, heq⟩ := List.mem_map.mp hmem
  obtain ⟨hid, rfl⟩ := Prod.mk.injEq .. ▸ heq
  exact ⟨hfound, Identifier.ext hid, rfl⟩

/-- Where a resource of a key is held, a copy is looked up for that key. -/
theorem exists_lookup_heldCopies (key : T → Identifier kind) (revision : T → BindingRevision)
    (floors : BTreeMap (Identifier kind) BindingRevision) (h : ∃ other ∈ held, key other = key resource) :
    ∃ copy, (heldCopies (identityBy key revision floors) held).lookup (toString (key resource)) =
      some copy := by
  obtain ⟨other, hother, hkey⟩ := h
  rw [← hkey]
  exact Library.exists_lookup_hashCollect (List.mem_map_of_mem hother)

theorem mem_of_heldCopy {copy : T} (h : heldCopy key revision floors held resource = some copy) :
    copy ∈ held := by
  obtain ⟨found, hfound, rfl⟩ := Option.map_eq_some_iff.mp h
  exact (mem_of_lookup_heldCopies hfound).1

/-- Where every key is held once, a held resource is its own copy. -/
theorem heldCopy_of_mem (hnodup : (held.map key).Nodup) (h : resource ∈ held) :
    heldCopy key revision floors held resource = some resource := by
  have hkeys : ((held.map fun resource => ((identityBy key revision floors resource).1,
      ((identityBy key revision floors resource).2.1, resource))).map Prod.fst).Nodup := by
    rw [List.map_map]
    have hcomp : (Prod.fst ∘ fun resource => ((identityBy key revision floors resource).1,
        ((identityBy key revision floors resource).2.1, resource))) =
        Identifier.value ∘ key := rfl
    rw [hcomp, ← List.map_map]
    exact hnodup.map Identifier.value_injective
  have hlookup := Library.lookup_hashCollect_of_nodup hkeys
    (List.mem_map_of_mem h (f := fun resource => ((identityBy key revision floors resource).1,
      ((identityBy key revision floors resource).2.1, resource))))
  unfold heldCopy heldCopies
  exact Option.map_eq_some_iff.mpr ⟨_, hlookup, rfl⟩

theorem sameContent_iff {toValue : T → Except String V} (htells : TellsApart toValue)
    {offered held : T} : sameContent toValue offered held = true ↔ offered = held := by
  obtain ⟨offeredValue, hoffered⟩ := htells.total offered
  obtain ⟨heldValue, hheld⟩ := htells.total held
  unfold sameContent
  rw [hoffered, hheld]
  constructor
  · intro h
    have hvalue : offeredValue = heldValue := beq_iff_eq.mp h
    refine htells.injective ?_
    rw [hoffered, hheld, hvalue]
  · rintro rfl
    rw [hoffered] at hheld
    cases hheld
    exact beq_self_eq_true _

/-- A copy looked up for a resource is covered by the floor of that resource. -/
theorem le_of_lookup_heldCopies
    (hcovers : ∀ resource ∈ held, AtLeast floors[key resource]? (revision resource))
    {copy : BindingRevision × T} (h : (heldCopies (identityBy key revision floors) held).lookup
      (toString (key resource)) = some copy) :
    copy.1 = revision copy.2 ∧ AtLeast floors[key resource]? copy.1 := by
  obtain ⟨hmem, hkey, hrevision⟩ := mem_of_lookup_heldCopies h
  have hat := hcovers copy.2 hmem
  rw [hkey, ← hrevision] at hat
  exact ⟨hrevision, hat⟩

/-- What the check of one resource says, where the floor covers the copy that is held: the
floor is the one of the history alone. -/
theorem refuseResource_eq_ok {document : DocumentKind} {toValue : T → Except String V}
    (htells : TellsApart toValue) {copy : Option (BindingRevision × T)} {id : String}
    (hcopy : ∀ found, copy = some found →
      found.1 = revision found.2 ∧ AtLeast floors[key resource]? found.1) :
    refuseResource document toValue copy id (revision resource) floors[key resource]? resource =
      .ok () ↔ Admitted key revision floors (copy.map Prod.snd) resource := by
  unfold refuseResource
  cases hfloor : floors[key resource]? with
  | none =>
      -- Nothing was published under this key, so nothing is held either.
      have hnone : copy = none := by
        cases copy with
        | none => rfl
        | some found =>
            have hat := (hcopy found rfl).2
            rw [hfloor] at hat
            exact absurd hat (Library.not_atLeast_none _)
      subst hnone
      refine ⟨fun _ => Or.inl fun bound hbound => ?_, fun _ => rfl⟩
      rw [hfloor] at hbound
      exact absurd hbound (Library.not_atLeast_none _)
  | some floor =>
      have hle : ∀ found, copy = some found → found.1 ≤ floor := by
        intro found hfound
        have hat := (hcopy found hfound).2
        rw [hfloor] at hat
        exact Library.atLeast_some.mp hat
      have hmax : Library.maxFloor (copy.map Prod.fst) (some floor) = some floor := by
        refine Library.maxFloor_some_of_forall_le fun revision hrevision => ?_
        obtain ⟨found, hfound, rfl⟩ := Option.map_eq_some_iff.mp hrevision
        exact hle found hfound
      rw [hmax]
      dsimp only
      rw [ite_ok_eq_ok]
      unfold advanced Admitted
      rw [Bool.or_eq_true, decide_eq_true_eq, hfloor]
      simp only [Library.atLeast_some]
      refine or_congr ⟨fun hlt bound hbound => hbound.trans_lt hlt, fun h => h floor le_rfl⟩ ?_
      cases copy with
      | none => simp
      | some found =>
          have hrevision := (hcopy found rfl).1
          have hfound := hle found rfl
          simp only [Option.any_some, Bool.and_eq_true, beq_iff_eq, sameContent_iff htells,
            Option.map_some, Option.some.injEq]
          constructor
          · rintro ⟨⟨heq, hsame⟩, hcontent⟩
            exact ⟨hcontent.symm, fun bound hbound => hbound.trans (heq.trans hsame).ge⟩
          · rintro ⟨hcontent, habove⟩
            have heq : revision resource = found.1 := by rw [hrevision, hcontent]
            exact ⟨⟨heq, le_antisymm hfound (heq ▸ habove floor le_rfl)⟩, hcontent.symm⟩

/-- What the check of a list says. -/
theorem refuseUnadvanced_eq_ok {document : DocumentKind} {toValue : T → Except String V}
    (htells : TellsApart toValue) {offered : List T}
    (hcovers : ∀ resource ∈ held, AtLeast floors[key resource]? (revision resource)) :
    refuseUnadvanced document toValue held offered (identityBy key revision floors) = .ok () ↔
      ∀ resource ∈ offered, Admitted key revision floors
        (heldCopy key revision floors held resource) resource := by
  unfold refuseUnadvanced
  rw [Library.forM_eq_ok]
  exact forall₂_congr fun resource _ =>
    refuseResource_eq_ok htells fun found hfound => le_of_lookup_heldCopies hcovers hfound

end Admission

/-- No held tenant is left out, unless every tenant is and that is intended. -/
def NoTenantRemoved (snapshot : RuntimeSnapshot) (heldTenants : List TenantBindingDocument) :
    Prop :=
  (snapshot.tenants.payload = [] ∧ snapshot.tenants.emptying = .intended) ∨
    ∀ held ∈ heldTenants, held.tenant ∈ snapshot.tenants.payload.map TenantBindingDocument.tenant

theorem refuseRemovedTenants_eq_ok {snapshot : RuntimeSnapshot}
    {heldTenants : List TenantBindingDocument} :
    refuseRemovedTenants snapshot heldTenants = .ok () ↔
      NoTenantRemoved snapshot heldTenants := by
  unfold refuseRemovedTenants NoTenantRemoved
  dsimp only
  by_cases hintended : snapshot.tenants.payload.isEmpty ∧ snapshot.tenants.emptying = .intended
  · rw [if_pos hintended]
    simp [List.isEmpty_iff.mp hintended.1, hintended.2]
  · rw [if_neg hintended, Library.forM_eq_ok]
    rw [List.isEmpty_iff] at hintended
    simp only [ite_ok_eq_ok, hintended, false_or, List.any_eq_true, beq_iff_eq, List.mem_map]

/-- What is known of published resources: the history is at least what is held. -/
structure PublishedResources.Covered (published : PublishedResources) : Prop where
  tenants : ∀ tenant ∈ published.tenants,
    AtLeast published.history.tenants[tenant.tenant]? tenant.revision
  dataSources : ∀ dataSource ∈ published.dataSources,
    AtLeast published.history.dataSources[dataSource.id]? dataSource.revision

/-- A snapshot that may follow what is published. -/
structure MayFollow (snapshot : RuntimeSnapshot) (published : PublishedResources) : Prop where
  dataSources : ∀ source ∈ snapshot.dataSources.payload,
    Admitted DataSourceDocument.id DataSourceDocument.revision published.history.dataSources
      (heldCopy DataSourceDocument.id DataSourceDocument.revision published.history.dataSources
        published.dataSources source) source
  tenants : ∀ tenant ∈ snapshot.tenants.payload,
    Admitted TenantBindingDocument.tenant TenantBindingDocument.revision
      published.history.tenants
      (heldCopy TenantBindingDocument.tenant TenantBindingDocument.revision
        published.history.tenants published.tenants tenant) tenant
  removed : NoTenantRemoved snapshot published.tenants

theorem refuseResourceChanges_eq_ok {codecs : Codecs} (hlawful : codecs.Lawful)
    {snapshot : RuntimeSnapshot} {published : PublishedResources} (hcovered : published.Covered) :
    refuseResourceChanges codecs snapshot published = .ok () ↔ MayFollow snapshot published := by
  have hdataSources := @refuseUnadvanced_eq_ok DataSourceDocument codecs.JsonValue _
    .dataSourceId DataSourceDocument.id DataSourceDocument.revision
    published.history.dataSources published.dataSources .dataSources codecs.dataSourceValue
    hlawful.dataSourceValue snapshot.dataSources.payload hcovered.dataSources
  have htenants := @refuseUnadvanced_eq_ok TenantBindingDocument codecs.JsonValue _
    .tenantId TenantBindingDocument.tenant TenantBindingDocument.revision
    published.history.tenants published.tenants .tenants codecs.tenantValue
    hlawful.tenantValue snapshot.tenants.payload hcovered.tenants
  unfold refuseResourceChanges
  simp only [Library.bind_eq_ok, Unique.exists_iff, PUnit.default_eq_unit,
    refuseRemovedTenants_eq_ok]
  constructor
  · rintro ⟨hsources, hbindings, hremoved⟩
    exact ⟨hdataSources.mp hsources, htenants.mp hbindings, hremoved⟩
  · intro h
    exact ⟨hdataSources.mpr h.dataSources, htenants.mpr h.tenants, h.removed⟩

end Publication
end SaasFabric
