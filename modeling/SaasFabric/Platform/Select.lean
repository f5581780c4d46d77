import SaasFabric.Platform.Placements

/-!
# The selector

`placements/select.rs` and its `pick.rs`: one tenant's logical data source is placed on a
declared data source, or refused.  What is selected keeps the placements coherent.
-/

namespace SaasFabric
namespace Platform

open Publication (IsolationModelDocument PlacementClassDocument sortedBy)

section Selecting

variable (intent : DataIntent) (tenant : TenantId) (logical : LogicalDataSourceName)

/-- `no_data_source_admits`. -/
def noDataSourceAdmits : PlacementRefusal :=
  .noDataSourceAdmits intent.class_ intent.region intent.provider

/-- The declarations an intent may land on. -/
def candidatesOf (declared : List DataSourceDeclaration) : List DataSourceDeclaration :=
  ((declared.filter fun declared => declared.placement = intent.class_).filter fun declared =>
    declared.capabilities.acceptsNewTenants && declared.capabilities.writable).filter
      fun declared => intent.region.all fun region => declared.residency.region == region

/-- The shared candidates with the column each declares and how many are placed on it, fewest
first, by id where as many are. -/
def ranked (candidates : List DataSourceDeclaration) (held : List PlacementRecord) :
    List (DataSourceDeclaration × Discriminator × Nat) :=
  (candidates.filterMap fun candidate => candidate.discriminator.map fun discriminator =>
      (candidate, discriminator,
        (held.filter fun placed => placed.dataSource = candidate.id).length)).mergeSort
    fun left right =>
      ((compare left.2.2 right.2.2).then (compare left.1.id right.1.id)).isLE

/-- Another tenant is recorded at a discriminator value of a data source. -/
def taken (held : List PlacementRecord) (dataSource : DataSourceId) (value : String) : Bool :=
  held.any fun placed => placed.dataSource = dataSource && placed.tenant != tenant &&
    match placed.isolation with
    | .discriminator _ existing => existing == value
    | _ => false

/-- `pick_shared`. -/
def pickShared (candidates : List DataSourceDeclaration) (held : List PlacementRecord)
    (now : String) : Except PlacementRefusal PlacementRecord :=
  match (ranked candidates held).head? with
  | none => .error (noDataSourceAdmits intent)
  | some (chosen, discriminator, _) =>
      if taken tenant held chosen.id tenant.value then
        .error (.discriminatorValueTaken chosen.id tenant.value)
      else
        .ok
          { tenant
            logical
            revision := FIRST_REVISION
            dataSource := chosen.id
            isolation := .discriminator discriminator.column tenant.value
            placedAt := now }

/-- `pick_exclusive`. -/
def pickExclusive (candidates : List DataSourceDeclaration) (held : List PlacementRecord)
    (now : String) : Except PlacementRefusal PlacementRecord :=
  let free := candidates.filter fun candidate =>
    !held.any fun placed => placed.dataSource = candidate.id
  match (sortedBy DataSourceDeclaration.id free).head? with
  | none =>
      .error (if candidates.isEmpty then noDataSourceAdmits intent
        else .allMatchingSourcesOccupied intent.class_)
  | some chosen =>
      .ok
        { tenant
          logical
          revision := FIRST_REVISION
          dataSource := chosen.id
          isolation := .database
          placedAt := now }

/-- `select`. -/
def select (declared : List DataSourceDeclaration) (held : List PlacementRecord) (now : String) :
    Except PlacementRefusal PlacementRecord :=
  if held.any fun placed => placed.tenant = tenant && placed.logical = logical then
    .error (.alreadyPlaced tenant logical)
  else if intent.class_ = .shared then
    pickShared intent tenant logical (candidatesOf intent declared) held now
  else
    pickExclusive intent tenant logical (candidatesOf intent declared) held now

/-- The one candidate that is free is the one chosen. -/
theorem pickExclusive_of_free {candidates : List DataSourceDeclaration}
    {held : List PlacementRecord} (now : String) {chosen : DataSourceDeclaration}
    (h : (candidates.filter fun candidate =>
      !held.any fun placed => placed.dataSource = candidate.id) = [chosen]) :
    pickExclusive intent tenant logical candidates held now =
      .ok ⟨tenant, logical, FIRST_REVISION, chosen.id, .database, now⟩ := by
  have hsorted : sortedBy DataSourceDeclaration.id [chosen] = [chosen] :=
    List.mergeSort_singleton _
  unfold pickExclusive
  rw [h]
  dsimp only
  rw [hsorted]
  rfl

/-- The one candidate that declares a column is the one chosen. -/
theorem pickShared_of_one {held : List PlacementRecord} (now : String)
    {chosen : DataSourceDeclaration} {discriminator : Discriminator}
    (hdeclares : chosen.discriminator = some discriminator)
    (hfree : taken tenant held chosen.id tenant.value = false) :
    pickShared intent tenant logical [chosen] held now =
      .ok ⟨tenant, logical, FIRST_REVISION, chosen.id,
        .discriminator discriminator.column tenant.value, now⟩ := by
  have hranked : ranked [chosen] held = [(chosen, discriminator,
      (held.filter fun placed => placed.dataSource = chosen.id).length)] := by
    unfold ranked
    rw [List.filterMap_cons, hdeclares]
    exact List.mergeSort_singleton _
  unfold pickShared
  rw [hranked]
  dsimp only [List.head?_cons]
  rw [hfree]
  rfl

end Selecting

/-! ## What is selected -/

/-- How a placement on a chosen data source is isolated. -/
inductive IsolatedOn (held : List PlacementRecord) (chosen : DataSourceDeclaration)
    (tenant : TenantId) : IsolationModelDocument → Prop where
  | discriminator {discriminator : Discriminator} (shared : chosen.placement = .shared)
      (declares : chosen.discriminator = some discriminator)
      (free : taken tenant held chosen.id tenant.value = false) :
      IsolatedOn held chosen tenant (.discriminator discriminator.column tenant.value)
  | database (exclusive : chosen.placement ≠ .shared)
      (free : ∀ placed ∈ held, placed.dataSource ≠ chosen.id) :
      IsolatedOn held chosen tenant .database

/-- What is recorded of a selection. -/
structure Selected (intent : DataIntent) (tenant : TenantId) (logical : LogicalDataSourceName)
    (declared : List DataSourceDeclaration) (held : List PlacementRecord) (now : String)
    (record : PlacementRecord) (chosen : DataSourceDeclaration) : Prop where
  candidate : chosen ∈ candidatesOf intent declared
  ofTenant : record.tenant = tenant
  ofLogical : record.logical = logical
  revision : record.revision = FIRST_REVISION
  dataSource : record.dataSource = chosen.id
  placedAt : record.placedAt = now
  unplaced : ∀ placed ∈ held, ¬ (placed.tenant = tenant ∧ placed.logical = logical)
  isolated : IsolatedOn held chosen tenant record.isolation

section Selection

variable {intent : DataIntent} {tenant : TenantId} {logical : LogicalDataSourceName}
  {declared : List DataSourceDeclaration} {held : List PlacementRecord} {now : String}
  {record : PlacementRecord}

theorem mem_candidatesOf {candidate : DataSourceDeclaration} :
    candidate ∈ candidatesOf intent declared ↔
      candidate ∈ declared ∧ candidate.placement = intent.class_ ∧
        (candidate.capabilities.acceptsNewTenants && candidate.capabilities.writable) = true ∧
          (intent.region.all fun region => candidate.residency.region == region) = true := by
  unfold candidatesOf
  simp only [List.mem_filter, decide_eq_true_eq, and_assoc]

theorem mem_ranked {candidates : List DataSourceDeclaration} {chosen : DataSourceDeclaration}
    {discriminator : Discriminator} {count : Nat}
    (h : (chosen, discriminator, count) ∈ ranked candidates held) :
    chosen ∈ candidates ∧ chosen.discriminator = some discriminator := by
  obtain ⟨candidate, hcandidate, hentry⟩ := List.mem_filterMap.mp (List.mem_mergeSort.mp h)
  obtain ⟨found, hfound, hsame⟩ := Option.map_eq_some_iff.mp hentry
  cases hsame
  exact ⟨hcandidate, hfound⟩

theorem selected_of_pickShared (hclass : intent.class_ = .shared)
    (hunplaced : ∀ placed ∈ held, ¬ (placed.tenant = tenant ∧ placed.logical = logical))
    (h : pickShared intent tenant logical (candidatesOf intent declared) held now = .ok record) :
    ∃ chosen, Selected intent tenant logical declared held now record chosen := by
  unfold pickShared at h
  cases hranked : (ranked (candidatesOf intent declared) held).head? with
  | none =>
      rw [hranked] at h
      cases h
  | some entry =>
      obtain ⟨chosen, discriminator, count⟩ := entry
      rw [hranked] at h
      dsimp only at h
      obtain ⟨hcandidate, hdeclares⟩ := mem_ranked (List.mem_of_head? hranked)
      have hshared : chosen.placement = .shared :=
        (mem_candidatesOf.mp hcandidate).2.1.trans hclass
      split at h
      · cases h
      · rename_i hfree
        cases h
        exact ⟨chosen, hcandidate, rfl, rfl, rfl, rfl, rfl, hunplaced,
          .discriminator hshared hdeclares (Bool.eq_false_iff.mpr hfree)⟩

theorem selected_of_pickExclusive (hclass : intent.class_ ≠ .shared)
    (hunplaced : ∀ placed ∈ held, ¬ (placed.tenant = tenant ∧ placed.logical = logical))
    (h : pickExclusive intent tenant logical (candidatesOf intent declared) held now =
      .ok record) :
    ∃ chosen, Selected intent tenant logical declared held now record chosen := by
  unfold pickExclusive at h
  dsimp only at h
  split at h
  · cases h
  · rename_i chosen hchosen
    cases h
    obtain ⟨hcandidate, hfree⟩ := List.mem_filter.mp
      (Publication.mem_sortedBy.mp (List.mem_of_head? hchosen))
    have hexclusive : chosen.placement ≠ .shared := by
      rw [(mem_candidatesOf.mp hcandidate).2.1]
      exact hclass
    have hnobody : ∀ placed ∈ held, placed.dataSource ≠ chosen.id := by
      simpa using hfree
    exact ⟨chosen, hcandidate, rfl, rfl, rfl, rfl, rfl, hunplaced, .database hexclusive hnobody⟩

/-- What is selected lands on a candidate, and says so. -/
theorem selected_of_select (h : select intent tenant logical declared held now = .ok record) :
    ∃ chosen, Selected intent tenant logical declared held now record chosen := by
  unfold select at h
  split at h
  · cases h
  · rename_i hunplaced
    have hunplaced : ∀ placed ∈ held, ¬ (placed.tenant = tenant ∧ placed.logical = logical) := by
      simpa using hunplaced
    split at h
    · rename_i hclass
      exact selected_of_pickShared hclass hunplaced h
    · rename_i hclass
      exact selected_of_pickExclusive hclass hunplaced h

theorem taken_eq_false {dataSource : DataSourceId} {value : String} :
    taken tenant held dataSource value = false ↔
      ∀ placed ∈ held, placed.dataSource = dataSource → placed.tenant ≠ tenant →
        ∀ column, placed.isolation ≠ .discriminator column value := by
  have hvalue : ∀ isolation : IsolationModelDocument,
      (match isolation with
        | .discriminator _ existing => existing == value
        | _ => false) = true ↔ ∃ column, isolation = .discriminator column value := by
    intro isolation
    cases isolation with
    | database => exact ⟨nofun, fun ⟨_, h⟩ => nomatch h⟩
    | schema name => exact ⟨nofun, fun ⟨_, h⟩ => nomatch h⟩
    | discriminator column existing =>
        refine beq_iff_eq.trans ⟨fun h => ⟨column, by rw [h]⟩, fun ⟨_, h⟩ => ?_⟩
        cases h
        rfl
  unfold taken
  rw [List.any_eq_false]
  refine forall₂_congr fun placed _ => ?_
  rw [Bool.and_eq_true, Bool.and_eq_true, hvalue, decide_eq_true_eq, bne_iff_ne]
  constructor
  · exact fun h hsource htenant column hisolation => h ⟨⟨hsource, htenant⟩, column, hisolation⟩
  · rintro h ⟨⟨hsource, htenant⟩, column, hisolation⟩
    exact h hsource htenant column hisolation

/-- What is selected serves the record of it. -/
theorem Selected.serves {chosen : DataSourceDeclaration}
    (h : Selected intent tenant logical declared held now record chosen) :
    Serves chosen record := by
  have hisolated := h.isolated
  generalize hisolation : record.isolation = isolation at hisolated
  cases hisolated with
  | discriminator hshared hdeclares =>
      refine ⟨?_, fun column value hsame => ?_⟩
      · rw [hisolation]
        exact decide_eq_true hshared
      · rw [hisolation] at hsame
        cases hsame
        rw [hdeclares]
        rfl
  | database hexclusive =>
      refine ⟨?_, fun column value hsame => ?_⟩
      · rw [hisolation]
        exact decide_eq_true hexclusive
      · rw [hisolation] at hsame
        cases hsame

/-- What is selected is apart from what is held. -/
theorem Selected.apart {chosen : DataSourceDeclaration}
    (h : Selected intent tenant logical declared held now record chosen) :
    ∀ placed ∈ held, Apart placed record := by
  intro placed hplaced
  refine ⟨fun hsame => ?_, fun hcollide => ?_⟩
  · obtain ⟨htenant, hlogical⟩ := Prod.mk.inj hsame
    exact h.unplaced placed hplaced ⟨htenant.trans h.ofTenant, hlogical.trans h.ofLogical⟩
  · have hisolated := h.isolated
    generalize hisolation : record.isolation = isolation at hisolated
    cases hcollide with
    | database hsource _ hdatabase =>
        rw [hisolation] at hdatabase
        subst hdatabase
        cases hisolated with
        | database _ hfree => exact hfree placed hplaced (hsource.trans h.dataSource)
    | discriminator hsource htenant hfirst hsecond =>
        rw [hisolation] at hsecond
        subst hsecond
        cases hisolated with
        | discriminator _ _ hfree =>
            rw [h.ofTenant] at htenant
            exact taken_eq_false.mp hfree placed hplaced (hsource.trans h.dataSource) htenant _
              hfirst

/-- What is selected keeps the placements coherent. -/
theorem coherent_select {time : Rfc3339} (hdeclared : checkHeld declared = .ok ())
    (hheld : Coherent time declared held) (hnow : (time.parse now).isSome)
    (h : select intent tenant logical declared held now = .ok record) :
    Coherent time declared (held ++ [record]) := by
  obtain ⟨chosen, hselected⟩ := selected_of_select h
  have hmem : chosen ∈ declared := (mem_candidatesOf.mp hselected.candidate).1
  have hfound : declarationOf declared record.dataSource = some chosen :=
    (declarationOf_eq_some (checkHeld_eq_ok.mp hdeclared).1).mpr
      ⟨hmem, hselected.dataSource.symm⟩
  have hstamped : (time.parse record.placedAt).isSome := by
    rw [hselected.placedAt]
    exact hnow
  exact hheld.concat ⟨hstamped, chosen, hfound, hselected.serves⟩ hselected.apart

end Selection

end Platform
end SaasFabric
