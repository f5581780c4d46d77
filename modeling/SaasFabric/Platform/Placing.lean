import SaasFabric.Platform.Select
import SaasFabric.Platform.Snapshot

/-!
# Placing one after another

Placements the selector makes over fixed declarations, from none: how each lies on the data
source it was selected, and that every data source that takes tenants is reached by some.
-/

namespace SaasFabric
namespace Platform

open Publication (IsolationModelDocument sortedBy)

/-- A data source that new tenants are placed on. -/
def DataSourceDeclaration.Admits (declaration : DataSourceDeclaration) : Prop :=
  (declaration.capabilities.acceptsNewTenants && declaration.capabilities.writable) = true

/-- What the selector makes, each placement held before the next is selected. -/
inductive Placed (declared : List DataSourceDeclaration) : List PlacementRecord → Prop where
  | none : Placed declared []
  | next {held : List PlacementRecord} {intent : DataIntent} {tenant : TenantId}
      {logical : LogicalDataSourceName} {now : String} {record : PlacementRecord}
      (before : Placed declared held)
      (selected : select intent tenant logical declared held now = .ok record) :
      Placed declared (held ++ [record])

/-! ## How a placement lies -/

/-- A placement lies on a data source: at a discriminator of its own tenant where that is
shared, on the whole database where it is not. -/
structure Lands (declared : List DataSourceDeclaration) (record : PlacementRecord)
    (chosen : DataSourceDeclaration) : Prop where
  declared : chosen ∈ declared
  admits : chosen.Admits
  dataSource : record.dataSource = chosen.id
  isolation : (chosen.placement = .shared ∧ ∃ discriminator,
      chosen.discriminator = some discriminator ∧
        record.isolation = .discriminator discriminator.column record.tenant.value) ∨
    (chosen.placement ≠ .shared ∧ record.isolation = .database)

section Landing

variable {declared : List DataSourceDeclaration} {placements held : List PlacementRecord}
  {intent : DataIntent} {tenant : TenantId} {logical : LogicalDataSourceName} {now : String}
  {record : PlacementRecord}

theorem Selected.lands {chosen : DataSourceDeclaration}
    (h : Selected intent tenant logical declared held now record chosen) :
    Lands declared record chosen := by
  obtain ⟨hmem, -, hadmits, -⟩ := mem_candidatesOf.mp h.candidate
  refine ⟨hmem, hadmits, h.dataSource, ?_⟩
  have hisolated := h.isolated
  generalize hisolation : record.isolation = isolation at hisolated
  cases hisolated with
  | discriminator hshared hdeclares =>
      refine Or.inl ⟨hshared, _, hdeclares, ?_⟩
      rw [h.ofTenant]
  | database hexclusive => exact Or.inr ⟨hexclusive, rfl⟩

theorem Placed.lands (h : Placed declared placements) :
    ∀ record ∈ placements, ∃ chosen, Lands declared record chosen := by
  induction h with
  | none => simp
  | next _ hselect ih =>
      intro record hrecord
      rcases List.mem_append.mp hrecord with hheld | hlast
      · exact ih record hheld
      · rw [List.mem_singleton.mp hlast]
        obtain ⟨chosen, hselected⟩ := selected_of_select hselect
        exact ⟨chosen, hselected.lands⟩

theorem Placed.apart (h : Placed declared placements) : placements.Pairwise Apart := by
  induction h with
  | none => exact List.Pairwise.nil
  | next _ hselect ih =>
      obtain ⟨chosen, hselected⟩ := selected_of_select hselect
      refine List.pairwise_append.mpr ⟨ih, List.pairwise_singleton _ _, fun placed hplaced last
        hlast => ?_⟩
      rw [List.mem_singleton.mp hlast]
      exact hselected.apart placed hplaced

theorem Placed.recordedOnce (h : Placed declared placements) : RecordedOnce placements :=
  List.pairwise_map.mpr (h.apart.imp fun hapart => hapart.1)

/-- Two placements of different tenants are not both on a whole database of one id. -/
theorem Placed.not_both_database (h : Placed declared placements) {first second : PlacementRecord}
    (hfirst : first ∈ placements) (hsecond : second ∈ placements)
    (htenant : first.tenant ≠ second.tenant) (hsource : first.dataSource = second.dataSource)
    (hfirstDatabase : first.isolation = .database) : second.isolation ≠ .database := by
  intro hsecondDatabase
  have hne : first ≠ second := fun hsame => htenant (congrArg PlacementRecord.tenant hsame)
  have hsymm : Std.Symm Apart := ⟨fun _ _ hapart => hapart.symm⟩
  have hapart := h.apart.forall hfirst hsecond hne
  exact hapart.2 (.database hsource hfirstDatabase hsecondDatabase)

end Landing

/-! ## Every data source is reached -/

/-- A logical data source named as a data source is. -/
def logicalOf (id : DataSourceId) : LogicalDataSourceName where
  value := id.value
  accepted := by
    have hparse : ∀ first second value, (parseIdentifier first value).isOk =
        (parseIdentifier second value).isOk := by
      intro first second value
      unfold parseIdentifier checkLength
      split
      · rfl
      · split
        · rfl
        · show Except.isOk (match value.toList.find? _ with | some c => _ | none => _) =
            Except.isOk (match value.toList.find? _ with | some c => _ | none => _)
          cases value.toList.find? fun c => !(isAsciiAlphanumeric c || c == '-' || c == '_') with
          | some c => rfl
          | none =>
              dsimp only
              split <;> rfl
    exact (hparse _ _ _).trans id.accepted

theorem logicalOf_injective : Function.Injective logicalOf := by
  intro first second h
  exact Identifier.ext (congrArg Identifier.value h :)

/-- Nothing is placed on a data source. -/
def Unplaced (held : List PlacementRecord) (declaration : DataSourceDeclaration) : Prop :=
  ∀ placed ∈ held, placed.dataSource ≠ declaration.id

/-- Whatever is placed is under the name of its data source, for the tenant that owns it. -/
def OwnedBy (owner : DataSourceId → TenantId) (placements : List PlacementRecord) : Prop :=
  ∀ placed ∈ placements, placed.tenant = owner placed.dataSource ∧
    placed.logical = logicalOf placed.dataSource

section Reached

variable {declared : List DataSourceDeclaration} {held : List PlacementRecord}
  {target : DataSourceDeclaration}

/-- What is asked for to reach a data source. -/
def intentFor (declaration : DataSourceDeclaration) : DataIntent :=
  ⟨declaration.placement, none, none⟩

theorem mem_candidatesOf_intentFor {candidate : DataSourceDeclaration} :
    candidate ∈ candidatesOf (intentFor target) declared ↔
      candidate ∈ declared ∧ candidate.placement = target.placement ∧ candidate.Admits := by
  rw [mem_candidatesOf]
  unfold intentFor DataSourceDeclaration.Admits
  simp

/-- Where a shared data source has nobody, a shared one that has nobody is ranked first. -/
theorem ranked_unplaced {candidates : List DataSourceDeclaration} {discriminator : Discriminator}
    (hmem : target ∈ candidates) (hdeclares : target.discriminator = some discriminator)
    (hunplaced : Unplaced held target) :
    ∃ chosen found count, (ranked candidates held).head? = some (chosen, found, count) ∧
      Unplaced held chosen := by
  have hcount : ∀ declaration : DataSourceDeclaration,
      (held.filter fun placed => placed.dataSource = declaration.id).length = 0 ↔
        Unplaced held declaration := by
    intro declaration
    unfold Unplaced
    rw [List.length_eq_zero_iff, List.filter_eq_nil_iff]
    simp only [decide_eq_true_eq]
  have hentry : (target, discriminator, 0) ∈ candidates.filterMap fun candidate =>
      candidate.discriminator.map fun discriminator => (candidate, discriminator,
        (held.filter fun placed => placed.dataSource = candidate.id).length) := by
    refine List.mem_filterMap.mpr ⟨target, hmem, ?_⟩
    rw [hdeclares, (hcount target).mpr hunplaced]
    rfl
  cases hhead : (ranked candidates held).head? with
  | none =>
      have hnil := List.head?_eq_none_iff.mp hhead
      have hranked : (target, discriminator, 0) ∈ ranked candidates held :=
        List.mem_mergeSort.mpr hentry
      rw [hnil] at hranked
      cases hranked
  | some first =>
      obtain ⟨chosen, found, count⟩ := first
      refine ⟨chosen, found, count, rfl, (hcount chosen).mp ?_⟩
      -- It is ranked before the target, which has nobody.
      have hcmp : Std.TransCmp (compareLex
          (compareOn fun entry : DataSourceDeclaration × Discriminator × Nat => entry.2.2)
          (compareOn fun entry => entry.1.id)) := inferInstance
      have hle := @Library.isLE_of_head?_sorted _ _ hcmp _ _ _ hhead hentry
      have hzero : count = 0 := by
        by_contra hne
        have hgt : compare count 0 = .gt := Nat.compare_eq_gt.mpr (Nat.pos_of_ne_zero hne)
        change ((compare count 0).then (compare chosen.id target.id)).isLE = true at hle
        rw [hgt] at hle
        cases hle
      obtain ⟨candidate, -, hfound⟩ :=
        List.mem_filterMap.mp (List.mem_mergeSort.mp (List.mem_of_head? hhead))
      obtain ⟨_, -, hsame⟩ := Option.map_eq_some_iff.mp hfound
      cases hsame
      exact hzero

/-- Where a data source that takes tenants has nobody, asking for its class reaches one that has
nobody, whoever asks. -/
theorem exists_select (hheld : checkHeld declared = .ok ())
    (htarget : target ∈ declared) (hadmits : target.Admits) (hunplaced : Unplaced held target) :
    ∃ chosen ∈ declared, Unplaced held chosen ∧ ∀ tenant logical now,
      (∀ placed ∈ held, ¬ (placed.tenant = tenant ∧ placed.logical = logical)) →
        ∃ record, select (intentFor target) tenant logical declared held now = .ok record ∧
          record.tenant = tenant ∧ record.logical = logical ∧ record.dataSource = chosen.id := by
  have hcandidate : target ∈ candidatesOf (intentFor target) declared :=
    mem_candidatesOf_intentFor.mpr ⟨htarget, rfl, hadmits⟩
  by_cases hshared : (intentFor target).class_ = .shared
  · have hsome := (target.shared_iff_of_validate
      ((checkHeld_eq_ok.mp hheld).2 target htarget)).mp hshared
    obtain ⟨discriminator, hdeclares⟩ := Option.isSome_iff_exists.mp hsome
    obtain ⟨chosen, found, count, hhead, hchosen⟩ :=
      ranked_unplaced hcandidate hdeclares hunplaced
    have hmem := (mem_candidatesOf_intentFor.mp (mem_ranked (List.mem_of_head? hhead)).1).1
    refine ⟨chosen, hmem, hchosen, fun tenant logical now hfresh => ?_⟩
    have hfree : taken tenant held chosen.id tenant.value = false :=
      taken_eq_false.mpr fun placed hplaced hsource => absurd hsource (hchosen placed hplaced)
    have hnew : ¬ (held.any fun placed => placed.tenant = tenant && placed.logical = logical) := by
      simpa using hfresh
    unfold select
    rw [if_neg hnew, if_pos hshared]
    unfold pickShared
    rw [hhead]
    dsimp only
    rw [hfree, if_neg Bool.false_ne_true]
    exact ⟨_, rfl, rfl, rfl, rfl⟩
  · have hmem : target ∈ sortedBy DataSourceDeclaration.id
        ((candidatesOf (intentFor target) declared).filter fun candidate =>
          !held.any fun placed => placed.dataSource = candidate.id) := by
      refine Publication.mem_sortedBy.mpr (List.mem_filter.mpr ⟨hcandidate, ?_⟩)
      simpa [Unplaced] using hunplaced
    obtain ⟨chosen, rest, hsorted⟩ := List.exists_cons_of_ne_nil (List.ne_nil_of_mem hmem)
    have hfirst : chosen ∈ sortedBy DataSourceDeclaration.id
        ((candidatesOf (intentFor target) declared).filter fun candidate =>
          !held.any fun placed => placed.dataSource = candidate.id) := by
      rw [hsorted]
      exact List.mem_cons_self
    obtain ⟨hchosen, hfree⟩ := List.mem_filter.mp (Publication.mem_sortedBy.mp hfirst)
    have hnobody : Unplaced held chosen := by simpa [Unplaced] using hfree
    refine ⟨chosen, (mem_candidatesOf_intentFor.mp hchosen).1, hnobody,
      fun tenant logical now hfresh => ?_⟩
    have hnew : ¬ (held.any fun placed => placed.tenant = tenant && placed.logical = logical) := by
      simpa using hfresh
    unfold select
    rw [if_neg hnew, if_neg hshared]
    unfold pickExclusive
    dsimp only
    rw [hsorted]
    exact ⟨_, rfl, rfl, rfl, rfl⟩

/-- The data sources that take tenants and have nobody. -/
def unreached (declared : List DataSourceDeclaration) (held : List PlacementRecord) :
    List DataSourceDeclaration :=
  declared.filter fun declaration =>
    (declaration.capabilities.acceptsNewTenants && declaration.capabilities.writable) &&
      !held.any fun placed => placed.dataSource = declaration.id

theorem mem_unreached : target ∈ unreached declared held ↔
    target ∈ declared ∧ target.Admits ∧ Unplaced held target := by
  unfold unreached Unplaced DataSourceDeclaration.Admits
  rw [List.mem_filter, Bool.and_eq_true]
  simp

/-- A placement on a data source that had nobody leaves fewer of those. -/
theorem length_unreached_lt {record : PlacementRecord} (htarget : target ∈ unreached declared held)
    (hrecord : record.dataSource = target.id) :
    (unreached declared (held ++ [record])).length < (unreached declared held).length := by
  have hsublist : (unreached declared (held ++ [record])).Sublist (unreached declared held) := by
    unfold unreached
    refine List.monotone_filter_right declared fun declaration => ?_
    simp only [List.any_append, Bool.not_or, Bool.and_eq_true]
    exact fun h => ⟨h.1, h.2.1⟩
  refine lt_of_le_of_ne hsublist.length_le fun hlength => ?_
  have hsame := hsublist.eq_of_length hlength
  rw [← hsame] at htarget
  exact (mem_unreached.mp htarget).2.2 record (List.mem_append_right _ (List.mem_singleton.mpr rfl))
    hrecord

/-- Every data source that takes tenants is reached by placements of the tenants that own it. -/
theorem exists_placed_reaching (hheld : checkHeld declared = .ok ())
    (owner : DataSourceId → TenantId) : ∀ (left : Nat) (held : List PlacementRecord),
      Placed declared held → OwnedBy owner held → (unreached declared held).length ≤ left →
        ∃ placements, Placed declared placements ∧ OwnedBy owner placements ∧
          ∀ target ∈ declared, target.Admits → ¬ Unplaced placements target := by
  intro left
  induction left with
  | zero =>
      intro held hplaced howned hleft
      refine ⟨held, hplaced, howned, fun target htarget hadmits hunplaced => ?_⟩
      have hmem := mem_unreached.mpr ⟨htarget, hadmits, hunplaced⟩
      exact absurd (List.length_pos_of_mem hmem) (by omega)
  | succ left ih =>
      intro held hplaced howned hleft
      by_cases hall : ∀ target ∈ declared, target.Admits → ¬ Unplaced held target
      · exact ⟨held, hplaced, howned, hall⟩
      · push Not at hall
        obtain ⟨target, htarget, hadmits, hunplaced⟩ := hall
        obtain ⟨chosen, hchosen, hnobody, hselect⟩ :=
          exists_select hheld htarget hadmits hunplaced
        obtain ⟨record, hrecord, htenant, hlogical, hsource⟩ :=
          hselect (owner chosen.id) (logicalOf chosen.id) "" fun placed hmem hsame =>
            hnobody placed hmem (logicalOf_injective ((howned placed hmem).2.symm.trans hsame.2))
        have hnext : Placed declared (held ++ [record]) := hplaced.next hrecord
        have hlast : record ∈ held ++ [record] :=
          List.mem_append_right _ (List.mem_singleton.mpr rfl)
        have hchosenAdmits : chosen.Admits := by
          obtain ⟨found, hlands⟩ := hnext.lands record hlast
          have hsame : found = chosen := List.inj_on_of_nodup_map (checkHeld_eq_ok.mp hheld).1
            hlands.declared hchosen (hlands.dataSource.symm.trans hsource)
          exact hsame ▸ hlands.admits
        have hlt := length_unreached_lt
          (mem_unreached.mpr ⟨hchosen, hchosenAdmits, hnobody⟩) hsource
        refine ih (held ++ [record]) hnext (fun placed hmem => ?_) (by omega)
        rcases List.mem_append.mp hmem with hbefore | hnew
        · exact howned placed hbefore
        · rw [List.mem_singleton.mp hnew, hsource]
          exact ⟨htenant, hlogical⟩

end Reached

end Platform
end SaasFabric
