import SaasFabric.Publication.Reregistered

/-!
# An interrupted publication is completed

A publication stops after any number of its writes.  Offering the same snapshot again is
never refused: it ends in a record of the same documents and the same registry, writes
over no registry that was written, and writes nothing where nothing was left to write.
-/

namespace SaasFabric
namespace Publication

open Library (bind_eq_ok)

variable {codecs : Codecs}

/-! ## The registry's writes -/

theorem mem_documentWrites {plan : DocumentPlan} {document : DocumentKind} {bytes : Bytes} :
    Write.registry bytes ∉ plan.writes document := by
  unfold DocumentPlan.writes
  cases plan.outcome <;> simp

theorem mem_recordWrites {plan : RecordPlan} {bytes : Bytes} :
    Write.registry bytes ∉ plan.writes := by
  unfold RecordPlan.writes
  cases plan.outcome <;> simp

/-- A plan writes its registry, or none. -/
theorem mem_writes_registry {plan : PublicationPlan} {bytes : Bytes} :
    Write.registry bytes ∈ plan.writes ↔
      ∃ registry, plan.registry = some registry ∧ registry.outcome = .written ∧
        registry.bytes = bytes := by
  unfold PublicationPlan.writes
  simp only [List.mem_append, mem_documentWrites, mem_recordWrites, false_or, or_false]
  cases plan.registry with
  | none => simp
  | some registry =>
      simp only [Option.map_some, Option.getD_some, Option.some.injEq, exists_eq_left']
      unfold RegistryPlan.writes
      cases registry.outcome <;> simp [eq_comm]

/-- Writes of one registry leave it held. -/
theorem registry_writeAll {writes : List Write} {bytes : Bytes}
    (hsame : ∀ other, Write.registry other ∈ writes → other = bytes) {held : HeldDocuments}
    (h : held.registry = some bytes ∨ Write.registry bytes ∈ writes) :
    (held.writeAll writes).registry = some bytes := by
  induction writes generalizing held with
  | nil => exact h.resolve_right List.not_mem_nil
  | cons write rest ih =>
      refine ih (fun other hother => hsame other (List.mem_cons_of_mem _ hother)) ?_
      rcases h with hheld | hmem
      · refine Or.inl ?_
        cases write with
        | payload document _ => cases document <;> exact hheld
        | manifest document _ => cases document <;> exact hheld
        | registry other => exact congrArg some (hsame other List.mem_cons_self)
        | record _ => exact hheld
      · rcases List.mem_cons.mp hmem with rfl | hrest
        · exact Or.inl rfl
        · exact Or.inr hrest

/-- A registry that some of a plan's writes wrote is held after them. -/
theorem registry_of_mem_take {plan : PublicationPlan} (held : HeldDocuments) {stop : Nat}
    {bytes : Bytes} (h : Write.registry bytes ∈ plan.writes.take stop) :
    (held.writeAll (plan.writes.take stop)).registry = some bytes ∧
      ∃ registry, plan.registry = some registry ∧ registry.bytes = bytes := by
  obtain ⟨registry, hregistry, -, hbytes⟩ := mem_writes_registry.mp (List.mem_of_mem_take h)
  refine ⟨registry_writeAll (fun other hother => ?_) (Or.inr h), registry, hregistry, hbytes⟩
  obtain ⟨found, hfound, -, hother⟩ := mem_writes_registry.mp (List.mem_of_mem_take hother)
  rw [hregistry] at hfound
  cases hfound
  rw [← hother, hbytes]

/-! ## Completing a publication -/

/-- Nothing of a plan is written. -/
structure PublicationPlan.AllUnchanged (plan : PublicationPlan) : Prop where
  tenants : plan.tenants.outcome = .unchanged
  dataSources : plan.dataSources.outcome = .unchanged
  catalog : plan.catalog.outcome = .unchanged
  registry : ∀ registry, plan.registry = some registry → registry.outcome = .unchanged
  record : plan.record.outcome = .unchanged

/-- A second plan completes the first, over what some of the first one's writes left. -/
structure Completes (codecs : Codecs) (plan again : PublicationPlan) (written : List Write)
    (left : HeldDocuments) : Prop where
  documents : again.record.record.documents = plan.record.record.documents
  registry : again.record.record.registry = plan.record.record.registry
  recorded : (left.writeAll again.writes).parseRecord codecs = .ok (some again.record.record)
  kept : ∀ bytes, Write.registry bytes ∈ written → left.registry = some bytes ∧
    ∀ count, (left.writeAll (again.writes.take count)).registry = some bytes

/-- All of a plan's writes carry it out. -/
theorem writeAll_writes (plan : PublicationPlan) (held : HeldDocuments) :
    held.writeAll plan.writes = plan.carriedOut held := by
  rcases writeAll_take_writes plan held plan.writes.length with ⟨-, hall⟩ | ⟨hlt, -⟩
  · rwa [List.take_length] at hall
  · exact absurd hlt (lt_irrefl _)

section Snapshot

variable {snapshot : RuntimeSnapshot} {held : HeldDocuments} {plan again : PublicationPlan}
  {record recorded : Option PublicationRecord} {published now : PublishedResources}

/-- What a record that was decided of names. -/
theorem Planned.recordNames (h : Planned codecs snapshot held plan record published) :
    plan.record.record.documents =
        recordedDocuments codecs plan.dataSources plan.catalog plan.tenants ∧
      plan.record.record.registry = plan.registry.map (RegistryPlan.recorded codecs) := by
  obtain ⟨generation, hrecord⟩ := h.records.record
  rw [hrecord]
  exact ⟨rfl, rfl⟩

/-- A plan of the same documents and the same registry, over what was left, completes it. -/
theorem Planned.completes (hlawful : codecs.Lawful)
    (h : Planned codecs snapshot held plan record published) {stop : Nat}
    (hagain : Planned codecs snapshot (held.writeAll (plan.writes.take stop)) again recorded now)
    (hsame : SameDocuments plan again)
    (hregistry : ∃ outcome : RegistryPlan → DocumentOutcome, again.registry =
      plan.registry.map fun registry => { registry with outcome := outcome registry }) :
    Completes codecs plan again (plan.writes.take stop)
      (held.writeAll (plan.writes.take stop)) := by
  obtain ⟨hdocuments, hnamed⟩ := h.recordNames
  obtain ⟨hdocumentsAgain, hnamedAgain⟩ := hagain.recordNames
  obtain ⟨outcome, hregistry⟩ := hregistry
  refine ⟨?_, ?_, ?_, ?_⟩
  · rw [hdocumentsAgain, hdocuments, hsame.recorded]
  · rw [hnamedAgain, hnamed, hregistry, Option.map_map]
    rfl
  · rw [writeAll_writes]
    exact hagain.parseRecord_carriedOut hlawful
  · intro bytes hbytes
    obtain ⟨hleft, registry, hplan, hsame⟩ := registry_of_mem_take held hbytes
    refine ⟨hleft, fun count => registry_writeAll (fun other hother => ?_) (Or.inl hleft)⟩
    -- Whatever registry is written again has the bytes of the one planned first.
    obtain ⟨found, hfound, -, hother⟩ := mem_writes_registry.mp (List.mem_of_mem_take hother)
    rw [hregistry, hplan] at hfound
    cases hfound
    rw [← hother, ← hsame]

/-- An interrupted publication is completed by offering its snapshot again; and offered
once more after that, nothing is written. -/
theorem interrupted_publication_completes (hlawful : codecs.Lawful) (hunique : snapshot.UniqueIds)
    (hplan : planPublication codecs snapshot held = .ok plan) :
    (∀ stop, (∀ target, readHeld codecs target = .ok held →
        readHeld codecs (perform codecs plan.writes stop target).target =
          .ok (held.writeAll (plan.writes.take stop))) ∧
      ∃ again, planPublication codecs snapshot (held.writeAll (plan.writes.take stop)) =
          .ok again ∧
        Completes codecs plan again (plan.writes.take stop)
          (held.writeAll (plan.writes.take stop))) ∧
    ∃ again, planPublication codecs snapshot (held.writeAll plan.writes) = .ok again ∧
      again.AllUnchanged := by
  obtain ⟨record, published, hplanned⟩ := (planPublication_eq_ok hlawful).mp hplan
  constructor
  · intro stop
    constructor
    · intro target htarget
      exact (readHeld_perform hlawful plan.writes stop htarget).1
    · rcases writeAll_take_writes plan held stop with ⟨-, hall⟩ | ⟨-, hleft⟩
      · obtain ⟨again, now, hagain, hsame, -, -, -, hregistry, -⟩ :=
          hplanned.carriedOut hlawful hunique
        rw [← hall] at hagain
        exact ⟨again, (planPublication_eq_ok hlawful).mpr ⟨_, now, hagain⟩,
          hplanned.completes hlawful hagain hsame ⟨_, hregistry⟩⟩
      · obtain ⟨again, now, hagain, hsame, hregistry⟩ := hplanned.left hlawful hunique hleft
        exact ⟨again, (planPublication_eq_ok hlawful).mpr ⟨record, now, hagain⟩,
          hplanned.completes hlawful hagain hsame ⟨_, hregistry⟩⟩
  · obtain ⟨again, now, hagain, -, hdataSources, hcatalog, htenants, hregistry, hrecord, -⟩ :=
      hplanned.carriedOut hlawful hunique
    rw [← writeAll_writes] at hagain
    refine ⟨again, (planPublication_eq_ok hlawful).mpr ⟨_, now, hagain⟩,
      htenants, hdataSources, hcatalog, fun found hfound => ?_, hrecord⟩
    rw [hregistry] at hfound
    obtain ⟨_, -, rfl⟩ := Option.map_eq_some_iff.mp hfound
    rfl

end Snapshot

/-- The first publication of a tenant and its issuer is completed from wherever it stopped. -/
theorem first_publication_completes :
    (∀ stop, readHeld registeredSamples.codecs
        (perform registeredSamples.codecs registeredPlan.writes stop Target.empty).target =
          .ok (HeldDocuments.absent.writeAll (registeredPlan.writes.take stop)) ∧
      ∃ again, planPublication registeredSamples.codecs (registeredSnapshot [acmeRegistration])
          (HeldDocuments.absent.writeAll (registeredPlan.writes.take stop)) = .ok again ∧
        again.record.record.documents =
          (registeredRecord 1 ⟨.FIRST, toString acmeRegistryDigest⟩).documents ∧
        again.record.record.registry = some ⟨.FIRST, toString acmeRegistryDigest⟩) ∧
    ∃ again, planPublication registeredSamples.codecs (registeredSnapshot [acmeRegistration])
        (HeldDocuments.absent.writeAll registeredPlan.writes) = .ok again ∧
      again.AllUnchanged := by
  obtain ⟨hstopped, hwhole⟩ := interrupted_publication_completes registeredSamples.lawful
    (uniqueIds_registeredSnapshot _) registeredSnapshot_planned
  refine ⟨fun stop => ?_, hwhole⟩
  obtain ⟨hread, again, hagain, hcompletes⟩ := hstopped stop
  refine ⟨hread Target.empty readHeld_empty, again, hagain, ?_, ?_⟩
  · rw [hcompletes.documents, registeredPlan_record]
  · rw [hcompletes.registry, registeredPlan_record]
    rfl

end Publication
end SaasFabric
