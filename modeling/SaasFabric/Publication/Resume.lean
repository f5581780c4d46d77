import SaasFabric.Publication.Planned

/-!
# Offering a snapshot again

A publication that was interrupted left some of its writes behind.  Whichever they are,
the same snapshot is planned again: each document is as it was, or holds the payload that
was planned for it, and neither stands in the way of what is decided a second time.
-/

namespace SaasFabric
namespace Publication

open Library (AtLeast Admitted atLeast_raiseBy bind_eq_ok)

variable {codecs : Codecs}

/-! ## What is left behind -/

/-- What some of a document's writes leave of it. -/
inductive DocumentLeft (document : DocumentKind) (plan : DocumentPlan) (before : HeldDocument) :
    HeldDocument → Prop where
  | untouched : DocumentLeft document plan before before
  | payload (written : plan.outcome = .written) :
      DocumentLeft document plan before (before.withPayload plan.bytes)
  | whole (written : plan.outcome = .written) : DocumentLeft document plan before
      ((before.withPayload plan.bytes).withManifest document plan.revision)

/-- A document, after all of its writes. -/
def DocumentPlan.carriedOut (plan : DocumentPlan) (document : DocumentKind)
    (before : HeldDocument) : HeldDocument :=
  match plan.outcome with
  | .unchanged => before
  | .written => (before.withPayload plan.bytes).withManifest document plan.revision

/-- The registry, after all of its writes. -/
def carriedOutRegistry (plan : Option RegistryPlan) (before : Option Bytes) : Option Bytes :=
  match plan with
  | none => before
  | some plan =>
      match plan.outcome with
      | .unchanged => before
      | .written => some plan.bytes

/-- The record, after it is written. -/
def RecordPlan.carriedOut (plan : RecordPlan) (before : Option Bytes) : Option Bytes :=
  match plan.outcome with
  | .unchanged => before
  | .written => some plan.bytes

/-- What some of a publication's writes, short of its record, leave of what was held. -/
structure Left (plan : PublicationPlan) (before after : HeldDocuments) : Prop where
  dataSources : DocumentLeft .dataSources plan.dataSources before.dataSources after.dataSources
  catalog : DocumentLeft .catalog plan.catalog before.catalog after.catalog
  tenants : DocumentLeft .tenants plan.tenants before.tenants after.tenants
  registry : after.registry = before.registry ∨
    ∃ registry, plan.registry = some registry ∧ after.registry = some registry.bytes
  record : after.record = before.record

/-- What all of a publication's writes leave. -/
def PublicationPlan.carriedOut (plan : PublicationPlan) (before : HeldDocuments) :
    HeldDocuments where
  tenants := plan.tenants.carriedOut .tenants before.tenants
  dataSources := plan.dataSources.carriedOut .dataSources before.dataSources
  catalog := plan.catalog.carriedOut .catalog before.catalog
  record := plan.record.carriedOut before.record
  registry := carriedOutRegistry plan.registry before.registry

theorem HeldDocuments.writeAll_append (held : HeldDocuments) (first second : List Write) :
    held.writeAll (first ++ second) = (held.writeAll first).writeAll second :=
  List.foldl_append

/-- The writes of one document, up to some point. -/
theorem writeAll_take_documentWrites (held : HeldDocuments) (plan : DocumentPlan)
    (document : DocumentKind) (stop : Nat) :
    ∃ change : HeldDocument → HeldDocument,
      held.writeAll ((plan.writes document).take stop) = held.modify change document ∧
        (∀ before, DocumentLeft document plan before (change before)) ∧
        ((plan.writes document).length ≤ stop →
          ∀ before, change before = plan.carriedOut document before) := by
  unfold DocumentPlan.writes DocumentPlan.carriedOut
  cases houtcome : plan.outcome with
  | unchanged =>
      refine ⟨id, ?_, fun _ => .untouched, fun _ _ => rfl⟩
      rw [List.take_nil]
      cases document <;> rfl
  | written =>
      match stop with
      | 0 =>
          refine ⟨id, ?_, fun _ => .untouched, fun hle => ?_⟩
          · cases document <;> rfl
          · exact absurd hle (by simp)
      | 1 =>
          refine ⟨(·.withPayload plan.bytes), rfl, fun _ => .payload houtcome, fun hle => ?_⟩
          exact absurd hle (by simp)
      | stop + 2 =>
          refine ⟨fun before => (before.withPayload plan.bytes).withManifest document
            plan.revision, ?_, fun _ => .whole houtcome, fun _ _ => rfl⟩
          rw [List.take_of_length_le (by simp)]
          cases document <;> rfl

/-- The writes of the registry, up to some point. -/
theorem writeAll_take_registryWrites (held : HeldDocuments) (plan : Option RegistryPlan)
    (stop : Nat) :
    ∃ after, held.writeAll (((plan.map RegistryPlan.writes).getD []).take stop) =
        { held with registry := after } ∧
      (after = held.registry ∨ ∃ registry, plan = some registry ∧
        after = some registry.bytes) ∧
      (((plan.map RegistryPlan.writes).getD []).length ≤ stop →
        after = carriedOutRegistry plan held.registry) := by
  have hnothing : ∀ stop, held.writeAll (([] : List Write).take stop) =
      { held with registry := held.registry } := by
    intro stop
    rw [List.take_nil]
    rfl
  cases plan with
  | none => exact ⟨held.registry, hnothing stop, Or.inl rfl, fun _ => rfl⟩
  | some plan =>
      simp only [Option.map_some, Option.getD_some]
      unfold RegistryPlan.writes carriedOutRegistry
      dsimp only
      cases plan.outcome with
      | unchanged => exact ⟨held.registry, hnothing stop, Or.inl rfl, fun _ => rfl⟩
      | written =>
          cases stop with
          | zero => exact ⟨held.registry, rfl, Or.inl rfl, fun hle => absurd hle (by simp)⟩
          | succ stop =>
              refine ⟨some plan.bytes, ?_, Or.inr ⟨plan, rfl, rfl⟩, fun _ => rfl⟩
              rw [List.take_of_length_le (by simp)]
              rfl

/-- The write of the record, up to some point. -/
theorem writeAll_take_recordWrites (held : HeldDocuments) (plan : RecordPlan) (stop : Nat) :
    held.writeAll (plan.writes.take stop) =
      if plan.writes.length ≤ stop then { held with record := plan.carriedOut held.record }
      else held := by
  unfold RecordPlan.writes RecordPlan.carriedOut
  cases plan.outcome with
  | unchanged =>
      dsimp only
      rw [List.take_nil, List.length_nil, if_pos (Nat.zero_le stop)]
      rfl
  | written =>
      dsimp only
      cases stop with
      | zero => rfl
      | succ stop =>
          rw [List.take_of_length_le (by simp), if_pos (by simp)]
          rfl

/-- The writes of a plan up to some point leave some of them behind, or carry it out. -/
theorem writeAll_take_writes (plan : PublicationPlan) (held : HeldDocuments) (stop : Nat) :
    (plan.writes.length ≤ stop ∧
      held.writeAll (plan.writes.take stop) = plan.carriedOut held) ∨
    (stop < plan.writes.length ∧ Left plan held (held.writeAll (plan.writes.take stop))) := by
  unfold PublicationPlan.writes
  simp only [List.take_append, List.length_append, HeldDocuments.writeAll_append]
  -- How many writes are left at each document, in the order they are made.
  generalize hfirst : stop - (plan.dataSources.writes .dataSources).length = second
  generalize hsecond : second - (plan.catalog.writes .catalog).length = third
  generalize hthird : third - (plan.tenants.writes .tenants).length = fourth
  generalize hfourth : fourth - ((plan.registry.map RegistryPlan.writes).getD []).length = fifth
  obtain ⟨dataSources, hdataSources, hleftDataSources, hallDataSources⟩ :=
    writeAll_take_documentWrites held plan.dataSources .dataSources stop
  rw [hdataSources]
  obtain ⟨catalog, hcatalog, hleftCatalog, hallCatalog⟩ :=
    writeAll_take_documentWrites (held.modify dataSources .dataSources) plan.catalog .catalog
      second
  rw [hcatalog]
  obtain ⟨tenants, htenants, hleftTenants, hallTenants⟩ :=
    writeAll_take_documentWrites ((held.modify dataSources .dataSources).modify catalog .catalog)
      plan.tenants .tenants third
  rw [htenants]
  obtain ⟨registry, hregistry, hleftRegistry, hallRegistry⟩ :=
    writeAll_take_registryWrites (((held.modify dataSources .dataSources).modify catalog
      .catalog).modify tenants .tenants) plan.registry fourth
  rw [hregistry, writeAll_take_recordWrites]
  by_cases hrecord : plan.record.writes.length ≤ fifth
  · rw [if_pos hrecord]
    by_cases hall : (plan.dataSources.writes .dataSources).length +
        ((plan.catalog.writes .catalog).length + ((plan.tenants.writes .tenants).length +
          (((plan.registry.map RegistryPlan.writes).getD []).length +
            plan.record.writes.length))) ≤ stop
    · refine Or.inl ⟨hall, ?_⟩
      have hds := hallDataSources (by omega) held.dataSources
      have hcat := hallCatalog (by omega) held.catalog
      have hten := hallTenants (by omega) held.tenants
      have hreg := hallRegistry (by omega)
      unfold PublicationPlan.carriedOut
      rw [← hds, ← hcat, ← hten, hreg]
      rfl
    · -- Only an unchanged record needs no write; then it stays as it was.
      refine Or.inr ⟨not_le.mp hall, hleftDataSources _, hleftCatalog _, hleftTenants _,
        hleftRegistry, ?_⟩
      have hunchanged : plan.record.outcome = .unchanged := by
        cases houtcome : plan.record.outcome with
        | unchanged => rfl
        | written =>
            have hlength : plan.record.writes.length = 1 := by
              unfold RecordPlan.writes
              rw [houtcome]
              rfl
            omega
      show plan.record.carriedOut held.record = held.record
      unfold RecordPlan.carriedOut
      rw [hunchanged]
  · rw [if_neg hrecord]
    refine Or.inr ⟨by omega, hleftDataSources _, hleftCatalog _, hleftTenants _,
      hleftRegistry, rfl⟩

end Publication
end SaasFabric
