import SaasFabric.Kubernetes.Version

/-!
# The versions of an object

A version is made by a plan of what was read of the version before it.  Over a chain of such
versions no document's revision goes back, and at one revision the payload stays; the record
names no lower registry generation, and at one generation the same digest, and the registry is
carried beside the record that names it.
-/

namespace SaasFabric
namespace Kubernetes

open Library
open Publication

variable {codecs : Codecs}

/-! ## One version and the next -/

/-- A version is what a plan makes of an object, from what was read of the version before. -/
structure MadeFrom (codecs : Codecs) (document : DocumentKind) (before : Option Stored)
    (after : Stored) (snapshot : RuntimeSnapshot) (reads : Reads) (plan : PublicationPlan) :
    Prop where
  read : readStored codecs document before = .ok (reads.of document)
  planned : planPublication codecs snapshot reads.held = .ok plan
  written : (objectOf plan reads document).plan.outcome = .written
  made : ∃ namespaceName version made,
    (objectOf plan reads document).configMap codecs namespaceName version = .ok made ∧
      after.data = made.data

/-- A version follows another: some plan made it so. -/
def Replaces (codecs : Codecs) (document : DocumentKind) (before : Option Stored)
    (after : Stored) : Prop :=
  ∃ snapshot reads plan, MadeFrom codecs document before after snapshot reads plan

/-- Each version follows the one before it. -/
def Chained (codecs : Codecs) (document : DocumentKind) : Option Stored → List Stored → Prop
  | _, [] => True
  | before, after :: later =>
      Replaces codecs document before after ∧ Chained codecs document (some after) later

theorem chained_append_singleton {document : DocumentKind} {before : Option Stored}
    {versions : List Stored} {last : Stored} :
    Chained codecs document before (versions ++ [last]) ↔
      Chained codecs document before versions ∧
        Replaces codecs document (versions.getLast?.or before) last := by
  induction versions generalizing before with
  | nil => simp [Chained]
  | cons version versions ih =>
      rw [List.cons_append]
      unfold Chained
      rw [ih, and_assoc]
      have hlast : (version :: versions).getLast?.or before =
          versions.getLast?.or (some version) := by
        rw [List.getLast?_cons]
        cases versions.getLast? <;> rfl
      rw [hlast]

/-- What a transitive relation says of each version and the next it says of every later one. -/
theorem Chained.pairwise {document : DocumentKind} {R : Stored → Stored → Prop}
    (htrans : ∀ {first second third}, R first second → R second third → R first third)
    (hstep : ∀ {before after}, Replaces codecs document (some before) after → R before after)
    {before : Option Stored} {versions : List Stored}
    (h : Chained codecs document before versions) :
    (before.toList ++ versions).Pairwise R := by
  induction versions generalizing before with
  | nil => cases before <;> simp
  | cons version versions ih =>
      obtain ⟨hreplaces, hlater⟩ := h
      have hrest : (version :: versions).Pairwise R := ih hlater
      cases before with
      | none => exact hrest
      | some before =>
          refine List.pairwise_cons.mpr ⟨fun later hmem => ?_, hrest⟩
          have hfirst := hstep hreplaces
          rcases List.mem_cons.mp hmem with rfl | hmem
          · exact hfirst
          · exact htrans hfirst (List.rel_of_pairwise_cons hrest hmem)

/-- Every version of a chain follows something. -/
theorem Chained.replaces {document : DocumentKind} {before : Option Stored}
    {versions : List Stored} (h : Chained codecs document before versions) {version : Stored}
    (hmem : version ∈ versions) : ∃ earlier, Replaces codecs document earlier version := by
  induction versions generalizing before with
  | nil => exact absurd hmem List.not_mem_nil
  | cons first versions ih =>
      rcases List.mem_cons.mp hmem with rfl | hmem
      · exact ⟨before, h.1⟩
      · exact ih h.2 hmem

/-! ## Revisions -/

/-- The revision an object's manifest names, where it can be read. -/
def revisionOf (codecs : Codecs) (document : DocumentKind) (stored : Stored) :
    Option DocumentRevision :=
  ((heldOf codecs stored.data document).toOption.bind HeldDocument.manifest).map
    DocumentManifest.revision

/-- The payload an object holds. -/
def payloadOf (document : DocumentKind) (stored : Stored) : Option Bytes :=
  bytesAt stored.data (Keys.of document).payload

/-- A later version names no lower revision, and at the same one holds the same payload. -/
def RevisionFollows (codecs : Codecs) (document : DocumentKind) (earlier later : Stored) : Prop :=
  ∀ old, revisionOf codecs document earlier = some old →
    ∃ new, revisionOf codecs document later = some new ∧ old ≤ new ∧
      (old = new → ∀ payload, payloadOf document earlier = some payload →
        payloadOf document later = some payload)

theorem RevisionFollows.trans {document : DocumentKind} {first second third : Stored}
    (h : RevisionFollows codecs document first second)
    (hnext : RevisionFollows codecs document second third) :
    RevisionFollows codecs document first third := by
  intro old hold
  obtain ⟨middle, hmiddle, hle, hsame⟩ := h old hold
  obtain ⟨new, hnew, hle', hsame'⟩ := hnext middle hmiddle
  refine ⟨new, hnew, hle.trans hle', ?_⟩
  rintro rfl payload hpayload
  have hequal : old = middle := le_antisymm hle hle'
  exact hsame' hequal.symm payload (hsame hequal payload hpayload)

section Made

variable {document : DocumentKind} {before : Option Stored} {after : Stored}
  {snapshot : RuntimeSnapshot} {reads : Reads} {plan : PublicationPlan}

theorem held_document (reads : Reads) (document : DocumentKind) :
    reads.held.document document = (reads.of document).held := by
  cases document <;> rfl

/-- What a version that was made holds. -/
theorem MadeFrom.lists (h : MadeFrom codecs document before after snapshot reads plan) :
    ∃ manifest, codecs.manifest.line (objectOf plan reads document).manifest = .ok manifest ∧
      Lists after.data ((objectOf plan reads document).entries manifest) := by
  obtain ⟨_, _, made, hmade, hdata⟩ := h.made
  obtain ⟨manifest, hline, -, hlists⟩ := configMap_eq_ok hmade
  rw [← hdata] at hlists
  exact ⟨manifest, hline, hlists⟩

theorem MadeFrom.held (hlawful : codecs.Lawful)
    (h : MadeFrom codecs document before after snapshot reads plan) :
    heldOf codecs after.data document = .ok ⟨some (objectOf plan reads document).manifest,
      some (plan.document document).bytes⟩ := by
  obtain ⟨manifest, hline, hlists⟩ := h.lists
  exact heldOf_written hlawful h.read hline hlists

/-- A version is at the revision that was planned. -/
theorem MadeFrom.revisionOf (hlawful : codecs.Lawful)
    (h : MadeFrom codecs document before after snapshot reads plan) :
    Kubernetes.revisionOf codecs document after =
      some (objectOf plan reads document).manifest.revision := by
  unfold Kubernetes.revisionOf
  rw [h.held hlawful]
  rfl

theorem MadeFrom.payloadOf (hlawful : codecs.Lawful)
    (h : MadeFrom codecs document before after snapshot reads plan) :
    Kubernetes.payloadOf document after = some (plan.document document).bytes :=
  (heldOf_eq_ok.mp (h.held hlawful)).2.symm

/-- A document other than the tenants is written only where its plan says so. -/
theorem outcome_of_written (hwritten : (objectOf plan reads document).plan.outcome = .written)
    (hunchanged : (plan.document document).outcome = .unchanged) : document = .tenants := by
  cases document with
  | tenants => rfl
  | dataSources =>
      have hsame : plan.dataSources.outcome = .written := hwritten
      rw [show plan.dataSources.outcome = .unchanged from hunchanged] at hsame
      cases hsame
  | catalog =>
      have hsame : plan.catalog.outcome = .written := hwritten
      rw [show plan.catalog.outcome = .unchanged from hunchanged] at hsame
      cases hsame

/-- A manifest is the one that is held, where the document is unchanged, or of the planned
revision. -/
theorem manifest_objectOf (hwritten : (objectOf plan reads document).plan.outcome = .written) :
    (objectOf plan reads document).manifest.revision = (plan.document document).revision ∨
      (plan.document document).outcome = .unchanged ∧
        (reads.of document).held.manifest = some (objectOf plan reads document).manifest := by
  cases document with
  | dataSources => exact Or.inl rfl
  | catalog => exact Or.inl rfl
  | tenants =>
      show (tenantsManifest plan reads.tenants).revision = plan.tenants.revision ∨
        plan.tenants.outcome = .unchanged ∧
          reads.tenants.held.manifest = some (tenantsManifest plan reads.tenants)
      unfold tenantsManifest
      split
      · rename_i manifest hmanifest hunchanged
        exact Or.inr ⟨hunchanged, hmanifest⟩
      · exact Or.inl rfl

/-- A version that is made names no lower revision than the one it replaces, and at the same one
the payload is the same. -/
theorem Replaces.revisionFollows (hlawful : codecs.Lawful) {earlier : Stored}
    (h : Replaces codecs document (some earlier) after) :
    RevisionFollows codecs document earlier after := by
  obtain ⟨snapshot, reads, plan, hmade⟩ := h
  intro old hold
  obtain ⟨hheld, -⟩ := readStored_some.mp hmade.read
  have hmanifest : ∃ manifest, (reads.of document).held.manifest = some manifest ∧
      manifest.revision = old := by
    unfold Kubernetes.revisionOf at hold
    rw [hheld] at hold
    exact Option.map_eq_some_iff.mp hold
  obtain ⟨manifest, hmanifest, rfl⟩ := hmanifest
  refine ⟨_, hmade.revisionOf hlawful, ?_⟩
  obtain ⟨record, published, hplanned⟩ := (planPublication_eq_ok hlawful).mp hmade.planned
  have hdecided := hplanned.document document
  rw [held_document] at hdecided
  have hcopy : (reads.of document).held.held (recordedRevision record (·.document document)) =
      some ⟨manifest.revision, (reads.of document).held.payload⟩ := by
    unfold HeldDocument.held
    rw [hmanifest]
    rfl
  rw [hcopy] at hdecided
  obtain ⟨-, hrevision, answer, hanswer, houtcome⟩ := decideDocument_eq_ok.mp hdecided
  have hpayload : Kubernetes.payloadOf document earlier = (reads.of document).held.payload :=
    (heldOf_eq_ok.mp hheld).2.symm
  rcases verdict_eq_ok.mp hanswer with ⟨hnone, -⟩ | ⟨copy, hsome, hle, hcase⟩
  · cases hnone
  · cases hsome
    rw [hpayload, hmade.payloadOf hlawful]
    -- Either the manifest that is held goes back, or the planned revision is written.
    rcases manifest_objectOf hmade.written with hnew | ⟨hunchanged, hsame⟩
    · rw [hnew, hrevision]
      refine ⟨hle, fun heq payload hbytes => ?_⟩
      rcases hcase with ⟨hnone, -⟩ | ⟨-, hlt, -⟩ | ⟨hbytes', -, -⟩
      · rw [hbytes] at hnone
        cases hnone
      · exact absurd heq hlt.ne
      · exact hbytes'.symm.trans hbytes
    · rw [hmanifest] at hsame
      cases hsame
      refine ⟨le_rfl, fun _ payload hbytes => ?_⟩
      rw [hunchanged] at houtcome
      rcases hcase with ⟨-, rfl⟩ | ⟨-, -, rfl⟩ | ⟨hbytes', -, -⟩
      · cases houtcome
      · cases houtcome
      · exact hbytes'.symm.trans hbytes

end Made

/-! ## Registries -/

/-- Only a generation above the recorded one is ahead of it. -/
theorem lt_of_aheadOf {held : Option RegistryGeneration} {committed generation : RegistryGeneration}
    (h : aheadOf held (some committed) = some generation) : committed < generation := by
  cases held with
  | none => cases h
  | some held =>
      unfold aheadOf at h
      dsimp only at h
      split at h
      · rename_i hlt
        cases h
        exact hlt
      · cases h

/-- A generation is the recorded one, where the registry has the recorded digest, or above it. -/
theorem generationFor_recorded {recorded : RecordedRegistry} {held : Option Bytes}
    {offered : List IssuerRegistration} {generation : RegistryGeneration}
    (h : generationFor codecs (some recorded) held offered = .ok generation) :
    (∃ rendered, render codecs generation offered = .ok rendered ∧
        recorded = ⟨generation, codecs.sha256Hex rendered.2⟩) ∨
      recorded.generation < generation := by
  unfold generationFor at h
  obtain ⟨heldGeneration, -, h⟩ := bind_eq_ok.mp h
  obtain ⟨kept, hkept, h⟩ := bind_eq_ok.mp h
  cases kept with
  | some found =>
      cases h
      unfold keptRecorded at hkept
      split at hkept
      · rename_i committed _ hcommitted _
        cases hcommitted
        obtain ⟨rendered, hrender, hsame⟩ := bind_eq_ok.mp hkept
        split at hsame
        · rename_i hdigest
          cases hsame
          refine Or.inl ⟨rendered, hrender, ?_⟩
          rw [hdigest]
        · cases hsame
      · cases hkept
  | none =>
      obtain ⟨kept, hkept, h⟩ := bind_eq_ok.mp h
      cases kept with
      | some found =>
          cases h
          unfold keptAhead at hkept
          split at hkept
          · obtain ⟨rendered, -, hsame⟩ := bind_eq_ok.mp hkept
            split at hsame
            · cases hsame
              exact Or.inr (lt_of_aheadOf ‹aheadOf _ _ = some _›)
            · cases hsame
          · cases hkept
      | none =>
          refine Or.inr (lt_of_nextGeneration h _ ?_)
          exact Library.atLeast_maxFloor.mpr (Or.inr (Library.atLeast_some.mpr le_rfl))

/-- The record an object holds, where it can be read. -/
def recordOf (codecs : Codecs) (stored : Stored) : Option PublicationRecord :=
  (bytesAt stored.data PUBLICATION_RECORD_FILE).bind fun bytes =>
    (PublicationRecord.parseHeld codecs bytes).toOption

/-- The registry an object's record names. -/
def registryOf (codecs : Codecs) (stored : Stored) : Option RecordedRegistry :=
  (recordOf codecs stored).bind PublicationRecord.registry

/-- A later record names no lower generation, and at the same one the same digest. -/
def RegistryFollows (codecs : Codecs) (earlier later : Stored) : Prop :=
  ∀ old, registryOf codecs earlier = some old →
    ∃ new, registryOf codecs later = some new ∧ old.generation ≤ new.generation ∧
      (old.generation = new.generation → old = new)

theorem RegistryFollows.trans {first second third : Stored}
    (h : RegistryFollows codecs first second) (hnext : RegistryFollows codecs second third) :
    RegistryFollows codecs first third := by
  intro old hold
  obtain ⟨middle, hmiddle, hle, hsame⟩ := h old hold
  obtain ⟨new, hnew, hle', hsame'⟩ := hnext middle hmiddle
  refine ⟨new, hnew, hle.trans hle', fun heq => ?_⟩
  have hequal : old.generation = middle.generation := le_antisymm hle (heq ▸ hle')
  exact (hsame hequal).trans (hsame' (hequal.symm.trans heq))

/-- A tenants object carries the registry its record names, or neither. -/
def CarriesRegistry (codecs : Codecs) (stored : Stored) : Prop :=
  (registryOf codecs stored = none ∧ bytesAt stored.data ISSUER_REGISTRY_FILE = none) ∨
    ∃ bytes generation, bytesAt stored.data ISSUER_REGISTRY_FILE = some bytes ∧
      heldGeneration codecs bytes = .ok generation ∧
        registryOf codecs stored = some ⟨generation, codecs.sha256Hex bytes⟩

section Registry

variable {before : Option Stored} {after : Stored} {snapshot : RuntimeSnapshot} {reads : Reads}
  {plan : PublicationPlan}

/-- The record that is planned is the one a written tenants object holds. -/
theorem MadeFrom.recordOf (hlawful : codecs.Lawful)
    (h : MadeFrom codecs .tenants before after snapshot reads plan) :
    Kubernetes.recordOf codecs after = some plan.record.record := by
  obtain ⟨_, -, hlists⟩ := h.lists
  obtain ⟨record, published, hplanned⟩ := (planPublication_eq_ok hlawful).mp h.planned
  obtain ⟨generation, hrecord⟩ := hplanned.records.record
  have hparsed : PublicationRecord.parseHeld codecs plan.record.bytes = .ok plan.record.record := by
    refine PublicationRecord.parseHeld_line hlawful ?_ hplanned.records.line
    rw [hrecord]
    rfl
  unfold Kubernetes.recordOf
  rw [(carried_written hlists).1]
  dsimp only [Option.bind_some]
  rw [hparsed]
  rfl

theorem MadeFrom.registryOf (hlawful : codecs.Lawful)
    (h : MadeFrom codecs .tenants before after snapshot reads plan) :
    Kubernetes.registryOf codecs after = plan.registry.map (RegistryPlan.recorded codecs) := by
  obtain ⟨record, published, hplanned⟩ := (planPublication_eq_ok hlawful).mp h.planned
  obtain ⟨generation, hrecord⟩ := hplanned.records.record
  unfold Kubernetes.registryOf
  rw [h.recordOf hlawful]
  show plan.record.record.registry = _
  rw [hrecord]
  rfl

/-- The record that was planned against is the one of the version that is replaced. -/
theorem MadeFrom.planned_recordOf (hlawful : codecs.Lawful) {earlier : Stored}
    (h : MadeFrom codecs .tenants (some earlier) after snapshot reads plan) :
    ∃ published, Planned codecs snapshot reads.held plan (Kubernetes.recordOf codecs earlier)
      published := by
  obtain ⟨record, published, hplanned⟩ := (planPublication_eq_ok hlawful).mp h.planned
  obtain ⟨-, -, hrecord, -⟩ := readStored_some.mp h.read
  have hsame : record = Kubernetes.recordOf codecs earlier := by
    have hparsed := hplanned.reads.parsed
    have hbytes : reads.held.record = bytesAt earlier.data PUBLICATION_RECORD_FILE := hrecord
    unfold HeldDocuments.parseRecord at hparsed
    unfold Kubernetes.recordOf
    rw [hbytes] at hparsed
    cases hfound : bytesAt earlier.data PUBLICATION_RECORD_FILE with
    | none =>
        rw [hfound] at hparsed
        cases hparsed
        rfl
    | some bytes =>
        rw [hfound] at hparsed
        obtain ⟨found, hfound, hsome⟩ := map_eq_ok.mp hparsed
        rw [Option.bind_some, hfound]
        exact hsome.symm
  rw [← hsame]
  exact ⟨published, hplanned⟩

/-- A version that is made names no lower generation than the one it replaces. -/
theorem Replaces.registryFollows (hlawful : codecs.Lawful) {earlier : Stored}
    (h : Replaces codecs .tenants (some earlier) after) : RegistryFollows codecs earlier after := by
  obtain ⟨snapshot, reads, plan, hmade⟩ := h
  intro old hold
  obtain ⟨published, hplanned⟩ := hmade.planned_recordOf hlawful
  have hdecided := hplanned.registry
  change decideRegistry codecs (registryOf codecs earlier) _ _ = _ at hdecided
  rw [hold] at hdecided
  rw [hmade.registryOf hlawful]
  rcases decideRegistry_eq_ok.mp hdecided with ⟨-, hnone, -⟩ |
    ⟨offered, generation, rendered, bytes, -, -, hgeneration, hrender, hplan⟩
  · cases hnone
  · obtain ⟨hdocument, -⟩ := render_eq_ok.mp hrender
    have hnew : rendered.generation = generation := IssuerRegistryDocument.generation_new hdocument
    rw [hplan]
    refine ⟨⟨rendered.generation, codecs.sha256Hex bytes⟩, rfl, ?_⟩
    rw [hnew]
    rcases generationFor_recorded hgeneration with ⟨again, hagain, hsame⟩ | hlt
    · rw [hrender] at hagain
      cases hagain
      rw [hsame]
      exact ⟨le_rfl, fun _ => rfl⟩
    · exact ⟨hlt.le, fun heq => absurd heq hlt.ne⟩

/-- A version that is made carries the registry its record names. -/
theorem MadeFrom.carriesRegistry (hlawful : codecs.Lawful)
    (h : MadeFrom codecs .tenants before after snapshot reads plan) :
    CarriesRegistry codecs after := by
  obtain ⟨_, -, hlists⟩ := h.lists
  have hcarried := (carried_written hlists).2
  have hnamed := h.registryOf hlawful
  obtain ⟨record, published, hplanned⟩ := (planPublication_eq_ok hlawful).mp h.planned
  unfold CarriesRegistry
  rw [hcarried, hnamed]
  rcases decideRegistry_eq_ok.mp hplanned.registry with ⟨-, -, hnone⟩ |
    ⟨offered, generation, rendered, bytes, -, -, -, hrender, hplan⟩
  · rw [hnone]
    exact Or.inl ⟨rfl, rfl⟩
  · obtain ⟨-, hline⟩ := render_eq_ok.mp hrender
    rw [hplan]
    refine Or.inr ⟨bytes, rendered.generation, rfl, ?_, rfl⟩
    unfold heldGeneration
    rw [hlawful.registry.read_line hline]
    rfl

end Registry

end Kubernetes
end SaasFabric
