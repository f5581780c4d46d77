import SaasFabric.Publication.Target

/-!
# What a plan says

The inversion of each part of `plan_publication`, once: what was read, what was decided of
each document, which generation the registry is rendered for, and which record is kept or
written.
-/

namespace SaasFabric
namespace Publication

open Library (AtLeast atLeast_raiseBy bind_eq_ok mapError_eq_ok)

variable {codecs : Codecs}

/-! ## What is held -/

/-- The history of a record, empty where there is none. -/
def recordedResources (record : Option PublicationRecord) : ResourceHistory :=
  (record.map PublicationRecord.resources).getD ResourceHistory.empty

/-- What is read of held documents. -/
structure ReadsAs (codecs : Codecs) (held : HeldDocuments) (record : Option PublicationRecord)
    (published : PublishedResources) : Prop where
  parsed : held.parseRecord codecs = .ok record
  tenants : parseHeldDocuments codecs.tenants held.tenants .tenants = .ok published.tenants
  dataSources : parseHeldDocuments codecs.dataSources held.dataSources .dataSources =
    .ok published.dataSources
  catalog : published.catalog =
    held.catalog.payload.bind fun bytes => (codecs.catalog.read bytes).toOption
  history : published.history =
    (recordedResources record).including published.tenants published.dataSources

theorem resources_eq_ok {held : HeldDocuments} {published : PublishedResources} :
    held.resources codecs = .ok published ↔ ∃ record, ReadsAs codecs held record published := by
  unfold HeldDocuments.resources
  simp only [bind_eq_ok, Except.ok.injEq]
  constructor
  · rintro ⟨record, hrecord, tenants, htenants, dataSources, hdataSources, rfl⟩
    exact ⟨record, hrecord, htenants, hdataSources, rfl, rfl⟩
  · rintro ⟨record, hrecord, htenants, hdataSources, hcatalog, hhistory⟩
    refine ⟨record, hrecord, published.tenants, htenants, published.dataSources, hdataSources, ?_⟩
    rw [← hcatalog]
    show PublishedResources.mk _ _ _ ((recordedResources record).including _ _) = published
    rw [← hhistory]

/-- The history that is read is at least everything that is held. -/
theorem ReadsAs.covered {held : HeldDocuments} {record : Option PublicationRecord}
    {published : PublishedResources} (h : ReadsAs codecs held record published) :
    published.Covered := by
  constructor
  · intro tenant htenant
    rw [h.history]
    exact atLeast_raiseBy.mpr (Or.inr ⟨tenant, htenant, rfl, le_rfl⟩)
  · intro dataSource hdataSource
    rw [h.history]
    exact atLeast_raiseBy.mpr (Or.inr ⟨dataSource, hdataSource, rfl, le_rfl⟩)

/-! ## One document -/

theorem decideDocument_eq_ok {document : DocumentKind} {held : Option Held}
    {revision : DocumentRevision} {bytes : Except String Bytes} {plan : DocumentPlan} :
    decideDocument document held revision bytes = .ok plan ↔
      bytes = .ok plan.bytes ∧ plan.revision = revision ∧
        ∃ answer, verdict held ⟨document, revision, plan.bytes⟩ = .ok answer ∧
          plan.outcome = answer.outcome := by
  unfold decideDocument
  simp only [bind_eq_ok, mapError_eq_ok, Except.ok.injEq]
  constructor
  · rintro ⟨bytes, hbytes, answer, hanswer, rfl⟩
    exact ⟨hbytes, rfl, answer, hanswer, rfl⟩
  · rintro ⟨hbytes, rfl, answer, hanswer, houtcome⟩
    refine ⟨plan.bytes, hbytes, answer, hanswer, ?_⟩
    rw [← houtcome]

/-! ## The registry -/

theorem render_eq_ok {generation : RegistryGeneration} {offered : List IssuerRegistration}
    {rendered : IssuerRegistryDocument × Bytes} :
    render codecs generation offered = .ok rendered ↔
      IssuerRegistryDocument.new generation offered = .ok rendered.1 ∧
        codecs.registry.line rendered.1 = .ok rendered.2 := by
  unfold render
  simp only [bind_eq_ok, mapError_eq_ok, Except.ok.injEq]
  constructor
  · rintro ⟨document, hdocument, bytes, hbytes, rfl⟩
    exact ⟨hdocument, hbytes⟩
  · rintro ⟨hdocument, hbytes⟩
    exact ⟨rendered.1, hdocument, rendered.2, hbytes, rfl⟩

/-- A rendered registry is held at the generation it was rendered for. -/
theorem heldGenerations_render (hlawful : codecs.Lawful) {generation : RegistryGeneration}
    {offered : List IssuerRegistration} {rendered : IssuerRegistryDocument × Bytes}
    (h : render codecs generation offered = .ok rendered) :
    heldGenerations codecs (some rendered.2) = .ok (some generation) := by
  obtain ⟨hdocument, hline⟩ := render_eq_ok.mp h
  unfold heldGenerations heldGeneration
  dsimp only
  rw [hlawful.registry.read_line hline]
  show Except.ok (some rendered.1.generation) = _
  rw [IssuerRegistryDocument.generation_new hdocument]

/-- How a generation is chosen: it is the recorded one or the held one where the registry is
the same, and above the recorded one otherwise. -/
inductive Chooses (codecs : Codecs) (recorded : Option RecordedRegistry) (held : Option Bytes)
    (offered : List IssuerRegistration) (generation : RegistryGeneration) : Prop where
  | kept (rendered : IssuerRegistryDocument × Bytes)
      (render : render codecs generation offered = .ok rendered)
      (recorded : recorded = some ⟨generation, codecs.sha256Hex rendered.2⟩)
  | ahead (rendered : IssuerRegistryDocument × Bytes)
      (render : render codecs generation offered = .ok rendered) (held : held = some rendered.2)
  | next (above : ∀ committed, recorded = some committed → committed.generation < generation)

theorem lt_of_nextGeneration {highest : Option RegistryGeneration}
    {generation : RegistryGeneration} (h : nextGeneration highest = .ok generation) :
    ∀ other, AtLeast highest other → other < generation := by
  rintro other ⟨found, rfl, hle⟩
  unfold nextGeneration at h
  dsimp only at h
  split at h
  · rename_i next hnext
    cases h
    exact hle.trans_lt (RegistryGeneration.lt_of_next hnext)
  · cases h

theorem aheadOf_eq_none {found committed : RegistryGeneration}
    (h : aheadOf (some found) (some committed) = none) : found ≤ committed := by
  unfold aheadOf at h
  dsimp only at h
  split at h
  · cases h
  · rename_i hle
    exact not_lt.mp hle

/-- How a generation is chosen, against the registry that is held as well: it is never below
that one's, and above it where the registry is another. -/
inductive Stamps (codecs : Codecs) (recorded : Option RecordedRegistry) (held : Option Bytes)
    (offered : List IssuerRegistration) (generation : RegistryGeneration) : Prop where
  | kept (rendered : IssuerRegistryDocument × Bytes)
      (render : render codecs generation offered = .ok rendered)
      (recorded : recorded = some ⟨generation, codecs.sha256Hex rendered.2⟩)
      (newest : ∀ found, heldGenerations codecs held = .ok (some found) → found ≤ generation)
  | ahead (rendered : IssuerRegistryDocument × Bytes)
      (render : render codecs generation offered = .ok rendered) (held : held = some rendered.2)
  | next (aboveHeld : ∀ found, heldGenerations codecs held = .ok (some found) →
        found < generation)
      (above : ∀ committed, recorded = some committed → committed.generation < generation)

theorem stamps_of_generationFor {recorded : Option RecordedRegistry} {held : Option Bytes}
    {offered : List IssuerRegistration} {generation : RegistryGeneration}
    (h : generationFor codecs recorded held offered = .ok generation) :
    Stamps codecs recorded held offered generation := by
  unfold generationFor at h
  obtain ⟨heldGeneration, hheld, h⟩ := bind_eq_ok.mp h
  obtain ⟨kept, hkept, h⟩ := bind_eq_ok.mp h
  cases kept with
  | some found =>
      cases h
      unfold keptRecorded at hkept
      split at hkept
      · rename_i committed hahead
        obtain ⟨rendered, hrender, hsame⟩ := bind_eq_ok.mp hkept
        split at hsame
        · rename_i hdigest
          cases hsame
          refine .kept rendered hrender ?_ fun found hfound => ?_
          · rw [hdigest]
          · rw [hheld] at hfound
            cases hfound
            exact aheadOf_eq_none hahead
        · cases hsame
      · cases hkept
  | none =>
      obtain ⟨kept, hkept, h⟩ := bind_eq_ok.mp h
      cases kept with
      | some found =>
          cases h
          unfold keptAhead at hkept
          split at hkept
          · obtain ⟨rendered, hrender, hsame⟩ := bind_eq_ok.mp hkept
            split at hsame
            · rename_i hbytes
              cases hsame
              exact .ahead rendered hrender (congrArg some hbytes.symm)
            · cases hsame
          · cases hkept
      | none =>
          have habove := lt_of_nextGeneration h
          refine .next (fun found hfound => habove _ ?_) fun committed hcommitted => habove _ ?_
          · rw [hheld] at hfound
            cases hfound
            exact Library.atLeast_maxFloor.mpr (Or.inl (Library.atLeast_some.mpr le_rfl))
          · subst hcommitted
            exact Library.atLeast_maxFloor.mpr (Or.inr (Library.atLeast_some.mpr le_rfl))

theorem chooses_of_generationFor {recorded : Option RecordedRegistry} {held : Option Bytes}
    {offered : List IssuerRegistration} {generation : RegistryGeneration}
    (h : generationFor codecs recorded held offered = .ok generation) :
    Chooses codecs recorded held offered generation := by
  cases stamps_of_generationFor h with
  | kept rendered hrender hrecorded _ => exact .kept rendered hrender hrecorded
  | ahead rendered hrender hheld => exact .ahead rendered hrender hheld
  | next _ habove => exact .next habove

/-- What is decided of the registry. -/
theorem decideRegistry_eq_ok {recorded : Option RecordedRegistry} {held : Option Bytes}
    {snapshot : RuntimeSnapshot} {plan : Option RegistryPlan} :
    decideRegistry codecs recorded held snapshot = .ok plan ↔
      (snapshot.registry = none ∧ recorded = none ∧ plan = none) ∨
      ∃ offered generation document bytes, snapshot.registry = some offered ∧
        (∀ registration ∈ offered, registration.tenant ∈
          snapshot.tenants.payload.map TenantBindingDocument.tenant) ∧
        generationFor codecs recorded held offered = .ok generation ∧
        render codecs generation offered = .ok (document, bytes) ∧
        plan = some { outcome := if held = some bytes then .unchanged else .written
                      document, bytes } := by
  unfold decideRegistry
  cases hoffered : snapshot.registry with
  | none =>
      cases recorded with
      | none => simp [eq_comm]
      | some recorded => simp
  | some offered =>
      simp only [reduceCtorEq, false_and, false_or, Option.some.injEq]
      cases hunbound : offered.find? fun registration =>
          decide (registration.tenant ∉ snapshot.tenants.payload.map
            TenantBindingDocument.tenant) with
      | some unbound =>
          have hnot := List.find?_some hunbound
          have hmem := List.mem_of_find?_eq_some hunbound
          simp only [reduceCtorEq, false_iff]
          rintro ⟨_, _, _, _, rfl, hbound, -⟩
          exact of_decide_eq_true hnot (hbound unbound hmem)
      | none =>
          have hbound : ∀ registration ∈ offered, registration.tenant ∈
              snapshot.tenants.payload.map TenantBindingDocument.tenant := by
            intro registration hregistration
            have hnot := List.find?_eq_none.mp hunbound registration hregistration
            rwa [decide_eq_true_eq, not_not] at hnot
          simp only [bind_eq_ok, Except.ok.injEq, Prod.exists]
          constructor
          · rintro ⟨generation, hgeneration, document, bytes, hrender, rfl⟩
            exact ⟨offered, generation, document, bytes, rfl, hbound, hgeneration, hrender, rfl⟩
          · rintro ⟨_, generation, document, bytes, rfl, -, hgeneration, hrender, rfl⟩
            exact ⟨generation, hgeneration, document, bytes, hrender, rfl⟩

/-! ## The record -/

/-- The documents of a plan, as a record names them. -/
def recordedDocuments (codecs : Codecs) (dataSources catalog tenants : DocumentPlan) :
    RecordedDocuments where
  tenants := RecordedDocument.of codecs tenants.revision tenants.bytes
  dataSources := RecordedDocument.of codecs dataSources.revision dataSources.bytes
  catalog := RecordedDocument.of codecs catalog.revision catalog.bytes

/-- What is decided of the record: it names what was planned, and it is kept where it is
the one that is held. -/
structure Records (codecs : Codecs) (held : Option (PublicationRecord × Bytes))
    (documents : RecordedDocuments) (resources : ResourceHistory)
    (registry : Option RecordedRegistry) (plan : RecordPlan) : Prop where
  record : ∃ generation,
    plan.record = (PublicationRecord.new generation documents resources).withRegistry registry
  line : codecs.record.line plan.record = .ok plan.bytes
  unchanged : plan.outcome = .unchanged → ∃ bytes, held = some (plan.record, bytes)

theorem records_of_decideRecord {held : Option (PublicationRecord × Bytes)}
    {dataSources catalog tenants : DocumentPlan} {resources : ResourceHistory}
    {registry : Option RegistryPlan} {plan : RecordPlan}
    (h : decideRecord codecs held dataSources catalog tenants resources registry = .ok plan) :
    Records codecs held (recordedDocuments codecs dataSources catalog tenants) resources
      (registry.map (RegistryPlan.recorded codecs)) plan := by
  unfold decideRecord at h
  obtain ⟨bytes, hbytes, h⟩ := bind_eq_ok.mp h
  rw [mapError_eq_ok] at hbytes
  cases h
  refine ⟨?_, hbytes, ?_⟩
  · dsimp only [chooseRecord]
    split
    · split
      · rename_i heq
        exact ⟨_, heq.symm⟩
      · exact ⟨_, rfl⟩
    · exact ⟨_, rfl⟩
  · dsimp only [chooseRecord]
    split
    · split
      · exact fun _ => ⟨_, rfl⟩
      · exact fun hunchanged => nomatch hunchanged
    · exact fun hunchanged => nomatch hunchanged

/-- A record can always be decided of. -/
theorem exists_decideRecord (hlawful : codecs.Lawful)
    (held : Option (PublicationRecord × Bytes)) (dataSources catalog tenants : DocumentPlan)
    (resources : ResourceHistory) (registry : Option RegistryPlan) :
    ∃ plan, decideRecord codecs held dataSources catalog tenants resources registry =
      .ok plan := by
  obtain ⟨bytes, hline, -⟩ := hlawful.record.line_spec
    (chooseRecord held (recordedDocuments codecs dataSources catalog tenants) resources
      (registry.map (RegistryPlan.recorded codecs))).2.1
  exact ⟨_, bind_eq_ok.mpr ⟨bytes, mapError_eq_ok.mpr hline, rfl⟩⟩

/-! ## The plan -/

/-- The revision and digest a record names for a document, where there is a record. -/
def recordedRevision (record : Option PublicationRecord)
    (pick : RecordedDocuments → RecordedDocument) : Option DocumentRevision :=
  (record.map PublicationRecord.documents).map fun documents => (pick documents).revision

/-- The record that is held, with its bytes. -/
def heldRecord (record : Option PublicationRecord) (held : HeldDocuments) :
    Option (PublicationRecord × Bytes) :=
  record.bind fun record => held.record.map fun bytes => (record, bytes)

/-- What a plan comes to. -/
structure Planned (codecs : Codecs) (snapshot : RuntimeSnapshot) (held : HeldDocuments)
    (plan : PublicationPlan) (record : Option PublicationRecord)
    (published : PublishedResources) : Prop where
  reads : ReadsAs codecs held record published
  validated : Validated snapshot published.tenants published.dataSources
  dataSources : decideDocument .dataSources
    (held.dataSources.held (recordedRevision record RecordedDocuments.dataSources))
    snapshot.dataSources.revision
    (dataSourcesCanonicalJson codecs snapshot.dataSources.payload) = .ok plan.dataSources
  catalog : decideDocument .catalog
    (held.catalog.held (recordedRevision record RecordedDocuments.catalog))
    snapshot.catalog.revision (codecs.catalog.line snapshot.catalog.payload) = .ok plan.catalog
  tenants : decideDocument .tenants
    (held.tenants.held (recordedRevision record RecordedDocuments.tenants))
    snapshot.tenants.revision (tenantsCanonicalJson codecs snapshot.tenants.payload) =
      .ok plan.tenants
  follows : MayFollow snapshot published
  registry : decideRegistry codecs (record.bind PublicationRecord.registry) held.registry
    snapshot = .ok plan.registry
  decided : decideRecord codecs (heldRecord record held) plan.dataSources plan.catalog
    plan.tenants (published.history.including snapshot.tenants.payload
      snapshot.dataSources.payload) plan.registry = .ok plan.record

/-- What is planned, part by part. -/
theorem planPublication_eq_ok (hlawful : codecs.Lawful) {snapshot : RuntimeSnapshot}
    {held : HeldDocuments} {plan : PublicationPlan} :
    planPublication codecs snapshot held = .ok plan ↔
      ∃ record published, Planned codecs snapshot held plan record published := by
  unfold planPublication
  simp only [bind_eq_ok, Unique.exists_iff, PUnit.default_eq_unit, validateSnapshot_eq_ok,
    Except.ok.injEq]
  constructor
  · rintro ⟨record, hrecord, published, hpublished, hvalidated, dataSources, hdataSources,
      catalog, hcatalog, tenants, htenants, hfollows, registry, hregistry, recordPlan, hdecided,
      rfl⟩
    obtain ⟨found, hreads⟩ := resources_eq_ok.mp hpublished
    have hfound : found = record := by
      have hsame := hreads.parsed
      rw [hrecord] at hsame
      cases hsame
      rfl
    subst hfound
    exact ⟨found, published, hreads, hvalidated, hdataSources, hcatalog, htenants,
      (refuseResourceChanges_eq_ok hlawful hreads.covered).mp hfollows, hregistry, hdecided⟩
  · rintro ⟨record, published, h⟩
    exact ⟨record, h.reads.parsed, published, resources_eq_ok.mpr ⟨record, h.reads⟩,
      h.validated, plan.dataSources, h.dataSources, plan.catalog, h.catalog, plan.tenants,
      h.tenants, (refuseResourceChanges_eq_ok hlawful h.reads.covered).mpr h.follows,
      plan.registry, h.registry, plan.record, h.decided, rfl⟩

end Publication
end SaasFabric
