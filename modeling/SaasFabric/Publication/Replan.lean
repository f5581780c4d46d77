import SaasFabric.Publication.Resume

/-!
# A snapshot is planned again

What is decided of a snapshot over what an interrupted publication of it left, and over
what a publication of it that was carried out left: every part is decided as it was, and
nothing that was carried out is written a second time.
-/

namespace SaasFabric
namespace Publication

open Library (AtLeast Admitted atLeast_raiseBy bind_eq_ok mapError_eq_ok)

variable {codecs : Codecs}

/-! ## One document -/

section Document

variable {document : DocumentKind} {before : HeldDocument} {recorded : Option DocumentRevision}
  {revision : DocumentRevision} {bytes : Except String Bytes} {plan : DocumentPlan}

/-- A plan, decided of again with some outcome. -/
def DocumentPlan.again (plan : DocumentPlan) (outcome : DocumentOutcome) : DocumentPlan :=
  { plan with outcome }

theorem decideDocument_again (h : decideDocument document (before.held recorded) revision bytes =
    .ok plan) {held : Option Held} {answer : Verdict}
    (hanswer : verdict held ⟨document, revision, plan.bytes⟩ = .ok answer) :
    decideDocument document held revision bytes = .ok (plan.again answer.outcome) := by
  obtain ⟨hbytes, hrevision, -⟩ := decideDocument_eq_ok.mp h
  exact decideDocument_eq_ok.mpr ⟨hbytes, hrevision, answer, hanswer, rfl⟩

/-- What was held is not newer than what is planned. -/
theorem le_of_decideDocument (h : decideDocument document (before.held recorded) revision bytes =
    .ok plan) {copy : Held} (hcopy : before.held recorded = some copy) :
    copy.revision ≤ revision := by
  obtain ⟨-, -, answer, hanswer, -⟩ := decideDocument_eq_ok.mp h
  rcases verdict_eq_ok.mp hanswer with ⟨hnone, -⟩ | ⟨found, hfound, hle, -⟩
  · rw [hcopy] at hnone
    cases hnone
  · rw [hcopy] at hfound
    cases hfound
    exact hle

/-- A document that is left unchanged is held at its revision, with its bytes. -/
theorem held_of_unchanged (h : decideDocument document (before.held recorded) revision bytes =
    .ok plan) (hunchanged : plan.outcome = .unchanged) :
    before.held recorded = some ⟨revision, some plan.bytes⟩ := by
  obtain ⟨-, -, answer, hanswer, houtcome⟩ := decideDocument_eq_ok.mp h
  rw [hunchanged] at houtcome
  rcases verdict_eq_ok.mp hanswer with ⟨-, hwrite⟩ | ⟨copy, hcopy, -, hcase⟩
  · rw [← hwrite] at houtcome
    cases houtcome
  · rcases hcase with ⟨-, hwrite⟩ | ⟨-, -, hwrite⟩ | ⟨hpayload, hrevision, -⟩
    · rw [← hwrite] at houtcome
      cases houtcome
    · rw [← hwrite] at houtcome
      cases houtcome
    · obtain ⟨found, payload⟩ := copy
      dsimp only at hpayload hrevision
      rw [hcopy, hpayload, hrevision]

/-- What is held whole at the planned revision is left unchanged. -/
theorem decideDocument_whole (h : decideDocument document (before.held recorded) revision bytes =
    .ok plan) {held : Option Held} (hheld : held = some ⟨revision, some plan.bytes⟩) :
    decideDocument document held revision bytes = .ok (plan.again .unchanged) :=
  decideDocument_again h (verdict_eq_ok.mpr
    (Or.inr ⟨_, hheld, le_rfl, Or.inr (Or.inr ⟨rfl, rfl, rfl⟩)⟩))

/-- What was left of a document does not stand in the way of the same document. -/
theorem decideDocument_left (h : decideDocument document (before.held recorded) revision bytes =
    .ok plan) {after : HeldDocument} (hleft : DocumentLeft document plan before after) :
    ∃ outcome, decideDocument document (after.held recorded) revision bytes =
      .ok (plan.again outcome) := by
  obtain ⟨-, hrevision, -⟩ := decideDocument_eq_ok.mp h
  cases hleft with
  | untouched => exact ⟨plan.outcome, h⟩
  | whole hwritten =>
      refine ⟨.unchanged, decideDocument_whole h ?_⟩
      rw [← hrevision]
      rfl
  | payload hwritten =>
      -- The manifest is the one there was: none, an older one, or one of this revision.
      have hheld : (before.withPayload plan.bytes).held recorded =
          (before.held recorded).map fun copy => ⟨copy.revision, some plan.bytes⟩ := by
        unfold HeldDocument.held HeldDocument.withPayload
        rw [Option.map_map]
        rfl
      cases hcopy : before.held recorded with
      | none =>
          rw [hcopy] at hheld
          exact ⟨_, decideDocument_again h (verdict_eq_ok.mpr (Or.inl ⟨hheld, rfl⟩))⟩
      | some copy =>
          rw [hcopy] at hheld
          have hle := le_of_decideDocument h hcopy
          rcases hle.lt_or_eq with hlt | heq
          · exact ⟨_, decideDocument_again h (verdict_eq_ok.mpr
              (Or.inr ⟨_, hheld, hle, Or.inr (Or.inl ⟨rfl, hlt, rfl⟩)⟩))⟩
          · refine ⟨_, decideDocument_whole h ?_⟩
            rw [hheld, ← heq]
            rfl

/-- What was carried out of a document is left unchanged, under a record that names it. -/
theorem held_carriedOut (h : decideDocument document (before.held recorded) revision bytes =
    .ok plan) : (plan.carriedOut document before).held (some plan.revision) =
      some ⟨revision, some plan.bytes⟩ := by
  obtain ⟨-, hrevision, -⟩ := decideDocument_eq_ok.mp h
  unfold DocumentPlan.carriedOut
  cases houtcome : plan.outcome with
  | written =>
      rw [← hrevision]
      rfl
  | unchanged =>
      have hheld := held_of_unchanged h houtcome
      unfold HeldDocument.held at hheld ⊢
      dsimp only
      obtain ⟨found, hfound, hcopy⟩ := Option.map_eq_some_iff.mp hheld
      have hsame : found = revision := congrArg Held.revision hcopy
      have hpayload : before.payload = some plan.bytes := congrArg Held.payload hcopy
      rw [hpayload, hrevision]
      cases hmanifest : before.manifest with
      | none => rfl
      | some manifest =>
          rw [hmanifest] at hfound
          cases hfound
          rw [← hsame]
          rfl

end Document

/-! ## What the documents hold -/

section Parsed

variable {T : Type} {codec : Library.Codec (List T)} {document : DocumentKind}
  {before : HeldDocument} {plan : DocumentPlan} {documents : List T}

/-- A held payload is read, whatever manifest is beside it. -/
theorem parseHeldDocuments_payload (hfaithful : codec.Faithful) {bytes : Bytes}
    (hline : codec.line documents = .ok bytes) {held : HeldDocument}
    (hpayload : held.payload = some bytes) :
    parseHeldDocuments codec held document = .ok documents := by
  unfold parseHeldDocuments parseDocuments
  rw [hpayload]
  cases held.manifest <;> exact mapError_eq_ok.mpr (hfaithful.read_line hline)

/-- What was left of a document is read as it was, or as what was planned. -/
theorem parseHeldDocuments_left (hfaithful : codec.Faithful)
    (hline : codec.line documents = .ok plan.bytes) {old : List T}
    (hold : parseHeldDocuments codec before document = .ok old) {after : HeldDocument}
    (hleft : DocumentLeft document plan before after) :
    ∃ now, parseHeldDocuments codec after document = .ok now ∧
      (now = old ∨ now = documents) := by
  cases hleft with
  | untouched => exact ⟨old, hold, Or.inl rfl⟩
  | payload _ => exact ⟨documents, parseHeldDocuments_payload hfaithful hline rfl, Or.inr rfl⟩
  | whole _ => exact ⟨documents, parseHeldDocuments_payload hfaithful hline rfl, Or.inr rfl⟩

/-- What was carried out of a document is read as what was planned. -/
theorem parseHeldDocuments_carriedOut (hfaithful : codec.Faithful)
    {recorded : Option DocumentRevision} {revision : DocumentRevision}
    (h : decideDocument document (before.held recorded) revision (codec.line documents) =
      .ok plan) :
    parseHeldDocuments codec (plan.carriedOut document before) document = .ok documents := by
  have hline := (decideDocument_eq_ok.mp h).1
  have hheld := held_carriedOut h
  refine parseHeldDocuments_payload hfaithful hline ?_
  unfold HeldDocument.held at hheld
  obtain ⟨_, -, hcopy⟩ := Option.map_eq_some_iff.mp hheld
  exact congrArg Held.payload hcopy

end Parsed

/-! ## The registry -/

section Registry

variable {recorded : Option RecordedRegistry} {held : Option Bytes}
  {offered : List IssuerRegistration} {generation : RegistryGeneration}
  {rendered : IssuerRegistryDocument × Bytes}

/-- A registry that was written is written for the same generation again. -/
theorem generationFor_written (hlawful : codecs.Lawful)
    (h : generationFor codecs recorded held offered = .ok generation)
    (hrender : render codecs generation offered = .ok rendered) :
    generationFor codecs recorded (some rendered.2) offered = .ok generation := by
  have hheld := heldGenerations_render hlawful hrender
  cases chooses_of_generationFor h with
  | ahead other hother hsame =>
      rw [hrender] at hother
      cases hother
      rw [← hsame]
      exact h
  | kept other hother hsame =>
      rw [hrender] at hother
      cases hother
      subst hsame
      refine bind_eq_ok.mpr ⟨_, hheld, bind_eq_ok.mpr ⟨some generation, ?_, rfl⟩⟩
      have hahead : aheadOf (some generation) (some generation) = none := if_neg (lt_irrefl _)
      show keptRecorded codecs _ (aheadOf (some generation) (some generation)) offered = _
      rw [hahead]
      refine bind_eq_ok.mpr ⟨rendered, hrender, ?_⟩
      rw [if_pos rfl]
  | next habove =>
      -- It is ahead of the record now, and the same as what is held.
      have hahead : aheadOf (some generation) (recorded.map RecordedRegistry.generation) =
          some generation := by
        cases recorded with
        | none => rfl
        | some committed => exact if_pos (habove committed rfl)
      refine bind_eq_ok.mpr ⟨_, hheld, bind_eq_ok.mpr ⟨none, ?_,
        bind_eq_ok.mpr ⟨some generation, ?_, rfl⟩⟩⟩
      · rw [hahead]
        cases recorded <;> rfl
      · rw [hahead]
        refine bind_eq_ok.mpr ⟨rendered, hrender, ?_⟩
        rw [if_pos rfl]

/-- A registry that was recorded keeps its generation. -/
theorem generationFor_recorded (hlawful : codecs.Lawful)
    (hrender : render codecs generation offered = .ok rendered) :
    generationFor codecs (some ⟨generation, codecs.sha256Hex rendered.2⟩) (some rendered.2)
      offered = .ok generation := by
  refine bind_eq_ok.mpr ⟨_, heldGenerations_render hlawful hrender,
    bind_eq_ok.mpr ⟨some generation, ?_, rfl⟩⟩
  have hahead : aheadOf (some generation) (some generation) = none := if_neg (lt_irrefl _)
  show keptRecorded codecs _ (aheadOf (some generation) (some generation)) offered = _
  rw [hahead]
  refine bind_eq_ok.mpr ⟨rendered, hrender, ?_⟩
  rw [if_pos rfl]

/-- A registry plan, with the outcome it has over some bytes. -/
def RegistryPlan.over (plan : RegistryPlan) (held : Option Bytes) : RegistryPlan :=
  { plan with outcome := if held = some plan.bytes then .unchanged else .written }

/-- Over what was left, the registry is decided of as it was. -/
theorem decideRegistry_left (hlawful : codecs.Lawful) {snapshot : RuntimeSnapshot}
    {plan : Option RegistryPlan}
    (h : decideRegistry codecs recorded held snapshot = .ok plan) {after : Option Bytes}
    (hleft : after = held ∨ ∃ registry, plan = some registry ∧ after = some registry.bytes) :
    decideRegistry codecs recorded after snapshot = .ok (plan.map (·.over after)) := by
  rcases decideRegistry_eq_ok.mp h with ⟨hnone, hrecorded, rfl⟩ |
    ⟨offered, generation, document, bytes, hoffered, hbound, hgeneration, hrender, rfl⟩
  · exact decideRegistry_eq_ok.mpr (Or.inl ⟨hnone, hrecorded, rfl⟩)
  · refine decideRegistry_eq_ok.mpr (Or.inr ⟨offered, generation, document, bytes, hoffered,
      hbound, ?_, hrender, rfl⟩)
    rcases hleft with rfl | ⟨_, hsome, rfl⟩
    · exact hgeneration
    · cases hsome
      exact generationFor_written hlawful hgeneration hrender

/-- A registry that was carried out is held. -/
theorem carriedOutRegistry_eq {snapshot : RuntimeSnapshot} {registry : RegistryPlan}
    (h : decideRegistry codecs recorded held snapshot = .ok (some registry)) :
    carriedOutRegistry (some registry) held = some registry.bytes := by
  rcases decideRegistry_eq_ok.mp h with ⟨-, -, hnone⟩ | ⟨_, _, _, bytes, -, -, -, -, hsome⟩
  · cases hnone
  · cases hsome
    unfold carriedOutRegistry
    dsimp only
    by_cases hheld : held = some bytes
    · rw [if_pos hheld]
      exact hheld
    · rw [if_neg hheld]

/-- Over what was carried out and recorded, the registry is unchanged. -/
theorem decideRegistry_carriedOut (hlawful : codecs.Lawful) {snapshot : RuntimeSnapshot}
    {plan : Option RegistryPlan}
    (h : decideRegistry codecs recorded held snapshot = .ok plan) :
    decideRegistry codecs (plan.map (RegistryPlan.recorded codecs)) (carriedOutRegistry plan held)
      snapshot = .ok (plan.map fun registry => { registry with outcome := .unchanged }) := by
  rcases decideRegistry_eq_ok.mp h with ⟨hnone, hrecorded, rfl⟩ |
    ⟨offered, generation, document, bytes, hoffered, hbound, hgeneration, hrender, rfl⟩
  · exact decideRegistry_eq_ok.mpr (Or.inl ⟨hnone, rfl, rfl⟩)
  · rw [carriedOutRegistry_eq h]
    have hdocument : document.generation = generation :=
      IssuerRegistryDocument.generation_new (render_eq_ok.mp hrender).1
    refine decideRegistry_eq_ok.mpr (Or.inr ⟨offered, generation, document, bytes, hoffered,
      hbound, ?_, hrender, ?_⟩)
    · subst hdocument
      have hkept := generationFor_recorded hlawful hrender
      exact hkept
    · rw [if_pos rfl]
      rfl

end Registry

/-! ## The resources -/

section Resources

variable {T : Type} {kind : IdentifierKind} {key : T → Identifier kind}
  {revision : T → BindingRevision} {offered : List T}

/-- A resource that is held as it is offered is admitted, where nothing it was recorded at is
above it. -/
theorem admitted_of_held (hnodup : (offered.map key).Nodup)
    {base : BTreeMap (Identifier kind) BindingRevision} {resource : T}
    (hresource : resource ∈ offered)
    (hbase : ∀ bound, AtLeast base[key resource]? bound → bound ≤ revision resource) :
    Admitted key revision (Library.raiseBy key revision base (sortedBy key offered))
      (heldCopy key revision (Library.raiseBy key revision base (sortedBy key offered))
        (sortedBy key offered) resource) resource := by
  refine Or.inr ⟨heldCopy_of_mem (nodup_map_sortedBy.mpr hnodup) (mem_sortedBy.mpr hresource),
    fun bound hbound => ?_⟩
  rcases atLeast_raiseBy.mp hbound with hrecorded | ⟨other, hother, hkey, hle⟩
  · exact hbase bound hrecorded
  · -- Every key is offered once, so what is held under this one is this resource.
    rw [List.inj_on_of_nodup_map hnodup (mem_sortedBy.mp hother) hresource hkey] at hle
    exact hle

end Resources

/-- Every id of a snapshot's tenants, and of its DataSources, is there once. -/
structure RuntimeSnapshot.UniqueIds (snapshot : RuntimeSnapshot) : Prop where
  tenants : (snapshot.tenants.payload.map TenantBindingDocument.tenant).Nodup
  dataSources : (snapshot.dataSources.payload.map DataSourceDocument.id).Nodup

section Snapshot

variable {snapshot : RuntimeSnapshot} {published now : PublishedResources}
  {record : Option PublicationRecord} {held : HeldDocuments} {plan : PublicationPlan}

/-- What is published after some writes of a snapshot: each document as it was, or as it is
offered. -/
structure PublishedLeft (snapshot : RuntimeSnapshot) (published now : PublishedResources) :
    Prop where
  tenants : now.tenants = published.tenants ∨
    now.tenants = sortedBy TenantBindingDocument.tenant snapshot.tenants.payload
  dataSources : now.dataSources = published.dataSources ∨
    now.dataSources = sortedBy DataSourceDocument.id snapshot.dataSources.payload

theorem Validated.left (h : Validated snapshot published.tenants published.dataSources)
    (hleft : PublishedLeft snapshot published now) :
    Validated snapshot now.tenants now.dataSources := by
  have hintended : ∀ (length : Nat) (emptying : Emptying),
      EmptyingIntended length length emptying := by
    intro length emptying
    unfold EmptyingIntended
    omega
  refine { h with retained := ?_, tenants := ?_, dataSources := ?_ }
  · rcases hleft.tenants with hsame | hnow
    · rw [hsame]
      exact h.retained
    · rw [hnow]
      exact fun tenant htenant => h.carried tenant (mem_sortedBy.mp htenant)
  · rcases hleft.tenants with hsame | hnow
    · rw [hsame]
      exact h.tenants
    · rw [hnow, length_sortedBy]
      exact hintended _ _
  · rcases hleft.dataSources with hsame | hnow
    · rw [hsame]
      exact h.dataSources
    · rw [hnow, length_sortedBy]
      exact hintended _ _

theorem NoTenantRemoved.left (h : NoTenantRemoved snapshot published.tenants)
    (hleft : PublishedLeft snapshot published now) : NoTenantRemoved snapshot now.tenants := by
  rcases hleft.tenants with hsame | hnow
  · rw [hsame]
    exact h
  · rw [hnow]
    exact Or.inr fun tenant htenant => List.mem_map_of_mem (mem_sortedBy.mp htenant)

/-- A snapshot that may follow what was published may follow what it left of that. -/
theorem MayFollow.left (h : MayFollow snapshot published) (hunique : snapshot.UniqueIds)
    {base : ResourceHistory}
    (hhistory : published.history = base.including published.tenants published.dataSources)
    (hnow : now.history = base.including now.tenants now.dataSources)
    (hleft : PublishedLeft snapshot published now) : MayFollow snapshot now := by
  refine ⟨fun source hsource => ?_, fun tenant htenant => ?_, h.removed.left hleft⟩
  · have hadmitted := h.dataSources source hsource
    rw [hhistory] at hadmitted
    rw [hnow]
    rcases hleft.dataSources with hsame | hoffered
    · rw [hsame]
      exact hadmitted
    · rw [hoffered]
      exact admitted_of_held hunique.dataSources hsource fun bound hbound =>
        hadmitted.le _ _ (atLeast_raiseBy.mpr (Or.inl hbound))
  · have hadmitted := h.tenants tenant htenant
    rw [hhistory] at hadmitted
    rw [hnow]
    rcases hleft.tenants with hsame | hoffered
    · rw [hsame]
      exact hadmitted
    · rw [hoffered]
      exact admitted_of_held hunique.tenants htenant fun bound hbound =>
        hadmitted.le _ _ (atLeast_raiseBy.mpr (Or.inl hbound))

/-- What is recorded of a snapshot that may follow is not above it. -/
theorem MayFollow.not_above (h : MayFollow snapshot published) (hunique : snapshot.UniqueIds)
    {history : ResourceHistory} (hhistory : history = published.history.including
      snapshot.tenants.payload snapshot.dataSources.payload) :
    (∀ source ∈ snapshot.dataSources.payload, ∀ bound,
      AtLeast history.dataSources[source.id]? bound → bound ≤ source.revision) ∧
    (∀ tenant ∈ snapshot.tenants.payload, ∀ bound,
      AtLeast history.tenants[tenant.tenant]? bound → bound ≤ tenant.revision) := by
  subst hhistory
  constructor
  · intro source hsource bound hbound
    rcases atLeast_raiseBy.mp hbound with hold | ⟨other, hother, hkey, hle⟩
    · exact (h.dataSources source hsource).le _ _ hold
    · rw [List.inj_on_of_nodup_map hunique.dataSources hother hsource hkey] at hle
      exact hle
  · intro tenant htenant bound hbound
    rcases atLeast_raiseBy.mp hbound with hold | ⟨other, hother, hkey, hle⟩
    · exact (h.tenants tenant htenant).le _ _ hold
    · rw [List.inj_on_of_nodup_map hunique.tenants hother htenant hkey] at hle
      exact hle

/-- Recording a snapshot a second time changes no history. -/
theorem including_including (history : ResourceHistory) :
    ((history.including snapshot.tenants.payload snapshot.dataSources.payload).including
      (sortedBy TenantBindingDocument.tenant snapshot.tenants.payload)
      (sortedBy DataSourceDocument.id snapshot.dataSources.payload)).including
        snapshot.tenants.payload snapshot.dataSources.payload =
      history.including snapshot.tenants.payload snapshot.dataSources.payload := by
  unfold ResourceHistory.including
  congr 1
  · refine Library.ext_of_atLeast_iff fun other bound => ?_
    simp only [atLeast_raiseBy, mem_sortedBy]
    tauto
  · refine Library.ext_of_atLeast_iff fun other bound => ?_
    simp only [atLeast_raiseBy, mem_sortedBy]
    tauto

/-! ## The plan -/

theorem Planned.records (h : Planned codecs snapshot held plan record published) :
    Records codecs (heldRecord record held)
      (recordedDocuments codecs plan.dataSources plan.catalog plan.tenants)
      (published.history.including snapshot.tenants.payload snapshot.dataSources.payload)
      (plan.registry.map (RegistryPlan.recorded codecs)) plan.record :=
  records_of_decideRecord h.decided

/-- The record that is planned is the one that is held once it is carried out. -/
theorem Planned.parseRecord_carriedOut (hlawful : codecs.Lawful)
    (h : Planned codecs snapshot held plan record published) :
    (plan.carriedOut held).parseRecord codecs = .ok (some plan.record.record) := by
  have hrecords := h.records
  obtain ⟨generation, hrecord⟩ := hrecords.record
  unfold HeldDocuments.parseRecord PublicationPlan.carriedOut RecordPlan.carriedOut
  dsimp only
  cases houtcome : plan.record.outcome with
  | written =>
      have hparsed : PublicationRecord.parseHeld codecs plan.record.bytes =
          .ok plan.record.record := by
        refine PublicationRecord.parseHeld_line hlawful ?_ hrecords.line
        rw [hrecord]
        rfl
      dsimp only
      rw [hparsed]
      rfl
  | unchanged =>
      obtain ⟨bytes, hheld⟩ := hrecords.unchanged houtcome
      obtain ⟨found, hfound, hbytes⟩ := Option.bind_eq_some_iff.mp hheld
      obtain ⟨_, hsome, heq⟩ := Option.map_eq_some_iff.mp hbytes
      have hsame : found = plan.record.record := congrArg Prod.fst heq
      have hparsed := h.reads.parsed
      unfold HeldDocuments.parseRecord at hparsed
      rw [hfound, hsame] at hparsed
      exact hparsed

/-- What a plan over what was left shares with the plan that left it. -/
structure SameDocuments (plan again : PublicationPlan) : Prop where
  dataSources : ∃ outcome, again.dataSources = plan.dataSources.again outcome
  catalog : ∃ outcome, again.catalog = plan.catalog.again outcome
  tenants : ∃ outcome, again.tenants = plan.tenants.again outcome

theorem SameDocuments.recorded {again : PublicationPlan} (h : SameDocuments plan again) :
    recordedDocuments codecs again.dataSources again.catalog again.tenants =
      recordedDocuments codecs plan.dataSources plan.catalog plan.tenants := by
  obtain ⟨⟨_, hdataSources⟩, ⟨_, hcatalog⟩, ⟨_, htenants⟩⟩ := h
  rw [hdataSources, hcatalog, htenants]
  rfl

/-- The snapshot is planned over what was left of it. -/
theorem Planned.left (hlawful : codecs.Lawful) (hunique : snapshot.UniqueIds)
    (h : Planned codecs snapshot held plan record published) {after : HeldDocuments}
    (hleft : Left plan held after) :
    ∃ again now, Planned codecs snapshot after again record now ∧ SameDocuments plan again ∧
      again.registry = plan.registry.map (·.over after.registry) := by
  obtain ⟨dataSourcesOutcome, hdataSources⟩ :=
    decideDocument_left h.dataSources hleft.dataSources
  obtain ⟨catalogOutcome, hcatalog⟩ := decideDocument_left h.catalog hleft.catalog
  obtain ⟨tenantsOutcome, htenants⟩ := decideDocument_left h.tenants hleft.tenants
  obtain ⟨tenants, hreadTenants, hnowTenants⟩ := parseHeldDocuments_left hlawful.tenants
    (decideDocument_eq_ok.mp h.tenants).1 h.reads.tenants hleft.tenants
  obtain ⟨dataSources, hreadDataSources, hnowDataSources⟩ :=
    parseHeldDocuments_left hlawful.dataSources (decideDocument_eq_ok.mp h.dataSources).1
      h.reads.dataSources hleft.dataSources
  let now : PublishedResources :=
    { tenants, dataSources
      catalog := after.catalog.payload.bind fun bytes => (codecs.catalog.read bytes).toOption
      history := (recordedResources record).including tenants dataSources }
  have hparsed : after.parseRecord codecs = .ok record := by
    have hbefore := h.reads.parsed
    unfold HeldDocuments.parseRecord at hbefore ⊢
    rw [hleft.record]
    exact hbefore
  have hreads : ReadsAs codecs after record now :=
    ⟨hparsed, hreadTenants, hreadDataSources, rfl, rfl⟩
  have hnow : PublishedLeft snapshot published now := ⟨hnowTenants, hnowDataSources⟩
  obtain ⟨recordPlan, hrecordPlan⟩ := exists_decideRecord hlawful (heldRecord record after)
    (plan.dataSources.again dataSourcesOutcome) (plan.catalog.again catalogOutcome)
    (plan.tenants.again tenantsOutcome) (now.history.including snapshot.tenants.payload
      snapshot.dataSources.payload) (plan.registry.map (·.over after.registry))
  exact ⟨{ dataSources := _, catalog := _, tenants := _, registry := _, record := recordPlan },
    now, ⟨hreads, h.validated.left hnow, hdataSources, hcatalog, htenants,
      h.follows.left hunique h.reads.history rfl hnow,
      decideRegistry_left hlawful h.registry hleft.registry, hrecordPlan⟩,
    ⟨⟨_, rfl⟩, ⟨_, rfl⟩, ⟨_, rfl⟩⟩, rfl⟩

/-- A record that names what is planned is kept. -/
theorem decideRecord_kept (hlawful : codecs.Lawful) {kept : PublicationRecord} {bytes : Bytes}
    {dataSources catalog tenants : DocumentPlan} {resources : ResourceHistory}
    {registry : Option RegistryPlan}
    (hsame : (PublicationRecord.new kept.generation
      (recordedDocuments codecs dataSources catalog tenants) resources).withRegistry
        (registry.map (RegistryPlan.recorded codecs)) = kept) :
    ∃ plan, decideRecord codecs (some (kept, bytes)) dataSources catalog tenants resources
      registry = .ok plan ∧ plan.outcome = .unchanged ∧ plan.record = kept := by
  obtain ⟨written, hline, -⟩ := hlawful.record.line_spec kept
  have hchosen : chooseRecord (some (kept, bytes))
      (recordedDocuments codecs dataSources catalog tenants) resources
      (registry.map (RegistryPlan.recorded codecs)) = (.unchanged, kept, some bytes) :=
    if_pos hsame
  refine ⟨_, bind_eq_ok.mpr ⟨written, mapError_eq_ok.mpr ?_, rfl⟩, ?_, ?_⟩
  · exact (congrArg (fun chosen => codecs.record.line chosen.2.1) hchosen).trans hline
  · exact congrArg (fun chosen => chosen.1) hchosen
  · exact congrArg (fun chosen => chosen.2.1) hchosen

/-- A record that names something else is written. -/
theorem decideRecord_of_written {held : Option (PublicationRecord × Bytes)}
    {dataSources catalog tenants : DocumentPlan} {resources : ResourceHistory}
    {registry : Option RegistryPlan} {record : PublicationRecord} {bytes : Bytes}
    (hchosen : chooseRecord held (recordedDocuments codecs dataSources catalog tenants) resources
      (registry.map (RegistryPlan.recorded codecs)) = (.written, record, none))
    (hline : codecs.record.line record = .ok bytes) :
    decideRecord codecs held dataSources catalog tenants resources registry =
      .ok ⟨.written, record, bytes, ⟨record.generation, codecs.sha256 bytes⟩⟩ := by
  unfold recordedDocuments at hchosen
  unfold decideRecord
  dsimp only
  rw [hchosen]
  exact bind_eq_ok.mpr ⟨bytes, mapError_eq_ok.mpr hline, rfl⟩

theorem decideRecord_of_unchanged {held : Option (PublicationRecord × Bytes)}
    {dataSources catalog tenants : DocumentPlan} {resources : ResourceHistory}
    {registry : Option RegistryPlan} {record : PublicationRecord} {heldBytes bytes : Bytes}
    (hchosen : chooseRecord held (recordedDocuments codecs dataSources catalog tenants) resources
      (registry.map (RegistryPlan.recorded codecs)) = (.unchanged, record, some heldBytes))
    (hline : codecs.record.line record = .ok bytes) :
    decideRecord codecs held dataSources catalog tenants resources registry =
      .ok ⟨.unchanged, record, bytes, ⟨record.generation, codecs.sha256 heldBytes⟩⟩ := by
  unfold recordedDocuments at hchosen
  unfold decideRecord
  dsimp only
  rw [hchosen]
  exact bind_eq_ok.mpr ⟨bytes, mapError_eq_ok.mpr hline, rfl⟩

/-- The snapshot is planned over what was carried out of it, and nothing is written. -/
theorem Planned.carriedOut (hlawful : codecs.Lawful) (hunique : snapshot.UniqueIds)
    (h : Planned codecs snapshot held plan record published) :
    ∃ again now, Planned codecs snapshot (plan.carriedOut held) again (some plan.record.record)
        now ∧ SameDocuments plan again ∧ again.dataSources.outcome = .unchanged ∧
      again.catalog.outcome = .unchanged ∧ again.tenants.outcome = .unchanged ∧
      again.registry = plan.registry.map (fun registry => { registry with outcome := .unchanged })
      ∧ again.record.outcome = .unchanged ∧ again.record.record = plan.record.record := by
  obtain ⟨generation, hrecord⟩ := h.records.record
  have hparsed := h.parseRecord_carriedOut hlawful
  obtain ⟨bytes, hbytes⟩ : ∃ bytes, (plan.carriedOut held).record = some bytes := by
    cases hnone : (plan.carriedOut held).record with
    | some bytes => exact ⟨bytes, rfl⟩
    | none =>
        unfold HeldDocuments.parseRecord at hparsed
        rw [hnone] at hparsed
        cases hparsed
  have hdocuments : plan.record.record.documents =
      recordedDocuments codecs plan.dataSources plan.catalog plan.tenants := by
    rw [hrecord]
    rfl
  have hresources : plan.record.record.resources = published.history.including
      snapshot.tenants.payload snapshot.dataSources.payload := by
    rw [hrecord]
    rfl
  have hregistry : plan.record.record.registry =
      plan.registry.map (RegistryPlan.recorded codecs) := by
    rw [hrecord]
    rfl
  -- Each document is held whole, at the revision the record names.
  have hheld : ∀ pick : RecordedDocuments → RecordedDocument,
      recordedRevision (some plan.record.record) pick = some (pick (recordedDocuments codecs
        plan.dataSources plan.catalog plan.tenants)).revision := by
    intro pick
    rw [← hdocuments]
    rfl
  have hdataSources := decideDocument_whole h.dataSources (held_carriedOut h.dataSources)
  have hcatalog := decideDocument_whole h.catalog (held_carriedOut h.catalog)
  have htenants := decideDocument_whole h.tenants (held_carriedOut h.tenants)
  let now : PublishedResources :=
    { tenants := sortedBy TenantBindingDocument.tenant snapshot.tenants.payload
      dataSources := sortedBy DataSourceDocument.id snapshot.dataSources.payload
      catalog := (plan.carriedOut held).catalog.payload.bind fun bytes =>
        (codecs.catalog.read bytes).toOption
      history := plan.record.record.resources.including
        (sortedBy TenantBindingDocument.tenant snapshot.tenants.payload)
        (sortedBy DataSourceDocument.id snapshot.dataSources.payload) }
  have hreads : ReadsAs codecs (plan.carriedOut held) (some plan.record.record) now :=
    ⟨hparsed, parseHeldDocuments_carriedOut hlawful.tenants h.tenants,
      parseHeldDocuments_carriedOut hlawful.dataSources h.dataSources, rfl, rfl⟩
  have hnow : PublishedLeft snapshot published now := ⟨Or.inr rfl, Or.inr rfl⟩
  obtain ⟨hsources, hbindings⟩ := h.follows.not_above hunique hresources
  have hfollows : MayFollow snapshot now :=
    ⟨fun source hsource => admitted_of_held hunique.dataSources hsource (hsources source hsource),
      fun tenant htenant => admitted_of_held hunique.tenants htenant (hbindings tenant htenant),
      h.follows.removed.left hnow⟩
  have hdecided := decideRegistry_carriedOut hlawful h.registry
  rw [← hregistry] at hdecided
  have hunchanged : (plan.registry.map fun registry => { registry with
      outcome := DocumentOutcome.unchanged }).map (RegistryPlan.recorded codecs) =
        plan.registry.map (RegistryPlan.recorded codecs) := by
    rw [Option.map_map]
    rfl
  have hkept : (PublicationRecord.new plan.record.record.generation
      (recordedDocuments codecs (plan.dataSources.again .unchanged)
        (plan.catalog.again .unchanged) (plan.tenants.again .unchanged))
      (now.history.including snapshot.tenants.payload snapshot.dataSources.payload)).withRegistry
        ((plan.registry.map fun registry => { registry with
          outcome := DocumentOutcome.unchanged }).map (RegistryPlan.recorded codecs)) =
      plan.record.record := by
    rw [hunchanged]
    show (PublicationRecord.new plan.record.record.generation
      (recordedDocuments codecs plan.dataSources plan.catalog plan.tenants)
      ((plan.record.record.resources.including _ _).including _ _)).withRegistry _ = _
    rw [hresources, including_including, hrecord]
    rfl
  obtain ⟨recordPlan, hrecordPlan, houtcome, hsame⟩ := @decideRecord_kept codecs hlawful _ bytes _ _ _ _ _ hkept
  refine ⟨{ dataSources := _, catalog := _, tenants := _, registry := _, record := recordPlan },
    now, ⟨hreads, h.validated.left hnow, ?_, ?_, ?_, hfollows, hdecided, ?_⟩,
    ⟨⟨_, rfl⟩, ⟨_, rfl⟩, ⟨_, rfl⟩⟩, rfl, rfl, rfl, rfl, houtcome, hsame⟩
  · rw [hheld]
    exact hdataSources
  · rw [hheld]
    exact hcatalog
  · rw [hheld]
    exact htenants
  · show decideRecord codecs (heldRecord (some plan.record.record) (plan.carriedOut held)) _ _ _ _ _
      = _
    unfold heldRecord
    rw [hbytes]
    exact hrecordPlan

end Snapshot

end Publication
end SaasFabric
