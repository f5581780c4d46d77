import SaasFabric.Publication.Commits
import SaasFabric.Publication.Reregistered
import SaasFabric.Runtime.TakesWhole

/-!
# What is published is served

The publisher's checks and a reader's, written apart: a snapshot that is planned is a
generation that a reader validates, and a reader that holds an earlier one takes it whole,
exactly where the snapshot names every tenant and every DataSource once.
-/

namespace SaasFabric
namespace Publication

open SaasFabric.Runtime (Holds refusesWhole)

/-! ## A reader's decoders -/

/-- The record a reader decodes. -/
def PublicationRecord.toReader (record : PublicationRecord) : Reader.ReaderRecord where
  minimumReaderContract := record.minimumReaderContract
  generation := record.generation
  documents :=
    { tenants := ⟨record.documents.tenants.sha256⟩
      dataSources := ⟨record.documents.dataSources.sha256⟩
      catalog := ⟨record.documents.catalog.sha256⟩ }

/-- A reader decodes what a publisher encodes, digests it alike, and its host decodes the
catalogue. -/
structure Decodes {Catalogue : Type} (codecs : Codecs) (reader : Reader.Codecs Catalogue) :
    Prop where
  sha256 : reader.sha256 = codecs.sha256
  record : ∀ record bytes, codecs.record.line record = .ok bytes →
    reader.readRecord bytes = .ok record.toReader
  tenants : ∀ tenants bytes, codecs.tenants.line tenants = .ok bytes →
    reader.readTenants bytes = .ok (tenants.map TenantBindingDocument.toRuntime)
  dataSources : ∀ dataSources bytes, codecs.dataSources.line dataSources = .ok bytes →
    reader.readDataSources bytes = .ok (dataSources.map DataSourceDocument.toRuntime)
  catalogue : ∀ catalog bytes, codecs.catalog.line catalog = .ok bytes →
    ∃ catalogue, reader.decodeCatalogue bytes = .ok catalogue

/-- The decoders that make of a document what a reader makes of it. -/
def Codecs.reader (codecs : Codecs) : Reader.Codecs CatalogDocument where
  sha256 := codecs.sha256
  readRecord bytes := (codecs.record.read bytes).map PublicationRecord.toReader
  readDataSources bytes :=
    (codecs.dataSources.read bytes).map (List.map DataSourceDocument.toRuntime)
  readTenants bytes := (codecs.tenants.read bytes).map (List.map TenantBindingDocument.toRuntime)
  decodeCatalogue := codecs.catalog.read

theorem decodes_reader {codecs : Codecs} (hlawful : codecs.Lawful) :
    Decodes codecs codecs.reader where
  sha256 := rfl
  record record bytes hline := by
    show (codecs.record.read bytes).map _ = _
    rw [hlawful.record.read_line hline]
    rfl
  tenants tenants bytes hline := by
    show (codecs.tenants.read bytes).map _ = _
    rw [hlawful.tenants.read_line hline]
    rfl
  dataSources dataSources bytes hline := by
    show (codecs.dataSources.read bytes).map _ = _
    rw [hlawful.dataSources.read_line hline]
    rfl
  catalogue catalog bytes hline := ⟨catalog, hlawful.catalog.read_line hline⟩

/-! ## Installable -/

/-- A reader can install what a plan publishes: the generation verifies and validates, as the
documents that were offered, and a reader whose registries hold exactly a generation that was
committed before refuses neither of them. -/
structure Installable {Catalogue : Type} (reader : Reader.Codecs Catalogue) (log : List Commit)
    (snapshot : RuntimeSnapshot) (plan : PublicationPlan) : Prop where
  validates : ∀ origin, ∃ complete parsed,
    Reader.CompleteGeneration.verify reader plan.record.bytes plan.dataSources.bytes
        plan.tenants.bytes plan.catalog.bytes origin = .ok complete ∧
      Reader.ParsedGeneration.validate complete origin = .ok parsed ∧
      parsed.tenants = (plan.commit snapshot).tenants.map TenantBindingDocument.toRuntime ∧
      parsed.dataSources = (plan.commit snapshot).dataSources.map DataSourceDocument.toRuntime
  taken : ∀ earlier ∈ log, ∀ tenants dataSources,
    Holds tenants (earlier.tenants.map TenantBindingDocument.toRuntime) →
    Holds dataSources (earlier.dataSources.map DataSourceDocument.toRuntime) →
      refusesWhole (some tenants)
          ((plan.commit snapshot).tenants.map TenantBindingDocument.toRuntime) = none ∧
        refusesWhole (some dataSources)
          ((plan.commit snapshot).dataSources.map DataSourceDocument.toRuntime) = none

section Taken

variable {T Resource Facts : Type} {kind : IdentifierKind}
  [Runtime.RegistryResource Resource (Identifier kind) Facts] {key : T → Identifier kind}
  {revision : T → BindingRevision} {docs : Commit → List T}
  {history : ResourceHistory → BTreeMap (Identifier kind) BindingRevision}
  {toResource : T → Resource} {log : List Commit} {held offered : List T}

/-- What the publisher's lane admits over an earlier commit, a reader that holds that commit
takes whole. -/
theorem Tracked.taken (h : Tracked key revision docs history log held)
    (hadmitted : AdmittedBy key revision (laneOf docs history log held) offered)
    (hnodup : (offered.map key).Nodup)
    (hkey : ∀ resource, Runtime.RegistryResource.key (toResource resource) = key resource)
    (hrevision : ∀ resource, Runtime.RegistryResource.revision (toResource resource) =
      revision resource)
    (hvalid : ∀ resource ∈ offered,
      Runtime.RegistryResource.validate (toResource resource) = .ok ())
    {earlier : Commit} (hearlier : earlier ∈ log) {current : Runtime.ResourceSnapshot Resource}
    (hholds : Holds current ((docs earlier).map toResource)) :
    refusesWhole (some current) (offered.map toResource) = none := by
  have hkeys : ∀ resources : List T,
      (resources.map toResource).map (Runtime.RegistryResource.key : Resource → Identifier kind) =
        resources.map key := by
    intro resources
    rw [List.map_map]
    exact List.map_congr_left fun resource _ => hkey resource
  have hearlierNodup : ((docs earlier).map key).Nodup := by
    rw [← hkeys]
    exact hholds.1
  refine Runtime.refusesFrom_eq_none (by rw [hkeys]; exact hnodup) fun resource hresource => ?_
  obtain ⟨new, hnew, rfl⟩ := List.mem_map.mp hresource
  refine ⟨hvalid new hnew, List.not_mem_nil, fun old hold => ?_⟩
  -- What is held under its key is in the earlier commit, and the lane continues from there.
  obtain ⟨hmem, hsame⟩ := (hholds.2 _ old).mp hold
  obtain ⟨committed, hcommitted, rfl⟩ := List.mem_map.mp hmem
  rw [hkey, hkey] at hsame
  obtain ⟨index, hindex⟩ := List.getElem?_of_mem hearlier
  have hlane : (laneOf docs history log held).committed[index]? = some (docs earlier) := by
    show (log.map docs)[index]? = _
    rw [List.getElem?_map, hindex]
    rfl
  obtain ⟨hle, hcontent⟩ := h.identifies.admitted hadmitted.admits hlane hearlierNodup
    hcommitted hnew hsame
  rw [hrevision, hrevision]
  exact ⟨hle, fun heq => congrArg toResource (hcontent heq.symm).1⟩

end Taken

section Plan

variable {codecs : Codecs} {Catalogue : Type} {reader : Reader.Codecs Catalogue}
  {snapshot : RuntimeSnapshot} {held : HeldDocuments} {plan : PublicationPlan}
  {record : Option PublicationRecord} {published : PublishedResources} {log : List Commit}

/-- A planned generation verifies. -/
theorem Planned.verifies (hplanned : Planned codecs snapshot held plan record published)
    (hdecodes : Decodes codecs reader) :
    ∃ complete : Reader.CompleteGeneration reader, complete.record = plan.record.bytes ∧
      complete.dataSources = plan.dataSources.bytes ∧ complete.tenants = plan.tenants.bytes ∧
      complete.catalog = plan.catalog.bytes := by
  obtain ⟨generation, hrecord⟩ := hplanned.records.record
  have hread := hdecodes.record _ _ hplanned.records.line
  have hdigest : ∀ bytes, reader.sha256Hex bytes = codecs.sha256Hex bytes := by
    intro bytes
    unfold Reader.Codecs.sha256Hex Codecs.sha256Hex
    rw [hdecodes.sha256]
  rw [hrecord] at hread
  exact ⟨{ record := plan.record.bytes, generation, dataSources := _, tenants := _, catalog := _
           named := ⟨_, hread, le_refl _, rfl, hdigest _, hdigest _, hdigest _⟩ },
    rfl, rfl, rfl, rfl⟩

/-- A planned generation of unique ids can be served. -/
theorem Planned.validates (hplanned : Planned codecs snapshot held plan record published)
    (hdecodes : Decodes codecs reader) (hunique : snapshot.UniqueIds) (origin : String) :
    ∃ complete parsed,
      Reader.CompleteGeneration.verify reader plan.record.bytes plan.dataSources.bytes
          plan.tenants.bytes plan.catalog.bytes origin = .ok complete ∧
        Reader.ParsedGeneration.validate complete origin = .ok parsed ∧
        parsed.tenants = (plan.commit snapshot).tenants.map TenantBindingDocument.toRuntime ∧
        parsed.dataSources =
          (plan.commit snapshot).dataSources.map DataSourceDocument.toRuntime := by
  obtain ⟨complete, hrecord, hdataSources, htenants, hcatalog⟩ := hplanned.verifies hdecodes
  have hverify := Reader.CompleteGeneration.verify_self reader complete origin
  rw [hrecord, hdataSources, htenants, hcatalog] at hverify
  have hreadTenants := hdecodes.tenants _ _ (decideDocument_eq_ok.mp hplanned.tenants).1
  have hreadDataSources :=
    hdecodes.dataSources _ _ (decideDocument_eq_ok.mp hplanned.dataSources).1
  obtain ⟨catalogue, hcatalogue⟩ :=
    hdecodes.catalogue _ _ (decideDocument_eq_ok.mp hplanned.catalog).1
  refine ⟨complete, ⟨complete, _, _, catalogue⟩, hverify,
    Reader.ParsedGeneration.validate_eq_ok.mpr ⟨rfl, ?_⟩, rfl, rfl⟩
  refine ⟨?_, ?_, ?_, ?_, ?_, ?_, ?_⟩
  · rw [hdataSources]
    exact hreadDataSources
  · rw [htenants]
    exact hreadTenants
  · rw [hcatalog]
    exact hcatalogue
  · rw [List.map_map]
    exact nodup_map_sortedBy.mpr hunique.dataSources
  · rw [List.map_map]
    exact nodup_map_sortedBy.mpr hunique.tenants
  · intro tenant htenant
    obtain ⟨document, hdocument, rfl⟩ := List.mem_map.mp htenant
    exact TenantBindingDocument.validate_toRuntime.mpr
      (hplanned.validated.bound document (mem_sortedBy.mp hdocument))
  · intro tenant htenant dataSource hnames
    obtain ⟨document, hdocument, rfl⟩ := List.mem_map.mp htenant
    obtain ⟨entry, hentry, rfl⟩ := TenantBindingDocument.names_toRuntime.mp hnames
    have hcarried := hplanned.validated.carried document (mem_sortedBy.mp hdocument) entry hentry
    obtain ⟨source, hsource, hid⟩ := List.any_eq_true.mp hcarried
    rw [List.map_map]
    exact List.mem_map.mpr ⟨source, mem_sortedBy.mpr hsource, beq_iff_eq.mp hid⟩

/-- What validates names every id once. -/
theorem Installable.uniqueIds (h : Installable reader log snapshot plan) :
    snapshot.UniqueIds := by
  obtain ⟨complete, parsed, -, hvalid, htenants, hdataSources⟩ := h.validates ""
  obtain ⟨-, hservable⟩ := Reader.ParsedGeneration.validate_eq_ok.mp hvalid
  have hsources := hservable.dataSourcesOnce
  have hbindings := hservable.tenantsOnce
  rw [hdataSources, List.map_map] at hsources
  rw [htenants, List.map_map] at hbindings
  exact ⟨nodup_map_sortedBy.mp hbindings, nodup_map_sortedBy.mp hsources⟩

/-- What is planned of unique ids, over a run, a reader can install. -/
theorem Planned.installable (htracks : Tracks codecs held log)
    (hplanned : Planned codecs snapshot held plan record published)
    (hdecodes : Decodes codecs reader) (hunique : snapshot.UniqueIds) :
    Installable reader log snapshot plan := by
  obtain ⟨rfl, htenants, hdataSources⟩ := htracks.reads hplanned
  obtain ⟨hadmitsTenants, hadmitsDataSources⟩ := hplanned.admitted
  refine ⟨hplanned.validates hdecodes hunique, fun earlier hearlier tenants dataSources
    hholdsTenants hholdsDataSources => ⟨?_, ?_⟩⟩
  · refine htenants.taken hadmitsTenants (nodup_map_sortedBy.mpr hunique.tenants)
      (fun _ => rfl) (fun _ => rfl) (fun tenant htenant => ?_) hearlier hholdsTenants
    exact TenantBindingDocument.validate_toRuntime.mpr
      (hplanned.validated.bound tenant (mem_sortedBy.mp htenant))
  · exact hdataSources.taken hadmitsDataSources (nodup_map_sortedBy.mpr hunique.dataSources)
      (fun _ => rfl) (fun _ => rfl) (fun _ _ => rfl) hearlier hholdsDataSources

end Plan

/-- After every run of publications, what is planned of a snapshot a reader can install
exactly where the snapshot names each tenant and each DataSource once. -/
theorem installable_iff_uniqueIds {codecs : Codecs} {Catalogue : Type}
    {reader : Reader.Codecs Catalogue} (hlawful : codecs.Lawful)
    (hdecodes : Decodes codecs reader) {attempts : List Attempt} {snapshot : RuntimeSnapshot}
    {plan : PublicationPlan}
    (hplan : (readHeld codecs ((publisher codecs).final Target.empty attempts) >>=
      planPublication codecs snapshot) = .ok plan) :
    Installable reader (commits ((publisher codecs).emitted Target.empty attempts)) snapshot
      plan ↔ snapshot.UniqueIds := by
  obtain ⟨held, hheld, htracks⟩ := tracks_run hlawful attempts
  rw [hheld] at hplan
  obtain ⟨record, published, hplanned⟩ := (planPublication_eq_ok hlawful).mp hplan
  constructor
  · exact fun h => h.uniqueIds
  · exact fun hunique => hplanned.installable htracks hdecodes hunique

/-- A tenant that was published with its issuer can be installed with another one beside it. -/
theorem oneAcme_installable : ∃ plan,
    (readHeld registeredSamples.codecs ((publisher registeredSamples.codecs).final Target.empty
        [⟨registeredSnapshot [acmeRegistration], none, 8⟩]) >>=
      planPublication registeredSamples.codecs
        (registeredSnapshot [acmeRegistration, staffRegistration])) = .ok plan ∧
    commits ((publisher registeredSamples.codecs).emitted Target.empty
        [⟨registeredSnapshot [acmeRegistration], none, 8⟩]) =
      [registeredPlan.commit (registeredSnapshot [acmeRegistration])] ∧
    Installable registeredSamples.codecs.reader
      (commits ((publisher registeredSamples.codecs).emitted Target.empty
        [⟨registeredSnapshot [acmeRegistration], none, 8⟩]))
      (registeredSnapshot [acmeRegistration, staffRegistration]) plan := by
  obtain ⟨plan, hplan, -⟩ := reregisteredSnapshot_planned
  have hread : (readHeld registeredSamples.codecs ((publisher registeredSamples.codecs).final
      Target.empty [⟨registeredSnapshot [acmeRegistration], none, 8⟩]) >>=
        planPublication registeredSamples.codecs
          (registeredSnapshot [acmeRegistration, staffRegistration])) = .ok plan :=
    Library.bind_eq_ok.mpr ⟨_, readHeld_registered, hplan⟩
  refine ⟨plan, hread, ?_, (installable_iff_uniqueIds registeredSamples.lawful
    (decodes_reader registeredSamples.lawful) hread).mpr (uniqueIds_registeredSnapshot _)⟩
  have hcommits : commits (publish registeredSamples.codecs Target.empty
      ⟨registeredSnapshot [acmeRegistration], none, 8⟩).events =
        [registeredPlan.commit (registeredSnapshot [acmeRegistration])] := by
    rw [commits_events]
    exact (publish_whole registeredSamples.lawful readHeld_empty registeredSnapshot_planned).2.2
  rw [Library.Machine.emitted_cons, Library.Machine.emitted_nil, List.append_nil]
  exact hcommits

/-- Two copies of one tenant, as they are published. -/
def twiceAcmeText : String := "\n" ++ acmeText ++ ",\n" ++ acmeText ++ "\n"

/-- What serde writes of a snapshot that names one tenant twice. -/
def twiceAcmeSamples : Samples :=
  acmeSamples [acmeTenant, acmeTenant] twiceAcmeText
    ⟨0x8c168cf947b7a4f027647bf81a1778aabce9fc3470e519499405db635597db28⟩
    ⟨0xa516d1af756f422198dd39bd54bd98d06f8015b7604e47565f5874dd349db76b⟩

theorem twiceAcmeSnapshot_planned : ∃ plan, planPublication twiceAcmeSamples.codecs
    (acmeSnapshot [acmeTenant, acmeTenant]) HeldDocuments.absent = .ok plan :=
  ⟨_, @acmeSnapshot_planned [acmeTenant, acmeTenant] twiceAcmeText
    ⟨0x8c168cf947b7a4f027647bf81a1778aabce9fc3470e519499405db635597db28⟩
    ⟨0xa516d1af756f422198dd39bd54bd98d06f8015b7604e47565f5874dd349db76b⟩
    (List.cons_ne_nil _ _) (fun tenant htenant => by simpa using htenant)
    (by decide +kernel) (by decide +kernel) (by decide +kernel) (by decide +kernel)⟩

/-- A tenant that is named twice is planned, and a reader cannot install what is planned. -/
theorem twiceAcme_not_installable : ∃ plan,
    planPublication twiceAcmeSamples.codecs (acmeSnapshot [acmeTenant, acmeTenant])
        HeldDocuments.absent = .ok plan ∧
      ¬ Installable twiceAcmeSamples.codecs.reader
        (commits ((publisher twiceAcmeSamples.codecs).emitted Target.empty []))
        (acmeSnapshot [acmeTenant, acmeTenant]) plan := by
  obtain ⟨plan, hplan⟩ := twiceAcmeSnapshot_planned
  refine ⟨plan, hplan, fun hinstallable => ?_⟩
  have hnodup := hinstallable.uniqueIds.tenants
  exact absurd hnodup (by simp [acmeSnapshot])

end Publication
end SaasFabric
