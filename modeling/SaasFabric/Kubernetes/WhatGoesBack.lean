import SaasFabric.Kubernetes.Files

/-!
# What goes back

A tenants object that is rewritten carries the manifest, the record and the registry from what
was read of them.  What goes back as it is held, and that only the size of an object refuses it.
-/

namespace SaasFabric
namespace Kubernetes

open Library
open Publication

/-- Some value is written so, on a line. -/
def Canonical {T : Type} (codec : Codec T) (bytes : Bytes) : Prop :=
  ∃ value, codec.line value = .ok bytes

/-- What a rewritten tenants object has to carry goes back as it is held: the manifest of a
document that is unchanged and a record that is unchanged are written as serde writes them, and
no registry is held where none is published. -/
structure CarriesBack (codecs : Codecs) (target : Target) (snapshot : RuntimeSnapshot)
    (plan : PublicationPlan) : Prop where
  manifest : plan.tenants.outcome = .unchanged →
    ∃ bytes, target.tenants.manifest = some bytes ∧ Canonical codecs.manifest bytes
  record : plan.record.outcome = .unchanged →
    ∃ bytes, target.record = some bytes ∧ Canonical codecs.record bytes
  registry : snapshot.registry = none → target.registry = none

variable {codecs : Codecs} {cluster : Cluster} {server : ApiServer}
  {namespaceName : String} {reads : Reads} {plan : PublicationPlan} {snapshot : RuntimeSnapshot}

/-! ## The tenants object -/

/-- The files of the tenants, the registry and the record, once they are written. -/
theorem foldl_tenantsWrites {manifest : Bytes} (target : Target)
    (hline : codecs.manifest.line (DocumentManifest.new .tenants plan.tenants.revision) =
      .ok manifest) :
    (plan.tenants.writes .tenants ++ ((plan.registry.map RegistryPlan.writes).getD [] ++
        plan.record.writes)).foldl (wrote codecs) target =
      { target with
        tenants :=
          match plan.tenants.outcome with
          | .written => ⟨some manifest, some plan.tenants.bytes⟩
          | .unchanged => target.tenants
        registry := carriedOutRegistry plan.registry target.registry
        record := plan.record.carriedOut target.record } := by
  have htenants : (plan.tenants.writes .tenants).foldl (wrote codecs) target =
      { target with
        tenants :=
          match plan.tenants.outcome with
          | .written => ⟨some manifest, some plan.tenants.bytes⟩
          | .unchanged => target.tenants } := by
    unfold DocumentPlan.writes
    cases plan.tenants.outcome with
    | unchanged => rfl
    | written =>
        dsimp only [List.foldl_cons, List.foldl_nil]
        rw [wrote_manifest hline]
        rfl
  have hregistry : ∀ target : Target,
      ((plan.registry.map RegistryPlan.writes).getD []).foldl (wrote codecs) target =
        { target with registry := carriedOutRegistry plan.registry target.registry } := by
    intro target
    unfold carriedOutRegistry
    cases plan.registry with
    | none => rfl
    | some registry =>
        dsimp only [Option.map_some, Option.getD_some]
        unfold RegistryPlan.writes
        cases registry.outcome <;> rfl
  have hrecord : ∀ target : Target, plan.record.writes.foldl (wrote codecs) target =
      { target with record := plan.record.carriedOut target.record } := by
    intro target
    unfold RecordPlan.writes RecordPlan.carriedOut
    cases plan.record.outcome <;> rfl
  rw [List.foldl_append, List.foldl_append, htenants, hregistry, hrecord]

/-- The bytes a document is read from. -/
theorem files_of_readStored {document : DocumentKind} {read : Read}
    (h : readStored codecs document (cluster document).current = .ok read) :
    read.held.payload = (filesAt cluster document).payload ∧
      heldManifest codecs (filesAt cluster document).manifest document = .ok read.held.manifest := by
  unfold filesAt
  cases hcurrent : (cluster document).current with
  | none =>
      rw [hcurrent] at h
      cases h
      exact ⟨rfl, rfl⟩
  | some stored =>
      rw [hcurrent] at h
      obtain ⟨hheld, -⟩ := readStored_some.mp h
      obtain ⟨hmanifest, hpayload⟩ := heldOf_eq_ok.mp hheld
      exact ⟨hpayload, hmanifest⟩

theorem outcome_eq_unchanged {outcome : DocumentOutcome} (h : ¬outcome = .written) :
    outcome = .unchanged := by
  cases outcome with
  | written => exact absurd rfl h
  | unchanged => rfl

section Tenants

variable {record : Option PublicationRecord} {resources : PublishedResources}

/-- The manifest that goes back is the one that is held, where its bytes are canonical. -/
theorem manifest_goes_back (hlawful : codecs.Lawful)
    (hread : readStored codecs .tenants (cluster .tenants).current = .ok reads.tenants)
    (hunchanged : plan.tenants.outcome = .unchanged) {manifest : Bytes}
    (hline : codecs.manifest.line (tenantsManifest plan reads.tenants) = .ok manifest) :
    (filesOf cluster).tenants.manifest = some manifest ↔
      ∃ bytes, (filesOf cluster).tenants.manifest = some bytes ∧
        Canonical codecs.manifest bytes := by
  obtain ⟨-, hheld⟩ := files_of_readStored hread
  constructor
  · exact fun h => ⟨manifest, h, _, hline⟩
  · rintro ⟨bytes, hbytes, value, hvalue⟩
    have hfile : (filesAt cluster .tenants).manifest = some bytes := hbytes
    rw [hfile] at hheld
    rcases heldManifest_eq_ok.mp hheld with ⟨hnone, -⟩ | ⟨_, found, hsome, hfound, -, hmanifest⟩
    · cases hnone
    · cases hsome
      rw [hlawful.manifest.read_line hvalue] at hfound
      cases hfound
      have hsame : tenantsManifest plan reads.tenants = value := by
        unfold tenantsManifest
        rw [hmanifest, hunchanged]
      rw [hsame, hvalue] at hline
      cases hline
      exact hbytes

/-- The record that goes back is the one that is held, where its bytes are canonical. -/
theorem record_goes_back (hlawful : codecs.Lawful)
    (hread : readStored codecs .tenants (cluster .tenants).current = .ok reads.tenants)
    (hplanned : Planned codecs snapshot reads.held plan record resources)
    (hunchanged : plan.record.outcome = .unchanged) :
    (filesOf cluster).record = some plan.record.bytes ↔
      ∃ bytes, (filesOf cluster).record = some bytes ∧ Canonical codecs.record bytes := by
  constructor
  · exact fun h => ⟨_, h, _, hplanned.records.line⟩
  · rintro ⟨bytes, hbytes, value, hvalue⟩
    have hheld : reads.held.record = some bytes := (carried_of_readStored hread).1.trans hbytes
    obtain ⟨_, hkept⟩ := hplanned.records.unchanged hunchanged
    obtain ⟨found, hfound, hrest⟩ := Option.bind_eq_some_iff.mp hkept
    obtain ⟨_, -, heq⟩ := Option.map_eq_some_iff.mp hrest
    have hrecord : found = plan.record.record := congrArg Prod.fst heq
    have hparsed := hplanned.reads.parsed
    unfold HeldDocuments.parseRecord at hparsed
    rw [hheld, hfound, hrecord] at hparsed
    obtain ⟨parsed, hparsed, hsame⟩ := map_eq_ok.mp hparsed
    cases hsame
    unfold PublicationRecord.parseHeld at hparsed
    have hread := mapError_eq_ok.mp (check_bind_eq_ok.mp hparsed).2
    rw [hlawful.record.read_line hvalue] at hread
    cases hread
    have hline := hplanned.records.line
    rw [hvalue] at hline
    cases hline
    exact hbytes

/-- A registry that is published goes back as it is left in the files; one that is not published
is dropped. -/
theorem registry_goes_back (hplanned : Planned codecs snapshot reads.held plan record resources)
    (hread : readStored codecs .tenants (cluster .tenants).current = .ok reads.tenants) :
    plan.registry.map RegistryPlan.bytes =
        carriedOutRegistry plan.registry (filesOf cluster).registry ↔
      (snapshot.registry = none → (filesOf cluster).registry = none) := by
  have hheld : reads.held.registry = (filesOf cluster).registry := (carried_of_readStored hread).2
  rcases decideRegistry_eq_ok.mp hplanned.registry with ⟨hnone, -, hplan⟩ |
    ⟨offered, generation, rendered, bytes, hsome, -, -, -, hplan⟩
  · rw [hplan, hnone]
    exact ⟨fun h _ => h.symm, fun h => (h rfl).symm⟩
  · rw [hplan, hsome]
    refine ⟨fun _ h => absurd h nofun, fun _ => ?_⟩
    unfold carriedOutRegistry
    dsimp only [Option.map_some]
    rw [hheld]
    by_cases hsame : (filesOf cluster).registry = some bytes
    · rw [if_pos hsame]
      exact hsame.symm
    · rw [if_neg hsame]

/-- A registry that is not written is left as it is held. -/
theorem carriedOutRegistry_of_not_written {held : Option Bytes}
    (h : ¬registryWritten plan = true) : carriedOutRegistry plan.registry held = held := by
  unfold registryWritten at h
  unfold carriedOutRegistry
  cases hplan : plan.registry with
  | none => rfl
  | some registry =>
      rw [hplan] at h
      cases houtcome : registry.outcome with
      | unchanged =>
          dsimp only
          rw [houtcome]
      | written => simp [houtcome] at h

/-- A record goes back as it is left in the files, where it is written or was written by serde. -/
theorem record_left_iff (hlawful : codecs.Lawful)
    (hread : readStored codecs .tenants (cluster .tenants).current = .ok reads.tenants)
    (hplanned : Planned codecs snapshot reads.held plan record resources) :
    some plan.record.bytes = plan.record.carriedOut (filesOf cluster).record ↔
      (plan.record.outcome = .unchanged →
        ∃ bytes, (filesOf cluster).record = some bytes ∧ Canonical codecs.record bytes) := by
  unfold RecordPlan.carriedOut
  cases houtcome : plan.record.outcome with
  | written => exact ⟨fun _ h => absurd h nofun, fun _ => rfl⟩
  | unchanged =>
      rw [← record_goes_back hlawful hread hplanned houtcome]
      exact ⟨fun h _ => h.symm, fun h => (h rfl).symm⟩

/-- A rewritten tenants object leaves what the files are left with exactly where what it has to
carry goes back as it is held. -/
theorem filesOf_afterWrite_tenants (hlawful : codecs.Lawful)
    (hread : readStored codecs .tenants (cluster .tenants).current = .ok reads.tenants)
    (hplanned : Planned codecs snapshot reads.held plan record resources)
    (hmade : ∃ made, (objectOf plan reads .tenants).configMap codecs namespaceName
      (objectOf plan reads .tenants).read.resourceVersion = .ok made) :
    filesOf (afterWrite codecs server namespaceName cluster (objectOf plan reads .tenants)) =
        (plan.tenants.writes .tenants ++ ((plan.registry.map RegistryPlan.writes).getD [] ++
          plan.record.writes)).foldl (wrote codecs) (filesOf cluster) ↔
      ((tenantsObjectPlan plan).outcome = .written →
        CarriesBack codecs (filesOf cluster) snapshot plan) := by
  obtain ⟨made, hmade⟩ := hmade
  obtain ⟨manifest, hline, -, hlists⟩ := configMap_eq_ok hmade
  obtain ⟨new, hnew, -⟩ := hlawful.manifest.line_spec
    (DocumentManifest.new .tenants plan.tenants.revision)
  obtain ⟨hrecordBytes, hregistryBytes⟩ := carried_written hlists
  obtain ⟨hownManifest, hownPayload⟩ := own_bytes hlists
  rw [foldl_tenantsWrites _ hnew]
  have hleft : afterWrite codecs server namespaceName cluster (objectOf plan reads .tenants) =
      match (tenantsObjectPlan plan).outcome with
      | .written => cluster.append .tenants ⟨server.version cluster .tenants, made.data⟩
      | .unchanged => cluster := by
    have houtcome : (objectOf plan reads .tenants).plan.outcome =
        (tenantsObjectPlan plan).outcome := rfl
    unfold afterWrite
    rw [hmade, houtcome]
    cases (tenantsObjectPlan plan).outcome <;> rfl
  rw [hleft]
  -- An object that stays as it is carries nothing; a rewritten one carries all three parts.
  cases hrewritten : (tenantsObjectPlan plan).outcome with
  | unchanged =>
      have hkept := mt outcome_tenantsObjectPlan.mpr (by rw [hrewritten]; exact nofun)
      rw [not_or, not_or] at hkept
      obtain ⟨htenants, hrecord, hregistry⟩ := hkept
      refine ⟨fun _ h => absurd h nofun, fun _ => ?_⟩
      rw [carriedOutRegistry_of_not_written hregistry,
        (outcome_eq_unchanged htenants : plan.tenants.outcome = .unchanged)]
      unfold RecordPlan.carriedOut
      rw [outcome_eq_unchanged hrecord]
  | written =>
      rw [filesOf_append_tenants]
      dsimp only
      rw [hrecordBytes, hregistryBytes, hownManifest, hownPayload]
      have hregistry := registry_goes_back hplanned hread
      have hrecord := record_left_iff hlawful hread hplanned
      -- The manifest: the file is written anew with the document, or left as it is held.
      have htenants : (⟨some manifest, some plan.tenants.bytes⟩ : Files) =
            (match plan.tenants.outcome with
              | .written => ⟨some new, some plan.tenants.bytes⟩
              | .unchanged => (filesOf cluster).tenants) ↔
          (plan.tenants.outcome = .unchanged → ∃ bytes,
            (filesOf cluster).tenants.manifest = some bytes ∧ Canonical codecs.manifest bytes) := by
        have hown : (objectOf plan reads .tenants).manifest = tenantsManifest plan reads.tenants := rfl
        rw [hown] at hline
        cases houtcome : plan.tenants.outcome with
        | written =>
            have hsame : tenantsManifest plan reads.tenants =
                DocumentManifest.new .tenants plan.tenants.revision := by
              unfold tenantsManifest
              rw [houtcome]
              cases reads.tenants.held.manifest <;> rfl
            rw [hsame, hnew] at hline
            cases hline
            exact ⟨fun _ h => absurd h nofun, fun _ => rfl⟩
        | unchanged =>
            rw [← manifest_goes_back hlawful hread houtcome hline]
            have hpayload : (filesOf cluster).tenants.payload = some plan.tenants.bytes := by
              have hcopy := held_of_unchanged hplanned.tenants houtcome
              unfold HeldDocument.held at hcopy
              obtain ⟨_, -, heq⟩ := Option.map_eq_some_iff.mp hcopy
              exact (files_of_readStored hread).1.symm.trans (congrArg Held.payload heq)
            constructor
            · exact fun h _ => congrArg Files.manifest h.symm
            · intro h
              dsimp only
              rw [← h rfl, ← hpayload]
      have hparts : CarriesBack codecs (filesOf cluster) snapshot plan ↔ _ ∧ _ ∧ _ :=
        ⟨fun h => ⟨h.manifest, h.record, h.registry⟩, fun h => ⟨h.1, h.2.1, h.2.2⟩⟩
      rw [Target.mk.injEq, hrecord, hregistry, hparts, ← htenants]
      constructor
      · rintro ⟨hfiles, -, -, hrecorded, hregistered⟩ _
        exact ⟨hfiles, hrecorded, hregistered⟩
      · intro h
        obtain ⟨hfiles, hrecorded, hregistered⟩ := h rfl
        exact ⟨hfiles, rfl, rfl, hrecorded, hregistered⟩

end Tenants

/-! ## The size limit -/

/-- Whatever is written is UTF-8. -/
structure WritesUtf8 (codecs : Codecs) : Prop where
  tenants : codecs.tenants.WritesUtf8
  dataSources : codecs.dataSources.WritesUtf8
  catalog : codecs.catalog.WritesUtf8
  manifest : codecs.manifest.WritesUtf8
  record : codecs.record.WritesUtf8
  registry : codecs.registry.WritesUtf8

/-- The error of an object that is too large. -/
def IsOverCap (error : PublicationError) : Prop := ∃ document, error = overCap document

theorem failsWith_fromUtf8 {P : PublicationError → Prop} {bytes : Bytes} {error : PublicationError}
    (h : bytes.IsValidUTF8) : FailsWith P (fromUtf8 bytes error) := by
  unfold fromUtf8 String.fromUTF8?
  rw [dif_pos h]
  exact FailsWith.ok _

/-- An object that is planned is refused for its size only. -/
theorem failsWith_configMap (hlawful : codecs.Lawful) (hutf8 : WritesUtf8 codecs) {object : Object}
    (hbytes : object.plan.bytes.IsValidUTF8)
    (hcarried : ∀ entry ∈ object.carried, entry.2.IsValidUTF8) {version : Option String} :
    FailsWith IsOverCap (object.configMap codecs namespaceName version) := by
  obtain ⟨line, hline, -⟩ := hlawful.manifest.line_spec object.manifest
  unfold Object.configMap objectFor
  rw [hline]
  refine FailsWith.bind (failsWith_fromUtf8 hbytes) fun payload => ?_
  change FailsWith IsOverCap (fromUtf8 line _ >>= _)
  refine FailsWith.bind (failsWith_fromUtf8 (hutf8.manifest _ _ hline)) fun manifest => ?_
  refine FailsWith.bind (FailsWith.mapM fun entry hentry => ?_) fun carried => ?_
  · exact FailsWith.bind (failsWith_fromUtf8 (hcarried entry hentry)) fun text => FailsWith.ok _
  · refine FailsWith.bind ?_ fun data => FailsWith.ok _
    unfold dataFor
    exact FailsWith.ite (FailsWith.error ⟨object.document, rfl⟩) (FailsWith.ok _)

/-- A plan is refused for the size of its objects only. -/
theorem failsWith_checkAll (hlawful : codecs.Lawful) (hutf8 : WritesUtf8 codecs)
    (hplan : planPublication codecs snapshot reads.held = .ok plan) :
    FailsWith IsOverCap
      (checkAll codecs namespaceName (objects plan (tenantsObjectPlan plan) reads)) := by
  obtain ⟨record, resources, hplanned⟩ := (planPublication_eq_ok hlawful).mp hplan
  have hbytes : ∀ document, (plan.document document).bytes.IsValidUTF8 := by
    intro document
    have hline := (decideDocument_eq_ok.mp (hplanned.document document)).1
    cases document with
    | tenants => exact hutf8.tenants _ _ hline
    | dataSources => exact hutf8.dataSources _ _ hline
    | catalog => exact hutf8.catalog _ _ hline
  have hregistry : ∀ registry, plan.registry = some registry → registry.bytes.IsValidUTF8 := by
    intro registry hsome
    rcases decideRegistry_eq_ok.mp hplanned.registry with ⟨-, -, hnone⟩ |
      ⟨_, _, _, _, -, -, -, hrender, hsame⟩
    · rw [hsome] at hnone
      cases hnone
    · rw [hsome] at hsame
      cases hsame
      exact hutf8.registry _ _ (render_eq_ok.mp hrender).2
  have hcarried : ∀ document, ∀ entry ∈ (objectOf plan reads document).carried,
      entry.2.IsValidUTF8 := by
    intro document entry hentry
    cases document with
    | dataSources => exact absurd hentry List.not_mem_nil
    | catalog => exact absurd hentry List.not_mem_nil
    | tenants =>
        rcases List.mem_cons.mp hentry with rfl | hentry
        · exact hutf8.record _ _ hplanned.records.line
        · obtain ⟨registry, hsome, rfl⟩ := Option.map_eq_some_iff.mp (Option.mem_toList.mp hentry)
          exact hregistry registry hsome
  unfold checkAll
  rw [objects_eq]
  refine FailsWith.forM fun object hobject => ?_
  obtain ⟨document, rfl⟩ : ∃ document, object = objectOf plan reads document := by
    simp only [List.mem_cons, List.not_mem_nil, or_false] at hobject
    rcases hobject with rfl | rfl | rfl <;> exact ⟨_, rfl⟩
  refine FailsWith.map (failsWith_configMap hlawful hutf8 ?_ (hcarried document))
  rw [bytes_objectOf]
  exact hbytes document

end Kubernetes
end SaasFabric
