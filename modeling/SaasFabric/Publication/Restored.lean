import SaasFabric.Publication.Diagnosis
import SaasFabric.Publication.Restore

/-!
# What a restore leaves

A restore puts the recorded bytes of one document back.  What is held of every other part stays,
so the problems after it are those of the peers that the plan reports; the exception is an
issuer registry with a problem of its own, which the offered tenants were not checked against.
-/

namespace SaasFabric
namespace Publication
namespace HeldRecovery

/-- What is relied on of a manifest: it is read back as it was written, and it was written as
an object. -/
structure RecoveryCodecs.WritesManifests (codecs : RecoveryCodecs) : Prop where
  faithful : codecs.manifest.Faithful
  object : ∀ manifest bytes, codecs.manifest.line manifest = .ok bytes →
    codecs.readValue bytes = .ok .object

variable {codecs : RecoveryCodecs} {target after : Target} {document : DocumentKind}
  {offered : Bytes}

/-! ## The two files -/

theorem readManifest_new (hlawful : codecs.WritesManifests) {revision : DocumentRevision}
    {bytes : Bytes} (h : codecs.manifest.line (.new document revision) = .ok bytes) :
    readManifest codecs (some bytes) document = .valid (.new document revision) := by
  unfold readManifest
  dsimp only
  rw [hlawful.object _ _ h]
  dsimp only
  rw [hlawful.faithful.read_line h]
  dsimp only
  rw [if_neg (fun hother => hother rfl)]
  exact if_neg (lt_irrefl CONTRACT_VERSION)

/-- A manifest is left as it is where it is valid at the recorded revision, and written anew
where it is missing or malformed. -/
theorem manifestPlan_cases {held : Option Bytes} {recorded : DocumentRevision}
    {manifest : Option DocumentManifest}
    (h : manifestPlan codecs held document recorded = .ok manifest) :
    (manifest = none ∧ ∃ found, readManifest codecs held document = .valid found ∧
      found.revision = recorded) ∨ manifest = some (.new document recorded) := by
  unfold manifestPlan at h
  split at h
  · exact Or.inr (Except.ok.inj h).symm
  · exact Or.inr (Except.ok.inj h).symm
  · rename_i found hvalid
    split at h
    · rename_i hrevision
      exact Or.inl ⟨(Except.ok.inj h).symm, found, hvalid, hrevision⟩
    · cases h
  · cases h
  · cases h

/-- A payload is left as it is where it is what is offered, and replaced where it cannot be
read. -/
theorem payloadPlan_cases {held payload : Option Bytes}
    (h : payloadPlan codecs held document offered = .ok payload) :
    (payload = none ∧ held = some offered) ∨
      (payload = some offered ∧ ∀ bytes, held = some bytes → ∀ parsed,
        parsePayload codecs bytes document ≠ .ok parsed) := by
  unfold payloadPlan at h
  split at h
  · exact Or.inr ⟨(Except.ok.inj h).symm, nofun⟩
  · rename_i bytes
    split at h
    · rename_i hsame
      exact Or.inl ⟨(Except.ok.inj h).symm, congrArg some hsame⟩
    · split at h
      · cases h
      · rename_i hunread
        refine Or.inr ⟨(Except.ok.inj h).symm, fun other hother parsed hparsed => hunread ?_⟩
        cases hother
        rw [hparsed]
        rfl

/-- What a restore leaves: the document as it was offered, under a manifest at the recorded
revision, and everything else as it was. -/
structure Restored (codecs : RecoveryCodecs) (target after : Target) (document : DocumentKind)
    (offered : Bytes) (revision : DocumentRevision) : Prop where
  payload : (after.document document).payload = some offered
  manifest : ∃ manifest,
    readManifest codecs (after.document document).manifest document = .valid manifest ∧
      manifest.revision = revision
  others : ∀ kind, kind ≠ document → after.document kind = target.document kind
  record : after.record = target.record
  registry : after.registry = target.registry

theorem document_modify {change : Files → Files} {kind : DocumentKind} :
    (target.modify change document).document kind =
      if kind = document then change (target.document kind) else target.document kind := by
  cases document <;> cases kind <;> rfl

/-- The files of a document after both writes. -/
theorem document_written {payload manifest : Option Bytes} {kind : DocumentKind} :
    ((target.modify (fun files => Files.withPayload files payload) document).modify
      (fun files => Files.withManifest files manifest) document).document kind =
        if kind = document then
          Files.withManifest (Files.withPayload (target.document kind) payload) manifest
        else target.document kind := by
  rw [document_modify, document_modify]
  split <;> rfl

@[simp] theorem payload_withManifest {files : Files} {manifest : Option Bytes} :
    (Files.withManifest files manifest).payload = files.payload := by
  cases manifest <;> rfl

@[simp] theorem manifest_withPayload {files : Files} {payload manifest : Option Bytes} :
    (Files.withManifest (Files.withPayload files payload) manifest).manifest =
      (Files.withManifest files manifest).manifest := by
  cases manifest <;> cases payload <;> rfl

theorem record_modify {change : Files → Files} :
    (target.modify change document).record = target.record := by
  cases document <;> rfl

theorem registry_modify {change : Files → Files} :
    (target.modify change document).registry = target.registry := by
  cases document <;> rfl

/-- A plan can be carried out, and what it leaves is the document restored. -/
theorem exists_restored (hlawful : codecs.WritesManifests) {plan : RestorePlan}
    (h : planRestore codecs ⟨target, true⟩ document offered = .ok plan) :
    ∃ after, plan.write codecs target = .ok after ∧
      Restored codecs target after document offered plan.revision := by
  obtain ⟨recordBytes, record, parsed, -, manifest, payload, hmanifest, hpayload, rfl⟩ :=
    planRestore_eq_ok.mp h
  -- The manifest that is to be written can be written, and is then read as a valid one.
  have hwritten : ∃ bytes, manifest.mapM codecs.manifest.line = .ok bytes ∧
      ∃ found, readManifest codecs
          (Files.withManifest (target.document document) bytes).manifest document =
            .valid found ∧
        found.revision = (record.documents.document document).revision := by
    rcases manifestPlan_cases hmanifest with ⟨rfl, found, hvalid, hrevision⟩ | rfl
    · exact ⟨none, rfl, found, hvalid, hrevision⟩
    · obtain ⟨bytes, hline, -⟩ := hlawful.faithful.line_spec
        (.new document (record.documents.document document).revision)
      refine ⟨some bytes, ?_, _, readManifest_new hlawful hline, rfl⟩
      rw [Option.mapM_some, hline]
      rfl
  obtain ⟨bytes, hbytes, found, hvalid, hrevision⟩ := hwritten
  refine ⟨_, Library.bind_eq_ok.mpr ⟨bytes, Library.mapError_eq_ok.mpr hbytes, rfl⟩, ?_⟩
  change Restored codecs target
    ((target.modify (fun files => Files.withPayload files payload) document).modify
      (fun files => Files.withManifest files bytes) document) document offered _
  constructor
  · rw [document_written, if_pos rfl, payload_withManifest]
    rcases payloadPlan_cases hpayload with ⟨rfl, hheld⟩ | ⟨rfl, -⟩
    · exact hheld
    · rfl
  · rw [document_written, if_pos rfl, manifest_withPayload]
    exact ⟨found, hvalid, hrevision⟩
  · intro kind hkind
    rw [document_written, if_neg hkind]
  · rw [record_modify, record_modify]
  · rw [registry_modify, registry_modify]

/-! ## Which part a problem is of -/

/-- What is wrong with the resources of one part. -/
def resourceDetails (codecs : RecoveryCodecs) (observation : TargetObservation)
    (registry : Option RecordedRegistry) : Part → List String
  | .tenants =>
      ((parsedTenants codecs observation).map tenantProblems).getD [] ++
        danglingOf (parsedTenants codecs observation) (parsedDataSources codecs observation)
  | .dataSources => ((parsedDataSources codecs observation).map dataSourceProblems).getD []
  | .issuerRegistry =>
      (registry.map fun recorded => registryProblems codecs observation.registry recorded
        (parsedTenants codecs observation)).getD []
  | _ => []

theorem resourceDetails_issuerRegistry {recorded : RecordedRegistry} :
    resourceDetails codecs target (some recorded) .issuerRegistry =
      registryProblems codecs target.registry recorded (parsedTenants codecs target) := rfl

theorem mem_resourceProblems {registry : Option RecordedRegistry} {problem : Problem} :
    problem ∈ resourceProblems codecs target registry ↔
      problem.kind = .unusable ∧
        problem.detail ∈ resourceDetails codecs target registry problem.part := by
  have hmap : ∀ (part : Part) (details : List String),
      problem ∈ details.map (⟨part, .unusable, ·⟩) ↔
        problem.part = part ∧ problem.kind = .unusable ∧ problem.detail ∈ details := by
    intro part details
    rw [List.mem_map]
    constructor
    · rintro ⟨detail, hdetail, rfl⟩
      exact ⟨rfl, rfl, hdetail⟩
    · rintro ⟨rfl, hkind, hdetail⟩
      exact ⟨problem.detail, hdetail, by rw [← hkind]⟩
  unfold resourceProblems
  dsimp only
  simp only [List.mem_append, hmap]
  obtain ⟨part, kind, detail⟩ := problem
  cases part <;> simp [resourceDetails, and_or_left]

theorem part_of_mem_documentProblems {kind : DocumentKind} {held : Files}
    {recorded : Option RecordedDocument} {problem : Problem}
    (h : problem ∈ documentProblems codecs kind held recorded) :
    problem.part = .ofDocument kind := by
  unfold documentProblems at h
  dsimp only at h
  rcases List.mem_append.mp h with h | h
  · rcases List.mem_append.mp h with h | h
    · obtain ⟨detail, -, rfl⟩ := List.mem_map.mp h
      rfl
    · split at h
      · rw [List.mem_singleton.mp h]
      · exact absurd h List.not_mem_nil
  · unfold revisionProblems at h
    split at h
    · split at h
      · rw [List.mem_singleton.mp h]
      · exact absurd h List.not_mem_nil
    · exact absurd h List.not_mem_nil

theorem part_of_mem_recordProblems {problem : Problem}
    (h : problem ∈ (recordState codecs target.record).1.problems) : problem.part = .record := by
  cases hstate : (recordState codecs target.record).1 with
  | unusable detail sha256 =>
      rw [hstate] at h
      rw [List.mem_singleton.mp h]
  | absent =>
      rw [hstate] at h
      exact absurd h List.not_mem_nil
  | held generation sha256 =>
      rw [hstate] at h
      exact absurd h List.not_mem_nil

theorem Part.ofDocument_injective : Function.Injective Part.ofDocument := by
  intro first second h
  cases first <;> cases second <;> first | rfl | cases h

theorem Part.ofDocument_ne_record : Part.ofDocument document ≠ .record := by
  cases document <;> exact nofun

/-! ## What a registry was checked against -/

/-- A detail says that an issuer is registered to a tenant that is not bound. -/
def IsUnbound (detail : String) : Prop :=
  ∃ index : Nat,
    detail = s!"issuer at position {index} is registered to a tenant that is not bound"

/-- Beside some tenants, a registry has its own problems, and then those of issuers that are
not bound. -/
theorem registryProblems_append (codecs : RecoveryCodecs) (bytes : Option Bytes)
    (recorded : RecordedRegistry) (tenants : Option (List TenantBindingDocument)) :
    ∃ unbound, registryProblems codecs bytes recorded tenants =
        registryProblems codecs bytes recorded none ++ unbound ∧
      ∀ detail ∈ unbound, IsUnbound detail := by
  have hnone : ∀ details : List String, ∃ unbound, details = details ++ unbound ∧
      ∀ detail ∈ unbound, IsUnbound detail :=
    fun details => ⟨[], (List.append_nil details).symm, nofun⟩
  unfold registryProblems
  split
  · exact hnone _
  · rename_i bytes
    split
    · exact hnone _
    · cases codecs.registry.read bytes with
      | error cause => exact hnone _
      | ok registry =>
          refine ⟨unboundProblems registry.issuers tenants, ?_, fun detail hdetail => ?_⟩
          · show _ = (_ ++ []) ++ unboundProblems registry.issuers tenants
            rw [List.append_nil]
            rfl
          · cases tenants with
            | none => exact absurd hdetail List.not_mem_nil
            | some tenants =>
                obtain ⟨index, -, rfl⟩ := List.mem_map.mp hdetail
                exact ⟨index, rfl⟩

/-! ## The problems after a restore -/

section After

variable {recordBytes : Bytes} {record : PublicationRecord} {parsed : Parsed}
  {revision : DocumentRevision}

theorem usableRecord_of_restorable {stable : Bool}
    (h : Restorable codecs ⟨target, stable⟩ document offered recordBytes record parsed) :
    usableRecord codecs target = some record :=
  usableRecord_eq_some.mpr ⟨recordBytes, h.named, h.usable⟩

theorem usableRecord_restored (h : Restored codecs target after document offered revision) :
    usableRecord codecs after = usableRecord codecs target := by
  unfold usableRecord
  rw [h.record]

theorem recordedOf_restored (h : Restored codecs target after document offered revision)
    (kind : DocumentKind) : recordedOf codecs after kind = recordedOf codecs target kind := by
  unfold recordedOf
  rw [usableRecord_restored h]

/-- What is parsed of the two documents after a restore: the offered one as it was offered, and
the other one as it was. -/
theorem parsed_restored {stable : Bool}
    (h : Restorable codecs ⟨target, stable⟩ document offered recordBytes record parsed)
    (hafter : Restored codecs target after document offered revision) :
    (document = .tenants ∧ ∃ tenants, parsed = .tenants tenants ∧
      parsedTenants codecs after = some tenants ∧
        parsedDataSources codecs after = parsedDataSources codecs target) ∨
    (document = .dataSources ∧ ∃ dataSources, parsed = .dataSources dataSources ∧
      parsedDataSources codecs after = some dataSources ∧
        parsedTenants codecs after = parsedTenants codecs target) := by
  cases document with
  | catalog => exact absurd rfl h.kind
  | tenants =>
      obtain ⟨tenants, hread, hparsed⟩ := Library.map_eq_ok.mp (Library.mapError_eq_ok.mp h.read)
      have hsources : after.dataSources = target.dataSources := hafter.others .dataSources nofun
      refine Or.inl ⟨rfl, tenants, hparsed.symm, ?_, ?_⟩
      · exact parsedTenants_eq_some.mpr ⟨offered, hafter.payload, hread⟩
      · unfold parsedDataSources
        rw [hsources]
  | dataSources =>
      obtain ⟨dataSources, hread, hparsed⟩ :=
        Library.map_eq_ok.mp (Library.mapError_eq_ok.mp h.read)
      have htenants : after.tenants = target.tenants := hafter.others .tenants nofun
      refine Or.inr ⟨rfl, dataSources, hparsed.symm, ?_, ?_⟩
      · exact parsedDataSources_eq_some.mpr ⟨offered, hafter.payload, hread⟩
      · unfold parsedTenants
        rw [htenants]

/-- The offered document breaks no rule that is attributed to it. -/
theorem resourceDetails_restored {stable : Bool}
    (h : Restorable codecs ⟨target, stable⟩ document offered recordBytes record parsed)
    (hafter : Restored codecs target after document offered revision)
    (registry : Option RecordedRegistry) :
    resourceDetails codecs after registry (.ofDocument document) = [] := by
  have hvalid := h.valid
  rcases parsed_restored h hafter with ⟨rfl, tenants, rfl, htenants, hsources⟩ |
    ⟨rfl, dataSources, rfl, hsources, -⟩
  · obtain ⟨hbroken, -⟩ := List.append_eq_nil_iff.mp hvalid
    unfold resourceDetails
    dsimp only [Part.ofDocument]
    rw [htenants, hsources]
    exact hbroken
  · obtain ⟨hbroken, -⟩ := List.append_eq_nil_iff.mp hvalid
    unfold resourceDetails
    dsimp only [Part.ofDocument]
    rw [hsources]
    exact hbroken

/-- What is wrong with the registry after a restore was wrong with it before, but for the
issuers of tenants that are not bound, beside a registry with a problem of its own. -/
theorem registryDetails_restored {stable : Bool}
    (h : Restorable codecs ⟨target, stable⟩ document offered recordBytes record parsed)
    (hafter : Restored codecs target after document offered revision) {detail : String}
    (hdetail : detail ∈ resourceDetails codecs after record.registry .issuerRegistry) :
    detail ∈ resourceDetails codecs target record.registry .issuerRegistry ∨
      (document = .tenants ∧ IsUnbound detail ∧
        ∃ own, own ∈ resourceDetails codecs target record.registry .issuerRegistry) := by
  unfold resourceDetails at hdetail ⊢
  dsimp only at hdetail ⊢
  rw [hafter.registry] at hdetail
  have hvalid := h.valid
  rcases parsed_restored h hafter with ⟨rfl, tenants, rfl, htenants, -⟩ |
    ⟨rfl, dataSources, rfl, -, htenants⟩
  · rw [htenants] at hdetail
    obtain ⟨-, hoffered⟩ := List.append_eq_nil_iff.mp hvalid
    unfold registryOffered at hoffered
    cases hregistry : record.registry with
    | none =>
        rw [hregistry] at hdetail
        exact absurd hdetail List.not_mem_nil
    | some recorded =>
        rw [hregistry] at hdetail hoffered
        dsimp only [Option.map_some, Option.getD_some] at hdetail hoffered ⊢
        obtain ⟨unbound, happend, hunbound⟩ :=
          registryProblems_append codecs target.registry recorded (some tenants)
        obtain ⟨before, hbefore, -⟩ := registryProblems_append codecs target.registry recorded
          (parsedTenants codecs target)
        split at hoffered
        · -- The registry by itself is clear, and the offered tenants were checked against it.
          rw [hoffered] at hdetail
          exact absurd hdetail List.not_mem_nil
        · rename_i hown
          rw [hbefore]
          rw [happend] at hdetail
          rcases List.mem_append.mp hdetail with hmem | hmem
          · exact Or.inl (List.mem_append_left _ hmem)
          · obtain ⟨own, hfound⟩ := List.exists_mem_of_ne_nil _ hown
            exact Or.inr ⟨rfl, hunbound detail hmem, own, List.mem_append_left _ hfound⟩
  · rw [htenants] at hdetail
    exact Or.inl hdetail

/-- What is wrong with any other part after a restore was wrong with it before, with the same
exception. -/
theorem resourceDetails_peer {stable : Bool}
    (h : Restorable codecs ⟨target, stable⟩ document offered recordBytes record parsed)
    (hafter : Restored codecs target after document offered revision) {part : Part}
    (hpart : part ≠ .ofDocument document) {detail : String}
    (hdetail : detail ∈ resourceDetails codecs after record.registry part) :
    detail ∈ resourceDetails codecs target record.registry part ∨
      (part = .issuerRegistry ∧ document = .tenants ∧ IsUnbound detail ∧
        ∃ own, own ∈ resourceDetails codecs target record.registry .issuerRegistry) := by
  have hvalid := h.valid
  cases part with
  | observation => exact absurd hdetail List.not_mem_nil
  | record => exact absurd hdetail List.not_mem_nil
  | catalog => exact absurd hdetail List.not_mem_nil
  | issuerRegistry => exact (registryDetails_restored h hafter hdetail).imp_right (⟨rfl, ·⟩)
  | tenants =>
      rcases parsed_restored h hafter with ⟨rfl, -⟩ | ⟨rfl, dataSources, rfl, hsources, htenants⟩
      · exact absurd rfl hpart
      · unfold resourceDetails at hdetail ⊢
        dsimp only at hdetail ⊢
        -- Nothing dangles beside the offered data sources.
        obtain ⟨-, hdangling⟩ := List.append_eq_nil_iff.mp hvalid
        rw [htenants, hsources, hdangling, List.append_nil] at hdetail
        exact Or.inl (List.mem_append_left _ hdetail)
  | dataSources =>
      rcases parsed_restored h hafter with ⟨rfl, tenants, rfl, -, hsources⟩ | ⟨rfl, -⟩
      · unfold resourceDetails at hdetail ⊢
        dsimp only at hdetail ⊢
        rw [hsources] at hdetail
        exact Or.inl hdetail
      · exact absurd rfl hpart

/-- The document that was restored is diagnosed as the record names it. -/
theorem document_restored {stable : Bool}
    (h : Restorable codecs ⟨target, stable⟩ document offered recordBytes record parsed)
    (hafter : Restored codecs target after document offered
      (record.documents.document document).revision) :
    HeldRecovery.document codecs document (after.document document)
        (some (record.documents.document document)) =
      { manifest := .held (record.documents.document document).revision
        payloadSha256 := some (record.documents.document document).sha256
        recorded := some (record.documents.document document)
        matchesRecord := some true } := by
  obtain ⟨manifest, hmanifest, hrevision⟩ := hafter.manifest
  unfold HeldRecovery.document
  dsimp only
  rw [hafter.payload, hmanifest, Option.map_some, h.digest]
  dsimp only [ManifestReading.state, Option.map_some]
  rw [hrevision, beq_self_eq_true]

/-- It is no problem beside what the record names of it. -/
theorem documentProblems_restored {stable : Bool}
    (h : Restorable codecs ⟨target, stable⟩ document offered recordBytes record parsed)
    (hafter : Restored codecs target after document offered
      (record.documents.document document).revision) :
    documentProblems codecs document (after.document document)
      (some (record.documents.document document)) = [] := by
  obtain ⟨manifest, hmanifest, -⟩ := hafter.manifest
  have hblocking : blocking codecs document (after.document document) = none := by
    unfold blocking
    rw [hmanifest]
    dsimp only
    unfold blockingPayload
    rw [hafter.payload]
    dsimp only
    rw [h.read]
  unfold documentProblems
  rw [document_restored h hafter, hblocking]
  dsimp only
  rw [if_neg (by decide), revisionProblems_eq_nil.mpr]
  · rfl
  · intro found named hfound hnamed
    cases hfound
    cases hnamed
    rfl

/-- The diagnosis of one document. -/
def HeldDiagnosis.ofKind (diagnosis : HeldDiagnosis) : DocumentKind → DocumentDiagnosis
  | .tenants => diagnosis.tenants
  | .dataSources => diagnosis.dataSources
  | .catalog => diagnosis.catalog

theorem ofKind_diagnose {stable : Bool} {kind : DocumentKind} :
    (diagnose codecs ⟨target, stable⟩).ofKind kind =
      HeldRecovery.document codecs kind (target.document kind)
        (recordedOf codecs target kind) := by
  have hrecorded : ∀ pick : RecordedDocuments → RecordedDocument,
      ((usableRecord codecs target).map PublicationRecord.documents).map pick =
        (usableRecord codecs target).map fun record => pick record.documents :=
    fun pick => by
      rw [Option.map_map]
      rfl
  unfold recordedOf
  cases kind with
  | tenants =>
      show HeldRecovery.document codecs .tenants target.tenants
        (((usableRecord codecs target).map PublicationRecord.documents).map (·.tenants)) = _
      rw [hrecorded]
      rfl
  | dataSources =>
      show HeldRecovery.document codecs .dataSources target.dataSources
        (((usableRecord codecs target).map PublicationRecord.documents).map (·.dataSources)) = _
      rw [hrecorded]
      rfl
  | catalog =>
      show HeldRecovery.document codecs .catalog target.catalog
        (((usableRecord codecs target).map PublicationRecord.documents).map (·.catalog)) = _
      rw [hrecorded]
      rfl

theorem recordedOf_of_restorable {stable : Bool}
    (h : Restorable codecs ⟨target, stable⟩ document offered recordBytes record parsed)
    (kind : DocumentKind) :
    recordedOf codecs target kind = some (record.documents.document kind) := by
  unfold recordedOf
  rw [usableRecord_of_restorable h]
  rfl

/-- Every problem after a restore was one before it, of another part; but for the issuers of
tenants that are not bound, beside a registry with a problem of its own. -/
theorem mem_problems_restored
    (h : Restorable codecs ⟨target, true⟩ document offered recordBytes record parsed)
    (hafter : Restored codecs target after document offered
      (record.documents.document document).revision) {problem : Problem}
    (hproblem : problem ∈ (diagnose codecs ⟨after, true⟩).problems) :
    problem.part ≠ .ofDocument document ∧
      (problem ∈ (diagnose codecs ⟨target, true⟩).problems ∨
        (problem.part = .issuerRegistry ∧ document = .tenants ∧ IsUnbound problem.detail ∧
          ∃ own ∈ (diagnose codecs ⟨target, true⟩).problems, own.part = .issuerRegistry)) := by
  have hregistry : (usableRecord codecs target).bind PublicationRecord.registry =
      record.registry := by
    rw [usableRecord_of_restorable h]
    rfl
  rcases mem_problems.mp hproblem with hrecord | ⟨kind, hkind⟩ | hresource
  · rw [hafter.record] at hrecord
    refine ⟨?_, Or.inl (mem_problems.mpr (Or.inl hrecord))⟩
    rw [part_of_mem_recordProblems hrecord]
    exact Part.ofDocument_ne_record.symm
  · rw [recordedOf_restored hafter] at hkind
    by_cases hsame : kind = document
    · -- The document that was restored has no problem left.
      subst hsame
      rw [recordedOf_of_restorable h, documentProblems_restored h hafter] at hkind
      exact absurd hkind List.not_mem_nil
    · rw [hafter.others kind hsame] at hkind
      refine ⟨?_, Or.inl (mem_problems.mpr (Or.inr (Or.inl ⟨kind, hkind⟩)))⟩
      rw [part_of_mem_documentProblems hkind]
      exact Part.ofDocument_injective.ne hsame
  · rw [usableRecord_restored hafter, hregistry] at hresource
    obtain ⟨hunusable, hdetail⟩ := mem_resourceProblems.mp hresource
    have hpart : problem.part ≠ .ofDocument document := by
      intro hpart
      rw [hpart, resourceDetails_restored h hafter] at hdetail
      exact absurd hdetail List.not_mem_nil
    have hbefore : ∀ other : Problem, other.kind = .unusable →
        other.detail ∈ resourceDetails codecs target record.registry other.part →
          other ∈ (diagnose codecs ⟨target, true⟩).problems := by
      intro other hkind hmem
      refine mem_problems.mpr (Or.inr (Or.inr ?_))
      rw [hregistry]
      exact mem_resourceProblems.mpr ⟨hkind, hmem⟩
    refine ⟨hpart, ?_⟩
    rcases resourceDetails_peer h hafter hpart hdetail with hmem |
      ⟨hissuer, htenants, hunbound, own, hown⟩
    · exact Or.inl (hbefore problem hunusable hmem)
    · exact Or.inr ⟨hissuer, htenants, hunbound, ⟨.issuerRegistry, .unusable, own⟩,
        hbefore _ rfl hown, rfl⟩

/-- The same bytes break no rule beside what a restore left. -/
theorem offeredProblems_restored {stable : Bool}
    (h : Restorable codecs ⟨target, stable⟩ document offered recordBytes record parsed)
    (hafter : Restored codecs target after document offered revision) :
    offeredProblems codecs parsed after record = [] := by
  rw [← h.valid]
  rcases parsed_restored h hafter with ⟨-, tenants, rfl, -, hsources⟩ |
    ⟨-, dataSources, rfl, -, htenants⟩
  · unfold offeredProblems registryOffered
    dsimp only
    rw [hsources, hafter.registry]
  · unfold offeredProblems
    dsimp only
    rw [htenants]

/-- A restore of the same bytes has nothing more to write. -/
theorem planRestore_restored
    (h : Restorable codecs ⟨target, true⟩ document offered recordBytes record parsed)
    (hafter : Restored codecs target after document offered
      (record.documents.document document).revision) :
    ∃ plan, planRestore codecs ⟨after, true⟩ document offered = .ok plan ∧
      plan.alreadyRestored = true := by
  have hrestorable : Restorable codecs ⟨after, true⟩ document offered recordBytes record parsed :=
    { kind := h.kind
      stable := rfl
      named := hafter.record.trans h.named
      usable := h.usable
      digest := h.digest
      read := h.read
      valid := offeredProblems_restored h hafter }
  obtain ⟨manifest, hmanifest, hrevision⟩ := hafter.manifest
  refine ⟨_, planRestore_eq_ok.mpr ⟨recordBytes, record, parsed, hrestorable, none, none,
    ?_, ?_, rfl⟩, rfl⟩
  · unfold manifestPlan
    dsimp only
    rw [hmanifest]
    exact if_pos hrevision
  · unfold payloadPlan
    dsimp only
    rw [hafter.payload]
    exact if_pos rfl

end After

/-! ## What a restore repairs -/

/-- The peers of a plan: the problems of every other part. -/
theorem mem_peers {held : HeldObservation} {recordBytes : Bytes} {record : PublicationRecord}
    {payload : Option Bytes} {manifest : Option DocumentManifest} {problem : Problem} :
    problem ∈ (restorePlan codecs held document recordBytes record payload manifest).peers ↔
      problem ∈ (diagnose codecs held).problems ∧ problem.part ≠ .ofDocument document := by
  show problem ∈ List.filter _ _ ↔ _
  rw [List.mem_filter, decide_eq_true_iff]

/-- An issuer that is registered to a tenant the restored tenants do not bind, in a registry
that the plan reports with a problem already. -/
structure NewlyUnbound (plan : RestorePlan) (problem : Problem) : Prop where
  tenants : plan.document = .tenants
  part : problem.part = .issuerRegistry
  unbound : IsUnbound problem.detail
  reported : ∃ peer ∈ plan.peers, peer.part = .issuerRegistry

/-- A restore repaired its document, and broke nothing. -/
structure Repaired (codecs : RecoveryCodecs) (held : HeldObservation) (offered : Bytes)
    (plan : RestorePlan) (after : Target) : Prop where
  mended : ∀ problem ∈ (diagnose codecs ⟨after, true⟩).problems,
    problem.part ≠ .ofDocument plan.document
  peers : ∀ problem ∈ (diagnose codecs ⟨after, true⟩).problems,
    problem ∈ plan.peers ∨ NewlyUnbound plan problem
  recorded : ((diagnose codecs ⟨after, true⟩).ofKind plan.document).recorded =
    some ⟨plan.revision, plan.sha256⟩
  matchesRecord :
    ((diagnose codecs ⟨after, true⟩).ofKind plan.document).matchesRecord = some true
  manifest : ((diagnose codecs ⟨after, true⟩).ofKind plan.document).manifest =
    .held plan.revision
  bytes : after.record = held.observation.record
  record : (diagnose codecs ⟨after, true⟩).record = (diagnose codecs held).record
  generation : (diagnose codecs ⟨after, true⟩).record = .held plan.generation plan.recordSha256
  again : ∃ other, planRestore codecs ⟨after, true⟩ plan.document offered = .ok other ∧
    other.alreadyRestored = true

/-- Whatever restore is planned can be carried out, and repairs its document; and it is planned
over no other payload that can be read. -/
theorem restore_repairs_its_document (hlawful : codecs.WritesManifests) {held : HeldObservation}
    {plan : RestorePlan} (h : planRestore codecs held document offered = .ok plan) :
    plan.document = document ∧
      (∃ after, plan.write codecs held.observation = .ok after ∧
        Repaired codecs held offered plan after) ∧
      ∀ bytes parsed, (held.observation.document document).payload = some bytes →
        parsePayload codecs bytes document = .ok parsed → bytes = offered := by
  obtain ⟨observation, stable⟩ := held
  obtain ⟨recordBytes, record, parsed, hrestorable, manifest, payload, -, hpayload, hplan⟩ :=
    planRestore_eq_ok.mp h
  obtain rfl : stable = true := hrestorable.stable
  obtain ⟨after, hwrite, hafter⟩ := exists_restored hlawful h
  subst hplan
  have hkind : (diagnose codecs ⟨after, true⟩).ofKind document =
      HeldRecovery.document codecs document (after.document document)
        (some (record.documents.document document)) := by
    rw [ofKind_diagnose, recordedOf_restored hafter, recordedOf_of_restorable hrestorable]
  have hdocument := hkind.trans (document_restored hrestorable hafter)
  have hissuer : Part.issuerRegistry ≠ .ofDocument document := by
    cases document <;> exact nofun
  have hrecord : recordState codecs after.record = recordState codecs observation.record :=
    congrArg (recordState codecs) hafter.record
  refine ⟨rfl, ⟨after, hwrite, ?_⟩, ?_⟩
  · constructor
    · exact fun problem hproblem => (mem_problems_restored hrestorable hafter hproblem).1
    · intro problem hproblem
      obtain ⟨hpart, hbefore | ⟨hregistry, htenants, hunbound, own, hown, hownPart⟩⟩ :=
        mem_problems_restored hrestorable hafter hproblem
      · exact Or.inl (mem_peers.mpr ⟨hbefore, hpart⟩)
      · exact Or.inr ⟨htenants, hregistry, hunbound, own,
          mem_peers.mpr ⟨hown, hownPart ▸ hissuer⟩, hownPart⟩
    · exact congrArg DocumentDiagnosis.recorded hdocument
    · exact congrArg DocumentDiagnosis.matchesRecord hdocument
    · exact congrArg DocumentDiagnosis.manifest hdocument
    · exact hafter.record
    · exact congrArg Prod.fst hrecord
    · refine (congrArg Prod.fst hrecord).trans ?_
      unfold recordState
      rw [hrestorable.named]
      dsimp only
      rw [hrestorable.usable]
      rfl
    · exact planRestore_restored hrestorable hafter
  · intro bytes other hbytes hread
    rcases payloadPlan_cases hpayload with ⟨-, hheld⟩ | ⟨-, hunread⟩
    · exact Option.some.inj (hbytes.symm.trans hheld)
    · exact absurd hread (hunread bytes hbytes other)

/-! ## A registry with a problem of its own -/

/-- A registry of one issuer, at generation 1. -/
def globexRegistry : IssuerRegistryDocument where
  schemaVersion := REGISTRY_SCHEMA_VERSION
  generation := .FIRST
  issuers := [⟨⟨"https://id.example/realms/globex", by decide⟩, ⟨"globex", globex_accepted⟩⟩]

def globexRegistryText : String := "\x7b" ++
  ("\n  \"schemaVersion\": 1,\n  \"generation\": 1,\n  \"issuers\": [\n    \x7b" ++
    "\n      \"issuer\": \"https://id.example/realms/globex\"," ++
    "\n      \"tenant\": \"globex\"\n    \x7d\n  ]\n") ++ "\x7d"

def globexRegistryDigest : Runtime.RecordDigest :=
  ⟨0x80d87ae0fe496b7f87712e915252ea2c3fa22bf9d59488f9d62d0af89a9b884f⟩

/-- The record of the orders, naming the bytes of that registry at generation 2. -/
def globexRecord : PublicationRecord :=
  (bareRecord 1 1 ordersDigest).withRegistry
    (some ⟨⟨2, by decide⟩, toString globexRegistryDigest⟩)

def globexRecordText : String :=
  "\x7b" ++ ("\n  \"contract_version\": 3,\n  \"minimum_reader_contract\": 1," ++
    "\n  \"minimum_publisher_contract\": 3,\n  \"generation\": 1,\n  \"documents\": \x7b" ++
    "\n    \"tenants\": \x7b\n      \"revision\": 1,\n      \"sha256\": \"" ++
    toString emptyDigest ++
    "\"\n    \x7d,\n    \"data-sources\": \x7b\n      \"revision\": 1," ++
    "\n      \"sha256\": \"" ++ toString emptyDigest ++
    "\"\n    \x7d,\n    \"catalog\": \x7b\n      \"revision\": 1,\n      \"sha256\": \"" ++
    toString ordersDigest ++
    "\"\n    \x7d\n  \x7d,\n  \"resources\": \x7b\n    \"tenants\": \x7b\x7d," ++
    "\n    \"data-sources\": \x7b\x7d\n  \x7d,\n  \"registry\": \x7b\n    \"generation\": 2," ++
    "\n    \"sha256\": \"" ++ toString globexRegistryDigest ++ "\"\n  \x7d\n") ++ "\x7d"

/-- What serde writes of the orders, with that registry and that record. -/
def globexSamples : Samples :=
  { bareSamples with
    digests :=
      [("[]\n", emptyDigest), (ordersText ++ "\n", ordersDigest),
        (globexRegistryText ++ "\n", globexRegistryDigest),
        (globexRecordText ++ "\n",
          ⟨0xbef09b33fcabbb38c6e09f59924f25ef1c03444e2a2e4008251ce170eeafda40⟩)]
    record := .one globexRecord globexRecordText.toUTF8 (Library.isSample_braces _)
    registry := .one globexRegistry globexRegistryText.toUTF8 (Library.isSample_braces _) }

/-- What serde reads of it as JSON values: what is a manifest, or starts with a brace, is an
object. -/
noncomputable def globexCodecs : RecoveryCodecs where
  toCodecs := globexSamples.codecs
  readValue bytes :=
    .ok (if (globexSamples.codecs.manifest.read bytes).isOk ∨ bytes.data[0]? = some 123
      then .object else .other)
  sanitized := id

/-- The tenants were lost, and their manifest with them. -/
def globexTarget : Target where
  tenants := ⟨none, none⟩
  dataSources := ⟨some (lineOf (manifestText "data-sources" "1")), some (lineOf "[]")⟩
  catalog := ⟨some (lineOf (manifestText "catalog" "1")), some (lineOf ordersText)⟩
  record := some (lineOf globexRecordText)
  registry := some (lineOf globexRegistryText)

theorem globexCodecs_lawful : globexCodecs.WritesManifests where
  faithful := globexSamples.lawful.manifest
  object := by
    intro manifest bytes hline
    have hread : globexSamples.codecs.manifest.read bytes = .ok manifest :=
      globexSamples.lawful.manifest.read_line hline
    have hok : (globexSamples.codecs.manifest.read bytes).isOk = true := by
      rw [hread]
      rfl
    exact congrArg Except.ok (if_pos (Or.inl hok))

theorem globexTarget_record : PublicationRecord.parseHeld globexCodecs.toCodecs
    (lineOf globexRecordText) = .ok globexRecord := by
  have hline : globexSamples.codecs.record.line globexRecord = .ok (lineOf globexRecordText) :=
    Sample.line_of_mem List.mem_cons_self
  exact PublicationRecord.parseHeld_line globexSamples.lawful rfl hline

theorem globexCodecs_tenants : globexCodecs.tenants.read (lineOf "[]") = .ok [] := by
  have hline : globexSamples.codecs.tenants.line [] = .ok (lineOf "[]") :=
    Sample.line_of_mem (List.mem_singleton.mpr rfl)
  exact globexSamples.lawful.tenants.read_line hline

theorem globexCodecs_dataSources : globexCodecs.dataSources.read (lineOf "[]") = .ok [] := by
  have hline : globexSamples.codecs.dataSources.line [] = .ok (lineOf "[]") :=
    Sample.line_of_mem (List.mem_singleton.mpr rfl)
  exact globexSamples.lawful.dataSources.read_line hline

/-- The registry is the bytes that the record names, and beside some tenants it has the
problems of its document. -/
theorem globexTarget_registry (recorded : RecordedRegistry)
    (h : recorded.sha256 = toString globexRegistryDigest)
    (tenants : Option (List TenantBindingDocument)) :
    registryProblems globexCodecs globexTarget.registry recorded tenants =
      issuerProblems globexRegistry recorded tenants := by
  have hline : globexSamples.codecs.registry.line globexRegistry =
      .ok (lineOf globexRegistryText) := Sample.line_of_mem List.mem_cons_self
  have hread : globexCodecs.registry.read (lineOf globexRegistryText) = .ok globexRegistry :=
    globexSamples.lawful.registry.read_line hline
  have htabled : Library.tabled globexSamples.digests ⟨0⟩ (lineOf globexRegistryText) =
      globexRegistryDigest := by decide +kernel
  have hdigest : globexCodecs.sha256Hex (lineOf globexRegistryText) = recorded.sha256 :=
    (congrArg toString htabled).trans h.symm
  unfold registryProblems globexTarget
  dsimp only
  rw [if_neg (not_not.mpr hdigest), hread]

theorem globexTarget_restorable : Restorable globexCodecs ⟨globexTarget, true⟩ .tenants
    (lineOf "[]") (lineOf globexRecordText) globexRecord (.tenants []) where
  kind := nofun
  stable := rfl
  named := rfl
  usable := globexTarget_record
  digest := by
    have htabled : Library.tabled globexSamples.digests ⟨0⟩ (lineOf "[]") = emptyDigest := by
      decide +kernel
    exact congrArg toString htabled
  read := by
    unfold parsePayload
    dsimp only
    rw [globexCodecs_tenants]
    rfl
  valid := by
    have hsources : parsedDataSources globexCodecs globexTarget = some [] :=
      parsedDataSources_eq_some.mpr ⟨lineOf "[]", rfl, globexCodecs_dataSources⟩
    have hregistry : registryProblems globexCodecs globexTarget.registry
        ⟨⟨2, by decide⟩, toString globexRegistryDigest⟩ none ≠ [] := by
      rw [globexTarget_registry _ rfl]
      decide +kernel
    unfold offeredProblems registryOffered
    dsimp only
    rw [hsources]
    show _ ++ _ ++ (if _ then _ else []) = []
    rw [if_neg hregistry]
    rfl

/-- What is planned: no tenants are put back, under a new manifest. -/
noncomputable def globexPlan : RestorePlan :=
  restorePlan globexCodecs ⟨globexTarget, true⟩ .tenants (lineOf globexRecordText) globexRecord
    (some (lineOf "[]")) (some (.new .tenants 1))

theorem globexTarget_planned :
    planRestore globexCodecs ⟨globexTarget, true⟩ .tenants (lineOf "[]") = .ok globexPlan :=
  planRestore_eq_ok.mpr ⟨_, globexRecord, .tenants [], globexTarget_restorable, _, _, rfl, rfl, rfl⟩

/-- That restore can be carried out, and what it leaves has been repaired. -/
theorem globexTarget_repaired :
    globexPlan.document = .tenants ∧
      (∃ after, globexPlan.write globexCodecs globexTarget = .ok after ∧
        Repaired globexCodecs ⟨globexTarget, true⟩ (lineOf "[]") globexPlan after) ∧
      ∀ bytes parsed, (globexTarget.document .tenants).payload = some bytes →
        parsePayload globexCodecs bytes .tenants = .ok parsed → bytes = lineOf "[]" :=
  restore_repairs_its_document globexCodecs_lawful globexTarget_planned

/-- The issuer of the tenant that is not bound was no problem before the tenants could be
read. -/
theorem restore_finds_an_unbound_issuer : globexCodecs.WritesManifests ∧
    planRestore globexCodecs ⟨globexTarget, true⟩ .tenants (lineOf "[]") = .ok globexPlan ∧
      ∃ after, globexPlan.write globexCodecs globexTarget = .ok after ∧
        ∃ problem ∈ (diagnose globexCodecs ⟨after, true⟩).problems,
          problem.part ≠ .tenants ∧ problem ∉ globexPlan.peers := by
  obtain ⟨after, hwrite, hafter⟩ := exists_restored globexCodecs_lawful globexTarget_planned
  refine ⟨globexCodecs_lawful, globexTarget_planned, after, hwrite,
    ⟨.issuerRegistry, .unusable,
      "issuer at position 0 is registered to a tenant that is not bound"⟩, ?_, nofun, ?_⟩
  · have hrecord : (usableRecord globexCodecs after).bind PublicationRecord.registry =
        some ⟨⟨2, by decide⟩, toString globexRegistryDigest⟩ := by
      rw [usableRecord_restored hafter, usableRecord_of_restorable globexTarget_restorable]
      rfl
    have htenants : parsedTenants globexCodecs after = some [] :=
      parsedTenants_eq_some.mpr ⟨lineOf "[]", hafter.payload, globexCodecs_tenants⟩
    refine mem_problems.mpr (Or.inr (Or.inr (mem_resourceProblems.mpr ⟨rfl, ?_⟩)))
    rw [hrecord, resourceDetails_issuerRegistry, hafter.registry, globexTarget_registry _ rfl,
      htenants]
    decide +kernel
  · intro hpeer
    rcases mem_problems.mp (mem_peers.mp hpeer).1 with h | ⟨kind, h⟩ | h
    · cases part_of_mem_recordProblems h
    · have hpart := part_of_mem_documentProblems h
      cases kind <;> cases hpart
    · have hrecord : (usableRecord globexCodecs globexTarget).bind PublicationRecord.registry =
          some ⟨⟨2, by decide⟩, toString globexRegistryDigest⟩ := by
        rw [usableRecord_of_restorable globexTarget_restorable]
        rfl
      have hnone : parsedTenants globexCodecs globexTarget = none := rfl
      have hdetail := (mem_resourceProblems.mp h).2
      rw [hrecord, resourceDetails_issuerRegistry, globexTarget_registry _ rfl, hnone] at hdetail
      exact absurd hdetail (by decide +kernel)

end HeldRecovery
end Publication
end SaasFabric
