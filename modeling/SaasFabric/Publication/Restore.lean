import SaasFabric.Publication.HeldRecovery

/-!
# Planning a restore

`fabric-runtime-publication`'s `held_recovery/restore_plan.rs`, `restore_checks.rs` and
`refusal.rs`: whether bytes may be put back as a held document, decided without writing
anything, and the two files that are written where they may.
-/

namespace SaasFabric
namespace Publication
namespace HeldRecovery

open Library (bind_eq_ok mapError_eq_ok)

/-! ## Refusals -/

/-- `RestoreRefusal`. -/
inductive RestoreRefusal where
  | notRestorable (document : DocumentKind)
  | ownershipUnestablished
  | unstable
  | heldReadable (document : DocumentKind)
  | noRecord
  | recordUnusable (detail : String)
  | digestMismatch (document : DocumentKind) (recorded offered : String)
  | manifestDisagrees (document : DocumentKind) (manifest recorded : DocumentRevision)
  | manifestConflicts (document : DocumentKind) (detail : String)
  | offeredUnparseable (document : DocumentKind) (detail : String)
  | offeredInvalid (document : DocumentKind) (problems : List String)
deriving DecidableEq

instance : ToString RestoreRefusal where
  toString
    | .notRestorable document =>
        s!"{document} is not restored by this command: " ++
          "only tenants and data sources are parsed before a publication"
    | .ownershipUnestablished =>
        "this target has no established exclusive publisher ownership; " ++
          "only inspect and validate are supported"
    | .unstable =>
        "the publication record changed while the target was read; " ++
          "nothing was planned against it"
    | .heldReadable document =>
        s!"{document}'s held payload is readable and is not the recorded bytes; " ++
          "nothing to restore"
    | .noRecord => "no publication record is held, so no bytes can be matched to it"
    | .recordUnusable detail => s!"the held publication record cannot be used: {detail}"
    | .digestMismatch document recorded offered =>
        s!"the offered bytes have SHA-256 {offered}, " ++
          s!"but the held record names {recorded} for {document}"
    | .manifestDisagrees document manifest recorded =>
        s!"{document}'s held manifest states revision {manifest}, " ++
          s!"but the held record names revision {recorded}"
    | .manifestConflicts document detail =>
        s!"{document}'s held manifest is readable and conflicts: {detail}"
    | .offeredUnparseable document detail =>
        s!"the offered bytes match the record but do not parse as {document}: {detail}"
    | .offeredInvalid document problems =>
        s!"the offered {document} match the record but are not usable: " ++
          "; ".intercalate problems

/-! ## The plan -/

/-- `RestorePlan`. -/
structure RestorePlan where
  document : DocumentKind
  revision : DocumentRevision
  generation : U64
  recordSha256 : String
  sha256 : String
  heldPayloadSha256 : Option String
  payload : Option Bytes
  manifest : Option DocumentManifest
  peers : List Problem

/-- `already_restored`. -/
def RestorePlan.alreadyRestored (plan : RestorePlan) : Bool :=
  plan.payload.isNone && plan.manifest.isNone

variable (codecs : RecoveryCodecs)

/-- `manifest_plan`: a manifest is written where none is held or the held one is no object,
and a readable one at another revision, of another document or of a newer contract refuses. -/
def manifestPlan (held : Option Bytes) (document : DocumentKind) (recorded : DocumentRevision) :
    Except RestoreRefusal (Option DocumentManifest) :=
  match readManifest codecs held document with
  | .missing => .ok (some (.new document recorded))
  | .malformed _ => .ok (some (.new document recorded))
  | .valid manifest =>
      if manifest.revision = recorded then
        .ok none
      else
        .error (.manifestDisagrees document manifest.revision recorded)
  | .conflicting detail => .error (.manifestConflicts document detail)
  | .newer manifest =>
      .error (.manifestConflicts document
        s!"stamped by publisher contract {manifest.contractVersion}, newer than this one")

/-- What the offered tenants break of the registry that the record names.  A registry with a
problem of its own is not checked against. -/
def registryOffered (observation : TargetObservation) (record : PublicationRecord)
    (tenants : List TenantBindingDocument) : List String :=
  match record.registry with
  | none => []
  | some recorded =>
      if registryProblems codecs observation.registry recorded none = [] then
        registryProblems codecs observation.registry recorded (some tenants)
      else
        []

/-- `offered_problems`. -/
def offeredProblems (parsed : Parsed) (observation : TargetObservation)
    (record : PublicationRecord) : List String :=
  match parsed with
  | .tenants tenants =>
      tenantProblems tenants ++
        danglingOf (some tenants) (parsedDataSources codecs observation) ++
          registryOffered codecs observation record tenants
  | .dataSources dataSources =>
      dataSourceProblems dataSources ++
        danglingOf (parsedTenants codecs observation) (some dataSources)
  | .catalog => []

/-- The payload to write: none where the offered bytes are held, and a held payload that can
be read is never replaced. -/
def payloadPlan (held : Option Bytes) (document : DocumentKind) (offered : Bytes) :
    Except RestoreRefusal (Option Bytes) :=
  match held with
  | none => .ok (some offered)
  | some bytes =>
      if bytes = offered then
        .ok none
      else if (parsePayload codecs bytes document).isOk then
        .error (.heldReadable document)
      else
        .ok (some offered)

/-- `plan_restore`. -/
def planRestore (held : HeldObservation) (document : DocumentKind) (offered : Bytes) :
    Except RestoreRefusal RestorePlan :=
  let observation := held.observation
  if document = .catalog then
    .error (.notRestorable document)
  else if held.stable = false then
    .error .unstable
  else
    match observation.record with
    | none => .error .noRecord
    | some recordBytes => do
        let record ← (PublicationRecord.parseHeld codecs.toCodecs recordBytes).mapError
          fun error => .recordUnusable (recordRefusal codecs error)
        let heldDocument := observation.document document
        let recorded := record.documents.document document
        let manifest ← manifestPlan codecs heldDocument.manifest document recorded.revision
        if codecs.sha256Hex offered ≠ recorded.sha256 then
          .error (.digestMismatch document recorded.sha256 (codecs.sha256Hex offered))
        else do
          let parsed ← (parsePayload codecs offered document).mapError
            (.offeredUnparseable document)
          let peers := (diagnose codecs held).problems.filter fun problem =>
            problem.part ≠ .ofDocument document
          let problems := offeredProblems codecs parsed observation record
          if problems ≠ [] then
            .error (.offeredInvalid document problems)
          else do
            let payload ← payloadPlan codecs heldDocument.payload document offered
            .ok
              { document
                revision := recorded.revision
                generation := record.generation
                recordSha256 := codecs.sha256Hex recordBytes
                sha256 := recorded.sha256
                heldPayloadSha256 := heldDocument.payload.map codecs.sha256Hex
                payload
                manifest
                peers }

/-! ## Carrying it out -/

/-- The files of a document, with its payload replaced where there is one to write. -/
def Files.withPayload (files : Files) : Option Bytes → Files
  | none => files
  | some bytes => { files with payload := some bytes }

/-- The files of a document, with its manifest replaced where there is one to write. -/
def Files.withManifest (files : Files) : Option Bytes → Files
  | none => files
  | some bytes => { files with manifest := some bytes }

/-- `write`, where every file can be written: the manifest is serialised first, then the
payload is written, and the manifest after it. -/
def RestorePlan.write (plan : RestorePlan) (target : Target) : Except PublicationError Target := do
  let manifest ← (plan.manifest.mapM codecs.manifest.line).mapError (.unwritable plan.document)
  let written := target.modify (fun files => Files.withPayload files plan.payload) plan.document
  .ok (written.modify (fun files => Files.withManifest files manifest) plan.document)

/-! ## What a plan rests on -/

variable {codecs}

/-- Bytes that the held record names, that are read as a document, and that break no rule
beside what is held. -/
structure Restorable (codecs : RecoveryCodecs) (held : HeldObservation) (document : DocumentKind)
    (offered recordBytes : Bytes) (record : PublicationRecord) (parsed : Parsed) : Prop where
  kind : document ≠ .catalog
  stable : held.stable = true
  named : held.observation.record = some recordBytes
  usable : PublicationRecord.parseHeld codecs.toCodecs recordBytes = .ok record
  digest : codecs.sha256Hex offered = (record.documents.document document).sha256
  read : parsePayload codecs offered document = .ok parsed
  valid : offeredProblems codecs parsed held.observation record = []

/-- The plan to restore a document to what a record names, with what is to be written. -/
def restorePlan (codecs : RecoveryCodecs) (held : HeldObservation) (document : DocumentKind)
    (recordBytes : Bytes) (record : PublicationRecord) (payload : Option Bytes)
    (manifest : Option DocumentManifest) : RestorePlan where
  document
  revision := (record.documents.document document).revision
  generation := record.generation
  recordSha256 := codecs.sha256Hex recordBytes
  sha256 := (record.documents.document document).sha256
  heldPayloadSha256 := (held.observation.document document).payload.map codecs.sha256Hex
  payload
  manifest
  peers := (diagnose codecs held).problems.filter fun problem =>
    problem.part ≠ .ofDocument document

/-- A restore is planned exactly where the bytes are restorable, and neither file that is
held refuses. -/
theorem planRestore_eq_ok {held : HeldObservation} {document : DocumentKind} {offered : Bytes}
    {plan : RestorePlan} : planRestore codecs held document offered = .ok plan ↔
      ∃ recordBytes record parsed,
        Restorable codecs held document offered recordBytes record parsed ∧
        ∃ manifest payload,
          manifestPlan codecs (held.observation.document document).manifest document
              (record.documents.document document).revision = .ok manifest ∧
            payloadPlan codecs (held.observation.document document).payload document offered =
              .ok payload ∧
            plan = restorePlan codecs held document recordBytes record payload manifest := by
  unfold planRestore
  dsimp only
  constructor
  · intro h
    split at h
    · cases h
    rename_i hkind
    split at h
    · cases h
    rename_i hstable
    split at h
    · cases h
    rename_i recordBytes hheld
    obtain ⟨record, hrecord, hplan⟩ := bind_eq_ok.mp h
    obtain ⟨manifest, hmanifest, hoffered⟩ := bind_eq_ok.mp hplan
    split at hoffered
    · cases hoffered
    rename_i hdigest
    obtain ⟨parsed, hparsed, hpeers⟩ := bind_eq_ok.mp hoffered
    split at hpeers
    · cases hpeers
    rename_i hvalid
    obtain ⟨payload, hpayload, hdone⟩ := bind_eq_ok.mp hpeers
    cases hdone
    exact ⟨recordBytes, record, parsed,
      ⟨hkind, Bool.eq_true_of_not_eq_false hstable, hheld, mapError_eq_ok.mp hrecord,
        not_not.mp hdigest, mapError_eq_ok.mp hparsed, not_not.mp hvalid⟩,
      manifest, payload, hmanifest, hpayload, rfl⟩
  · rintro ⟨recordBytes, record, parsed, h, manifest, payload, hmanifest, hpayload, rfl⟩
    rw [if_neg h.kind, if_neg (by rw [h.stable]; exact Bool.noConfusion), h.named]
    refine bind_eq_ok.mpr ⟨record, mapError_eq_ok.mpr h.usable,
      bind_eq_ok.mpr ⟨manifest, hmanifest, ?_⟩⟩
    rw [if_neg (not_not.mpr h.digest)]
    refine bind_eq_ok.mpr ⟨parsed, mapError_eq_ok.mpr h.read, ?_⟩
    rw [if_neg (not_not.mpr h.valid)]
    exact bind_eq_ok.mpr ⟨payload, hpayload, rfl⟩

end HeldRecovery
end Publication
end SaasFabric
