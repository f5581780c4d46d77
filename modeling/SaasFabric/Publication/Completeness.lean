import SaasFabric.Publication.DocumentBytes

/-!
# Whether a target is complete

`fabric-runtime-publication`'s `completeness/`: every part a record names is compared with
what is held of it, and each difference is a gap.  Nothing is written.
-/

namespace SaasFabric
namespace Publication

/-! ## What is found -/

/-- `RecordedPart`. -/
inductive RecordedPart where
  | tenants
  | dataSources
  | catalog
  | issuerRegistry
deriving DecidableEq

/-- The part a document is. -/
def DocumentKind.recordedPart : DocumentKind → RecordedPart
  | .tenants => .tenants
  | .dataSources => .dataSources
  | .catalog => .catalog

/-- `GapKind`. -/
inductive GapKind where
  | payloadMissing
  | digestMismatch
  | manifestMissing
  | manifestUnreadable
  | revisionMismatch
deriving DecidableEq

/-- `CompletenessGap`. -/
structure CompletenessGap where
  part : RecordedPart
  kind : GapKind
deriving DecidableEq

/-- `UnobservedReason`. -/
inductive UnobservedReason where
  | unavailable
  | unstable
  | recordUnreadable
deriving DecidableEq

/-- `PublicationCompleteness`. -/
inductive PublicationCompleteness where
  | complete (record : RecordStamp)
  | incomplete (record : RecordStamp) (gaps : List CompletenessGap)
  | unpublished
  | unobserved (reason : UnobservedReason)

/-- The gaps that are reported. -/
def PublicationCompleteness.gaps : PublicationCompleteness → List CompletenessGap
  | .incomplete _ gaps => gaps
  | _ => []

/-- `ObservedDocument`: the two files of a document, byte for byte. -/
abbrev ObservedDocument := Files

/-- `TargetObservation`: the files of a target, byte for byte. -/
abbrev TargetObservation := Target

/-- The document of a kind, of what is observed. -/
def Target.document (target : Target) : DocumentKind → Files
  | .tenants => target.tenants
  | .dataSources => target.dataSources
  | .catalog => target.catalog

/-! ## Looking for gaps -/

variable (codecs : Codecs)

/-- `payload_gap`. -/
def payloadGap (part : RecordedPart) (payload : Option Bytes) (sha256 : String) :
    List CompletenessGap :=
  match payload with
  | none => [⟨part, .payloadMissing⟩]
  | some bytes => if codecs.sha256Hex bytes ≠ sha256 then [⟨part, .digestMismatch⟩] else []

/-- The gap of a manifest, if there is one. -/
def manifestGap (kind : DocumentKind) (manifest : Option Bytes) (recorded : RecordedDocument) :
    Option GapKind :=
  match manifest.map fun bytes =>
      (codecs.manifest.read bytes).toOption.filter fun manifest => manifest.document = kind with
  | none => some .manifestMissing
  | some none => some .manifestUnreadable
  | some (some manifest) =>
      if manifest.revision ≠ recorded.revision then some .revisionMismatch else none

/-- `document_gaps`. -/
def documentGaps (kind : DocumentKind) (observed : ObservedDocument)
    (recorded : RecordedDocument) : List CompletenessGap :=
  (manifestGap codecs kind observed.manifest recorded).toList.map (⟨kind.recordedPart, ·⟩) ++
    payloadGap codecs kind.recordedPart observed.payload recorded.sha256

/-- The gaps of a registry that a record names. -/
def registryGaps (registry : Option Bytes) : Option RecordedRegistry → List CompletenessGap
  | none => []
  | some recorded => payloadGap codecs .issuerRegistry registry recorded.sha256

/-- Every gap between a record and what is observed. -/
def recordGaps (observation : TargetObservation) (record : PublicationRecord) :
    List CompletenessGap :=
  documentGaps codecs .tenants observation.tenants record.documents.tenants ++
    documentGaps codecs .dataSources observation.dataSources record.documents.dataSources ++
    documentGaps codecs .catalog observation.catalog record.documents.catalog ++
    registryGaps codecs observation.registry record.registry

/-- `TargetObservation::assess`: the record is parsed without its rollback floor, which guards
writing over it. -/
def assess (observation : TargetObservation) (recordAfter : Option Bytes) :
    PublicationCompleteness :=
  if observation.record ≠ recordAfter then
    .unobserved .unstable
  else
    match observation.record with
    | none => .unpublished
    | some bytes =>
        match codecs.record.read bytes with
        | .error _ => .unobserved .recordUnreadable
        | .ok record =>
            let gaps := recordGaps codecs observation record
            let stamp : RecordStamp := ⟨record.generation, codecs.sha256 bytes⟩
            if gaps.isEmpty then .complete stamp else .incomplete stamp gaps

/-! ## What a gap says -/

variable {codecs}

theorem mem_payloadGap {part : RecordedPart} {payload : Option Bytes} {sha256 : String}
    {gap : CompletenessGap} : gap ∈ payloadGap codecs part payload sha256 ↔
      (payload = none ∧ gap = ⟨part, .payloadMissing⟩) ∨
        ∃ bytes, payload = some bytes ∧ codecs.sha256Hex bytes ≠ sha256 ∧
          gap = ⟨part, .digestMismatch⟩ := by
  unfold payloadGap
  cases payload with
  | none => simp
  | some bytes =>
      by_cases hsame : codecs.sha256Hex bytes = sha256 <;> simp [hsame]

theorem payloadGap_eq_nil {part : RecordedPart} {payload : Option Bytes} {sha256 : String} :
    payloadGap codecs part payload sha256 = [] ↔
      ∃ bytes, payload = some bytes ∧ codecs.sha256Hex bytes = sha256 := by
  unfold payloadGap
  cases payload with
  | none => simp
  | some bytes => simp

/-- A manifest is at another revision than a record where it can be read as one of its
document. -/
theorem manifestGap_eq_revisionMismatch {kind : DocumentKind} {manifest : Option Bytes}
    {recorded : RecordedDocument} :
    manifestGap codecs kind manifest recorded = some .revisionMismatch ↔
      ∃ bytes found, manifest = some bytes ∧ codecs.manifest.read bytes = .ok found ∧
        found.document = kind ∧ found.revision ≠ recorded.revision := by
  unfold manifestGap
  cases manifest with
  | none => simp
  | some bytes =>
      cases hread : codecs.manifest.read bytes with
      | error cause => simp [Except.toOption, hread]
      | ok found =>
          by_cases hkind : found.document = kind
          · by_cases hrevision : found.revision = recorded.revision <;>
              simp [Except.toOption, Option.filter, hread, hkind, hrevision]
          · simp [Except.toOption, Option.filter, hread, hkind]

theorem manifestGap_ne_digestMismatch {kind : DocumentKind} {manifest : Option Bytes}
    {recorded : RecordedDocument} :
    manifestGap codecs kind manifest recorded ≠ some .digestMismatch := by
  unfold manifestGap
  split
  · simp
  · simp
  · split <;> simp

/-- A document differs from a record in its digest or its revision. -/
def Differs (codecs : Codecs) (kind : DocumentKind) (observed : ObservedDocument)
    (recorded : RecordedDocument) : Prop :=
  manifestGap codecs kind observed.manifest recorded = some .revisionMismatch ∨
    ∃ bytes, observed.payload = some bytes ∧ codecs.sha256Hex bytes ≠ recorded.sha256

/-- A gap of bytes or of revisions that differ, and not of something that is missing. -/
def CompletenessGap.Mismatch (gap : CompletenessGap) : Prop :=
  gap.kind = .digestMismatch ∨ gap.kind = .revisionMismatch

theorem mismatch_payloadGap {part : RecordedPart} {payload : Option Bytes} {sha256 : String} :
    (∃ gap ∈ payloadGap codecs part payload sha256, gap.Mismatch) ↔
      ∃ bytes, payload = some bytes ∧ codecs.sha256Hex bytes ≠ sha256 := by
  unfold CompletenessGap.Mismatch
  constructor
  · rintro ⟨gap, hgap, hkind⟩
    rcases mem_payloadGap.mp hgap with ⟨-, rfl⟩ | ⟨bytes, hbytes, hdigest, rfl⟩
    · rcases hkind with h | h <;> cases h
    · exact ⟨bytes, hbytes, hdigest⟩
  · rintro ⟨bytes, hbytes, hdigest⟩
    exact ⟨_, mem_payloadGap.mpr (Or.inr ⟨bytes, hbytes, hdigest, rfl⟩), Or.inl rfl⟩

theorem mismatch_documentGaps {kind : DocumentKind} {observed : ObservedDocument}
    {recorded : RecordedDocument} :
    (∃ gap ∈ documentGaps codecs kind observed recorded, gap.Mismatch) ↔
      Differs codecs kind observed recorded := by
  unfold documentGaps Differs
  simp only [List.mem_append, or_and_right, exists_or, mismatch_payloadGap]
  refine or_congr_left ?_
  constructor
  · rintro ⟨gap, hgap, hkind⟩
    obtain ⟨found, hfound, rfl⟩ := List.mem_map.mp hgap
    rw [Option.mem_toList] at hfound
    rcases hkind with h | h
    · change found = .digestMismatch at h
      subst h
      exact absurd hfound manifestGap_ne_digestMismatch
    · change found = .revisionMismatch at h
      subst h
      exact hfound
  · intro h
    exact ⟨⟨kind.recordedPart, .revisionMismatch⟩,
      List.mem_map.mpr ⟨.revisionMismatch, Option.mem_toList.mpr h, rfl⟩, Or.inr rfl⟩

/-- Something held differs from what a record names. -/
def TargetDiffers (codecs : Codecs) (observation : TargetObservation)
    (record : PublicationRecord) : Prop :=
  (∃ kind, Differs codecs kind (observation.document kind) (record.documents.document kind)) ∨
    ∃ named bytes, record.registry = some named ∧ observation.registry = some bytes ∧
      codecs.sha256Hex bytes ≠ named.sha256

theorem mismatch_recordGaps {observation : TargetObservation} {record : PublicationRecord} :
    (∃ gap ∈ recordGaps codecs observation record, gap.Mismatch) ↔
      TargetDiffers codecs observation record := by
  have hkinds : (∃ kind, Differs codecs kind (observation.document kind)
      (record.documents.document kind)) ↔
        (Differs codecs .tenants observation.tenants record.documents.tenants ∨
          Differs codecs .dataSources observation.dataSources record.documents.dataSources) ∨
            Differs codecs .catalog observation.catalog record.documents.catalog := by
    constructor
    · rintro ⟨kind, h⟩
      cases kind with
      | tenants => exact Or.inl (Or.inl h)
      | dataSources => exact Or.inl (Or.inr h)
      | catalog => exact Or.inr h
    · rintro ((h | h) | h)
      · exact ⟨.tenants, h⟩
      · exact ⟨.dataSources, h⟩
      · exact ⟨.catalog, h⟩
  have hregistry : (∃ gap ∈ registryGaps codecs observation.registry record.registry,
      gap.Mismatch) ↔ ∃ named bytes, record.registry = some named ∧
        observation.registry = some bytes ∧ codecs.sha256Hex bytes ≠ named.sha256 := by
    unfold registryGaps
    cases record.registry with
    | none => simp
    | some named =>
        simp only [mismatch_payloadGap, Option.some.injEq, exists_and_left, exists_eq_left']
  unfold recordGaps TargetDiffers
  simp only [List.mem_append, or_and_right, exists_or, mismatch_documentGaps, hregistry, hkinds]

/-- The gaps of a target that did not change are those between its record and what is held. -/
theorem gaps_assess {observation : TargetObservation} {bytes : Bytes} {record : PublicationRecord}
    (hrecord : observation.record = some bytes) (hread : codecs.record.read bytes = .ok record) :
    (assess codecs observation observation.record).gaps =
      recordGaps codecs observation record := by
  unfold assess
  rw [if_neg (not_not.mpr rfl), hrecord]
  dsimp only
  rw [hread]
  dsimp only
  cases hgaps : recordGaps codecs observation record with
  | nil => rfl
  | cons gap rest => rfl

end Publication
end SaasFabric
