import SaasFabric.Publication.Divergence
import SaasFabric.Publication.HeldRecovery
import SaasFabric.Publication.Sampled

/-!
# What blocks a publication

Recovery and the publisher read the same bytes with code of their own.  Both are put against
one statement of what can be read, and a diagnosis against one statement of what is clear;
where the two readers part is then a condition on the bytes.
-/

namespace SaasFabric
namespace Publication
namespace HeldRecovery

open Library (bind_eq_ok mapError_eq_ok FailsWith)

/-! ## What a publication reads first -/

/-- What is read of a target before any rule about an offer. -/
def readPublished (codecs : Codecs) (target : Target) :
    Except PublicationError (HeldDocuments × Option PublicationRecord × PublishedResources) := do
  let held ← readHeld codecs target
  let record ← held.parseRecord codecs
  let published ← held.resources codecs
  .ok (held, record, published)

/-- A payload is there where its manifest is, and it can be read. -/
structure ReadsPayload {T : Type} (codec : Library.Codec T) (held : Files) : Prop where
  present : held.manifest.isSome → held.payload.isSome
  read : ∀ bytes, held.payload = some bytes → ∃ documents, codec.read bytes = .ok documents

/-- A manifest can be read as one of its document, where it is there. -/
def ReadsManifest (codecs : Codecs) (kind : DocumentKind) (held : Files) : Prop :=
  ∀ bytes, held.manifest = some bytes →
    ∃ manifest, codecs.manifest.read bytes = .ok manifest ∧ manifest.document = kind

/-- What a publication needs to be able to read. -/
structure Readable (codecs : Codecs) (target : Target) : Prop where
  record : ∀ bytes, target.record = some bytes →
    ∃ record, PublicationRecord.parseHeld codecs bytes = .ok record
  manifest : ∀ kind, ReadsManifest codecs kind (target.document kind)
  tenants : ReadsPayload codecs.tenants target.tenants
  dataSources : ReadsPayload codecs.dataSources target.dataSources

section Reading

variable {codecs : Codecs} {target : Target}

theorem failsWith_readHeld : FailsWith Unread (readHeld codecs target) := by
  have hmanifest : ∀ file document, FailsWith Unread (Publication.readManifest codecs file
      document) := by
    intro file document
    unfold Publication.readManifest
    split
    · exact FailsWith.ok none
    · refine FailsWith.bind (FailsWith.mapError fun cause => .unreadable _ cause) fun _ => ?_
      exact FailsWith.ite (FailsWith.ok _) (FailsWith.error (.unreadable _ _))
  have hdocument : ∀ files document, FailsWith Unread (readDocument codecs files document) :=
    fun files document => (hmanifest _ _).bind fun _ => FailsWith.ok _
  exact (hdocument _ _).bind fun _ => (hdocument _ _).bind fun _ => (hdocument _ _).bind
    fun _ => FailsWith.ok _

theorem failsWith_readPublished : FailsWith Unread (readPublished codecs target) :=
  failsWith_readHeld.bind fun _ => failsWith_parseRecord.bind fun _ =>
    failsWith_resources.bind fun _ => FailsWith.ok _

theorem readManifest_ok_iff {file : Option Bytes} {kind : DocumentKind} :
    (∃ manifest, Publication.readManifest codecs file kind = .ok manifest) ↔
      ∀ bytes, file = some bytes →
        ∃ manifest, codecs.manifest.read bytes = .ok manifest ∧ manifest.document = kind := by
  unfold Publication.readManifest
  cases file with
  | none => simp
  | some bytes =>
      simp only [bind_eq_ok, mapError_eq_ok, Option.some.injEq, forall_eq']
      constructor
      · rintro ⟨_, manifest, hread, hkind⟩
        refine ⟨manifest, hread, ?_⟩
        by_contra hother
        rw [if_neg hother] at hkind
        cases hkind
      · rintro ⟨manifest, hread, hkind⟩
        exact ⟨some manifest, manifest, hread, if_pos hkind⟩

theorem parseHeldDocuments_ok_iff {T : Type} {codec : Library.Codec (List T)} {files : Files}
    (kind : DocumentKind) {manifest : Option DocumentManifest}
    (hmanifest : manifest.isSome = files.manifest.isSome) :
    (∃ documents, parseHeldDocuments codec ⟨manifest, files.payload⟩ kind = .ok documents) ↔
      ReadsPayload codec files := by
  unfold parseHeldDocuments parseDocuments
  constructor
  · rintro ⟨documents, hdocuments⟩
    constructor
    · intro hsome
      rw [← hmanifest] at hsome
      obtain ⟨found, rfl⟩ := Option.isSome_iff_exists.mp hsome
      cases hpayload : files.payload with
      | none =>
          rw [hpayload] at hdocuments
          cases hdocuments
      | some bytes => rfl
    · intro bytes hbytes
      rw [hbytes] at hdocuments
      cases manifest <;> exact ⟨documents, mapError_eq_ok.mp hdocuments⟩
  · rintro ⟨hpresent, hread⟩
    cases hpayload : files.payload with
    | none =>
        cases manifest with
        | none => exact ⟨[], rfl⟩
        | some found =>
            have hpayloadSome := hpresent (hmanifest.symm.trans rfl)
            rw [hpayload] at hpayloadSome
            cases hpayloadSome
    | some bytes =>
        obtain ⟨documents, hdocuments⟩ := hread bytes hpayload
        refine ⟨documents, ?_⟩
        cases manifest <;> exact mapError_eq_ok.mpr hdocuments

theorem isSome_of_readManifest {file : Option Bytes} {kind : DocumentKind}
    {manifest : Option DocumentManifest}
    (h : Publication.readManifest codecs file kind = .ok manifest) :
    manifest.isSome = file.isSome := by
  unfold Publication.readManifest at h
  cases file with
  | none =>
      cases h
      rfl
  | some bytes =>
      obtain ⟨found, -, hfound⟩ := bind_eq_ok.mp h
      split at hfound
      · cases hfound
        rfl
      · cases hfound

theorem parseRecord_ok_iff {held : HeldDocuments} :
    (∃ record, held.parseRecord codecs = .ok record) ↔
      ∀ bytes, held.record = some bytes →
        ∃ record, PublicationRecord.parseHeld codecs bytes = .ok record := by
  unfold HeldDocuments.parseRecord
  cases held.record with
  | none => simp
  | some bytes =>
      simp only [Library.map_eq_ok, Option.some.injEq, forall_eq']
      constructor
      · rintro ⟨_, record, hrecord, -⟩
        exact ⟨record, hrecord⟩
      · rintro ⟨record, hrecord⟩
        exact ⟨some record, record, hrecord, rfl⟩

/-- A publication reads what is held exactly where it is readable. -/
theorem readPublished_ok_iff :
    (∃ read, readPublished codecs target = .ok read) ↔ Readable codecs target := by
  unfold readPublished
  simp only [bind_eq_ok, Except.ok.injEq]
  constructor
  · rintro ⟨_, held, hheld, record, hrecord, published, hpublished, -⟩
    obtain ⟨htenants, hdataSources, hcatalog, hheldRecord, -⟩ := readHeld_eq_ok.mp hheld
    obtain ⟨htenantsManifest, htenantsPayload⟩ := readDocument_eq_ok.mp htenants
    obtain ⟨hsourcesManifest, hsourcesPayload⟩ := readDocument_eq_ok.mp hdataSources
    obtain ⟨hcatalogManifest, -⟩ := readDocument_eq_ok.mp hcatalog
    obtain ⟨_, hreads⟩ := resources_eq_ok.mp hpublished
    have hparsedTenants := hreads.tenants
    have hparsedSources := hreads.dataSources
    refine ⟨?_, fun kind => ?_, ?_, ?_⟩
    · rw [hheldRecord]
      exact parseRecord_ok_iff.mp ⟨record, hrecord⟩
    · cases kind with
      | tenants => exact readManifest_ok_iff.mp ⟨_, htenantsManifest⟩
      | dataSources => exact readManifest_ok_iff.mp ⟨_, hsourcesManifest⟩
      | catalog => exact readManifest_ok_iff.mp ⟨_, hcatalogManifest⟩
    · refine (parseHeldDocuments_ok_iff .tenants (isSome_of_readManifest htenantsManifest)).mp
        ⟨published.tenants, ?_⟩
      rw [htenantsPayload]
      exact hparsedTenants
    · refine (parseHeldDocuments_ok_iff .dataSources
        (isSome_of_readManifest hsourcesManifest)).mp ⟨published.dataSources, ?_⟩
      rw [hsourcesPayload]
      exact hparsedSources
  · intro h
    obtain ⟨tenantsManifest, htenantsManifest⟩ := readManifest_ok_iff.mpr (h.manifest .tenants)
    obtain ⟨sourcesManifest, hsourcesManifest⟩ :=
      readManifest_ok_iff.mpr (h.manifest .dataSources)
    obtain ⟨catalogManifest, hcatalogManifest⟩ := readManifest_ok_iff.mpr (h.manifest .catalog)
    obtain ⟨tenants, htenants⟩ := (parseHeldDocuments_ok_iff .tenants
      (isSome_of_readManifest htenantsManifest)).mpr h.tenants
    obtain ⟨dataSources, hdataSources⟩ := (parseHeldDocuments_ok_iff .dataSources
      (isSome_of_readManifest hsourcesManifest)).mpr h.dataSources
    -- What is held is put together from its parts, each of which is read.
    let held : HeldDocuments :=
      { tenants := ⟨tenantsManifest, target.tenants.payload⟩
        dataSources := ⟨sourcesManifest, target.dataSources.payload⟩
        catalog := ⟨catalogManifest, target.catalog.payload⟩
        record := target.record
        registry := target.registry }
    have hheld : readHeld codecs target = .ok held := readHeld_eq_ok.mpr
      ⟨readDocument_eq_ok.mpr ⟨htenantsManifest, rfl⟩,
        readDocument_eq_ok.mpr ⟨hsourcesManifest, rfl⟩,
        readDocument_eq_ok.mpr ⟨hcatalogManifest, rfl⟩, rfl, rfl⟩
    have hrecordHeld : ∀ bytes, held.record = some bytes →
        ∃ record, PublicationRecord.parseHeld codecs bytes = .ok record := h.record
    obtain ⟨record, hrecord⟩ := parseRecord_ok_iff.mpr hrecordHeld
    let published : PublishedResources :=
      { tenants, dataSources
        catalog := held.catalog.payload.bind fun bytes => (codecs.catalog.read bytes).toOption
        history := (recordedResources record).including tenants dataSources }
    have hpublished : held.resources codecs = .ok published :=
      resources_eq_ok.mpr ⟨record, ⟨hrecord, htenants, hdataSources, rfl, rfl⟩⟩
    exact ⟨_, held, hheld, record, hrecord, published, hpublished, rfl⟩

/-- What cannot be read is refused whatever is offered. -/
theorem plan_of_readPublished {error : PublicationError}
    (h : readPublished codecs target = .error error) (snapshot : RuntimeSnapshot) :
    (readHeld codecs target >>= planPublication codecs snapshot) = .error error := by
  unfold readPublished at h
  cases hheld : readHeld codecs target with
  | error cause =>
      rw [hheld] at h
      exact congrArg Except.error (Except.error.inj h)
  | ok held =>
      rw [hheld] at h
      change (held.parseRecord codecs >>= _) = _ at h
      show (held.parseRecord codecs >>= _) = _
      cases hrecord : held.parseRecord codecs with
      | error cause =>
          rw [hrecord] at h
          exact congrArg Except.error (Except.error.inj h)
      | ok record =>
          rw [hrecord] at h
          change (held.resources codecs >>= _) = _ at h
          show (held.resources codecs >>= _) = _
          cases hresources : held.resources codecs with
          | error cause =>
              rw [hresources] at h
              exact congrArg Except.error (Except.error.inj h)
          | ok published =>
              rw [hresources] at h
              cases h

/-- A target no publication can be planned over, whatever is offered: it is refused while it
is read, as unreadable, lost or below its floor. -/
def Refused (codecs : Codecs) (target : Target) : Prop :=
  ∃ error, Unread error ∧ readPublished codecs target = .error error ∧
    ∀ snapshot, (readHeld codecs target >>= planPublication codecs snapshot) = .error error

theorem refused_iff : Refused codecs target ↔ ¬ Readable codecs target := by
  rw [← readPublished_ok_iff]
  constructor
  · rintro ⟨error, -, herror, -⟩ ⟨read, hread⟩
    rw [hread] at herror
    cases herror
  · intro hunread
    cases hread : readPublished codecs target with
    | ok read => exact absurd ⟨read, hread⟩ hunread
    | error error =>
        exact ⟨error, failsWith_readPublished error hread, hread, plan_of_readPublished hread⟩

end Reading

/-! ## What recovery reads -/

section Blocking

variable {codecs : RecoveryCodecs} {target : Target}

/-- A manifest that serde decodes from a value that is no object. -/
def Misread (codecs : RecoveryCodecs) (kind : DocumentKind) (held : Files) : Prop :=
  ∃ bytes manifest, held.manifest = some bytes ∧ codecs.manifest.read bytes = .ok manifest ∧
    manifest.document = kind ∧ codecs.readValue bytes ≠ .ok .object

/-- The payload of a document can be read; a catalogue's is not looked at. -/
def ReadsPayloadOf (codecs : Codecs) (kind : DocumentKind) (held : Files) : Prop :=
  match kind with
  | .tenants => ReadsPayload codecs.tenants held
  | .dataSources => ReadsPayload codecs.dataSources held
  | .catalog => True

/-- How recovery reads a manifest. -/
inductive Reads (codecs : RecoveryCodecs) (kind : DocumentKind) (held : Files) :
    ManifestReading → Prop where
  | missing (absent : held.manifest = none) : Reads codecs kind held .missing
  | usable {bytes : Bytes} {manifest : DocumentManifest} {reading : ManifestReading}
      (present : held.manifest = some bytes) (value : codecs.readValue bytes = .ok .object)
      (read : codecs.manifest.read bytes = .ok manifest) (document : manifest.document = kind)
      (answer : reading = if CONTRACT_VERSION < manifest.contractVersion then .newer manifest
        else .valid manifest) : Reads codecs kind held reading
  | malformed {detail : String}
      (unusable : ¬ ReadsManifest codecs.toCodecs kind held ∨ Misread codecs kind held) :
      Reads codecs kind held (.malformed detail)
  | conflicting {detail : String} (unusable : ¬ ReadsManifest codecs.toCodecs kind held) :
      Reads codecs kind held (.conflicting detail)

theorem reads_readManifest (kind : DocumentKind) (held : Files) :
    Reads codecs kind held (readManifest codecs held.manifest kind) := by
  cases hmanifest : held.manifest with
  | none => exact .missing hmanifest
  | some bytes =>
      -- Where the value is no object, serde either decodes it all the same, or it does not.
      have hother : codecs.readValue bytes ≠ .ok .object →
          ¬ ReadsManifest codecs.toCodecs kind held ∨ Misread codecs kind held := by
        intro hvalue
        by_cases hreads : ReadsManifest codecs.toCodecs kind held
        · obtain ⟨manifest, hread, hkind⟩ := hreads bytes hmanifest
          exact Or.inr ⟨bytes, manifest, hmanifest, hread, hkind, hvalue⟩
        · exact Or.inl hreads
      unfold readManifest
      dsimp only
      cases hvalue : codecs.readValue bytes with
      | error cause => exact .malformed (hother (by rw [hvalue]; exact nofun))
      | ok shape =>
          cases shape with
          | other => exact .malformed (hother (by rw [hvalue]; exact nofun))
          | object =>
              dsimp only
              cases hread : codecs.manifest.read bytes with
              | error cause =>
                  refine .conflicting fun hreads => ?_
                  obtain ⟨manifest, hok, -⟩ := hreads bytes hmanifest
                  rw [hread] at hok
                  cases hok
              | ok manifest =>
                  dsimp only
                  by_cases hkind : manifest.document = kind
                  · rw [if_neg (not_not.mpr hkind)]
                    exact .usable hmanifest hvalue hread hkind rfl
                  · rw [if_pos hkind]
                    refine .conflicting fun hreads => ?_
                    obtain ⟨found, hok, hfound⟩ := hreads bytes hmanifest
                    rw [hread] at hok
                    cases hok
                    exact hkind hfound

theorem blockingPayload_eq_none {T : Type} {codec : Library.Codec T} {kind : DocumentKind}
    (hkind : kind ≠ .catalog)
    (hparse : ∀ bytes, (∃ parsed, parsePayload codecs bytes kind = .ok parsed) ↔
      ∃ documents, codec.read bytes = .ok documents)
    {reading : ManifestReading} {held : Files}
    (hreading : reading = .missing ↔ held.manifest = none) :
    blockingPayload codecs kind reading held.payload = none ↔ ReadsPayload codec held := by
  unfold blockingPayload
  cases hpayload : held.payload with
  | none =>
      by_cases hmissing : reading = .missing
      · have hmanifest := hreading.mp hmissing
        rw [if_neg fun h => h.1 hmissing]
        refine ⟨fun _ => ⟨fun hsome => ?_, fun bytes hbytes => ?_⟩, fun _ => rfl⟩
        · rw [hmanifest] at hsome
          cases hsome
        · rw [hpayload] at hbytes
          cases hbytes
      · rw [if_pos ⟨hmissing, hkind⟩]
        refine ⟨nofun, fun hreads => absurd (hreads.present ?_) ?_⟩
        · exact Option.isSome_iff_ne_none.mpr fun hnone => hmissing (hreading.mpr hnone)
        · rw [hpayload]
          exact Bool.false_ne_true
  | some bytes =>
      dsimp only
      constructor
      · intro hnone
        refine ⟨fun _ => by rw [hpayload]; rfl, fun other hother => ?_⟩
        rw [hpayload] at hother
        cases hother
        refine (hparse bytes).mp ?_
        cases hparsed : parsePayload codecs bytes kind with
        | ok parsed => exact ⟨parsed, rfl⟩
        | error detail =>
            rw [hparsed] at hnone
            cases hnone
      · intro hreads
        obtain ⟨parsed, hparsed⟩ := (hparse bytes).mpr (hreads.read bytes hpayload)
        rw [hparsed]

theorem parsePayload_tenants {bytes : Bytes} :
    (∃ parsed, parsePayload codecs bytes .tenants = .ok parsed) ↔
      ∃ documents, codecs.tenants.read bytes = .ok documents := by
  unfold parsePayload
  cases codecs.tenants.read bytes <;> simp [Except.map, Except.mapError]

theorem parsePayload_dataSources {bytes : Bytes} :
    (∃ parsed, parsePayload codecs bytes .dataSources = .ok parsed) ↔
      ∃ documents, codecs.dataSources.read bytes = .ok documents := by
  unfold parsePayload
  cases codecs.dataSources.read bytes <;> simp [Except.map, Except.mapError]

/-- A payload blocks nothing where it can be read. -/
theorem blockingPayload_iff {kind : DocumentKind} {reading : ManifestReading} {held : Files}
    (hreading : reading = .missing ↔ held.manifest = none) :
    blockingPayload codecs kind reading held.payload = none ↔
      ReadsPayloadOf codecs.toCodecs kind held := by
  cases kind with
  | tenants =>
      exact @blockingPayload_eq_none codecs _ codecs.tenants .tenants nofun
        (fun _ => parsePayload_tenants) _ _ hreading
  | dataSources =>
      exact @blockingPayload_eq_none codecs _ codecs.dataSources .dataSources nofun
        (fun _ => parsePayload_dataSources) _ _ hreading
  | catalog =>
      have hnever : blockingPayload codecs .catalog reading held.payload = none := by
        unfold blockingPayload
        cases held.payload with
        | none => exact if_neg fun h => h.2 rfl
        | some bytes => rfl
      exact ⟨fun _ => trivial, fun _ => hnever⟩

/-- A document blocks nothing where a publication reads it, and recovery decodes its manifest
from an object. -/
theorem blocking_eq_none {kind : DocumentKind} {held : Files} :
    blocking codecs kind held = none ↔
      (ReadsManifest codecs.toCodecs kind held ∧ ReadsPayloadOf codecs.toCodecs kind held) ∧
        ¬ Misread codecs kind held := by
  have hreads : Reads codecs kind held _ := reads_readManifest kind held
  unfold blocking
  generalize readManifest codecs held.manifest kind = reading at hreads
  cases hreads with
  | missing habsent =>
      dsimp only
      rw [blockingPayload_iff ⟨fun _ => habsent, fun _ => rfl⟩]
      refine ⟨fun hpayload => ⟨⟨fun bytes hbytes => ?_, hpayload⟩, ?_⟩, fun h => h.1.2⟩
      · rw [habsent] at hbytes
        cases hbytes
      · rintro ⟨bytes, -, hbytes, -⟩
        rw [habsent] at hbytes
        cases hbytes
  | malformed hunusable =>
      refine ⟨nofun, fun h => ?_⟩
      rcases hunusable with hunread | hmisread
      · exact absurd h.1.1 hunread
      · exact absurd hmisread h.2
  | conflicting hunread => exact ⟨nofun, fun h => absurd h.1.1 hunread⟩
  | usable hpresent hvalue hread hdocument hanswer =>
      have hmanifest : ReadsManifest codecs.toCodecs kind held := by
        intro bytes hbytes
        rw [hpresent] at hbytes
        cases hbytes
        exact ⟨_, hread, hdocument⟩
      have hobject : ¬ Misread codecs kind held := by
        rintro ⟨bytes, found, hbytes, -, -, hother⟩
        rw [hpresent] at hbytes
        cases hbytes
        exact hother hvalue
      have hnotMissing : reading = .missing ↔ held.manifest = none := by
        rw [hpresent, hanswer]
        constructor
        · intro h
          split at h <;> cases h
        · exact nofun
      have hparts : ReadsPayloadOf codecs.toCodecs kind held ↔
          (ReadsManifest codecs.toCodecs kind held ∧ ReadsPayloadOf codecs.toCodecs kind held) ∧
            ¬ Misread codecs kind held :=
        ⟨fun h => ⟨⟨hmanifest, h⟩, hobject⟩, fun h => h.1.2⟩
      -- Of a newer contract or not, what is left is the payload.
      split at hanswer <;> subst hanswer
      · exact (blockingPayload_iff hnotMissing).trans hparts
      · exact (blockingPayload_iff hnotMissing).trans hparts

end Blocking

/-! ## Which problems there are -/

section Problems

variable {codecs : RecoveryCodecs} {target : Target}

/-- The record that is held, where it can be used. -/
def usableRecord (codecs : RecoveryCodecs) (target : Target) : Option PublicationRecord :=
  (recordState codecs target.record).2

theorem usableRecord_eq_some {record : PublicationRecord} :
    usableRecord codecs target = some record ↔
      ∃ bytes, target.record = some bytes ∧
        PublicationRecord.parseHeld codecs.toCodecs bytes = .ok record := by
  unfold usableRecord recordState
  cases target.record with
  | none => simp
  | some bytes =>
      dsimp only
      cases hparsed : PublicationRecord.parseHeld codecs.toCodecs bytes <;> simp [hparsed]

/-- The record is a problem where it cannot be used. -/
theorem recordProblems_eq_nil : (recordState codecs target.record).1.problems = [] ↔
    ∀ bytes, target.record = some bytes →
      ∃ record, PublicationRecord.parseHeld codecs.toCodecs bytes = .ok record := by
  unfold recordState
  cases target.record with
  | none => simp [RecordState.problems]
  | some bytes =>
      dsimp only
      cases hparsed : PublicationRecord.parseHeld codecs.toCodecs bytes <;>
        simp [RecordState.problems, hparsed]

/-- What a record that can be used names of a document. -/
def recordedOf (codecs : RecoveryCodecs) (target : Target) (kind : DocumentKind) :
    Option RecordedDocument :=
  (usableRecord codecs target).map fun record => record.documents.document kind

/-- The problems of a stable observation, part by part. -/
theorem mem_problems {problem : Problem} :
    problem ∈ (diagnose codecs ⟨target, true⟩).problems ↔
      problem ∈ (recordState codecs target.record).1.problems ∨
      (∃ kind, problem ∈ documentProblems codecs kind (target.document kind)
        (recordedOf codecs target kind)) ∨
      problem ∈ resourceProblems codecs target
        ((usableRecord codecs target).bind PublicationRecord.registry) := by
  have hkinds : (∃ kind, problem ∈ documentProblems codecs kind (target.document kind)
      (recordedOf codecs target kind)) ↔
        problem ∈ documentProblems codecs .tenants target.tenants
          (recordedOf codecs target .tenants) ∨
        problem ∈ documentProblems codecs .dataSources target.dataSources
          (recordedOf codecs target .dataSources) ∨
        problem ∈ documentProblems codecs .catalog target.catalog
          (recordedOf codecs target .catalog) := by
    constructor
    · rintro ⟨kind, h⟩
      cases kind with
      | tenants => exact Or.inl h
      | dataSources => exact Or.inr (Or.inl h)
      | catalog => exact Or.inr (Or.inr h)
    · rintro (h | h | h)
      · exact ⟨.tenants, h⟩
      · exact ⟨.dataSources, h⟩
      · exact ⟨.catalog, h⟩
  have hrecorded : ∀ pick : RecordedDocuments → RecordedDocument,
      ((usableRecord codecs target).map PublicationRecord.documents).map pick =
        (usableRecord codecs target).map fun record => pick record.documents := by
    intro pick
    rw [Option.map_map]
    rfl
  rw [hkinds]
  unfold recordedOf
  unfold diagnose
  dsimp only
  rw [if_pos rfl]
  change problem ∈ [] ++ _ ++ documentProblems codecs .tenants target.tenants
    (((usableRecord codecs target).map PublicationRecord.documents).map (·.tenants)) ++
    documentProblems codecs .dataSources target.dataSources
      (((usableRecord codecs target).map PublicationRecord.documents).map (·.dataSources)) ++
    documentProblems codecs .catalog target.catalog
      (((usableRecord codecs target).map PublicationRecord.documents).map (·.catalog)) ++ _ ↔ _
  rw [hrecorded, hrecorded, hrecorded]
  simp only [List.nil_append, List.mem_append, or_assoc]
  rfl

theorem kind_of_mem_resourceProblems {registry : Option RecordedRegistry} {problem : Problem}
    (h : problem ∈ resourceProblems codecs target registry) : problem.kind = .unusable := by
  have hmap : ∀ (part : Part) (details : List String),
      problem ∈ details.map (⟨part, .unusable, ·⟩) → problem.kind = .unusable := by
    rintro part details hmem
    obtain ⟨detail, -, rfl⟩ := List.mem_map.mp hmem
    rfl
  unfold resourceProblems at h
  dsimp only at h
  rcases List.mem_append.mp h with h | h
  · rcases List.mem_append.mp h with h | h
    · rcases List.mem_append.mp h with h | h
      · exact hmap _ _ h
      · exact hmap _ _ h
    · exact hmap _ _ h
  · exact hmap _ _ h

/-- A document blocks a publication with what it is blocked by, and nothing else. -/
theorem blocks_documentProblems {kind : DocumentKind} {held : Files}
    {recorded : Option RecordedDocument} :
    (∃ problem ∈ documentProblems codecs kind held recorded,
      problem.kind = .blocksPublication) ↔ blocking codecs kind held ≠ none := by
  unfold documentProblems
  dsimp only
  constructor
  · rintro ⟨problem, hproblem, hkind⟩ hnone
    rw [hnone] at hproblem
    rcases List.mem_append.mp hproblem with h | h
    · rcases List.mem_append.mp h with h | h
      · exact absurd h List.not_mem_nil
      · split at h
        · rw [List.mem_singleton.mp h] at hkind
          cases hkind
        · exact absurd h List.not_mem_nil
    · unfold revisionProblems at h
      split at h
      · split at h
        · rw [List.mem_singleton.mp h] at hkind
          cases hkind
        · exact absurd h List.not_mem_nil
      · exact absurd h List.not_mem_nil
  · intro hblocking
    obtain ⟨detail, hdetail⟩ := Option.ne_none_iff_exists'.mp hblocking
    rw [hdetail]
    exact ⟨⟨.ofDocument kind, .blocksPublication, detail⟩, List.mem_append_left _
      (List.mem_append_left _ List.mem_cons_self), rfl⟩

/-- Some problem of a diagnosis blocks a publication. -/
def HeldDiagnosis.Blocks (diagnosis : HeldDiagnosis) : Prop :=
  ∃ problem ∈ diagnosis.problems, problem.kind = .blocksPublication

/-- A diagnosis reports that a publication is blocked where the target is not readable, or
where a manifest was misread. -/
theorem blocks_iff : (diagnose codecs ⟨target, true⟩).Blocks ↔
    ¬ Readable codecs.toCodecs target ∨ ∃ kind, Misread codecs kind (target.document kind) := by
  have hdocuments : (∀ kind, blocking codecs kind (target.document kind) = none) ↔
      ((∀ kind, ReadsManifest codecs.toCodecs kind (target.document kind)) ∧
        ReadsPayload codecs.tenants target.tenants ∧
          ReadsPayload codecs.dataSources target.dataSources) ∧
        ∀ kind, ¬ Misread codecs kind (target.document kind) := by
    simp only [blocking_eq_none]
    constructor
    · exact fun h => ⟨⟨fun kind => (h kind).1.1, (h .tenants).1.2, (h .dataSources).1.2⟩,
        fun kind => (h kind).2⟩
    · rintro ⟨⟨hmanifest, htenants, hdataSources⟩, hmisread⟩ kind
      refine ⟨⟨hmanifest kind, ?_⟩, hmisread kind⟩
      cases kind with
      | tenants => exact htenants
      | dataSources => exact hdataSources
      | catalog => trivial
  have hrecord : (∃ problem ∈ (recordState codecs target.record).1.problems,
      problem.kind = .blocksPublication) ↔
        (recordState codecs target.record).1.problems ≠ [] := by
    cases (recordState codecs target.record).1 <;> simp [RecordState.problems]
  have hblocks : (diagnose codecs ⟨target, true⟩).Blocks ↔
      (recordState codecs target.record).1.problems ≠ [] ∨
        ∃ kind, blocking codecs kind (target.document kind) ≠ none := by
    unfold HeldDiagnosis.Blocks
    simp only [mem_problems, or_and_right, exists_or, hrecord]
    refine or_congr_right ?_
    constructor
    · rintro (⟨problem, ⟨kind, hproblem⟩, hkind⟩ | ⟨problem, hproblem, hkind⟩)
      · exact ⟨kind, blocks_documentProblems.mp ⟨problem, hproblem, hkind⟩⟩
      · rw [kind_of_mem_resourceProblems hproblem] at hkind
        cases hkind
    · rintro ⟨kind, hblocking⟩
      obtain ⟨problem, hproblem, hkind⟩ := blocks_documentProblems.mpr hblocking
      exact Or.inl ⟨problem, ⟨kind, hproblem⟩, hkind⟩
  have hreadable : Readable codecs.toCodecs target ↔
      (∀ bytes, target.record = some bytes →
        ∃ record, PublicationRecord.parseHeld codecs.toCodecs bytes = .ok record) ∧
      (∀ kind, ReadsManifest codecs.toCodecs kind (target.document kind)) ∧
        ReadsPayload codecs.tenants target.tenants ∧
          ReadsPayload codecs.dataSources target.dataSources :=
    ⟨fun h => ⟨h.record, h.manifest, h.tenants, h.dataSources⟩,
      fun h => ⟨h.1, h.2.1, h.2.2.1, h.2.2.2⟩⟩
  rw [hblocks, ← not_iff_not]
  simp only [not_or, not_exists, not_not, ne_eq, recordProblems_eq_nil, hdocuments, hreadable,
    and_assoc]

end Problems

/-! ## What is clear -/

section Clear

variable {codecs : RecoveryCodecs} {target : Target}

theorem repeatsFrom_eq_nil {K : Type} [DecidableEq K] {first : List (K × Nat)} {index : Nat}
    {keys : List K} : repeatsFrom first index keys = [] ↔
      (∀ key ∈ keys, first.lookup key = none) ∧ keys.Nodup := by
  induction keys generalizing first index with
  | nil => simp [repeatsFrom]
  | cons key rest ih =>
      unfold repeatsFrom
      cases hlookup : first.lookup key with
      | some earlier =>
          refine ⟨nofun, fun h => ?_⟩
          have hnone := h.1 key List.mem_cons_self
          rw [hlookup] at hnone
          cases hnone
      | none =>
          have hcons : ∀ other, ((key, index) :: first).lookup other = none ↔
              other ≠ key ∧ first.lookup other = none := by
            intro other
            rw [List.lookup_cons]
            by_cases hsame : other = key
            · subst hsame
              rw [beq_self_eq_true]
              exact ⟨nofun, fun h => absurd rfl h.1⟩
            · rw [beq_eq_false_iff_ne.mpr hsame]
              exact ⟨fun h => ⟨hsame, h⟩, fun h => h.2⟩
          simp only [ih, hcons, List.forall_mem_cons, List.nodup_cons]
          constructor
          · rintro ⟨hrest, hnodup⟩
            exact ⟨⟨hlookup, fun other hother => (hrest other hother).2⟩,
              fun hmem => (hrest key hmem).1 rfl, hnodup⟩
          · rintro ⟨⟨-, hrest⟩, hfresh, hnodup⟩
            exact ⟨fun other hother => ⟨fun heq => hfresh (heq ▸ hother), hrest other hother⟩,
              hnodup⟩

theorem repeats_eq_nil {K : Type} [DecidableEq K] {keys : List K} :
    repeats keys = [] ↔ keys.Nodup := by
  refine repeatsFrom_eq_nil.trans ?_
  simp

theorem positions_eq_nil {T : Type} {elements : List T} {wrong : T → Bool} :
    positions elements wrong = [] ↔ ∀ element ∈ elements, wrong element = false := by
  have hall : (∀ entry ∈ elements.zipIdx, wrong entry.1 = false) ↔
      ∀ element ∈ elements, wrong element = false := by
    conv_rhs => rw [← List.zipIdx_map_fst 0 elements]
    rw [List.forall_mem_map]
  unfold positions
  rw [List.map_eq_nil_iff, List.filter_eq_nil_iff, ← hall]
  simp only [Bool.not_eq_true]

/-- What a payload is read as. -/
def HoldsAs {T : Type} (codec : Library.Codec T) (held : Files) (documents : T) : Prop :=
  ∃ bytes, held.payload = some bytes ∧ codec.read bytes = .ok documents

theorem parsedTenants_eq_some {tenants : List TenantBindingDocument} :
    parsedTenants codecs target = some tenants ↔
      HoldsAs codecs.tenants target.tenants tenants := by
  unfold parsedTenants parsePayload HoldsAs
  simp only [Option.bind_eq_some_iff]
  refine exists_congr fun bytes => and_congr_right fun _ => ?_
  cases codecs.tenants.read bytes <;> simp [Except.map, Except.mapError]

theorem parsedDataSources_eq_some {dataSources : List DataSourceDocument} :
    parsedDataSources codecs target = some dataSources ↔
      HoldsAs codecs.dataSources target.dataSources dataSources := by
  unfold parsedDataSources parsePayload HoldsAs
  simp only [Option.bind_eq_some_iff]
  refine exists_congr fun bytes => and_congr_right fun _ => ?_
  cases codecs.dataSources.read bytes <;> simp [Except.map, Except.mapError]

/-- Nothing is wrong with some tenants by themselves. -/
structure TenantsClear (tenants : List TenantBindingDocument) : Prop where
  once : (tenants.map TenantBindingDocument.tenant).Nodup
  data : ∀ tenant ∈ tenants, tenant.data.isEmpty = false

/-- Nothing is wrong with a registry that a record names. -/
structure RegistryClear (codecs : Codecs) (target : Target) (recorded : RecordedRegistry)
    (bytes : Bytes) (document : IssuerRegistryDocument) : Prop where
  held : target.registry = some bytes
  digest : codecs.sha256Hex bytes = recorded.sha256
  read : codecs.registry.read bytes = .ok document
  schema : document.schemaVersion = REGISTRY_SCHEMA_VERSION
  generation : document.generation = recorded.generation
  once : (document.issuers.map IssuerRegistration.issuer).Nodup
  bound : ∀ tenants, HoldsAs codecs.tenants target.tenants tenants →
    ∀ registration ∈ document.issuers,
      registration.tenant ∈ tenants.map TenantBindingDocument.tenant

/-- Nothing is wrong with what the documents say. -/
structure ResourcesClear (codecs : Codecs) (target : Target)
    (recorded : Option RecordedRegistry) : Prop where
  tenants : ∀ tenants, HoldsAs codecs.tenants target.tenants tenants → TenantsClear tenants
  dataSources : ∀ dataSources, HoldsAs codecs.dataSources target.dataSources dataSources →
    (dataSources.map DataSourceDocument.id).Nodup
  declared : ∀ tenants dataSources, HoldsAs codecs.tenants target.tenants tenants →
    HoldsAs codecs.dataSources target.dataSources dataSources → ∀ tenant ∈ tenants,
      ∀ entry ∈ tenant.data.toList, entry.2.dataSource ∈ dataSources.map DataSourceDocument.id
  registry : ∀ named, recorded = some named →
    ∃ bytes document, RegistryClear codecs target named bytes document

theorem tenantProblems_eq_nil {tenants : List TenantBindingDocument} :
    tenantProblems tenants = [] ↔ TenantsClear tenants := by
  unfold tenantProblems
  rw [List.append_eq_nil_iff, List.map_eq_nil_iff, List.map_eq_nil_iff, repeats_eq_nil,
    positions_eq_nil]
  exact ⟨fun h => ⟨h.1, h.2⟩, fun h => ⟨h.once, h.data⟩⟩

theorem dataSourceProblems_eq_nil {dataSources : List DataSourceDocument} :
    dataSourceProblems dataSources = [] ↔ (dataSources.map DataSourceDocument.id).Nodup := by
  unfold dataSourceProblems
  rw [List.map_eq_nil_iff, repeats_eq_nil]

theorem dangling_eq_nil {tenants : List TenantBindingDocument}
    {dataSources : List DataSourceDocument} :
    dangling tenants dataSources = [] ↔ ∀ tenant ∈ tenants, ∀ entry ∈ tenant.data.toList,
      entry.2.dataSource ∈ dataSources.map DataSourceDocument.id := by
  unfold dangling
  dsimp only
  rw [List.map_eq_nil_iff, positions_eq_nil]
  simp only [List.any_eq_false, decide_eq_true_eq, not_not]

theorem unboundProblems_eq_nil {issuers : List IssuerRegistration} :
    unboundProblems issuers (parsedTenants codecs target) = [] ↔
      ∀ tenants, HoldsAs codecs.tenants target.tenants tenants → ∀ registration ∈ issuers,
        registration.tenant ∈ tenants.map TenantBindingDocument.tenant := by
  simp only [← parsedTenants_eq_some]
  unfold unboundProblems
  cases parsedTenants codecs target with
  | none => simp
  | some tenants =>
      simp only [List.map_eq_nil_iff, positions_eq_nil, Option.some.injEq, forall_eq',
        decide_eq_false_iff_not, not_not]

theorem registryProblems_eq_nil {recorded : RecordedRegistry} :
    registryProblems codecs target.registry recorded (parsedTenants codecs target) = [] ↔
      ∃ bytes document, RegistryClear codecs.toCodecs target recorded bytes document := by
  unfold registryProblems
  cases hregistry : target.registry with
  | none =>
      refine ⟨nofun, ?_⟩
      rintro ⟨bytes, document, h⟩
      have hheld := h.held
      rw [hregistry] at hheld
      cases hheld
  | some bytes =>
      dsimp only
      by_cases hdigest : codecs.sha256Hex bytes = recorded.sha256
      · rw [if_neg (not_not.mpr hdigest)]
        cases hread : codecs.registry.read bytes with
        | error cause =>
            refine ⟨nofun, ?_⟩
            rintro ⟨other, document, h⟩
            have hheld := h.held
            rw [hregistry] at hheld
            cases hheld
            have hok := h.read
            rw [hread] at hok
            cases hok
        | ok document =>
            dsimp only
            unfold issuerProblems
            rw [List.append_eq_nil_iff, List.append_eq_nil_iff, List.append_eq_nil_iff,
              unboundProblems_eq_nil, List.map_eq_nil_iff, repeats_eq_nil]
            constructor
            · rintro ⟨⟨⟨hschema, hgeneration⟩, honce⟩, hissuers⟩
              refine ⟨bytes, document, hregistry, hdigest, hread, ?_, ?_, honce, hissuers⟩
              · by_contra hother
                rw [if_pos hother] at hschema
                cases hschema
              · by_contra hother
                rw [if_pos hother] at hgeneration
                cases hgeneration
            · rintro ⟨other, found, h⟩
              have hheld := h.held
              rw [hregistry] at hheld
              cases hheld
              have hok := h.read
              rw [hread] at hok
              cases hok
              exact ⟨⟨⟨if_neg (not_not.mpr h.schema), if_neg (not_not.mpr h.generation)⟩, h.once⟩,
                h.bound⟩
      · rw [if_pos hdigest]
        refine ⟨nofun, ?_⟩
        rintro ⟨other, document, h⟩
        have hheld := h.held
        rw [hregistry] at hheld
        cases hheld
        exact absurd h.digest hdigest

/-- The resources are no problem where nothing is wrong with what they say. -/
theorem resourceProblems_eq_nil {recorded : Option RecordedRegistry} :
    resourceProblems codecs target recorded = [] ↔
      ResourcesClear codecs.toCodecs target recorded := by
  have htenants : ((parsedTenants codecs target).map tenantProblems).getD [] = [] ↔
      ∀ tenants, HoldsAs codecs.tenants target.tenants tenants → TenantsClear tenants := by
    simp only [← parsedTenants_eq_some]
    cases parsedTenants codecs target <;> simp [tenantProblems_eq_nil]
  have hdataSources : ((parsedDataSources codecs target).map dataSourceProblems).getD [] = [] ↔
      ∀ dataSources, HoldsAs codecs.dataSources target.dataSources dataSources →
        (dataSources.map DataSourceDocument.id).Nodup := by
    simp only [← parsedDataSources_eq_some]
    cases parsedDataSources codecs target <;> simp [dataSourceProblems_eq_nil]
  have hdeclared : danglingOf (parsedTenants codecs target) (parsedDataSources codecs target) = [] ↔
      ∀ tenants dataSources, HoldsAs codecs.tenants target.tenants tenants →
        HoldsAs codecs.dataSources target.dataSources dataSources → ∀ tenant ∈ tenants,
          ∀ entry ∈ tenant.data.toList,
            entry.2.dataSource ∈ dataSources.map DataSourceDocument.id := by
    simp only [← parsedTenants_eq_some, ← parsedDataSources_eq_some, ← dangling_eq_nil]
    unfold danglingOf
    cases parsedTenants codecs target with
    | none => simp
    | some tenants => cases parsedDataSources codecs target <;> simp
  have hregistry : (recorded.map fun named => registryProblems codecs target.registry named
      (parsedTenants codecs target)).getD [] = [] ↔ ∀ named, recorded = some named →
        ∃ bytes document, RegistryClear codecs.toCodecs target named bytes document := by
    simp only [← registryProblems_eq_nil]
    cases recorded <;> simp
  unfold resourceProblems
  dsimp only
  simp only [List.append_eq_nil_iff, List.map_eq_nil_iff]
  rw [htenants, hdataSources, hdeclared, hregistry]
  exact ⟨fun h => ⟨h.1.1.1, h.1.1.2, h.1.2, h.2⟩,
    fun h => ⟨⟨⟨h.tenants, h.dataSources⟩, h.declared⟩, h.registry⟩⟩

/-- Nothing is wrong with a document beside what a record names of it.  A manifest of a newer
contract is not compared. -/
structure DocumentClear (codecs : Codecs) (kind : DocumentKind) (held : Files)
    (recorded : Option RecordedDocument) : Prop where
  payload : ∀ named, recorded = some named →
    ∃ bytes, held.payload = some bytes ∧ codecs.sha256Hex bytes = named.sha256
  manifest : ∀ named bytes manifest, recorded = some named → held.manifest = some bytes →
    codecs.manifest.read bytes = .ok manifest → manifest.document = kind →
      manifest.contractVersion ≤ CONTRACT_VERSION → manifest.revision = named.revision

/-- Nothing is wrong with a target. -/
structure Clear (codecs : RecoveryCodecs) (target : Target) : Prop where
  readable : Readable codecs.toCodecs target
  objects : ∀ kind, ¬ Misread codecs kind (target.document kind)
  documents : ∀ kind, DocumentClear codecs.toCodecs kind (target.document kind)
    (recordedOf codecs target kind)
  resources : ResourcesClear codecs.toCodecs target
    ((usableRecord codecs target).bind PublicationRecord.registry)

/-- The revision a manifest is held at, where recovery reads one it supports. -/
theorem state_eq_held_iff {kind : DocumentKind} {held : Files} {revision : DocumentRevision}
    (hreads : ReadsManifest codecs.toCodecs kind held) (hobject : ¬ Misread codecs kind held) :
    (readManifest codecs held.manifest kind).state = .held revision ↔
      ∃ bytes manifest, held.manifest = some bytes ∧ codecs.manifest.read bytes = .ok manifest ∧
        manifest.document = kind ∧ manifest.contractVersion ≤ CONTRACT_VERSION ∧
          manifest.revision = revision := by
  have hreading : Reads codecs kind held _ := reads_readManifest kind held
  generalize readManifest codecs held.manifest kind = reading at hreading
  cases hreading with
  | missing habsent =>
      refine ⟨nofun, ?_⟩
      rintro ⟨bytes, manifest, hbytes, -⟩
      rw [habsent] at hbytes
      cases hbytes
  | malformed hunusable =>
      rcases hunusable with hunread | hmisread
      · exact absurd hreads hunread
      · exact absurd hmisread hobject
  | conflicting hunread => exact absurd hreads hunread
  | @usable bytes manifest _ hpresent hvalue hread hdocument hanswer =>
      have hfound : (∃ bytes manifest, held.manifest = some bytes ∧
          codecs.manifest.read bytes = .ok manifest ∧ manifest.document = kind ∧
            manifest.contractVersion ≤ CONTRACT_VERSION ∧ manifest.revision = revision) ↔
          manifest.contractVersion ≤ CONTRACT_VERSION ∧ manifest.revision = revision := by
        constructor
        · rintro ⟨other, found, hother, hok, -, hrest⟩
          rw [hpresent] at hother
          cases hother
          rw [hread] at hok
          cases hok
          exact hrest
        · exact fun hrest => ⟨bytes, manifest, hpresent, hread, hdocument, hrest⟩
      rw [hfound]
      split at hanswer <;> subst hanswer
      · rename_i hnewer
        exact ⟨nofun, fun h => absurd h.1 (not_le.mpr hnewer)⟩
      · rename_i hsupported
        unfold ManifestReading.state
        dsimp only
        rw [ManifestState.held.injEq]
        exact ⟨fun h => ⟨not_lt.mp hsupported, h⟩, fun h => h.2⟩

theorem revisionProblems_eq_nil {kind : DocumentKind} {state : ManifestState}
    {recorded : Option RecordedDocument} : revisionProblems kind state recorded = [] ↔
      ∀ revision named, state = .held revision → recorded = some named →
        revision = named.revision := by
  unfold revisionProblems
  split
  · rename_i revision named
    constructor
    · intro h found other hfound hother
      cases hfound
      cases hother
      by_contra hapart
      rw [if_pos hapart] at h
      cases h
    · exact fun h => if_neg (not_not.mpr (h _ _ rfl rfl))
  · rename_i hneither
    exact ⟨fun _ revision named hstate hnamed => (hneither revision named hstate hnamed).elim,
      fun _ => rfl⟩

/-- A document is no problem where it can be read, and nothing is wrong with it. -/
theorem documentProblems_eq_nil {kind : DocumentKind} {held : Files}
    {recorded : Option RecordedDocument} :
    documentProblems codecs kind held recorded = [] ↔
      blocking codecs kind held = none ∧
        DocumentClear codecs.toCodecs kind held recorded := by
  have hpayload : (document codecs kind held recorded).matchesRecord ≠ some false ↔
      ∀ named, recorded = some named →
        ∃ bytes, held.payload = some bytes ∧ codecs.sha256Hex bytes = named.sha256 := by
    unfold document
    dsimp only
    cases recorded with
    | none => simp
    | some named =>
        simp only [Option.map_some, ne_eq, Option.some.injEq, forall_eq', Bool.not_eq_false,
          beq_iff_eq, Option.map_eq_some_iff]
  unfold documentProblems
  dsimp only
  rw [List.append_eq_nil_iff, List.append_eq_nil_iff, List.map_eq_nil_iff,
    Option.toList_eq_nil_iff, and_assoc]
  refine and_congr_right fun hblocking => ?_
  obtain ⟨⟨hreads, -⟩, hobject⟩ := blocking_eq_none.mp hblocking
  have hmanifest : revisionProblems kind (document codecs kind held recorded).manifest recorded =
      [] ↔ ∀ named bytes manifest, recorded = some named → held.manifest = some bytes →
        codecs.manifest.read bytes = .ok manifest → manifest.document = kind →
          manifest.contractVersion ≤ CONTRACT_VERSION → manifest.revision = named.revision := by
    rw [revisionProblems_eq_nil]
    constructor
    · intro h named bytes manifest hnamed hbytes hread hdocument hsupported
      exact h _ named ((state_eq_held_iff hreads hobject).mpr
        ⟨bytes, manifest, hbytes, hread, hdocument, hsupported, rfl⟩) hnamed
    · intro h revision named hstate hnamed
      obtain ⟨bytes, manifest, hbytes, hread, hdocument, hsupported, rfl⟩ :=
        (state_eq_held_iff hreads hobject).mp hstate
      exact h named bytes manifest hnamed hbytes hread hdocument hsupported
  constructor
  · rintro ⟨hmatches, hrevisions⟩
    refine ⟨hpayload.mp fun hfalse => ?_, hmanifest.mp hrevisions⟩
    rw [if_pos hfalse] at hmatches
    cases hmatches
  · exact fun h => ⟨if_neg (hpayload.mpr h.payload), hmanifest.mpr h.manifest⟩

/-- A stable observation is clear where nothing is wrong with the target. -/
theorem clear_iff : (diagnose codecs ⟨target, true⟩).clear = true ↔ Clear codecs target := by
  have hclear : (diagnose codecs ⟨target, true⟩).clear = true ↔
      ∀ problem, problem ∉ (diagnose codecs ⟨target, true⟩).problems := by
    rw [← List.eq_nil_iff_forall_not_mem]
    exact List.isEmpty_iff
  have hparts : (∀ problem, problem ∉ (diagnose codecs ⟨target, true⟩).problems) ↔
      (recordState codecs target.record).1.problems = [] ∧
      (∀ kind, documentProblems codecs kind (target.document kind)
        (recordedOf codecs target kind) = []) ∧
      resourceProblems codecs target
        ((usableRecord codecs target).bind PublicationRecord.registry) = [] := by
    simp only [mem_problems, not_or, not_exists, List.eq_nil_iff_forall_not_mem, forall_and]
    refine and_congr_right fun _ => and_congr_left fun _ => forall_comm
  rw [hclear, hparts, recordProblems_eq_nil, resourceProblems_eq_nil]
  simp only [documentProblems_eq_nil, blocking_eq_none]
  constructor
  · rintro ⟨hrecord, hdocuments, hresources⟩
    exact ⟨⟨hrecord, fun kind => (hdocuments kind).1.1.1, (hdocuments .tenants).1.1.2,
      (hdocuments .dataSources).1.1.2⟩, fun kind => (hdocuments kind).1.2,
      fun kind => (hdocuments kind).2, hresources⟩
  · intro h
    refine ⟨h.readable.record, fun kind => ⟨⟨⟨h.readable.manifest kind, ?_⟩, h.objects kind⟩,
      h.documents kind⟩, h.resources⟩
    cases kind with
    | tenants => exact h.readable.tenants
    | dataSources => exact h.readable.dataSources
    | catalog => trivial

end Clear

/-! ## Where they agree -/

section Agreement

variable {codecs : RecoveryCodecs} {target : Target}

/-- Recovery and a publication agree about a target: recovery reports that a publication is
blocked where one is refused whatever it offers, and clear only where nothing that is held
differs from the record. -/
structure Agrees (codecs : RecoveryCodecs) (target : Target) : Prop where
  blocks : (diagnose codecs ⟨target, true⟩).Blocks ↔ Refused codecs.toCodecs target
  clear : (diagnose codecs ⟨target, true⟩).clear = true →
    ¬ ∃ gap ∈ (assess codecs.toCodecs target target.record).gaps, gap.Mismatch

/-- A manifest of a newer contract names another revision than the record. -/
def NewerApart (codecs : RecoveryCodecs) (target : Target) (kind : DocumentKind) : Prop :=
  ∃ named bytes manifest, recordedOf codecs target kind = some named ∧
    (target.document kind).manifest = some bytes ∧ codecs.manifest.read bytes = .ok manifest ∧
      manifest.document = kind ∧ CONTRACT_VERSION < manifest.contractVersion ∧
        manifest.revision ≠ named.revision

theorem read_of_parseHeld {codecs : Codecs} {bytes : Bytes} {record : PublicationRecord}
    (h : PublicationRecord.parseHeld codecs bytes = .ok record) :
    codecs.record.read bytes = .ok record := by
  obtain ⟨_, -, hread⟩ := bind_eq_ok.mp h
  exact mapError_eq_ok.mp hread

/-- A clear target differs from its record in the revisions of newer manifests only. -/
theorem Clear.mismatch_iff (h : Clear codecs target) :
    (∃ gap ∈ (assess codecs.toCodecs target target.record).gaps, gap.Mismatch) ↔
      ∃ kind, NewerApart codecs target kind := by
  cases hrecord : target.record with
  | none =>
      have hnone : ∀ kind, recordedOf codecs target kind = none := by
        intro kind
        unfold recordedOf usableRecord
        rw [hrecord]
        rfl
      have hgaps : (assess codecs.toCodecs target none).gaps = [] := by
        unfold assess
        rw [hrecord]
        rfl
      rw [hgaps]
      constructor
      · rintro ⟨gap, hgap, -⟩
        exact absurd hgap List.not_mem_nil
      · rintro ⟨kind, named, _, _, hnamed, -⟩
        rw [hnone] at hnamed
        cases hnamed
  | some bytes =>
      obtain ⟨record, hparsed⟩ := h.readable.record bytes hrecord
      have husable : usableRecord codecs target = some record :=
        usableRecord_eq_some.mpr ⟨bytes, hrecord, hparsed⟩
      have hnamed : ∀ kind, recordedOf codecs target kind =
          some (record.documents.document kind) := by
        intro kind
        unfold recordedOf
        rw [husable]
        rfl
      rw [← hrecord, gaps_assess hrecord (read_of_parseHeld hparsed), mismatch_recordGaps]
      constructor
      · rintro (⟨kind, hrevision | ⟨payload, hpayload, hdigest⟩⟩ | ⟨named, registry, hregistry,
          hheld, hdigest⟩)
        · obtain ⟨manifestBytes, manifest, hmanifest, hread, hkind, hapart⟩ :=
            manifestGap_eq_revisionMismatch.mp hrevision
          refine ⟨kind, _, manifestBytes, manifest, hnamed kind, hmanifest, hread, hkind, ?_,
            hapart⟩
          -- A manifest of a version that is read agrees with the record, for the target is clear.
          by_contra hsupported
          exact hapart ((h.documents kind).manifest _ manifestBytes manifest (hnamed kind)
            hmanifest hread hkind (not_lt.mp hsupported))
        · obtain ⟨found, hfound, hsame⟩ := (h.documents kind).payload _ (hnamed kind)
          rw [hpayload] at hfound
          cases hfound
          exact absurd hsame hdigest
        · have hbind : (usableRecord codecs target).bind PublicationRecord.registry =
              some named := by
            rw [husable]
            exact hregistry
          obtain ⟨found, document, hclear⟩ := h.resources.registry named hbind
          have hsame := hclear.held
          rw [hheld] at hsame
          cases hsame
          exact absurd hclear.digest hdigest
      · rintro ⟨kind, named, manifestBytes, manifest, hname, hmanifest, hread, hkind, -, hapart⟩
        rw [hnamed kind] at hname
        cases hname
        exact Or.inl ⟨kind, Or.inl (manifestGap_eq_revisionMismatch.mpr
          ⟨manifestBytes, manifest, hmanifest, hread, hkind, hapart⟩)⟩

/-- They agree exactly where no manifest was misread on a target that can be read, and no newer
manifest is at another revision on a target that is clear. -/
theorem agrees_iff : Agrees codecs target ↔
    ¬ (Readable codecs.toCodecs target ∧
        ∃ kind, Misread codecs kind (target.document kind)) ∧
      ¬ (Clear codecs target ∧ ∃ kind, NewerApart codecs target kind) := by
  constructor
  · rintro ⟨hblocks, hclear⟩
    constructor
    · rintro ⟨hreadable, hmisread⟩
      exact refused_iff.mp (hblocks.mp (blocks_iff.mpr (Or.inr hmisread))) hreadable
    · rintro ⟨h, hnewer⟩
      exact hclear (clear_iff.mpr h) (h.mismatch_iff.mpr hnewer)
  · rintro ⟨hmisread, hnewer⟩
    constructor
    · rw [blocks_iff, refused_iff]
      refine ⟨fun h => ?_, Or.inl⟩
      rcases h with hunread | hfound
      · exact hunread
      · exact fun hreadable => hmisread ⟨hreadable, hfound⟩
    · intro hclear hmismatch
      have h := clear_iff.mp hclear
      exact hnewer ⟨h, h.mismatch_iff.mp hmismatch⟩

/-! ## A catalogue of a newer publisher -/

/-- The manifest of a contract after this one, at the revision after the record's. -/
def newerManifest : DocumentManifest := ⟨CONTRACT_VERSION + 1, .catalog, 2⟩

def newerManifestText : String := "\x7b" ++
  "\n  \"contract_version\": 4,\n  \"document\": \"catalog\",\n  \"revision\": 2\n" ++ "\x7d"

/-- The manifests of revision 1, and that one, each beside what is written of it. -/
def newerEntries : List (DocumentManifest × Bytes) :=
  [(newerManifest, newerManifestText.toUTF8),
    (DocumentManifest.new .tenants 1, (manifestText "tenants" "1").toUTF8),
    (DocumentManifest.new .dataSources 1, (manifestText "data-sources" "1").toUTF8)]

theorem newerEntries_sample : ∀ entry ∈ newerEntries, Library.IsSample entry.2 := by
  intro entry hentry
  simp only [newerEntries, List.mem_cons, List.not_mem_nil, or_false] at hentry
  rcases hentry with rfl | rfl | rfl <;> exact Library.isSample_braces _

theorem newerEntries_values : (newerEntries.map Prod.fst).Nodup := by decide +kernel

theorem newerEntries_apart :
    newerEntries.Pairwise fun first second => first.2.data.toList ≠ second.2.data.toList := by
  decide +kernel

def newerManifests : Sample DocumentManifest :=
  ⟨newerEntries, newerEntries_sample, newerEntries_values, newerEntries_apart⟩

/-- What serde writes of the orders, beside those manifests. -/
def newerSamples : Samples := { bareSamples with manifest := newerManifests }

/-- What serde reads of it as JSON values: what starts with a brace is an object. -/
noncomputable def newerCodecs : RecoveryCodecs where
  toCodecs := newerSamples.codecs
  readValue bytes := .ok (if bytes.data[0]? = some 123 then .object else .other)
  sanitized := id

/-- The orders as they are first published, but for the manifest of their catalogue. -/
def newerTarget : Target where
  tenants := ⟨some (lineOf (manifestText "tenants" "1")), some (lineOf "[]")⟩
  dataSources := ⟨some (lineOf (manifestText "data-sources" "1")), some (lineOf "[]")⟩
  catalog := ⟨some (lineOf newerManifestText), some (lineOf ordersText)⟩
  record := some (lineOf (bareRecordText "1" "1" ordersDigest))
  registry := none

/-- What is read of each manifest. -/
theorem newerTarget_manifest (kind : DocumentKind) :
    ∃ bytes manifest, (newerTarget.document kind).manifest = some bytes ∧
      newerCodecs.manifest.read bytes = .ok manifest ∧ manifest.document = kind ∧
        newerCodecs.readValue bytes = .ok .object ∧
          (manifest.contractVersion ≤ CONTRACT_VERSION → manifest.revision = 1) := by
  have hfaithful := newerSamples.lawful.manifest
  cases kind with
  | tenants =>
      have hline : newerCodecs.manifest.line (DocumentManifest.new .tenants 1) =
          .ok (lineOf (manifestText "tenants" "1")) :=
        Sample.line_of_mem (List.mem_cons_of_mem _ List.mem_cons_self)
      exact ⟨_, _, rfl, hfaithful.read_line hline, rfl, by decide +kernel, fun _ => rfl⟩
  | dataSources =>
      have hline : newerCodecs.manifest.line (DocumentManifest.new .dataSources 1) =
          .ok (lineOf (manifestText "data-sources" "1")) :=
        Sample.line_of_mem (List.mem_cons_of_mem _ (List.mem_cons_of_mem _ List.mem_cons_self))
      exact ⟨_, _, rfl, hfaithful.read_line hline, rfl, by decide +kernel, fun _ => rfl⟩
  | catalog =>
      have hline : newerCodecs.manifest.line newerManifest = .ok (lineOf newerManifestText) :=
        Sample.line_of_mem List.mem_cons_self
      exact ⟨_, _, rfl, hfaithful.read_line hline, rfl, by decide +kernel, by decide⟩

theorem newerTarget_record : PublicationRecord.parseHeld newerCodecs.toCodecs
    (lineOf (bareRecordText "1" "1" ordersDigest)) = .ok (bareRecord 1 1 ordersDigest) := by
  have hline : newerSamples.codecs.record.line (bareRecord 1 1 ordersDigest) =
      .ok (lineOf (bareRecordText "1" "1" ordersDigest)) :=
    Sample.line_of_mem List.mem_cons_self
  exact PublicationRecord.parseHeld_line newerSamples.lawful rfl hline

theorem newerTarget_recordedOf (kind : DocumentKind) :
    recordedOf newerCodecs newerTarget kind =
      some ((bareRecord 1 1 ordersDigest).documents.document kind) := by
  have husable : usableRecord newerCodecs newerTarget = some (bareRecord 1 1 ordersDigest) :=
    usableRecord_eq_some.mpr ⟨_, rfl, newerTarget_record⟩
  unfold recordedOf
  rw [husable]
  rfl

/-- Both lists of resources are empty. -/
theorem newerTarget_tenants :
    newerCodecs.tenants.read (lineOf "[]") = .ok [] ∧
      newerCodecs.dataSources.read (lineOf "[]") = .ok [] := by
  have htenants : newerSamples.codecs.tenants.line [] = .ok (lineOf "[]") :=
    Sample.line_of_mem (List.mem_singleton.mpr rfl)
  have hdataSources : newerSamples.codecs.dataSources.line [] = .ok (lineOf "[]") :=
    Sample.line_of_mem (List.mem_singleton.mpr rfl)
  exact ⟨newerSamples.lawful.tenants.read_line htenants,
    newerSamples.lawful.dataSources.read_line hdataSources⟩

theorem newerTarget_clear : Clear newerCodecs newerTarget where
  readable :=
    { record := by
        intro bytes hbytes
        cases hbytes
        exact ⟨_, newerTarget_record⟩
      manifest := by
        intro kind bytes hbytes
        obtain ⟨found, manifest, hfound, hread, hkind, -⟩ := newerTarget_manifest kind
        rw [hbytes] at hfound
        cases hfound
        exact ⟨manifest, hread, hkind⟩
      tenants := ⟨fun _ => rfl, fun bytes hbytes => by
        cases hbytes
        exact ⟨_, newerTarget_tenants.1⟩⟩
      dataSources := ⟨fun _ => rfl, fun bytes hbytes => by
        cases hbytes
        exact ⟨_, newerTarget_tenants.2⟩⟩ }
  objects := by
    rintro kind ⟨bytes, _, hbytes, -, -, hother⟩
    obtain ⟨found, _, hfound, -, -, hobject, -⟩ := newerTarget_manifest kind
    rw [hbytes] at hfound
    cases hfound
    exact hother hobject
  documents := by
    intro kind
    have hdigest : ∃ bytes, (newerTarget.document kind).payload = some bytes ∧
        newerSamples.codecs.sha256Hex bytes =
          ((bareRecord 1 1 ordersDigest).documents.document kind).sha256 := by
      have hempty : newerSamples.codecs.sha256Hex (lineOf "[]") = toString emptyDigest :=
        congrArg RecordedDocument.sha256 (bareSamples_empty 1)
      have htabled : Library.tabled newerSamples.digests ⟨0⟩ (lineOf ordersText) =
          ordersDigest := by decide +kernel
      have horders : newerSamples.codecs.sha256Hex (lineOf ordersText) = toString ordersDigest :=
        congrArg toString htabled
      cases kind with
      | tenants => exact ⟨lineOf "[]", rfl, hempty⟩
      | dataSources => exact ⟨lineOf "[]", rfl, hempty⟩
      | catalog => exact ⟨lineOf ordersText, rfl, horders⟩
    constructor
    · intro named hnamed
      -- The record names what is held, by the digests of its payloads.
      rw [newerTarget_recordedOf] at hnamed
      cases hnamed
      exact hdigest
    · intro named bytes manifest hnamed hbytes hread _ hsupported
      rw [newerTarget_recordedOf] at hnamed
      cases hnamed
      obtain ⟨found, other, hfound, hok, -, -, hrevision⟩ := newerTarget_manifest kind
      rw [hbytes] at hfound
      cases hfound
      rw [hread] at hok
      cases hok
      have hone : ((bareRecord 1 1 ordersDigest).documents.document kind).revision = 1 := by
        cases kind <;> rfl
      rw [hone]
      exact hrevision hsupported
  resources := by
    have htenants : ∀ tenants, HoldsAs newerCodecs.tenants newerTarget.tenants tenants →
        tenants = [] := by
      rintro tenants ⟨bytes, hbytes, hread⟩
      cases hbytes
      rw [newerTarget_tenants.1] at hread
      cases hread
      rfl
    have hdataSources : ∀ dataSources,
        HoldsAs newerCodecs.dataSources newerTarget.dataSources dataSources →
          dataSources = [] := by
      rintro dataSources ⟨bytes, hbytes, hread⟩
      cases hbytes
      rw [newerTarget_tenants.2] at hread
      cases hread
      rfl
    refine ⟨fun tenants h => ?_, fun dataSources h => ?_, fun tenants _ h _ => ?_, ?_⟩
    · rw [htenants tenants h]
      exact ⟨List.nodup_nil, fun tenant htenant => absurd htenant List.not_mem_nil⟩
    · rw [hdataSources dataSources h]
      exact List.nodup_nil
    · rw [htenants tenants h]
      exact fun tenant htenant => absurd htenant List.not_mem_nil
    · intro named hnamed
      have husable : usableRecord newerCodecs newerTarget = some (bareRecord 1 1 ordersDigest) :=
        usableRecord_eq_some.mpr ⟨_, rfl, newerTarget_record⟩
      rw [husable] at hnamed
      cases hnamed

/-- The diagnosis of that target is clear, while its catalogue is at another revision than the
record names. -/
theorem newerTarget_disagrees : ¬ Agrees newerCodecs newerTarget := by
  intro h
  have hline : newerCodecs.manifest.line newerManifest = .ok (lineOf newerManifestText) :=
    Sample.line_of_mem List.mem_cons_self
  have hapart : NewerApart newerCodecs newerTarget .catalog :=
    ⟨_, _, newerManifest, newerTarget_recordedOf .catalog, rfl,
      newerSamples.lawful.manifest.read_line hline, rfl, by decide, by decide⟩
  exact h.clear (clear_iff.mpr newerTarget_clear)
    (newerTarget_clear.mismatch_iff.mpr ⟨.catalog, hapart⟩)

end Agreement

end HeldRecovery
end Publication
end SaasFabric
