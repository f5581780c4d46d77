import SaasFabric.Publication.Commits

/-!
# What a document's revision names

A record names a revision and a digest of each document.  A payload is written before its
manifest, so a publication that stops between the two leaves new bytes under an old
revision.  Where no snapshot offers exactly those bytes at that revision, a revision names
one digest in everything that is committed.
-/

namespace SaasFabric
namespace Publication

variable {codecs : Codecs}

/-! ## By kind -/

/-- The document of a kind, of what is held. -/
def HeldDocuments.document (held : HeldDocuments) : DocumentKind → HeldDocument
  | .tenants => held.tenants
  | .dataSources => held.dataSources
  | .catalog => held.catalog

/-- The document of a kind, of what a record names. -/
def RecordedDocuments.document (documents : RecordedDocuments) : DocumentKind → RecordedDocument
  | .tenants => documents.tenants
  | .dataSources => documents.dataSources
  | .catalog => documents.catalog

/-- The document of a kind, of what is planned. -/
def PublicationPlan.document (plan : PublicationPlan) : DocumentKind → DocumentPlan
  | .tenants => plan.tenants
  | .dataSources => plan.dataSources
  | .catalog => plan.catalog

/-- The revision a snapshot offers a document at. -/
def RuntimeSnapshot.revision (snapshot : RuntimeSnapshot) : DocumentKind → DocumentRevision
  | .tenants => snapshot.tenants.revision
  | .dataSources => snapshot.dataSources.revision
  | .catalog => snapshot.catalog.revision

/-- The bytes a snapshot offers of a document. -/
def RuntimeSnapshot.bytes (codecs : Codecs) (snapshot : RuntimeSnapshot) :
    DocumentKind → Except String Bytes
  | .tenants => tenantsCanonicalJson codecs snapshot.tenants.payload
  | .dataSources => dataSourcesCanonicalJson codecs snapshot.dataSources.payload
  | .catalog => codecs.catalog.line snapshot.catalog.payload

section Kinds

variable {snapshot : RuntimeSnapshot} {held after : HeldDocuments} {plan : PublicationPlan}
  {record : Option PublicationRecord} {published : PublishedResources}

theorem Planned.document (h : Planned codecs snapshot held plan record published)
    (kind : DocumentKind) :
    decideDocument kind ((held.document kind).held (recordedRevision record (·.document kind)))
      (snapshot.revision kind) (snapshot.bytes codecs kind) = .ok (plan.document kind) := by
  cases kind with
  | tenants => exact h.tenants
  | dataSources => exact h.dataSources
  | catalog => exact h.catalog

theorem Left.document (h : Left plan held after) (kind : DocumentKind) :
    DocumentLeft kind (plan.document kind) (held.document kind) (after.document kind) := by
  cases kind with
  | tenants => exact h.tenants
  | dataSources => exact h.dataSources
  | catalog => exact h.catalog

theorem document_carriedOut (kind : DocumentKind) :
    (plan.carriedOut held).document kind =
      (plan.document kind).carriedOut kind (held.document kind) := by
  cases kind <;> rfl

theorem Planned.recorded_document (h : Planned codecs snapshot held plan record published)
    (kind : DocumentKind) :
    plan.record.record.documents.document kind =
      RecordedDocument.of codecs (plan.document kind).revision (plan.document kind).bytes := by
  obtain ⟨generation, hrecord⟩ := h.records.record
  rw [hrecord]
  cases kind <;> rfl

end Kinds

/-! ## One document -/

/-- A later record of a document names no lower revision, and at the same one the same
digest. -/
def RecordedDocument.Follows (earlier later : RecordedDocument) : Prop :=
  earlier.revision ≤ later.revision ∧ (earlier.revision = later.revision → earlier = later)

theorem RecordedDocument.Follows.trans {first second third : RecordedDocument}
    (h : first.Follows second) (hnext : second.Follows third) : first.Follows third := by
  refine ⟨h.1.trans hnext.1, fun heq => ?_⟩
  have hsecond : first.revision = second.revision :=
    le_antisymm h.1 (heq ▸ hnext.1)
  have hthird : second.revision = third.revision := hsecond ▸ heq
  exact (h.2 hsecond).trans (hnext.2 hthird)

/-- A document over a run: what was committed of it is in order, and its manifest is beside
a payload and not behind what was committed last. -/
structure Versioned (held : HeldDocument) (named : List RecordedDocument) : Prop where
  ordered : named.Pairwise RecordedDocument.Follows
  payload : held.manifest.isSome → held.payload.isSome
  manifest : ∀ last, named.getLast? = some last →
    ∃ manifest, held.manifest = some manifest ∧ last.revision ≤ manifest.revision

theorem versioned_absent : Versioned .absent [] :=
  ⟨List.Pairwise.nil, fun h => h, fun _ hlast => nomatch hlast⟩

section Document

variable {kind : DocumentKind} {held after : HeldDocument} {named : List RecordedDocument}
  {revision : DocumentRevision} {bytes : Except String Bytes} {plan : DocumentPlan}

/-- What is held beside a manifest is at its revision. -/
theorem HeldDocument.held_of_manifest {manifest : DocumentManifest}
    (hmanifest : held.manifest = some manifest) (recorded : Option DocumentRevision) :
    held.held recorded = some ⟨manifest.revision, held.payload⟩ := by
  unfold HeldDocument.held
  rw [hmanifest]
  rfl

/-- Some of a document's writes leave its manifest beside a payload, and not behind. -/
theorem Versioned.left {recorded : Option DocumentRevision} (h : Versioned held named)
    (hdecided : decideDocument kind (held.held recorded) revision bytes = .ok plan)
    (hleft : DocumentLeft kind plan held after) : Versioned after named := by
  cases hleft with
  | untouched => exact h
  | payload _ => exact ⟨h.ordered, fun _ => rfl, h.manifest⟩
  | whole _ =>
      refine ⟨h.ordered, fun _ => rfl, fun last hlast => ⟨_, rfl, ?_⟩⟩
      obtain ⟨manifest, hmanifest, hle⟩ := h.manifest last hlast
      have hoffered := le_of_decideDocument hdecided (held.held_of_manifest hmanifest recorded)
      obtain ⟨-, hrevision, -⟩ := decideDocument_eq_ok.mp hdecided
      show last.revision ≤ plan.revision
      rw [hrevision]
      exact hle.trans hoffered

/-- What is offered follows what was committed last, unless it is offered at that revision
and held already with bytes the record does not name. -/
theorem Versioned.follows_last {recorded : Option DocumentRevision} (h : Versioned held named)
    (hdecided : decideDocument kind (held.held recorded) revision bytes = .ok plan)
    {last : RecordedDocument} (hlast : named.getLast? = some last)
    (hwhole : last.revision = revision → held.payload = some plan.bytes →
      last.sha256 = codecs.sha256Hex plan.bytes) :
    last.Follows (RecordedDocument.of codecs plan.revision plan.bytes) := by
  obtain ⟨manifest, hmanifest, hle⟩ := h.manifest last hlast
  have hheld := held.held_of_manifest hmanifest recorded
  have hoffered := le_of_decideDocument hdecided hheld
  obtain ⟨-, hrevision, answer, hanswer, -⟩ := decideDocument_eq_ok.mp hdecided
  rw [hrevision]
  refine ⟨hle.trans hoffered, fun heq => ?_⟩
  have hsame : last.revision = revision := heq
  have hpayload : held.payload.isSome := h.payload (by rw [hmanifest]; rfl)
  -- Offered at the revision that is held, it can only be unchanged.
  have hbytes : held.payload = some plan.bytes := by
    rcases verdict_eq_ok.mp hanswer with ⟨hnone, -⟩ | ⟨copy, hcopy, -, hcase⟩
    · rw [hheld] at hnone
      cases hnone
    · rw [hheld] at hcopy
      cases hcopy
      rcases hcase with ⟨hlost, -⟩ | ⟨-, hnewer, -⟩ | ⟨hpayload, -, -⟩
      · dsimp only at hlost
        rw [hlost] at hpayload
        cases hpayload
      · exact absurd (hsame ▸ hle) (not_le.mpr hnewer)
      · exact hpayload
  have hdigest := hwhole hsame hbytes
  obtain ⟨lastRevision, lastDigest⟩ := last
  dsimp only at hsame hdigest
  rw [hsame, hdigest]
  rfl

/-- A document that is committed stays in order. -/
theorem Versioned.committed (h : Versioned held named)
    (hdecided : decideDocument kind
      (held.held (named.getLast?.map RecordedDocument.revision)) revision bytes = .ok plan)
    (hwhole : ∀ last, named.getLast? = some last → last.revision = revision →
      held.payload = some plan.bytes → last.sha256 = codecs.sha256Hex plan.bytes) :
    Versioned (plan.carriedOut kind held)
      (named ++ [RecordedDocument.of codecs plan.revision plan.bytes]) := by
  obtain ⟨-, hrevision, -⟩ := decideDocument_eq_ok.mp hdecided
  have hordered : (named ++ [RecordedDocument.of codecs plan.revision plan.bytes]).Pairwise
      RecordedDocument.Follows := by
    refine Library.pairwise_concat (R := RecordedDocument.Follows)
      (fun _ _ _ hfirst hsecond => hfirst.trans hsecond) h.ordered ?_
    exact fun last hlast => h.follows_last hdecided hlast (hwhole last hlast)
  have hlast : ∀ last, (named ++ [RecordedDocument.of codecs plan.revision
      plan.bytes]).getLast? = some last → last.revision = plan.revision := by
    intro last hlast
    rw [List.getLast?_append] at hlast
    cases hlast
    rfl
  unfold DocumentPlan.carriedOut
  cases houtcome : plan.outcome with
  | written =>
      exact ⟨hordered, fun _ => rfl, fun last h => ⟨_, rfl, (hlast last h).le⟩⟩
  | unchanged =>
      have hheld := held_of_unchanged hdecided houtcome
      refine ⟨hordered, h.payload, fun last hfound => ?_⟩
      rw [hlast last hfound, hrevision]
      cases hmanifest : held.manifest with
      | some manifest =>
          rw [held.held_of_manifest hmanifest] at hheld
          have hsame : manifest.revision = revision := congrArg Held.revision (Option.some.inj hheld)
          exact ⟨manifest, rfl, hsame.ge⟩
      | none =>
          -- Without a manifest nothing was committed, and nothing is held.
          cases hbefore : named.getLast? with
          | none =>
              unfold HeldDocument.held at hheld
              rw [hmanifest, hbefore] at hheld
              cases hheld
          | some before =>
              obtain ⟨manifest, hsome, -⟩ := h.manifest before hbefore
              rw [hmanifest] at hsome
              cases hsome

end Document

/-! ## The publisher -/

/-- What was committed of a document, as records name it. -/
def namedAt (log : List Commit) (kind : DocumentKind) : List RecordedDocument :=
  log.map fun commit => commit.record.documents.document kind

theorem getLast?_namedAt (log : List Commit) (kind : DocumentKind) :
    (namedAt log kind).getLast? =
      (lastRecord log).map fun record => record.documents.document kind := by
  unfold namedAt lastRecord
  rw [List.getLast?_map, Option.map_map]
  rfl

theorem recordedRevision_lastRecord (log : List Commit) (kind : DocumentKind) :
    recordedRevision (lastRecord log) (·.document kind) =
      (namedAt log kind).getLast?.map RecordedDocument.revision := by
  rw [getLast?_namedAt]
  unfold recordedRevision
  rw [Option.map_map, Option.map_map]
  rfl

/-- A document that is offered exactly as it is held, at the revision the record names, while
the record names other bytes: what is held was written over and its manifest was not. -/
def Torn (codecs : Codecs) (held : HeldDocuments) (snapshot : RuntimeSnapshot)
    (kind : DocumentKind) : Prop :=
  ∃ record bytes, held.parseRecord codecs = .ok (some record) ∧
    snapshot.bytes codecs kind = .ok bytes ∧ (held.document kind).payload = some bytes ∧
    (record.documents.document kind).revision = snapshot.revision kind ∧
    (record.documents.document kind).sha256 ≠ codecs.sha256Hex bytes

/-- What a run keeps of what is held and of everything committed. -/
structure VersionedAll (codecs : Codecs) (held : HeldDocuments) (log : List Commit) : Prop where
  recorded : held.parseRecord codecs = .ok (lastRecord log)
  versioned : ∀ kind, Versioned (held.document kind) (namedAt log kind)

theorem versionedAll_absent : VersionedAll codecs HeldDocuments.absent [] :=
  ⟨rfl, fun kind => by cases kind <;> exact versioned_absent⟩

/-- An attempt that offers nothing torn keeps every document in order. -/
theorem VersionedAll.attempted (hlawful : codecs.Lawful) {held after : HeldDocuments}
    {log new : List Commit} {snapshot : RuntimeSnapshot} (h : VersionedAll codecs held log)
    (hwhole : ∀ kind, ¬ Torn codecs held snapshot kind)
    (hattempted : Attempted codecs snapshot held after new) :
    VersionedAll codecs after (log ++ new) := by
  cases hattempted with
  | refused =>
      rw [List.append_nil]
      exact h
  | interrupted hplanned hleft =>
      rw [List.append_nil]
      refine ⟨?_, fun kind => (h.versioned kind).left (hplanned.document kind)
        (hleft.document kind)⟩
      have hparsed := h.recorded
      unfold HeldDocuments.parseRecord at hparsed ⊢
      rw [hleft.record]
      exact hparsed
  | @completed plan record _ hplanned =>
      have hrecord : record = lastRecord log := by
        have hparsed := h.recorded
        rw [hplanned.reads.parsed] at hparsed
        cases hparsed
        rfl
      subst hrecord
      refine ⟨?_, fun kind => ?_⟩
      · rw [lastRecord_append]
        exact hplanned.parseRecord_carriedOut hlawful
      · have hdecided := hplanned.document kind
        rw [recordedRevision_lastRecord] at hdecided
        have hnamed : namedAt (log ++ [plan.commit snapshot]) kind = namedAt log kind ++
            [RecordedDocument.of codecs (plan.document kind).revision
              (plan.document kind).bytes] := by
          unfold namedAt
          rw [List.map_append, List.map_singleton]
          exact congrArg (_ ++ [·]) (hplanned.recorded_document kind)
        rw [hnamed, document_carriedOut]
        refine (h.versioned kind).committed hdecided fun last hlast hsame hpayload => ?_
        -- Otherwise it would be offered torn.
        by_contra hdigest
        rw [getLast?_namedAt] at hlast
        obtain ⟨record, hrecord, rfl⟩ := Option.map_eq_some_iff.mp hlast
        have hparsed := h.recorded
        rw [hrecord] at hparsed
        exact hwhole kind ⟨record, _, hparsed, (decideDocument_eq_ok.mp hdecided).1, hpayload,
          hsame, hdigest⟩

end Publication
end SaasFabric
