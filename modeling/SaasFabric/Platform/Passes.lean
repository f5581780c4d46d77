import SaasFabric.Publication.Divergence
import SaasFabric.Publication.Sampled

/-!
# Passes of the platform's publisher

`fabric-platform-management`'s `publication/protocol.rs`, over the filesystem adapter: a pass
reads the revisions that are held, offers its documents at those, advances a document that
diverges and offers again, and offers again at once what could not be written.
-/

namespace SaasFabric
namespace Platform

open Publication

/-! ## Offering -/

/-- `MAX_RETRIES`. -/
def MAX_RETRIES : Nat := 3

/-- `MAX_INTERRUPTED_RETRIES`. -/
def MAX_INTERRUPTED_RETRIES : Nat := 2

/-- What can go wrong before an offer is planned: the lock is held or cannot be opened, or a
file cannot be read. -/
inductive Fault where
  | locked (cause : String)
  | unread (document : DocumentKind) (cause : String)

/-- The error it is reported as. -/
def Fault.error : Fault → PublicationError
  | .locked cause => .unwritable .tenants cause
  | .unread document cause => .unreadable document cause

/-- What happens to one offer: a fault before it is planned, after how many writes it stops,
and the document and the cause the write that failed is reported with.  A process that is
gone reports nothing. -/
structure Conditions where
  fault : Option Fault
  stop : Nat
  reports : Option (DocumentKind × String)

/-- An offer, as an attempt. -/
def Conditions.attempt (conditions : Conditions) (snapshot : RuntimeSnapshot) : Attempt :=
  ⟨snapshot, conditions.fault.map Fault.error, conditions.stop⟩

/-- What a controller hears of an offer. -/
inductive Answer where
  | accepted (report : PublicationReport)
  | refused (error : PublicationError)
  | gone

/-- What is heard of an outcome. -/
def Conditions.answer (conditions : Conditions) : Outcome → Answer
  | .completed report _ => .accepted report
  | .refused error => .refused error
  | .interrupted =>
      match conditions.reports with
      | some (document, cause) => .refused (.unwritable document cause)
      | none => .gone

/-- `advance`. -/
def RuntimeSnapshot.advance (snapshot : RuntimeSnapshot) (document : DocumentKind)
    (offered : DocumentRevision) : RuntimeSnapshot :=
  let next := U64.saturatingSucc offered
  match document with
  | .tenants => { snapshot with tenants := { snapshot.tenants with revision := next } }
  | .dataSources => { snapshot with dataSources := { snapshot.dataSources with revision := next } }
  | .catalog => { snapshot with catalog := { snapshot.catalog with revision := next } }

/-- What some offers leave: the files, what happened to them, what was heard last, and the
snapshot that was offered last. -/
structure Offered where
  target : Target
  events : List Event
  answer : Answer
  snapshot : RuntimeSnapshot

/-- What was offered after something had happened already. -/
def Offered.after (offered : Offered) (events : List Event) : Offered :=
  { offered with events := events ++ offered.events }

variable (codecs : Codecs)

/-- `publish_with_retry`, with what is left of its two budgets; `offer` counts the offers, to
find what happens to each. -/
def publishWithRetry (conditions : Nat → Conditions) (offer retries interrupted : Nat)
    (target : Target) (snapshot : RuntimeSnapshot) : Offered :=
  let published := publish codecs target ((conditions offer).attempt snapshot)
  match (conditions offer).answer published.outcome, retries, interrupted with
  | .refused (.divergentPayload document revision), retries + 1, interrupted =>
      (publishWithRetry conditions (offer + 1) retries interrupted published.target
        (RuntimeSnapshot.advance snapshot document revision)).after published.events
  | .refused (.unwritable _ _), retries, interrupted + 1 =>
      (publishWithRetry conditions (offer + 1) retries interrupted published.target
        snapshot).after published.events
  | answer, _, _ => ⟨published.target, published.events, answer, snapshot⟩
termination_by retries + interrupted

/-- `revision_or_first`. -/
def revisionOrFirst (held : Option DocumentRevision) : DocumentRevision := held.getD 1

/-- Some documents, at the revisions they are held at. -/
def RuntimeSnapshot.startingAt (snapshot : RuntimeSnapshot) (held : PublishedRevisions) :
    RuntimeSnapshot where
  tenants := { snapshot.tenants with revision := revisionOrFirst held.tenants }
  dataSources := { snapshot.dataSources with revision := revisionOrFirst held.dataSources }
  catalog := { snapshot.catalog with revision := revisionOrFirst held.catalog }
  registry := snapshot.registry

/-- A pass: what it offers, whatever revisions that names, what happens when it reads what is
held, and what happens to each of its offers. -/
structure Pass where
  contents : RuntimeSnapshot
  unread : Option Fault
  conditions : Nat → Conditions

/-- `run_pass`, from reading what is held to the last offer. -/
def runPass (target : Target) (pass : Pass) : Target × List Event :=
  match pass.unread with
  | some _ => (target, [])
  | none =>
      match readHeld codecs target with
      | .error _ => (target, [])
      | .ok held =>
          let offered := publishWithRetry codecs pass.conditions 0 MAX_RETRIES
            MAX_INTERRUPTED_RETRIES target
            (RuntimeSnapshot.startingAt pass.contents (held.revisions codecs))
          (offered.target, offered.events)

/-- A target under passes. -/
def passes : Library.Machine Target Pass Event := ⟨runPass codecs⟩

variable {codecs}

theorem passes_step (target : Target) (pass : Pass) :
    (passes codecs).step target pass = runPass codecs target pass := rfl

/-! ## Revisions -/

theorem revision_advance (snapshot : RuntimeSnapshot) (document kind : DocumentKind)
    (offered : DocumentRevision) :
    (RuntimeSnapshot.advance snapshot document offered).revision kind =
      if kind = document then U64.saturatingSucc offered else snapshot.revision kind := by
  cases document <;> cases kind <;> rfl

theorem bytes_advance (snapshot : RuntimeSnapshot) (document kind : DocumentKind)
    (offered : DocumentRevision) :
    (RuntimeSnapshot.advance snapshot document offered).bytes codecs kind =
      snapshot.bytes codecs kind := by
  cases document <;> cases kind <;> rfl

/-- A document whose manifest is held is offered first at the manifest's revision. -/
theorem revision_startingAt {held : HeldDocuments} {contents : RuntimeSnapshot}
    {kind : DocumentKind} {manifest : DocumentManifest}
    (h : (held.document kind).manifest = some manifest) :
    (RuntimeSnapshot.startingAt contents (held.revisions codecs)).revision kind =
      manifest.revision := by
  have hrevision : ∀ recorded : Option DocumentRevision, revisionOrFirst
      (((held.document kind).manifest.map DocumentManifest.revision).or recorded) =
        manifest.revision := by
    intro recorded
    rw [h]
    rfl
  cases kind with
  | tenants => exact hrevision _
  | dataSources => exact hrevision _
  | catalog => exact hrevision _

/-! ## One pass -/

/-- What the offers of a pass keep, from the state it read: the record; and of each document
the bytes that are offered, and either what is held with the revision it was offered at, or
that it is offered above what the record names. -/
structure Offering (codecs : Codecs) (start held : HeldDocuments)
    (first snapshot : RuntimeSnapshot) : Prop where
  record : held.record = start.record
  bytes : ∀ kind, snapshot.bytes codecs kind = first.bytes codecs kind
  documents : ∀ kind, (held.document kind = start.document kind ∧
      snapshot.revision kind = first.revision kind) ∨
    ∀ record, start.parseRecord codecs = .ok (some record) →
      (record.documents.document kind).revision < snapshot.revision kind

section Offering

variable {start held after : HeldDocuments} {first snapshot : RuntimeSnapshot}
  {log : List Commit} {plan : PublicationPlan} {record : Option PublicationRecord}
  {published : PublishedResources}

theorem Offering.refl : Offering codecs held held first first :=
  ⟨rfl, fun _ => rfl, fun _ => Or.inl ⟨rfl, rfl⟩⟩

theorem Offering.parseRecord (h : Offering codecs start held first snapshot) :
    held.parseRecord codecs = start.parseRecord codecs := by
  unfold HeldDocuments.parseRecord
  rw [h.record]

/-- Where the first offer is not torn, no later one is. -/
theorem Offering.whole (h : Offering codecs start held first snapshot)
    (hwhole : ∀ kind, ¬ Torn codecs start first kind) (kind : DocumentKind) :
    ¬ Torn codecs held snapshot kind := by
  rintro ⟨record, bytes, hrecord, hbytes, hpayload, hrevision, hdigest⟩
  rw [h.parseRecord] at hrecord
  rcases h.documents kind with ⟨hdocument, hsame⟩ | habove
  · rw [h.bytes] at hbytes
    rw [hdocument] at hpayload
    rw [hsame] at hrevision
    exact hwhole kind ⟨record, bytes, hrecord, hbytes, hpayload, hrevision, hdigest⟩
  · exact absurd hrevision (habove record hrecord).ne

/-- Advancing the document that diverged keeps the offering. -/
theorem Offering.advance (h : Offering codecs start held first snapshot)
    (hfirst : ∀ kind record, start.parseRecord codecs = .ok (some record) →
      (record.documents.document kind).revision ≤ first.revision kind)
    (document : DocumentKind) :
    Offering codecs start held first
      (RuntimeSnapshot.advance snapshot document (snapshot.revision document)) := by
  refine ⟨h.record, fun kind => (bytes_advance _ _ _ _).trans (h.bytes kind), fun kind => ?_⟩
  rw [revision_advance]
  by_cases hkind : kind = document
  · subst hkind
    rw [if_pos rfl]
    rcases h.documents kind with ⟨hdocument, hsame⟩ | habove
    · rcases (U64.le_saturatingSucc (snapshot.revision kind)).lt_or_eq with hlt | heq
      · refine Or.inr fun record hrecord => lt_of_le_of_lt ?_ hlt
        rw [hsame]
        exact hfirst kind record hrecord
      · -- At the last revision there is nothing to advance to.
        exact Or.inl ⟨hdocument, heq ▸ hsame⟩
    · exact Or.inr fun record hrecord =>
        (habove record hrecord).trans_le (U64.le_saturatingSucc _)
  · rw [if_neg hkind]
    exact h.documents kind

/-- A document that is written is offered above what was committed of it. -/
theorem lt_revision_of_written (h : VersionedAll codecs held log)
    (hplanned : Planned codecs snapshot held plan record published) {kind : DocumentKind}
    (hwritten : (plan.document kind).outcome = .written) {last : PublicationRecord}
    (hlast : held.parseRecord codecs = .ok (some last)) :
    (last.documents.document kind).revision < snapshot.revision kind := by
  have hrecord : lastRecord log = some last := by
    have hparsed := h.recorded
    rw [hlast] at hparsed
    exact (Except.ok.inj hparsed).symm
  have hnamed : (namedAt log kind).getLast? = some (last.documents.document kind) := by
    rw [getLast?_namedAt, hrecord]
    rfl
  obtain ⟨manifest, hmanifest, hle⟩ := (h.versioned kind).manifest _ hnamed
  have hpayload := (h.versioned kind).payload (by rw [hmanifest]; rfl)
  obtain ⟨-, -, answer, hanswer, houtcome⟩ := decideDocument_eq_ok.mp (hplanned.document kind)
  rw [HeldDocument.held_of_manifest hmanifest] at hanswer
  rw [hwritten] at houtcome
  rcases verdict_eq_ok.mp hanswer with ⟨hnone, -⟩ | ⟨copy, hcopy, -, hcase⟩
  · cases hnone
  · cases hcopy
    rcases hcase with ⟨hlost, -⟩ | ⟨-, hnewer, -⟩ | ⟨-, -, hunchanged⟩
    · dsimp only at hlost
      rw [hlost] at hpayload
      cases hpayload
    · exact hle.trans_lt hnewer
    · rw [← hunchanged] at houtcome
      cases houtcome

/-- Some of an offer's writes keep the offering. -/
theorem Offering.left (h : Offering codecs start held first snapshot)
    (hversioned : VersionedAll codecs held log)
    (hplanned : Planned codecs snapshot held plan record published)
    (hleft : Left plan held after) : Offering codecs start after first snapshot := by
  refine ⟨hleft.record.trans h.record, h.bytes, fun kind => ?_⟩
  have hwritten : (plan.document kind).outcome = .written → ∀ record,
      start.parseRecord codecs = .ok (some record) →
        (record.documents.document kind).revision < snapshot.revision kind := by
    intro houtcome record hrecord
    rw [← h.parseRecord] at hrecord
    exact lt_revision_of_written hversioned hplanned houtcome hrecord
  have hdocument := hleft.document kind
  generalize after.document kind = left at hdocument
  cases hdocument with
  | untouched => exact h.documents kind
  | payload houtcome => exact Or.inr (hwritten houtcome)
  | whole houtcome => exact Or.inr (hwritten houtcome)

end Offering

/-- An offer that is answered as divergent wrote nothing, and names the revision it was made
at. -/
theorem publish_of_divergent (hlawful : codecs.Lawful) {target : Target} {held : HeldDocuments}
    {snapshot : RuntimeSnapshot} {conditions : Conditions} {document : DocumentKind}
    {revision : DocumentRevision} (hheld : readHeld codecs target = .ok held)
    (hanswer : conditions.answer (publish codecs target (conditions.attempt snapshot)).outcome =
      .refused (.divergentPayload document revision)) :
    publish codecs target (conditions.attempt snapshot) =
        ⟨target, [], .refused (.divergentPayload document revision)⟩ ∧
      revision = snapshot.revision document := by
  rcases publish_cases hlawful hheld (conditions.attempt snapshot) with
    ⟨error, hrefused, hcause⟩ | ⟨plan, _, _, _, -, -, ⟨houtcome, -⟩ | ⟨houtcome, -⟩⟩
  · rw [hrefused] at hanswer ⊢
    cases hanswer
    refine ⟨rfl, ?_⟩
    rcases hcause with hfault | hplan
    · obtain ⟨fault, -, herror⟩ := Option.map_eq_some_iff.mp hfault
      cases fault <;> cases herror
    · exact planPublication_diverges hplan
  · rw [houtcome] at hanswer
    unfold Conditions.answer at hanswer
    dsimp only at hanswer
    split at hanswer <;> cases hanswer
  · rw [houtcome] at hanswer
    cases hanswer

/-- An offer that is refused keeps the offering, whatever it wrote. -/
theorem Offering.refused (hlawful : codecs.Lawful) {start held after : HeldDocuments}
    {first snapshot : RuntimeSnapshot} {log : List Commit} {target : Target}
    {conditions : Conditions} {error : PublicationError}
    (h : Offering codecs start held first snapshot) (hversioned : VersionedAll codecs held log)
    (hheld : readHeld codecs target = .ok held)
    (hafter : readHeld codecs (publish codecs target (conditions.attempt snapshot)).target =
      .ok after)
    (hanswer : conditions.answer (publish codecs target (conditions.attempt snapshot)).outcome =
      .refused error) : Offering codecs start after first snapshot := by
  rcases publish_cases hlawful hheld (conditions.attempt snapshot) with
    ⟨_, hrefused, -⟩ | ⟨plan, _, _, _, hplanned, hleftHeld, ⟨-, hleft⟩ | ⟨houtcome, -⟩⟩
  · rw [hrefused, hheld] at hafter
    cases hafter
    exact h
  · rw [hleftHeld] at hafter
    cases hafter
    exact h.left hversioned hplanned hleft
  · rw [houtcome] at hanswer
    cases hanswer

/-- What the offers of a pass keep: where the first is not torn, every document stays in
order.  By induction on what is left of the two budgets. -/
theorem publishWithRetry_versioned (hlawful : codecs.Lawful) {start : HeldDocuments}
    {first : RuntimeSnapshot} (hwhole : ∀ kind, ¬ Torn codecs start first kind)
    (hfirst : ∀ kind record, start.parseRecord codecs = .ok (some record) →
      (record.documents.document kind).revision ≤ first.revision kind)
    (conditions : Nat → Conditions) (offer retries interrupted : Nat) (target : Target)
    (snapshot : RuntimeSnapshot) {held : HeldDocuments} {log : List Commit}
    (hheld : readHeld codecs target = .ok held) (hversioned : VersionedAll codecs held log)
    (hoffering : Offering codecs start held first snapshot) :
    ∃ after, readHeld codecs (publishWithRetry codecs conditions offer retries interrupted target
        snapshot).target = .ok after ∧
      VersionedAll codecs after (log ++ commits (publishWithRetry codecs conditions offer retries
        interrupted target snapshot).events) := by
  induction hbudget : retries + interrupted using Nat.strong_induction_on
    generalizing offer retries interrupted target snapshot held log with
  | _ budget ih =>
      obtain ⟨after, hafter, hattempted⟩ :=
        publish_spec hlawful hheld ((conditions offer).attempt snapshot)
      have hnext := hversioned.attempted hlawful (hoffering.whole hwhole) hattempted
      rw [← commits_events] at hnext
      generalize hresult : publishWithRetry codecs conditions offer retries interrupted target
        snapshot = result
      rw [publishWithRetry.eq_def] at hresult
      dsimp only at hresult
      split at hresult
      · rename_i interrupted _ _ _ document revision retries hanswer
        -- Nothing was written, and the revision is the one that was offered.
        obtain ⟨hsame, hdiverges⟩ := publish_of_divergent hlawful hheld hanswer
        subst hdiverges
        rw [hsame] at hafter hresult
        rw [hheld] at hafter
        cases hafter
        obtain ⟨last, hlast, hkept⟩ := ih (retries + interrupted) (by omega) (offer + 1) retries
          interrupted target (RuntimeSnapshot.advance snapshot document
            (snapshot.revision document)) hheld hversioned (hoffering.advance hfirst document) rfl
        subst hresult
        exact ⟨last, hlast, hkept⟩
      · rename_i retries _ _ _ document cause interrupted hanswer
        have hrefused := hoffering.refused hlawful hversioned hheld hafter hanswer
        obtain ⟨last, hlast, hkept⟩ := ih (retries + interrupted) (by omega) (offer + 1) retries
          interrupted _ snapshot hafter hnext hrefused rfl
        subst hresult
        refine ⟨last, hlast, ?_⟩
        rw [List.append_assoc, ← commits_append] at hkept
        exact hkept
      · subst hresult
        exact ⟨after, hafter, hnext⟩

/-! ## Runs of passes -/

/-- A pass that has something to offer offers no document torn: none whose held payload is exactly
what it offers while the record names other bytes at the revision it is offered at. -/
def OffersWhole (codecs : Codecs) (target : Target) (pass : Pass) : Prop :=
  pass.unread = none → ∀ held, readHeld codecs target = .ok held → ∀ kind,
    ¬ Torn codecs held (RuntimeSnapshot.startingAt pass.contents (held.revisions codecs)) kind

/-- What is recorded of a document is not above the revision it is offered at first. -/
theorem recorded_le_startingAt {held : HeldDocuments} {log : List Commit}
    (h : VersionedAll codecs held log) (contents : RuntimeSnapshot) (kind : DocumentKind)
    (record : PublicationRecord) (hrecord : held.parseRecord codecs = .ok (some record)) :
    (record.documents.document kind).revision ≤
      (RuntimeSnapshot.startingAt contents (held.revisions codecs)).revision kind := by
  have hlast : lastRecord log = some record := by
    have hparsed := h.recorded
    rw [hrecord] at hparsed
    exact (Except.ok.inj hparsed).symm
  have hnamed : (namedAt log kind).getLast? = some (record.documents.document kind) := by
    rw [getLast?_namedAt, hlast]
    rfl
  obtain ⟨manifest, hmanifest, hle⟩ := (h.versioned kind).manifest _ hnamed
  rw [revision_startingAt hmanifest]
  exact hle

/-- A pass that offers nothing torn keeps every document in order. -/
theorem runPass_versioned (hlawful : codecs.Lawful) {target : Target} {pass : Pass}
    {held : HeldDocuments} {log : List Commit} (hwhole : OffersWhole codecs target pass)
    (hheld : readHeld codecs target = .ok held) (h : VersionedAll codecs held log) :
    ∃ after, readHeld codecs (runPass codecs target pass).1 = .ok after ∧
      VersionedAll codecs after (log ++ commits (runPass codecs target pass).2) := by
  have hnothing : VersionedAll codecs held (log ++ commits []) := by
    rw [show commits [] = [] from rfl, List.append_nil]
    exact h
  unfold runPass
  cases hunread : pass.unread with
  | some fault => exact ⟨held, hheld, hnothing⟩
  | none =>
      dsimp only
      rw [hheld]
      exact publishWithRetry_versioned hlawful (hwhole hunread held hheld)
        (recorded_le_startingAt h pass.contents) pass.conditions 0 MAX_RETRIES
        MAX_INTERRUPTED_RETRIES target _ hheld h Offering.refl

/-- In every run of passes that offer nothing torn, what is committed of each document is in
order: its revision never decreases, and one revision names one digest. -/
theorem document_revision_names_one_digest (hlawful : codecs.Lawful) {run : List Pass}
    (hwhole : (passes codecs).Meets (OffersWhole codecs) Target.empty run) (kind : DocumentKind) :
    (namedAt (commits ((passes codecs).emitted Target.empty run)) kind).Pairwise
      RecordedDocument.Follows := by
  let Run (target : Target) (events : List Event) : Prop :=
    ∃ held, readHeld codecs target = .ok held ∧ VersionedAll codecs held (commits events)
  have hempty : Run Target.empty [] := ⟨HeldDocuments.absent, readHeld_empty, versionedAll_absent⟩
  have hrun : Run ((passes codecs).final Target.empty run)
      ([] ++ (passes codecs).emitted Target.empty run) := by
    refine (passes codecs).trace_invariant_of_meets Run ?_ hempty hwhole
    rintro target events pass hpass ⟨held, hheld, hversioned⟩
    obtain ⟨after, hafter, hkept⟩ := runPass_versioned hlawful hpass hheld hversioned
    refine ⟨after, hafter, ?_⟩
    rw [commits_append]
    exact hkept
  obtain ⟨held, -, hversioned⟩ := hrun
  exact (hversioned.versioned kind).ordered

/-! ## A pass that stops between a payload and its manifest -/

/-- An offer that is answered, and not refused, is the last. -/
theorem publishWithRetry_of_answer {conditions : Nat → Conditions} {offer retries interrupted : Nat}
    {target : Target} {snapshot : RuntimeSnapshot} {answer : Answer}
    (hanswer : (conditions offer).answer
      (publish codecs target ((conditions offer).attempt snapshot)).outcome = answer)
    (hlast : ∀ error, answer ≠ .refused error) :
    publishWithRetry codecs conditions offer retries interrupted target snapshot =
      ⟨(publish codecs target ((conditions offer).attempt snapshot)).target,
        (publish codecs target ((conditions offer).attempt snapshot)).events, answer, snapshot⟩ := by
  rw [publishWithRetry.eq_def]
  dsimp only
  rw [hanswer]
  cases answer with
  | accepted report => rfl
  | refused error => exact absurd rfl (hlast error)
  | gone => rfl

/-- An offer that diverges is made again, with the document advanced. -/
theorem publishWithRetry_of_divergent {conditions : Nat → Conditions}
    {offer retries interrupted : Nat} {target : Target} {snapshot : RuntimeSnapshot}
    {document : DocumentKind} {revision : DocumentRevision}
    (h : publish codecs target ((conditions offer).attempt snapshot) =
      ⟨target, [], .refused (.divergentPayload document revision)⟩) :
    publishWithRetry codecs conditions offer (retries + 1) interrupted target snapshot =
      publishWithRetry codecs conditions (offer + 1) retries interrupted target
        (RuntimeSnapshot.advance snapshot document revision) := by
  rw [publishWithRetry.eq_def]
  dsimp only
  rw [h]
  rfl

/-- What is held of a catalogue, beside manifests of revision 1. -/
def bareHeld (catalog record : Bytes) : HeldDocuments where
  tenants := ⟨some (DocumentManifest.new .tenants 1), some (lineOf "[]")⟩
  dataSources := ⟨some (DocumentManifest.new .dataSources 1), some (lineOf "[]")⟩
  catalog := ⟨some (DocumentManifest.new .catalog 1), some catalog⟩
  record := some record
  registry := none

/-- The first record of the orders. -/
def ordersRecord : Bytes := lineOf (bareRecordText "1" "1" ordersDigest)

theorem startingAt_bareHeld (catalog : Bytes) (contents : CatalogDocument)
    (revision : DocumentRevision) :
    RuntimeSnapshot.startingAt (bareSnapshot contents revision)
      ((bareHeld catalog ordersRecord).revisions bareSamples.codecs) = bareSnapshot contents 1 :=
  rfl

theorem parseRecord_bareHeld (catalog : Bytes) :
    (bareHeld catalog ordersRecord).parseRecord bareSamples.codecs =
      .ok (some (bareRecord 1 1 ordersDigest)) := by
  have hline : bareSamples.codecs.record.line (bareRecord 1 1 ordersDigest) = .ok ordersRecord :=
    Sample.line_of_mem List.mem_cons_self
  show some <$> PublicationRecord.parseHeld _ _ = _
  rw [PublicationRecord.parseHeld_line bareSamples.lawful rfl hline]
  rfl

/-- What is read of it. -/
noncomputable def bareResources (catalog : Bytes) : PublishedResources where
  tenants := []
  dataSources := []
  catalog := (bareSamples.codecs.catalog.read catalog).toOption
  history := (bareRecord 1 1 ordersDigest).resources.including [] []

theorem readsAs_bareHeld (catalog : Bytes) : ReadsAs bareSamples.codecs
    (bareHeld catalog ordersRecord) (some (bareRecord 1 1 ordersDigest))
    (bareResources catalog) where
  parsed := parseRecord_bareHeld catalog
  tenants := parseHeldDocuments_payload bareSamples.lawful.tenants
    (Sample.line_of_mem List.mem_cons_self) rfl
  dataSources := parseHeldDocuments_payload bareSamples.lawful.dataSources
    (Sample.line_of_mem List.mem_cons_self) rfl
  catalog := rfl
  history := rfl

/-- What is held and offered again is unchanged. -/
theorem decideDocument_of_same {document : DocumentKind} {revision : DocumentRevision}
    {bytes : Bytes} : decideDocument document (some ⟨revision, some bytes⟩) revision (.ok bytes) =
      .ok ⟨.unchanged, bytes, revision⟩ := by
  have hanswer : verdict (some ⟨revision, some bytes⟩) ⟨document, revision, bytes⟩ =
      .ok .unchanged :=
    verdict_eq_ok.mpr (Or.inr ⟨_, rfl, le_rfl, Or.inr (Or.inr ⟨rfl, rfl, rfl⟩)⟩)
  exact decideDocument_eq_ok.mpr ⟨rfl, rfl, _, hanswer, rfl⟩

/-- What is offered above what is held is written. -/
theorem decideDocument_of_newer {document : DocumentKind} {heldRevision revision : DocumentRevision}
    {held bytes : Bytes} (h : heldRevision < revision) :
    decideDocument document (some ⟨heldRevision, some held⟩) revision (.ok bytes) =
      .ok ⟨.written, bytes, revision⟩ := by
  have hanswer : verdict (some ⟨heldRevision, some held⟩) ⟨document, revision, bytes⟩ =
      .ok .write :=
    verdict_eq_ok.mpr (Or.inr ⟨_, rfl, h.le, Or.inr (Or.inl ⟨rfl, h, rfl⟩)⟩)
  exact decideDocument_eq_ok.mpr ⟨rfl, rfl, _, hanswer, rfl⟩

theorem readOnly_line :
    bareSamples.codecs.catalog.line readOnlyCatalog = .ok (lineOf readOnlyText) :=
  Sample.line_of_mem (List.mem_cons_of_mem _ List.mem_cons_self)

/-- What is decided of the catalogue decides what is planned of it. -/
theorem planned_bareHeld {catalog : Bytes} {revision : DocumentRevision} {plan : DocumentPlan}
    (hcatalog : decideDocument .catalog (some ⟨1, some catalog⟩) revision
      (.ok (lineOf readOnlyText)) = .ok plan)
    {text : String} (hrecord : bareSamples.codecs.record.line
      (bareRecord 2 revision readOnlyDigest) = .ok (lineOf text)) :
    planPublication bareSamples.codecs (bareSnapshot readOnlyCatalog revision)
      (bareHeld catalog ordersRecord) = .ok
        { dataSources := ⟨.unchanged, lineOf "[]", 1⟩
          catalog := plan
          tenants := ⟨.unchanged, lineOf "[]", 1⟩
          registry := none
          record := ⟨.written, bareRecord 2 revision readOnlyDigest, lineOf text,
            ⟨2, bareSamples.codecs.sha256 (lineOf text)⟩⟩ } := by
  obtain ⟨hbytes, hrevision, -⟩ := decideDocument_eq_ok.mp hcatalog
  have hplan : plan.bytes = lineOf readOnlyText := (Except.ok.inj hbytes).symm
  have hdiffers : (bareRecord 1 revision readOnlyDigest) ≠ bareRecord 1 1 ordersDigest := by
    intro h
    have hdigest : toString readOnlyDigest = toString ordersDigest :=
      congrArg (fun record => record.documents.catalog.sha256) h
    exact absurd hdigest (by decide +kernel)
  refine (planPublication_eq_ok bareSamples.lawful).mpr ⟨_, bareResources catalog,
    readsAs_bareHeld catalog, bareSnapshot_validated (by decide) revision, ?_, ?_, ?_, ?_, rfl, ?_⟩
  · show decideDocument _ _ _ (dataSourcesCanonicalJson bareSamples.codecs []) = _
    rw [bareSamples_dataSources]
    exact decideDocument_of_same
  · show decideDocument _ _ _ (bareSamples.codecs.catalog.line readOnlyCatalog) = _
    rw [readOnly_line]
    exact hcatalog
  · show decideDocument _ _ _ (tenantsCanonicalJson bareSamples.codecs []) = _
    rw [bareSamples_tenants]
    exact decideDocument_of_same
  · exact ⟨fun _ h => absurd h List.not_mem_nil, fun _ h => absurd h List.not_mem_nil,
      Or.inr fun _ h => absurd h List.not_mem_nil⟩
  · have hchosen : chooseRecord (heldRecord (some (bareRecord 1 1 ordersDigest))
          (bareHeld catalog ordersRecord))
        (recordedDocuments bareSamples.codecs ⟨.unchanged, lineOf "[]", 1⟩ plan
          ⟨.unchanged, lineOf "[]", 1⟩)
        ResourceHistory.empty none = (.written, bareRecord 2 revision readOnlyDigest, none) := by
      unfold recordedDocuments
      rw [hplan, hrevision, bareSamples_empty, bareSamples_readOnly]
      exact if_neg hdiffers
    exact decideRecord_of_written hchosen hrecord

theorem decideDocument_of_differs {document : DocumentKind} {revision : DocumentRevision}
    {held bytes : Bytes} (h : held ≠ bytes) :
    decideDocument document (some ⟨revision, some held⟩) revision (.ok bytes) =
      .error (.divergentPayload document revision) := by
  have hanswer : verdict (some ⟨revision, some held⟩) ⟨document, revision, bytes⟩ =
      .error (.divergentPayload document revision) := by
    unfold verdict
    dsimp only
    rw [if_neg (lt_irrefl _), if_neg (lt_irrefl _), if_neg h]
  show (verdict _ _ >>= _) = _
  rw [hanswer]
  rfl

/-- Other contents at the revision that is held diverge. -/
theorem diverges_bareHeld :
    planPublication bareSamples.codecs (bareSnapshot readOnlyCatalog 1)
      (bareHeld (lineOf ordersText) ordersRecord) = .error (.divergentPayload .catalog 1) := by
  have hresources : (bareHeld (lineOf ordersText) ordersRecord).resources bareSamples.codecs =
      .ok (bareResources (lineOf ordersText)) :=
    resources_eq_ok.mpr ⟨_, readsAs_bareHeld _⟩
  have hvalid : validateSnapshot (bareSnapshot readOnlyCatalog 1)
      (bareResources (lineOf ordersText)).tenants
      (bareResources (lineOf ordersText)).dataSources = .ok () :=
    validateSnapshot_eq_ok.mpr (bareSnapshot_validated (by decide) 1)
  have hdiffers : lineOf ordersText ≠ lineOf readOnlyText := by decide +kernel
  have hdataSources : ∀ recorded, decideDocument .dataSources
      ((bareHeld (lineOf ordersText) ordersRecord).dataSources.held recorded)
      (bareSnapshot readOnlyCatalog 1).dataSources.revision
      (dataSourcesCanonicalJson bareSamples.codecs
        (bareSnapshot readOnlyCatalog 1).dataSources.payload) =
        .ok ⟨.unchanged, lineOf "[]", 1⟩ := by
    intro recorded
    have hline := bareSamples_dataSources
    rw [HeldDocument.held_of_manifest rfl]
    show decideDocument _ _ _ (dataSourcesCanonicalJson bareSamples.codecs []) = _
    rw [hline]
    exact decideDocument_of_same
  have hcatalog : ∀ recorded, decideDocument .catalog
      ((bareHeld (lineOf ordersText) ordersRecord).catalog.held recorded)
      (bareSnapshot readOnlyCatalog 1).catalog.revision
      (bareSamples.codecs.catalog.line (bareSnapshot readOnlyCatalog 1).catalog.payload) =
        .error (.divergentPayload .catalog 1) := by
    intro recorded
    rw [HeldDocument.held_of_manifest rfl]
    show decideDocument _ _ _ (bareSamples.codecs.catalog.line readOnlyCatalog) = _
    rw [readOnly_line]
    exact decideDocument_of_differs hdiffers
  unfold planPublication
  rw [parseRecord_bareHeld, hresources]
  dsimp only [bind, Except.bind]
  rw [hvalid]
  dsimp only
  rw [hdataSources]
  dsimp only
  rw [hcatalog]

/-- A pass that publishes some contents, if it is not stopped. -/
def passOf (contents : CatalogDocument) (conditions : Nat → Conditions) : Pass :=
  ⟨bareSnapshot contents 1, none, conditions⟩

/-- The orders are published; then what is to be read alone is offered, advanced over the
divergence, and stops after its payload; then it is offered again. -/
def tornRun : List Pass :=
  [passOf ordersCatalog fun _ => ⟨none, 8, none⟩, passOf readOnlyCatalog fun _ => ⟨none, 1, none⟩,
    passOf readOnlyCatalog fun _ => ⟨none, 8, none⟩]

/-- A pass whose first offer is planned and carried out. -/
theorem runPass_of_planned {codecs : Codecs} (hlawful : codecs.Lawful) {target : Target}
    {held : HeldDocuments} (hheld : readHeld codecs target = .ok held) {pass : Pass}
    (hunread : pass.unread = none) (hfault : (pass.conditions 0).fault = none)
    {snapshot : RuntimeSnapshot}
    (hsnapshot : RuntimeSnapshot.startingAt pass.contents (held.revisions codecs) = snapshot)
    {plan : PublicationPlan} (hplan : planPublication codecs snapshot held = .ok plan)
    (hstop : plan.writes.length ≤ (pass.conditions 0).stop) :
    readHeld codecs (runPass codecs target pass).1 = .ok (held.writeAll plan.writes) ∧
      commits (runPass codecs target pass).2 = [plan.commit snapshot] := by
  have hattempt : ((pass.conditions 0).attempt snapshot).fault = none := by
    unfold Conditions.attempt
    rw [hfault]
    rfl
  obtain ⟨hleft, -, houtcome⟩ := publish_planned hlawful hheld hattempt hplan
  have hall : plan.writes.length ≤ ((pass.conditions 0).attempt snapshot).stop := hstop
  rw [if_pos hall] at houtcome
  rw [List.take_of_length_le hall] at hleft
  have hanswer : (pass.conditions 0).answer
      (publish codecs target ((pass.conditions 0).attempt snapshot)).outcome =
        .accepted plan.report := by
    rw [houtcome]
    rfl
  have hpass : runPass codecs target pass =
      ((publish codecs target ((pass.conditions 0).attempt snapshot)).target,
        (publish codecs target ((pass.conditions 0).attempt snapshot)).events) := by
    unfold runPass
    rw [hunread, hheld]
    dsimp only
    rw [hsnapshot, publishWithRetry_of_answer hanswer (fun _ h => nomatch h)]
  rw [hpass, commits_events, houtcome]
  exact ⟨hleft, rfl⟩

/-- A pass whose first offer diverges, and whose second is planned and stops: what it wrote
is left, and nothing is committed. -/
theorem runPass_of_divergent {codecs : Codecs} (hlawful : codecs.Lawful) {target : Target}
    {held : HeldDocuments} (hheld : readHeld codecs target = .ok held) {pass : Pass}
    (hunread : pass.unread = none) (hfaults : ∀ offer, (pass.conditions offer).fault = none)
    (hreports : (pass.conditions 1).reports = none) {snapshot advanced : RuntimeSnapshot}
    (hsnapshot : RuntimeSnapshot.startingAt pass.contents (held.revisions codecs) = snapshot)
    {document : DocumentKind} {revision : DocumentRevision}
    (hdiverges : planPublication codecs snapshot held =
      .error (.divergentPayload document revision))
    (hadvanced : RuntimeSnapshot.advance snapshot document revision = advanced)
    {plan : PublicationPlan} (hplan : planPublication codecs advanced held = .ok plan)
    (hstop : (pass.conditions 1).stop < plan.writes.length) :
    readHeld codecs (runPass codecs target pass).1 =
        .ok (held.writeAll (plan.writes.take (pass.conditions 1).stop)) ∧
      commits (runPass codecs target pass).2 = [] := by
  have hattempt : ∀ offer snapshot, ((pass.conditions offer).attempt snapshot).fault = none := by
    intro offer snapshot
    unfold Conditions.attempt
    rw [hfaults]
    rfl
  have hrefused := publish_refused hheld (Or.inr ⟨hattempt 0 snapshot, hdiverges⟩)
  obtain ⟨hleft, -, houtcome⟩ := publish_planned hlawful hheld (hattempt 1 advanced) hplan
  have hnot : ¬ plan.writes.length ≤ ((pass.conditions 1).attempt advanced).stop :=
    not_le.mpr hstop
  rw [if_neg hnot] at houtcome
  have hanswer : (pass.conditions 1).answer
      (publish codecs target ((pass.conditions 1).attempt advanced)).outcome = .gone := by
    rw [houtcome]
    unfold Conditions.answer
    dsimp only
    rw [hreports]
  have hpass : runPass codecs target pass =
      ((publish codecs target ((pass.conditions 1).attempt advanced)).target,
        (publish codecs target ((pass.conditions 1).attempt advanced)).events) := by
    unfold runPass
    rw [hunread, hheld]
    dsimp only
    rw [hsnapshot, show MAX_RETRIES = 2 + 1 from rfl, publishWithRetry_of_divergent hrefused,
      hadvanced, publishWithRetry_of_answer hanswer (fun _ h => nomatch h)]
  rw [hpass, commits_events, houtcome]
  exact ⟨hleft, rfl⟩

/-- What is held at the end of the first pass, and what it committed. -/
theorem tornRun_first :
    readHeld bareSamples.codecs (runPass bareSamples.codecs Target.empty
        (passOf ordersCatalog fun _ => ⟨none, 8, none⟩)).1 =
      .ok (bareHeld (lineOf ordersText) ordersRecord) ∧
    namedAt (commits (runPass bareSamples.codecs Target.empty
        (passOf ordersCatalog fun _ => ⟨none, 8, none⟩)).2) .catalog =
      [⟨1, toString ordersDigest⟩] := by
  obtain ⟨hheld, hcommits⟩ := @runPass_of_planned _ bareSamples.lawful _ _ readHeld_empty
    (passOf ordersCatalog fun _ => ⟨none, 8, none⟩) rfl rfl _ rfl _ ordersSnapshot_planned
    (by decide)
  refine ⟨hheld, ?_⟩
  rw [hcommits]
  show [(firstRecord _ _ _ _ _).documents.catalog] = _
  rw [ordersSnapshot_record]
  rfl

/-- The second pass leaves a payload that no record names, under the manifest before it. -/
theorem tornRun_second {target : Target}
    (hheld : readHeld bareSamples.codecs target =
      .ok (bareHeld (lineOf ordersText) ordersRecord)) :
    readHeld bareSamples.codecs (runPass bareSamples.codecs target
        (passOf readOnlyCatalog fun _ => ⟨none, 1, none⟩)).1 =
      .ok (bareHeld (lineOf readOnlyText) ordersRecord) ∧
    commits (runPass bareSamples.codecs target
        (passOf readOnlyCatalog fun _ => ⟨none, 1, none⟩)).2 = [] := by
  have hplan := @planned_bareHeld (lineOf ordersText) 2 _
    (decideDocument_of_newer (by decide)) (bareRecordText "2" "2" readOnlyDigest)
    (Sample.line_of_mem (List.mem_cons_of_mem _ List.mem_cons_self))
  exact @runPass_of_divergent _ bareSamples.lawful _ _ hheld
    (passOf readOnlyCatalog fun _ => ⟨none, 1, none⟩) rfl (fun _ => rfl) rfl _ _
    (startingAt_bareHeld _ _ _) _ _ diverges_bareHeld rfl _ hplan (by decide)

/-- The third pass names the payload that was left, at the revision of the one before. -/
theorem tornRun_third {target : Target}
    (hheld : readHeld bareSamples.codecs target =
      .ok (bareHeld (lineOf readOnlyText) ordersRecord)) :
    namedAt (commits (runPass bareSamples.codecs target
        (passOf readOnlyCatalog fun _ => ⟨none, 8, none⟩)).2) .catalog =
      [⟨1, toString readOnlyDigest⟩] := by
  have hplan := @planned_bareHeld (lineOf readOnlyText) 1 _ decideDocument_of_same
    (bareRecordText "2" "1" readOnlyDigest)
    (Sample.line_of_mem (List.mem_cons_of_mem _ (List.mem_cons_of_mem _ List.mem_cons_self)))
  obtain ⟨-, hcommits⟩ := @runPass_of_planned _ bareSamples.lawful _ _ hheld
    (passOf readOnlyCatalog fun _ => ⟨none, 8, none⟩) rfl rfl _ (startingAt_bareHeld _ _ _) _
    hplan (by decide)
  rw [hcommits]
  rfl

theorem namedAt_commits_append (first second : List Event) (kind : DocumentKind) :
    namedAt (commits (first ++ second)) kind =
      namedAt (commits first) kind ++ namedAt (commits second) kind := by
  rw [commits_append]
  exact List.map_append

/-- One revision of the catalogue is committed with two digests. -/
theorem tornRun_names_two_digests :
    ¬ (namedAt (commits ((passes bareSamples.codecs).emitted Target.empty tornRun))
      .catalog).Pairwise RecordedDocument.Follows := by
  obtain ⟨hfirst, hnamed⟩ := tornRun_first
  obtain ⟨hsecond, hnothing⟩ := tornRun_second hfirst
  have hthird := tornRun_third hsecond
  have hall : namedAt (commits ((passes bareSamples.codecs).emitted Target.empty tornRun))
      .catalog = [⟨1, toString ordersDigest⟩, ⟨1, toString readOnlyDigest⟩] := by
    unfold tornRun
    rw [Library.Machine.emitted_cons, Library.Machine.emitted_cons, Library.Machine.emitted_cons,
      Library.Machine.emitted_nil, List.append_nil, namedAt_commits_append,
      namedAt_commits_append]
    rw [passes_step, passes_step, passes_step, hnamed, hnothing, hthird]
    rfl
  rw [hall]
  intro hordered
  have hfollows := List.rel_of_pairwise_cons hordered List.mem_cons_self
  have hsame := congrArg RecordedDocument.sha256 (hfollows.2 rfl)
  exact absurd hsame (by decide +kernel)

/-- The orders are published, and then what is to be read alone: nothing is offered torn. -/
theorem advanced_run_names_one_digest :
    (namedAt (commits ((passes bareSamples.codecs).emitted Target.empty
      [passOf ordersCatalog fun _ => ⟨none, 8, none⟩,
        passOf readOnlyCatalog fun _ => ⟨none, 8, none⟩])) .catalog).Pairwise
      RecordedDocument.Follows := by
  obtain ⟨hfirst, -⟩ := tornRun_first
  have hdiffers : lineOf ordersText ≠ lineOf readOnlyText := by decide +kernel
  have hwhole : (passes bareSamples.codecs).Meets (OffersWhole bareSamples.codecs) Target.empty
      [passOf ordersCatalog fun _ => ⟨none, 8, none⟩,
        passOf readOnlyCatalog fun _ => ⟨none, 8, none⟩] := by
    refine ⟨?_, ?_, trivial⟩
    · rintro - held hheld kind ⟨record, _, hrecord, -⟩
      rw [readHeld_empty] at hheld
      cases hheld
      cases hrecord
    · rintro - held hheld kind ⟨record, bytes, hrecord, hbytes, hpayload, -, hdigest⟩
      have hsame : held = bareHeld (lineOf ordersText) ordersRecord :=
        Except.ok.inj (hheld.symm.trans hfirst)
      subst hsame
      rw [parseRecord_bareHeld] at hrecord
      cases hrecord
      have hempty : bareSamples.codecs.sha256Hex (lineOf "[]") = toString emptyDigest :=
        congrArg RecordedDocument.sha256 (bareSamples_empty 1)
      cases kind with
      | tenants =>
          have hheldBytes : lineOf "[]" = bytes := Option.some.inj hpayload
          rw [← hheldBytes] at hdigest
          exact hdigest hempty.symm
      | dataSources =>
          have hheldBytes : lineOf "[]" = bytes := Option.some.inj hpayload
          rw [← hheldBytes] at hdigest
          exact hdigest hempty.symm
      | catalog =>
          have hread : bytes = lineOf readOnlyText :=
            Except.ok.inj (hbytes.symm.trans readOnly_line)
          have hheldBytes : lineOf ordersText = bytes := Option.some.inj hpayload
          exact hdiffers (hheldBytes.trans hread)
  exact document_revision_names_one_digest bareSamples.lawful hwhole .catalog

end Platform
end SaasFabric
