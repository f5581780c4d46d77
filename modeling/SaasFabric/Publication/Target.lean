import SaasFabric.Library.Machine
import SaasFabric.Publication.Plan

/-!
# The files of a publication

`fabric-runtime-publication`'s `filesystem/`: eight files, read before a publication is
planned and written one at a time after it.  A write replaces its file whole, so a
publication that is interrupted leaves the files as they are after some of its writes.
-/

namespace SaasFabric
namespace Publication

/-! ## Writes -/

/-- One write of a publication. -/
inductive Write where
  | payload (document : DocumentKind) (bytes : Bytes)
  | manifest (document : DocumentKind) (revision : DocumentRevision)
  | registry (bytes : Bytes)
  | record (bytes : Bytes)

/-- `write_if_needed`. -/
def DocumentPlan.writes (plan : DocumentPlan) (document : DocumentKind) : List Write :=
  match plan.outcome with
  | .unchanged => []
  | .written => [.payload document plan.bytes, .manifest document plan.revision]

/-- `write_registry_if_needed`. -/
def RegistryPlan.writes (plan : RegistryPlan) : List Write :=
  match plan.outcome with
  | .unchanged => []
  | .written => [.registry plan.bytes]

/-- `write_record_if_needed`. -/
def RecordPlan.writes (plan : RecordPlan) : List Write :=
  match plan.outcome with
  | .unchanged => []
  | .written => [.record plan.bytes]

/-- The writes of a plan, in the order of `FilesystemRuntimePublication::publish`: a
DataSource before anything that names it, the registry after the tenants it names, and the
record last. -/
def PublicationPlan.writes (plan : PublicationPlan) : List Write :=
  plan.dataSources.writes .dataSources ++ (plan.catalog.writes .catalog ++
    (plan.tenants.writes .tenants ++
      ((plan.registry.map RegistryPlan.writes).getD [] ++ plan.record.writes)))

/-! ## What is held, after a write -/

/-- One document, with its payload replaced. -/
def HeldDocument.withPayload (document : HeldDocument) (bytes : Bytes) : HeldDocument :=
  { document with payload := some bytes }

/-- One document, with its manifest replaced. -/
def HeldDocument.withManifest (document : HeldDocument) (kind : DocumentKind)
    (revision : DocumentRevision) : HeldDocument :=
  { document with manifest := some (DocumentManifest.new kind revision) }

/-- One document of what is held, changed. -/
def HeldDocuments.modify (held : HeldDocuments) (change : HeldDocument → HeldDocument) :
    DocumentKind → HeldDocuments
  | .tenants => { held with tenants := change held.tenants }
  | .dataSources => { held with dataSources := change held.dataSources }
  | .catalog => { held with catalog := change held.catalog }

/-- What is held after a write. -/
def HeldDocuments.write (held : HeldDocuments) : Write → HeldDocuments
  | .payload document bytes => held.modify (·.withPayload bytes) document
  | .manifest document revision => held.modify (·.withManifest document revision) document
  | .registry bytes => { held with registry := some bytes }
  | .record bytes => { held with record := some bytes }

/-- What is held after some writes. -/
def HeldDocuments.writeAll (held : HeldDocuments) (writes : List Write) : HeldDocuments :=
  writes.foldl HeldDocuments.write held

/-! ## The files -/

/-- The two files of a document. -/
structure Files where
  manifest : Option Bytes
  payload : Option Bytes

/-- The files of a target. -/
structure Target where
  tenants : Files
  dataSources : Files
  catalog : Files
  record : Option Bytes
  registry : Option Bytes

/-- A target nothing was ever published to. -/
def Target.empty : Target := ⟨⟨none, none⟩, ⟨none, none⟩, ⟨none, none⟩, none, none⟩

variable (codecs : Codecs)

/-- `read_manifest`. -/
def readManifest (file : Option Bytes) (document : DocumentKind) :
    Except PublicationError (Option DocumentManifest) :=
  match file with
  | none => .ok none
  | some bytes => do
      let manifest ← (codecs.manifest.read bytes).mapError (.unreadable document)
      if manifest.document = document then
        .ok (some manifest)
      else
        .error (.unreadable document (s!"manifest claims to describe {manifest.document}, " ++
          s!"but was read as {document}"))

/-- `read_document`. -/
def readDocument (files : Files) (document : DocumentKind) :
    Except PublicationError HeldDocument := do
  let manifest ← readManifest codecs files.manifest document
  .ok { manifest, payload := files.payload }

/-- `read_held`. -/
def readHeld (target : Target) : Except PublicationError HeldDocuments := do
  let tenants ← readDocument codecs target.tenants .tenants
  let dataSources ← readDocument codecs target.dataSources .dataSources
  let catalog ← readDocument codecs target.catalog .catalog
  .ok { tenants, dataSources, catalog, record := target.record, registry := target.registry }

/-- The files of one document, changed. -/
def Target.modify (target : Target) (change : Files → Files) : DocumentKind → Target
  | .tenants => { target with tenants := change target.tenants }
  | .dataSources => { target with dataSources := change target.dataSources }
  | .catalog => { target with catalog := change target.catalog }

/-- One write to the files: a manifest is serialised when it is written. -/
def Target.write (target : Target) : Write → Except PublicationError Target
  | .payload document bytes =>
      .ok (target.modify (fun files => { files with payload := some bytes }) document)
  | .manifest document revision => do
      let bytes ← (codecs.manifest.line (DocumentManifest.new document revision)).mapError
        (.unwritable document)
      .ok (target.modify (fun files => { files with manifest := some bytes }) document)
  | .registry bytes => .ok { target with registry := some bytes }
  | .record bytes => .ok { target with record := some bytes }

/-- How far some writes got. -/
inductive Progress where
  | finished
  | stopped
  | failed (error : PublicationError)

/-- What some writes come to: the files after them, which of them were made, and how far
they got. -/
structure Performed where
  target : Target
  written : List Write
  progress : Progress

/-- Writes to the files in turn, and stops after so many. -/
def perform : List Write → Nat → Target → Performed
  | [], _, target => ⟨target, [], .finished⟩
  | _ :: _, 0, target => ⟨target, [], .stopped⟩
  | write :: rest, stop + 1, target =>
      match target.write codecs write with
      | .error error => ⟨target, [], .failed error⟩
      | .ok target =>
          let performed := perform rest stop target
          { performed with written := write :: performed.written }

/-! ## Publishing -/

/-- `RegistryOutcome`. -/
structure RegistryOutcome where
  outcome : DocumentOutcome
  generation : RegistryGeneration

/-- `PublicationReport`. -/
structure PublicationReport where
  tenants : DocumentOutcome
  dataSources : DocumentOutcome
  catalog : DocumentOutcome
  registry : Option RegistryOutcome
  record : RecordStamp

/-- What a plan that was carried out reports. -/
def PublicationPlan.report (plan : PublicationPlan) : PublicationReport where
  tenants := plan.tenants.outcome
  dataSources := plan.dataSources.outcome
  catalog := plan.catalog.outcome
  registry := plan.registry.map fun registry =>
    ⟨registry.outcome, registry.document.generation⟩
  record := plan.record.stamp

/-- An attempt to publish: what is offered, an error met before anything is planned (the
lock, a file that cannot be read), and after how many writes the process is gone. -/
structure Attempt where
  snapshot : RuntimeSnapshot
  fault : Option PublicationError
  stop : Nat

/-- A generation that was committed: its record, the documents it names, and the registry
with the registrations it was offered. -/
structure Commit where
  record : PublicationRecord
  tenants : List TenantBindingDocument
  dataSources : List DataSourceDocument
  catalog : CatalogDocument
  registry : Option IssuerRegistryDocument
  registrations : Option (List IssuerRegistration)

/-- What a plan commits of a snapshot. -/
def PublicationPlan.commit (plan : PublicationPlan) (snapshot : RuntimeSnapshot) : Commit where
  record := plan.record.record
  tenants := sortedBy TenantBindingDocument.tenant snapshot.tenants.payload
  dataSources := sortedBy DataSourceDocument.id snapshot.dataSources.payload
  catalog := snapshot.catalog.payload
  registry := plan.registry.map RegistryPlan.document
  registrations := snapshot.registry

/-- What an attempt comes to. -/
inductive Outcome where
  | refused (error : PublicationError)
  | interrupted
  | completed (report : PublicationReport) (commit : Commit)

/-- What an attempt leaves: the files, the writes it made, and its outcome. -/
structure Published where
  target : Target
  written : List Write
  outcome : Outcome

/-- `FilesystemRuntimePublication::publish`. -/
def publish (target : Target) (attempt : Attempt) : Published :=
  match attempt.fault with
  | some error => ⟨target, [], .refused error⟩
  | none =>
      match readHeld codecs target >>= planPublication codecs attempt.snapshot with
      | .error error => ⟨target, [], .refused error⟩
      | .ok plan =>
          let performed := perform codecs plan.writes attempt.stop target
          { target := performed.target
            written := performed.written
            outcome :=
              match performed.progress with
              | .failed error => .refused error
              | .stopped => .interrupted
              | .finished => .completed plan.report (plan.commit attempt.snapshot) }

/-- What happens to a target. -/
inductive Event where
  | wrote (write : Write)
  | committed (commit : Commit)

/-- What an attempt committed. -/
def Outcome.commits : Outcome → List Commit
  | .completed _ commit => [commit]
  | _ => []

/-- What happened in an attempt. -/
def Published.events (published : Published) : List Event :=
  published.written.map .wrote ++ published.outcome.commits.map .committed

/-- The commit of an event, if it is one. -/
def Event.commit? : Event → Option Commit
  | .wrote _ => none
  | .committed commit => some commit

/-- What was committed, in order. -/
def commits (events : List Event) : List Commit := events.filterMap Event.commit?

/-- A target under attempts to publish. -/
def publisher : Library.Machine Target Attempt Event where
  step target attempt :=
    ((publish codecs target attempt).target, (publish codecs target attempt).events)

theorem final_publisher_singleton (target : Target) (attempt : Attempt) :
    (publisher codecs).final target [attempt] = (publish codecs target attempt).target := rfl

/-! ## What the files hold, after some writes -/

variable {codecs}

theorem readDocument_eq_ok {files : Files} {document : DocumentKind} {held : HeldDocument} :
    readDocument codecs files document = .ok held ↔
      readManifest codecs files.manifest document = .ok held.manifest ∧
        files.payload = held.payload := by
  unfold readDocument
  simp only [Library.bind_eq_ok, Except.ok.injEq]
  constructor
  · rintro ⟨manifest, hmanifest, rfl⟩
    exact ⟨hmanifest, rfl⟩
  · rintro ⟨hmanifest, hpayload⟩
    exact ⟨held.manifest, hmanifest, by rw [hpayload]⟩

theorem readHeld_eq_ok {target : Target} {held : HeldDocuments} :
    readHeld codecs target = .ok held ↔
      readDocument codecs target.tenants .tenants = .ok held.tenants ∧
        readDocument codecs target.dataSources .dataSources = .ok held.dataSources ∧
          readDocument codecs target.catalog .catalog = .ok held.catalog ∧
            target.record = held.record ∧ target.registry = held.registry := by
  unfold readHeld
  simp only [Library.bind_eq_ok, Except.ok.injEq]
  constructor
  · rintro ⟨tenants, htenants, dataSources, hdataSources, catalog, hcatalog, rfl⟩
    exact ⟨htenants, hdataSources, hcatalog, rfl, rfl⟩
  · rintro ⟨htenants, hdataSources, hcatalog, hrecord, hregistry⟩
    exact ⟨held.tenants, htenants, held.dataSources, hdataSources, held.catalog, hcatalog,
      by rw [hrecord, hregistry]⟩

/-- A manifest is read back as it was written. -/
theorem readManifest_line (hlawful : codecs.Lawful) {document : DocumentKind}
    {revision : DocumentRevision} {bytes : Bytes}
    (h : codecs.manifest.line (DocumentManifest.new document revision) = .ok bytes) :
    readManifest codecs (some bytes) document =
      .ok (some (DocumentManifest.new document revision)) := by
  unfold readManifest
  dsimp only
  rw [hlawful.manifest.read_line h]
  exact if_pos rfl

/-- A change to the files of one document is one to that document. -/
theorem readHeld_modify {target : Target} {held : HeldDocuments} {document : DocumentKind}
    {change : Files → Files} {heldChange : HeldDocument → HeldDocument}
    (h : readHeld codecs target = .ok held)
    (hchange : ∀ files copy, readDocument codecs files document = .ok copy →
      readDocument codecs (change files) document = .ok (heldChange copy)) :
    readHeld codecs (target.modify change document) = .ok (held.modify heldChange document) := by
  obtain ⟨htenants, hdataSources, hcatalog, hrecord, hregistry⟩ := readHeld_eq_ok.mp h
  cases document with
  | tenants =>
      exact readHeld_eq_ok.mpr ⟨hchange _ _ htenants, hdataSources, hcatalog, hrecord, hregistry⟩
  | dataSources =>
      exact readHeld_eq_ok.mpr ⟨htenants, hchange _ _ hdataSources, hcatalog, hrecord, hregistry⟩
  | catalog =>
      exact readHeld_eq_ok.mpr ⟨htenants, hdataSources, hchange _ _ hcatalog, hrecord, hregistry⟩

/-- A write to the files is one to what is held. -/
theorem readHeld_write (hlawful : codecs.Lawful) {target : Target} {held : HeldDocuments}
    (h : readHeld codecs target = .ok held) (write : Write) :
    ∃ after, target.write codecs write = .ok after ∧
      readHeld codecs after = .ok (held.write write) := by
  cases write with
  | payload document bytes =>
      refine ⟨_, rfl, ?_⟩
      show readHeld codecs _ = .ok (held.modify (·.withPayload bytes) document)
      refine readHeld_modify h fun files copy hcopy => ?_
      exact readDocument_eq_ok.mpr ⟨(readDocument_eq_ok.mp hcopy).1, rfl⟩
  | manifest document revision =>
      obtain ⟨bytes, hline, -⟩ :=
        hlawful.manifest.line_spec (DocumentManifest.new document revision)
      refine ⟨target.modify (fun files => { files with manifest := some bytes }) document, ?_, ?_⟩
      · unfold Target.write
        dsimp only
        rw [hline]
        rfl
      · show readHeld codecs _ = .ok (held.modify (·.withManifest document revision) document)
        refine readHeld_modify h fun files copy hcopy => ?_
        exact readDocument_eq_ok.mpr
          ⟨readManifest_line hlawful hline, (readDocument_eq_ok.mp hcopy).2⟩
  | registry bytes =>
      obtain ⟨htenants, hdataSources, hcatalog, hrecord, -⟩ := readHeld_eq_ok.mp h
      exact ⟨_, rfl, readHeld_eq_ok.mpr ⟨htenants, hdataSources, hcatalog, hrecord, rfl⟩⟩
  | record bytes =>
      obtain ⟨htenants, hdataSources, hcatalog, -, hregistry⟩ := readHeld_eq_ok.mp h
      exact ⟨_, rfl, readHeld_eq_ok.mpr ⟨htenants, hdataSources, hcatalog, rfl, hregistry⟩⟩

/-- Writes that stop leave what is held after that many of them. -/
theorem readHeld_perform (hlawful : codecs.Lawful) (writes : List Write) (stop : Nat)
    {target : Target} {held : HeldDocuments} (h : readHeld codecs target = .ok held) :
    readHeld codecs (perform codecs writes stop target).target =
        .ok (held.writeAll (writes.take stop)) ∧
      (perform codecs writes stop target).written = writes.take stop ∧
      (((perform codecs writes stop target).progress = .finished ∧ writes.length ≤ stop) ∨
        ((perform codecs writes stop target).progress = .stopped ∧ stop < writes.length)) := by
  induction writes generalizing stop target held with
  | nil =>
      rw [List.take_nil]
      exact ⟨h, rfl, Or.inl ⟨rfl, Nat.zero_le stop⟩⟩
  | cons write rest ih =>
      cases stop with
      | zero => exact ⟨h, rfl, Or.inr ⟨rfl, Nat.succ_pos _⟩⟩
      | succ stop =>
          obtain ⟨written, hwrite, hwritten⟩ := readHeld_write hlawful h write
          obtain ⟨hheld, hmade, hprogress⟩ := ih stop hwritten
          unfold perform
          rw [hwrite, List.take_succ_cons, List.length_cons]
          refine ⟨hheld, congrArg (write :: ·) hmade, hprogress.imp ?_ ?_⟩
          · rintro ⟨hfinished, hall⟩
            exact ⟨hfinished, Nat.succ_le_succ hall⟩
          · rintro ⟨hstopped, hlt⟩
            exact ⟨hstopped, Nat.succ_lt_succ hlt⟩

end Publication
end SaasFabric
