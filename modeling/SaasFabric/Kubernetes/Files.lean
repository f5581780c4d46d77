import SaasFabric.Kubernetes.Alone
import SaasFabric.Publication.Attempts

/-!
# Objects as files

What a publication's objects hold, as the files another target holds it in: both are read
alike, and an object that is written holds what the writes of its document leave in the files.
-/

namespace SaasFabric
namespace Kubernetes

open Library
open Publication

/-! ## Answers -/

/-- An error without the text of its cause. -/
def withoutCause : PublicationError → PublicationError
  | .unreadable document _ => .unreadable document ""
  | .unwritable document _ => .unwritable document ""
  | error => error

theorem unreadable_of_withoutCause {error : PublicationError} {document : DocumentKind}
    {cause : String}
    (h : withoutCause error = withoutCause (.unreadable document cause)) :
    ∃ cause, error = .unreadable document cause := by
  cases error with
  | unreadable other text =>
      cases h
      exact ⟨text, rfl⟩
  | _ => cases h

/-- Both succeed with the same, or fail for the same reason. -/
def SameAnswer {α : Type} (first second : Except PublicationError α) : Prop :=
  first.mapError withoutCause = second.mapError withoutCause

section SameAnswer

variable {α β : Type} {first second : Except PublicationError α}

theorem SameAnswer.refl (result : Except PublicationError α) : SameAnswer result result := rfl

theorem sameAnswer_error {error other : PublicationError}
    (h : withoutCause error = withoutCause other) :
    SameAnswer (.error error : Except PublicationError α) (.error other) :=
  congrArg Except.error h

/-- What has the same answer succeeds with one value, or fails twice for one reason. -/
theorem SameAnswer.cases (h : SameAnswer first second) :
    (∃ value, first = .ok value ∧ second = .ok value) ∨
      ∃ error other, first = .error error ∧ second = .error other ∧
        withoutCause error = withoutCause other := by
  cases first with
  | ok value =>
      cases second with
      | ok other =>
          have hsame : (Except.ok value : Except PublicationError α) = .ok other := h
          cases hsame
          exact Or.inl ⟨value, rfl, rfl⟩
      | error other => cases h
  | error error =>
      cases second with
      | ok other => cases h
      | error other => exact Or.inr ⟨error, other, rfl, rfl, Except.error.inj h⟩

theorem SameAnswer.bind {rest other : α → Except PublicationError β}
    (h : SameAnswer first second) (hrest : ∀ value, SameAnswer (rest value) (other value)) :
    SameAnswer (first >>= rest) (second >>= other) := by
  rcases h.cases with ⟨value, rfl, rfl⟩ | ⟨error, cause, rfl, rfl, hsame⟩
  · exact hrest value
  · exact sameAnswer_error hsame

/-- What has the same answer but for more that one of them read goes on so. -/
theorem SameAnswer.bind_map {γ : Type} {view : α → γ} {other : Except PublicationError γ}
    {rest : α → Except PublicationError β} {otherRest : γ → Except PublicationError β}
    (h : SameAnswer (first.map view) other)
    (hrest : ∀ value, first = .ok value → SameAnswer (rest value) (otherRest (view value))) :
    SameAnswer (first >>= rest) (other >>= otherRest) := by
  cases first with
  | ok value =>
      rcases h.cases with ⟨_, hvalue, rfl⟩ | ⟨_, _, herror, -⟩
      · cases hvalue
        exact hrest value rfl
      · cases herror
  | error error =>
      rcases h.cases with ⟨_, hvalue, -⟩ | ⟨_, cause, herror, rfl, hsame⟩
      · cases hvalue
      · cases herror
        exact sameAnswer_error hsame

end SameAnswer

/-! ## Reading -/

/-- A document's object, as its files. -/
def filesAt (cluster : Cluster) (document : DocumentKind) : Files where
  manifest := (cluster document).current.bind fun stored =>
    bytesAt stored.data (Keys.of document).manifest
  payload := (cluster document).current.bind fun stored =>
    bytesAt stored.data (Keys.of document).payload

/-- What a namespace holds, as the files of a target. -/
def filesOf (cluster : Cluster) : Target where
  tenants := filesAt cluster .tenants
  dataSources := filesAt cluster .dataSources
  catalog := filesAt cluster .catalog
  record := (cluster .tenants).current.bind fun stored =>
    bytesAt stored.data PUBLICATION_RECORD_FILE
  registry := (cluster .tenants).current.bind fun stored =>
    bytesAt stored.data ISSUER_REGISTRY_FILE

variable {codecs : Codecs} {server : ApiServer} {cluster : Cluster} {document : DocumentKind}

theorem sameAnswer_manifest (file : Option Bytes) (document : DocumentKind) :
    SameAnswer (heldManifest codecs file document) (readManifest codecs file document) := by
  cases file with
  | none => exact .refl _
  | some bytes =>
      unfold heldManifest readManifest
      dsimp only
      refine SameAnswer.bind ?_ fun manifest => ?_
      · cases codecs.manifest.read bytes with
        | ok manifest => exact .refl _
        | error cause => exact sameAnswer_error rfl
      · by_cases hdocument : manifest.document = document
        · rw [if_pos hdocument, if_pos hdocument]
          exact .refl _
        · rw [if_neg hdocument, if_neg hdocument]
          exact sameAnswer_error rfl

/-- A document is read alike of its object, as it is stored, and of its files. -/
theorem sameAnswer_stored (document : DocumentKind) :
    SameAnswer ((readStored codecs document (cluster document).current).map Read.held)
      (readDocument codecs (filesAt cluster document) document) := by
  unfold filesAt
  cases (cluster document).current with
  | none => exact .refl _
  | some stored =>
      have hheld : SameAnswer (heldOf codecs stored.data document)
          (readDocument codecs ⟨bytesAt stored.data (Keys.of document).manifest,
            bytesAt stored.data (Keys.of document).payload⟩ document) :=
        (sameAnswer_manifest _ document).bind fun _ => .refl _
      have hread : (readStored codecs document (some stored)).map Read.held =
          heldOf codecs stored.data document := by
        cases hheld : heldOf codecs stored.data document with
        | ok held =>
            have hread : readStored codecs document (some stored) =
                .ok ⟨held, some stored.resourceVersion, _, _⟩ :=
              readStored_some.mpr ⟨hheld, rfl, rfl, rfl⟩
            rw [hread]
            rfl
        | error error =>
            have hown : (stored.configMap document).metadata.name = nameOf document := rfl
            show (readObject codecs (stored.configMap document) document).map _ = _
            unfold readObject
            rw [if_pos hown]
            show (heldOf codecs stored.data document >>= _).map _ = _
            rw [hheld]
            rfl
      rw [hread]
      exact hheld

/-- The record and the registry that are read of the tenants object. -/
theorem carried_of_readStored {read : Read}
    (h : readStored codecs .tenants (cluster .tenants).current = .ok read) :
    read.record = (filesOf cluster).record ∧ read.registry = (filesOf cluster).registry := by
  unfold filesOf
  dsimp only
  cases hcurrent : (cluster .tenants).current with
  | none =>
      rw [hcurrent] at h
      cases h
      exact ⟨rfl, rfl⟩
  | some stored =>
      rw [hcurrent] at h
      obtain ⟨-, -, hrecord, hregistry⟩ := readStored_some.mp h
      exact ⟨hrecord, hregistry⟩

/-- Bytes that are no manifest of a document. -/
def Misread (codecs : Codecs) (file : Option Bytes) (document : DocumentKind) : Prop :=
  ∃ bytes, file = some bytes ∧
    ∀ manifest, codecs.manifest.read bytes = .ok manifest → manifest.document ≠ document

/-- The documents that were asked for once one of them is. -/
def askedBy : DocumentKind → List DocumentKind
  | .tenants => [.tenants]
  | .dataSources => [.tenants, .dataSources]
  | .catalog => [.tenants, .dataSources, .catalog]

/-- Where an object is answered in too many bytes, it or one that is asked for before it has a
manifest that is none. -/
def Answerable (codecs : Codecs) (server : ApiServer) (cluster : Cluster) : Prop :=
  ∀ document, server.Exceeds cluster document →
    ∃ asked ∈ askedBy document, Misread codecs (filesAt cluster asked).manifest asked

/-- What reads a document's files fails on their manifest only. -/
theorem readDocument_eq_error {files : Files} {error : PublicationError}
    (h : readDocument codecs files document = .error error) :
    Misread codecs files.manifest document ∧ ∃ cause, error = .unreadable document cause := by
  have hmanifest : readManifest codecs files.manifest document = .error error := by
    unfold readDocument at h
    cases hread : readManifest codecs files.manifest document with
    | ok manifest =>
        rw [hread] at h
        cases h
    | error other =>
        rw [hread] at h
        exact congrArg Except.error (Except.error.inj h)
  unfold readManifest at hmanifest
  cases hfile : files.manifest with
  | none =>
      rw [hfile] at hmanifest
      cases hmanifest
  | some bytes =>
      rw [hfile] at hmanifest
      dsimp only at hmanifest
      cases hread : codecs.manifest.read bytes with
      | error cause =>
          rw [hread] at hmanifest
          exact ⟨⟨bytes, rfl, fun manifest hok => absurd (hread.symm.trans hok) nofun⟩, cause,
            (Except.error.inj hmanifest).symm⟩
      | ok manifest =>
          rw [hread] at hmanifest
          change (if manifest.document = document then _ else _) = _ at hmanifest
          split at hmanifest
          · cases hmanifest
          · next hother =>
              refine ⟨⟨bytes, rfl, fun found hok => ?_⟩, _, (Except.error.inj hmanifest).symm⟩
              rw [Except.ok.inj (hok.symm.trans hread)]
              exact hother

theorem readDocument_of_misread {files : Files} (h : Misread codecs files.manifest document) :
    ∃ cause, readDocument codecs files document = .error (.unreadable document cause) := by
  cases hread : readDocument codecs files document with
  | error error =>
      obtain ⟨-, cause, rfl⟩ := readDocument_eq_error hread
      exact ⟨cause, rfl⟩
  | ok held =>
      exfalso
      obtain ⟨bytes, hfile, hnone⟩ := h
      unfold readDocument readManifest at hread
      rw [hfile] at hread
      obtain ⟨_, hmanifest, -⟩ := bind_eq_ok.mp hread
      obtain ⟨manifest, hfound, hkind⟩ := bind_eq_ok.mp hmanifest
      rw [if_neg (hnone manifest (mapError_eq_ok.mp hfound))] at hkind
      cases hkind

/-- A document is read alike of what is answered and of its files, unless too much is answered of
one that its files give. -/
theorem sameAnswer_document (h : server.Exceeds cluster document →
      Misread codecs (filesAt cluster document).manifest document) :
    SameAnswer ((readServed codecs server cluster document).map Read.held)
      (readDocument codecs (filesAt cluster document) document) := by
  by_cases hover : server.Exceeds cluster document
  · obtain ⟨cause, hfiles⟩ := readDocument_of_misread (h hover)
    rw [readServed_of_exceeds hover, hfiles]
    exact sameAnswer_error rfl
  · rw [readServed_of_within hover]
    exact sameAnswer_stored document

/-- A document that both were read of has its manifest. -/
theorem not_misread_of_read {read : Read}
    (h : readServed codecs server cluster document = .ok read) :
    ¬Misread codecs (filesAt cluster document).manifest document := by
  intro hmisread
  obtain ⟨cause, hfiles⟩ := readDocument_of_misread hmisread
  have hsame : SameAnswer ((readServed codecs server cluster document).map Read.held)
      (readDocument codecs (filesAt cluster document) document) :=
    sameAnswer_document fun _ => hmisread
  rw [h, hfiles] at hsame
  cases hsame

/-- What is held is read alike of the objects and of the files. -/
theorem sameAnswer_held {α : Type} {rest : Reads → Except PublicationError α}
    {other : HeldDocuments → Except PublicationError α} (h : Answerable codecs server cluster)
    (hrest : ∀ reads, readAll codecs server cluster = .ok reads →
      SameAnswer (rest reads) (other reads.held)) :
    SameAnswer (readAll codecs server cluster >>= rest)
      (readHeld codecs (filesOf cluster) >>= other) := by
  -- What is asked for once the others are read is misread itself where it is too large.
  have hown : ∀ document, (∀ asked ∈ askedBy document, asked ≠ document →
      ∃ read, readServed codecs server cluster asked = .ok read) →
        SameAnswer ((readServed codecs server cluster document).map Read.held)
          (readDocument codecs (filesAt cluster document) document) := by
    intro document hbefore
    refine sameAnswer_document fun hover => ?_
    obtain ⟨asked, hasked, hmisread⟩ := h document hover
    by_cases hsame : asked = document
    · exact hsame ▸ hmisread
    · obtain ⟨read, hread⟩ := hbefore asked hasked hsame
      exact absurd hmisread (not_misread_of_read hread)
  unfold readAll readHeld
  simp only [bind_assoc]
  apply SameAnswer.bind_map (hown .tenants (by simp [askedBy]))
  intro tenants htenants
  apply SameAnswer.bind_map (hown .dataSources (by simp [askedBy, htenants]))
  intro dataSources hdataSources
  apply SameAnswer.bind_map (hown .catalog (by simp [askedBy, htenants, hdataSources]))
  intro catalog hcatalog
  obtain ⟨hrecord, hregistry⟩ := carried_of_readStored (readServed_eq_ok.mp htenants).2
  have hreads : readAll codecs server cluster = .ok ⟨tenants, dataSources, catalog⟩ := by
    refine readAll_eq_ok.mpr fun document => ?_
    cases document with
    | tenants => exact htenants
    | dataSources => exact hdataSources
    | catalog => exact hcatalog
  have hsame := hrest _ hreads
  unfold Reads.held at hsame
  rw [hrecord, hregistry] at hsame
  exact hsame

/-- What was read was answered. -/
theorem answerable_of_readAll {reads : Reads} (h : readAll codecs server cluster = .ok reads) :
    Answerable codecs server cluster := fun document hover =>
  absurd hover (readServed_eq_ok.mp (readAll_eq_ok.mp h document)).1

theorem readServed_eq_error {error : PublicationError}
    (h : readServed codecs server cluster document = .error error) :
    ∃ cause, error = .unreadable document cause := by
  by_cases hover : server.Exceeds cluster document
  · rw [readServed_of_exceeds hover] at h
    exact ⟨_, (Except.error.inj h).symm⟩
  · have hsame : SameAnswer ((readServed codecs server cluster document).map Read.held)
        (readDocument codecs (filesAt cluster document) document) :=
      sameAnswer_document fun h => absurd h hover
    rw [h] at hsame
    rcases hsame.cases with ⟨_, hvalue, -⟩ | ⟨_, other, hfirst, hother, hcause⟩
    · cases hvalue
    · cases hfirst
      obtain ⟨-, cause, rfl⟩ := readDocument_eq_error hother
      exact unreadable_of_withoutCause hcause

/-- Where an object is answered in too many bytes, it or one that is asked for before it is what
cannot be read. -/
theorem readAll_of_exceeds (h : server.Exceeds cluster document) :
    ∃ asked ∈ askedBy document, ∃ cause,
      readAll codecs server cluster = .error (.unreadable asked cause) := by
  unfold readAll
  cases htenants : readServed codecs server cluster .tenants with
  | error error =>
      obtain ⟨cause, rfl⟩ := readServed_eq_error htenants
      exact ⟨.tenants, by cases document <;> simp [askedBy], cause, rfl⟩
  | ok tenants =>
      have hfirst : document ≠ .tenants := by
        rintro rfl
        exact (readServed_eq_ok.mp htenants).1 h
      cases hdataSources : readServed codecs server cluster .dataSources with
      | error error =>
          obtain ⟨cause, rfl⟩ := readServed_eq_error hdataSources
          refine ⟨.dataSources, ?_, cause, rfl⟩
          cases document with
          | tenants => exact absurd rfl hfirst
          | dataSources => simp [askedBy]
          | catalog => simp [askedBy]
      | ok dataSources =>
          have hlast : document = .catalog := by
            cases document with
            | tenants => exact absurd rfl hfirst
            | dataSources => exact absurd h (readServed_eq_ok.mp hdataSources).1
            | catalog => rfl
          subst hlast
          refine ⟨.catalog, by simp [askedBy], "the published document exceeded its size limit", ?_⟩
          rw [readServed_of_exceeds h]
          rfl

theorem readHeld_eq_error {error : PublicationError}
    (h : readHeld codecs (filesOf cluster) = .error error) :
    ∃ document cause, error = .unreadable document cause ∧
      Misread codecs (filesAt cluster document).manifest document := by
  have hone : ∀ {document error},
      readDocument codecs (filesAt cluster document) document = .error error →
        ∃ document cause, error = .unreadable document cause ∧
          Misread codecs (filesAt cluster document).manifest document := by
    intro document error hread
    obtain ⟨hmisread, cause, rfl⟩ := readDocument_eq_error hread
    exact ⟨document, cause, rfl, hmisread⟩
  unfold readHeld at h
  cases htenants : readDocument codecs (filesAt cluster .tenants) .tenants with
  | error other =>
      change (readDocument codecs (filesAt cluster .tenants) .tenants >>= _) = _ at h
      rw [htenants] at h
      exact Except.error.inj h ▸ hone htenants
  | ok tenants =>
      change (readDocument codecs (filesAt cluster .tenants) .tenants >>= _) = _ at h
      rw [htenants] at h
      change (readDocument codecs (filesAt cluster .dataSources) .dataSources >>= _) = _ at h
      cases hdataSources : readDocument codecs (filesAt cluster .dataSources) .dataSources with
      | error other =>
          rw [hdataSources] at h
          exact Except.error.inj h ▸ hone hdataSources
      | ok dataSources =>
          rw [hdataSources] at h
          change (readDocument codecs (filesAt cluster .catalog) .catalog >>= _) = _ at h
          cases hcatalog : readDocument codecs (filesAt cluster .catalog) .catalog with
          | error other =>
              rw [hcatalog] at h
              exact Except.error.inj h ▸ hone hcatalog
          | ok catalog =>
              rw [hcatalog] at h
              cases h

/-- What is read alike of both is answerable. -/
theorem answerable_of_sameAnswer {α : Type} {rest : Reads → α} {other : HeldDocuments → α}
    (h : SameAnswer (readAll codecs server cluster >>= fun reads => .ok (rest reads))
      (readHeld codecs (filesOf cluster) >>= fun held => .ok (other held))) :
    Answerable codecs server cluster := by
  intro document hover
  obtain ⟨asked, hasked, cause, hread⟩ := readAll_of_exceeds hover
  rw [hread] at h
  cases hheld : readHeld codecs (filesOf cluster) with
  | ok held =>
      rw [hheld] at h
      cases h
  | error error =>
      rw [hheld] at h
      obtain ⟨found, text, rfl, hmisread⟩ := readHeld_eq_error hheld
      rcases h.cases with ⟨_, hvalue, -⟩ | ⟨_, _, hfirst, hsecond, hcause⟩
      · cases hvalue
      · cases hfirst
        cases hsecond
        cases hcause
        exact ⟨_, hasked, hmisread⟩

/-- `FilesystemRuntimePublication::current`. -/
def currentOf (codecs : Codecs) (target : Target) :
    Except PublicationError PublishedRevisions := do
  let held ← readHeld codecs target
  .ok (held.revisions codecs)

/-- `FilesystemRuntimePublication::published_resources`. -/
def publishedResourcesOf (codecs : Codecs) (target : Target) :
    Except PublicationError PublishedResources := do
  let held ← readHeld codecs target
  held.resources codecs

/-! ## Writing -/

/-- The files after a write, which never fails. -/
def wrote (codecs : Codecs) (target : Target) (write : Write) : Target :=
  match target.write codecs write with
  | .ok after => after
  | .error _ => target

theorem write_eq_wrote (hlawful : codecs.Lawful) (target : Target) (write : Write) :
    target.write codecs write = .ok (wrote codecs target write) := by
  unfold wrote
  cases write with
  | payload document bytes => rfl
  | manifest document revision =>
      obtain ⟨bytes, hline, -⟩ :=
        hlawful.manifest.line_spec (DocumentManifest.new document revision)
      unfold Target.write
      dsimp only
      rw [hline]
      rfl
  | registry bytes => rfl
  | record bytes => rfl

theorem wrote_manifest {document : DocumentKind} {revision : DocumentRevision} {bytes : Bytes}
    (hline : codecs.manifest.line (DocumentManifest.new document revision) = .ok bytes)
    (target : Target) : wrote codecs target (.manifest document revision) =
      target.modify (fun files => { files with manifest := some bytes }) document := by
  unfold wrote Target.write
  dsimp only
  rw [hline]
  rfl

/-- Writes leave the files after as many of them as were made. -/
theorem perform_eq (hlawful : codecs.Lawful) (writes : List Write) (stop : Nat) (target : Target) :
    perform codecs writes stop target =
      ⟨(writes.take stop).foldl (wrote codecs) target, writes.take stop,
        if writes.length ≤ stop then .finished else .stopped⟩ := by
  induction writes generalizing stop target with
  | nil => simp [perform]
  | cons write writes ih =>
      cases stop with
      | zero => simp [perform]
      | succ stop =>
          unfold perform
          rw [write_eq_wrote hlawful]
          dsimp only
          rw [ih]
          simp

/-- What an attempt on the files comes to, once it is planned. -/
theorem publish_files (hlawful : codecs.Lawful) {target : Target} {held : HeldDocuments}
    {snapshot : RuntimeSnapshot} {plan : PublicationPlan} (hread : readHeld codecs target = .ok held)
    (hplan : planPublication codecs snapshot held = .ok plan) (stop : Nat) :
    Publication.publish codecs target ⟨snapshot, none, stop⟩ =
      ⟨(plan.writes.take stop).foldl (wrote codecs) target, plan.writes.take stop,
        if plan.writes.length ≤ stop then .completed plan.report (plan.commit snapshot)
        else .interrupted⟩ := by
  have hplanned : (readHeld codecs target >>= planPublication codecs snapshot) = .ok plan := by
    rw [hread]
    exact hplan
  unfold Publication.publish
  dsimp only
  rw [hplanned]
  dsimp only
  rw [perform_eq hlawful]
  by_cases hall : plan.writes.length ≤ stop
  · rw [if_pos hall, if_pos hall]
  · rw [if_neg hall, if_neg hall]

section Objects

variable {server : ApiServer} {namespaceName : String} {reads : Reads}
  {plan : PublicationPlan} {document : DocumentKind} {stored : Stored}

theorem current_append : (cluster.append document stored document).current = some stored := by
  unfold Cluster.append
  rw [if_pos rfl]
  unfold History.append History.current
  simp

theorem append_other {other : DocumentKind} (h : other ≠ document) :
    cluster.append document stored other = cluster other := if_neg h

/-- An object of another document than the tenants holds its two files. -/
theorem filesOf_append (h : document ≠ .tenants) :
    filesOf (cluster.append document stored) =
      (filesOf cluster).modify (fun _ => ⟨bytesAt stored.data (Keys.of document).manifest,
        bytesAt stored.data (Keys.of document).payload⟩) document := by
  have htenants : cluster.append document stored .tenants = cluster .tenants :=
    append_other h.symm
  cases document with
  | tenants => exact absurd rfl h
  | dataSources =>
      unfold filesOf filesAt Target.modify
      rw [htenants, current_append, append_other (by decide : DocumentKind.catalog ≠ .dataSources)]
      rfl
  | catalog =>
      unfold filesOf filesAt Target.modify
      rw [htenants, current_append, append_other (by decide : DocumentKind.dataSources ≠ .catalog)]
      rfl

/-- The tenants object holds its two files, the record and the registry. -/
theorem filesOf_append_tenants :
    filesOf (cluster.append .tenants stored) =
      { filesOf cluster with
        tenants := ⟨bytesAt stored.data (Keys.of .tenants).manifest,
          bytesAt stored.data (Keys.of .tenants).payload⟩
        record := bytesAt stored.data PUBLICATION_RECORD_FILE
        registry := bytesAt stored.data ISSUER_REGISTRY_FILE } := by
  unfold filesOf filesAt
  rw [current_append, append_other (by decide : DocumentKind.dataSources ≠ .tenants),
    append_other (by decide : DocumentKind.catalog ≠ .tenants)]
  rfl

/-- What is under the two keys of a document's own. -/
theorem own_bytes {data : BTreeMap String String} {manifest : Bytes}
    (h : Lists data ((objectOf plan reads document).entries manifest)) :
    bytesAt data (Keys.of document).manifest = some manifest ∧
      bytesAt data (Keys.of document).payload = some (plan.document document).bytes := by
  unfold Object.entries at h
  rw [document_objectOf, bytes_objectOf] at h
  exact ⟨(h _ _).mpr (List.mem_cons_of_mem _ List.mem_cons_self),
    (h _ _).mpr List.mem_cons_self⟩

/-- An object of another document than the tenants leaves what the writes of its document do. -/
theorem filesOf_afterWrite (h : document ≠ .tenants)
    (hmade : ∃ made, (objectOf plan reads document).configMap codecs namespaceName
      (objectOf plan reads document).read.resourceVersion = .ok made) :
    filesOf (afterWrite codecs server namespaceName cluster (objectOf plan reads document)) =
      ((plan.document document).writes document).foldl (wrote codecs) (filesOf cluster) := by
  obtain ⟨made, hmade⟩ := hmade
  obtain ⟨manifest, hline, -, hlists⟩ := configMap_eq_ok hmade
  have houtcome : (objectOf plan reads document).plan.outcome =
      (plan.document document).outcome := by
    cases document with
    | tenants => exact absurd rfl h
    | dataSources => rfl
    | catalog => rfl
  have hmanifest : (objectOf plan reads document).manifest =
      DocumentManifest.new document (plan.document document).revision := by
    cases document with
    | tenants => exact absurd rfl h
    | dataSources => rfl
    | catalog => rfl
  unfold afterWrite DocumentPlan.writes
  rw [hmade, houtcome, document_objectOf]
  rw [hmanifest] at hline
  cases (plan.document document).outcome with
  | unchanged => rfl
  | written =>
      obtain ⟨hown, hpayload⟩ := own_bytes hlists
      dsimp only [List.foldl_cons, List.foldl_nil]
      rw [filesOf_append h, hown, hpayload, wrote_manifest hline]
      cases document <;> rfl

end Objects

end Kubernetes
end SaasFabric
