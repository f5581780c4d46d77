import SaasFabric.Kubernetes.Publish
import SaasFabric.Publication.DocumentBytes

/-!
# What an object holds

A written object holds the payload and the manifest of its document, and the tenants object the
record and the registry beside them, byte for byte as they were planned; read again, it is held
as that.
-/

namespace SaasFabric
namespace Kubernetes

open Library
open Publication

variable {codecs : Codecs}

/-! ## Texts and bytes -/

theorem fromUtf8_eq_ok {bytes : Bytes} {error : PublicationError} {text : String} :
    fromUtf8 bytes error = .ok text ↔ text.toUTF8 = bytes := by
  unfold fromUtf8 String.fromUTF8?
  by_cases hvalid : bytes.IsValidUTF8
  · rw [dif_pos hvalid]
    constructor
    · intro h
      cases h
      rfl
    · rintro rfl
      rfl
  · rw [dif_neg hvalid]
    constructor
    · intro h
      cases h
    · rintro rfl
      exact absurd text.isValidUTF8 hvalid

/-- Entries that were read as texts are these texts' bytes. -/
theorem toUTF8_of_mapM {error : PublicationError} {entries : List (String × Bytes)}
    {texts : List (String × String)}
    (h : (entries.mapM fun entry => do
      let text ← fromUtf8 entry.2 error
      .ok (entry.1, text)) = .ok texts) :
    texts.map (fun entry => (entry.1, entry.2.toUTF8)) = entries := by
  have hall := mapM_eq_ok.mp h
  clear h
  induction hall with
  | nil => rfl
  | cons hentry _ ih =>
      obtain ⟨text, htext, hsame⟩ := bind_eq_ok.mp hentry
      cases hsame
      rw [List.map_cons, ih, fromUtf8_eq_ok.mp htext]

/-- The bytes under each key are the ones that are listed for it. -/
def Lists (data : BTreeMap String String) (entries : List (String × Bytes)) : Prop :=
  ∀ key bytes, bytesAt data key = some bytes ↔ (key, bytes) ∈ entries

theorem lists_collect {texts : List (String × String)} (hnodup : (texts.map Prod.fst).Nodup) :
    Lists (collect texts) (texts.map fun entry => (entry.1, entry.2.toUTF8)) := by
  intro key bytes
  unfold bytesAt
  rw [Option.map_eq_some_iff, List.mem_map]
  constructor
  · rintro ⟨text, htext, rfl⟩
    exact ⟨(key, text), (getElem?_collect_eq_some hnodup).mp htext, rfl⟩
  · rintro ⟨⟨name, text⟩, hmem, heq⟩
    cases heq
    exact ⟨text, (getElem?_collect_eq_some hnodup).mpr hmem, rfl⟩

theorem Lists.eq_none {data : BTreeMap String String} {entries : List (String × Bytes)}
    (h : Lists data entries) {key : String} (hkey : key ∉ entries.map Prod.fst) :
    bytesAt data key = none := by
  cases hheld : bytesAt data key with
  | none => rfl
  | some bytes => exact absurd (List.mem_map_of_mem ((h key bytes).mp hheld)) hkey

/-! ## An object -/

/-- The object a plan makes of a document. -/
def objectOf (plan : PublicationPlan) (reads : Reads) : DocumentKind → Object
  | .dataSources => ⟨.dataSources, plan.dataSources,
      .new .dataSources plan.dataSources.revision, [], reads.dataSources⟩
  | .catalog => ⟨.catalog, plan.catalog, .new .catalog plan.catalog.revision, [], reads.catalog⟩
  | .tenants => ⟨.tenants, tenantsObjectPlan plan, tenantsManifest plan reads.tenants,
      tenantsCarried plan, reads.tenants⟩

theorem objects_eq (plan : PublicationPlan) (reads : Reads) :
    objects plan (tenantsObjectPlan plan) reads =
      [objectOf plan reads .dataSources, objectOf plan reads .catalog,
        objectOf plan reads .tenants] := rfl

section ObjectOf

variable {plan : PublicationPlan} {reads : Reads} {document : DocumentKind}

@[simp] theorem document_objectOf : (objectOf plan reads document).document = document := by
  cases document <;> rfl

@[simp] theorem read_objectOf : (objectOf plan reads document).read = reads.of document := by
  cases document <;> rfl

theorem tenantsObjectPlan_bytes (plan : PublicationPlan) :
    (tenantsObjectPlan plan).bytes = plan.tenants.bytes := by
  unfold tenantsObjectPlan
  split <;> rfl

@[simp] theorem bytes_objectOf :
    (objectOf plan reads document).plan.bytes = (plan.document document).bytes := by
  cases document with
  | tenants => exact tenantsObjectPlan_bytes plan
  | dataSources => rfl
  | catalog => rfl

/-- The tenants object is written where the tenants, the record or the registry is. -/
theorem outcome_tenantsObjectPlan : (tenantsObjectPlan plan).outcome = .written ↔
    plan.tenants.outcome = .written ∨ plan.record.outcome = .written ∨
      registryWritten plan = true := by
  unfold tenantsObjectPlan
  split
  · rename_i hrewritten
    simp [hrewritten]
  · rename_i hkept
    simp [hkept]

/-- The keys of an object are its own. -/
def Object.entries (object : Object) (manifest : Bytes) : List (String × Bytes) :=
  ((Keys.of object.document).payload, object.plan.bytes) ::
    ((Keys.of object.document).manifest, manifest) :: object.carried

theorem nodup_entries (manifest : Bytes) :
    (((objectOf plan reads document).entries manifest).map Prod.fst).Nodup := by
  cases document with
  | dataSources =>
      show ["data-sources.json", "data-sources.manifest.json"].Nodup
      decide
  | catalog =>
      show ["catalog.json", "catalog.manifest.json"].Nodup
      decide
  | tenants =>
      unfold Object.entries objectOf tenantsCarried
      cases plan.registry with
      | none =>
          show ["tenants.json", "tenants.manifest.json", "publication.json"].Nodup
          decide
      | some registry =>
          show ["tenants.json", "tenants.manifest.json", "publication.json",
            "issuer-registry.json"].Nodup
          decide

/-- What an object is made as: its texts are the bytes that were planned. -/
theorem configMap_eq_ok {namespaceName : String} {version : Option String} {made : ConfigMap}
    (h : (objectOf plan reads document).configMap codecs namespaceName version = .ok made) :
    ∃ manifest, codecs.manifest.line (objectOf plan reads document).manifest = .ok manifest ∧
      made.metadata.resourceVersion = version ∧
        Lists made.data ((objectOf plan reads document).entries manifest) := by
  unfold Object.configMap objectFor at h
  obtain ⟨payload, hpayload, h⟩ := bind_eq_ok.mp h
  obtain ⟨line, hline, h⟩ := bind_eq_ok.mp h
  obtain ⟨manifest, hmanifest, h⟩ := bind_eq_ok.mp h
  obtain ⟨carried, hcarried, h⟩ := bind_eq_ok.mp h
  obtain ⟨data, hdata, h⟩ := bind_eq_ok.mp h
  cases h
  refine ⟨line, mapError_eq_ok.mp hline, rfl, ?_⟩
  have htexts : carried.map (fun entry => (entry.1, entry.2.toUTF8)) =
      (objectOf plan reads document).carried :=
    toUTF8_of_mapM hcarried
  unfold dataFor at hdata
  dsimp only at hdata
  split at hdata
  · cases hdata
  · cases hdata
    have hentries : ((objectOf plan reads document).entries line) =
        (((Keys.of (objectOf plan reads document).document).payload, payload) ::
          ((Keys.of (objectOf plan reads document).document).manifest, manifest) ::
            carried).map fun entry => (entry.1, entry.2.toUTF8) := by
      rw [List.map_cons, List.map_cons, htexts, fromUtf8_eq_ok.mp hpayload,
        fromUtf8_eq_ok.mp hmanifest]
      rfl
    rw [hentries]
    apply lists_collect
    have hkeys : (((objectOf plan reads document).entries line).map Prod.fst).Nodup :=
      nodup_entries line
    rw [hentries, List.map_map] at hkeys
    exact hkeys

end ObjectOf

/-! ## What is read of a version -/

/-- An object at a version, as it is answered. -/
def Stored.configMap (stored : Stored) (document : DocumentKind) : ConfigMap where
  metadata :=
    { name := nameOf document, namespaceName := "", labels := ∅
      resourceVersion := some stored.resourceVersion }
  data := stored.data

/-- What is read of an object at a version, or where there is none. -/
def readStored (codecs : Codecs) (document : DocumentKind) (current : Option Stored) :
    Except PublicationError Read :=
  readFound codecs (current.map fun stored => stored.configMap document) document

/-- However the object is answered, it is read as its version. -/
theorem readFound_of_finds {document : DocumentKind} {current : Option Stored}
    {found : Option ConfigMap} (h : Finds document current found) :
    readFound codecs found document = readStored codecs document current := by
  cases current with
  | none =>
      cases found with
      | none => rfl
      | some object => exact h.elim
  | some stored =>
      cases found with
      | none => exact h.elim
      | some object =>
          obtain ⟨hname, hversion, hdata⟩ := h
          show readObject codecs object document = readObject codecs (stored.configMap document) _
          have hown : (stored.configMap document).metadata.name = nameOf document := rfl
          unfold readObject
          rw [if_pos hname, if_pos hown, hversion, hdata]
          rfl

theorem heldManifest_eq_ok {text : Option Bytes} {document : DocumentKind}
    {manifest : Option DocumentManifest} : heldManifest codecs text document = .ok manifest ↔
      text = none ∧ manifest = none ∨ ∃ bytes found, text = some bytes ∧
        codecs.manifest.read bytes = .ok found ∧ found.document = document ∧
          manifest = some found := by
  cases text with
  | none =>
      constructor
      · intro h
        cases h
        exact Or.inl ⟨rfl, rfl⟩
      · rintro (⟨-, rfl⟩ | ⟨_, _, hnone, -⟩)
        · rfl
        · cases hnone
  | some bytes =>
      constructor
      · intro h
        obtain ⟨found, hfound, hkind⟩ := bind_eq_ok.mp h
        split at hkind
        · rename_i hdocument
          cases hkind
          exact Or.inr ⟨bytes, found, rfl, mapError_eq_ok.mp hfound, hdocument, rfl⟩
        · cases hkind
      · rintro (⟨hnone, -⟩ | ⟨_, found, hsome, hfound, hdocument, rfl⟩)
        · cases hnone
        · cases hsome
          exact bind_eq_ok.mpr ⟨found, mapError_eq_ok.mpr hfound, if_pos hdocument⟩

theorem heldOf_eq_ok {data : BTreeMap String String} {document : DocumentKind}
    {held : HeldDocument} : heldOf codecs data document = .ok held ↔
      heldManifest codecs (bytesAt data (Keys.of document).manifest) document =
          .ok held.manifest ∧
        held.payload = bytesAt data (Keys.of document).payload := by
  unfold heldOf
  simp only [bind_eq_ok, Except.ok.injEq]
  constructor
  · rintro ⟨manifest, hmanifest, rfl⟩
    exact ⟨hmanifest, rfl⟩
  · rintro ⟨hmanifest, hpayload⟩
    exact ⟨held.manifest, hmanifest, by rw [← hpayload]⟩

theorem readStored_some {document : DocumentKind} {stored : Stored} {read : Read} :
    readStored codecs document (some stored) = .ok read ↔
      heldOf codecs stored.data document = .ok read.held ∧
        read.resourceVersion = some stored.resourceVersion ∧
        read.record = (if document = .tenants then
          bytesAt stored.data PUBLICATION_RECORD_FILE else none) ∧
        read.registry = (if document = .tenants then
          bytesAt stored.data ISSUER_REGISTRY_FILE else none) := by
  unfold readStored readFound
  show readObject codecs (stored.configMap document) document = .ok read ↔ _
  have hown : (stored.configMap document).metadata.name = nameOf document := rfl
  unfold readObject
  rw [if_pos hown, bind_eq_ok]
  constructor
  · rintro ⟨held, hheld, hread⟩
    cases hread
    exact ⟨hheld, rfl, rfl, rfl⟩
  · rintro ⟨hheld, hversion, hrecord, hregistry⟩
    obtain ⟨held, version, record, registry⟩ := read
    dsimp only at hheld hversion hrecord hregistry
    exact ⟨held, hheld, by rw [hversion, hrecord, hregistry]; rfl⟩

/-- The version that is read is the one the object is at. -/
theorem version_of_readStored {document : DocumentKind} {current : Option Stored} {read : Read}
    (h : readStored codecs document current = .ok read) :
    read.resourceVersion = current.map Stored.resourceVersion := by
  cases current with
  | none =>
      cases h
      rfl
  | some stored => exact (readStored_some.mp h).2.1

/-- A manifest that is read describes the document it is read for. -/
theorem document_of_readStored {document : DocumentKind} {current : Option Stored} {read : Read}
    (h : readStored codecs document current = .ok read) {manifest : DocumentManifest}
    (hmanifest : read.held.manifest = some manifest) : manifest.document = document := by
  cases current with
  | none =>
      cases h
      cases hmanifest
  | some stored =>
      obtain ⟨hheld, -⟩ := readStored_some.mp h
      obtain ⟨hfound, -⟩ := heldOf_eq_ok.mp hheld
      rcases heldManifest_eq_ok.mp hfound with ⟨-, hnone⟩ | ⟨_, found, -, -, hdocument, hsome⟩
      · rw [hnone] at hmanifest
        cases hmanifest
      · rw [hsome] at hmanifest
        cases hmanifest
        exact hdocument

section Written

variable {plan : PublicationPlan} {reads : Reads} {document : DocumentKind} {before : Option Stored}

/-- The manifest of an object describes its document. -/
theorem document_manifest_objectOf
    (hread : readStored codecs document before = .ok (reads.of document)) :
    (objectOf plan reads document).manifest.document = document := by
  cases document with
  | dataSources => rfl
  | catalog => rfl
  | tenants =>
      show (tenantsManifest plan reads.tenants).document = .tenants
      unfold tenantsManifest
      split
      · rename_i manifest hmanifest _
        exact document_of_readStored hread hmanifest
      · rfl

/-- What was written is read back. -/
theorem heldOf_written (hlawful : codecs.Lawful) {data : BTreeMap String String} {bytes : Bytes}
    (hread : readStored codecs document before = .ok (reads.of document))
    (hline : codecs.manifest.line (objectOf plan reads document).manifest = .ok bytes)
    (hlists : Lists data ((objectOf plan reads document).entries bytes)) :
    heldOf codecs data document = .ok ⟨some (objectOf plan reads document).manifest,
      some (plan.document document).bytes⟩ := by
  have hpayload : bytesAt data (Keys.of document).payload =
      some (plan.document document).bytes := by
    refine (hlists _ _).mpr ?_
    unfold Object.entries
    rw [document_objectOf, bytes_objectOf]
    exact List.mem_cons_self
  have hmanifest : bytesAt data (Keys.of document).manifest = some bytes := by
    refine (hlists _ _).mpr ?_
    unfold Object.entries
    rw [document_objectOf]
    exact List.mem_cons_of_mem _ List.mem_cons_self
  refine heldOf_eq_ok.mpr ⟨?_, hpayload.symm⟩
  rw [hmanifest]
  exact heldManifest_eq_ok.mpr (Or.inr ⟨bytes, _, rfl, hlawful.manifest.read_line hline,
    document_manifest_objectOf hread, rfl⟩)

/-- What a tenants object carries beside its document. -/
theorem carried_written {data : BTreeMap String String} {bytes : Bytes}
    (hlists : Lists data ((objectOf plan reads .tenants).entries bytes)) :
    bytesAt data PUBLICATION_RECORD_FILE = some plan.record.bytes ∧
      bytesAt data ISSUER_REGISTRY_FILE = plan.registry.map RegistryPlan.bytes := by
  constructor
  · refine (hlists _ _).mpr ?_
    exact List.mem_cons_of_mem _ (List.mem_cons_of_mem _ List.mem_cons_self)
  · have hentries : (objectOf plan reads .tenants).entries bytes =
        ("tenants.json", (tenantsObjectPlan plan).bytes) :: ("tenants.manifest.json", bytes) ::
          ("publication.json", plan.record.bytes) ::
            (plan.registry.map fun registry => (ISSUER_REGISTRY_FILE, registry.bytes)).toList := rfl
    rw [hentries] at hlists
    cases hregistry : plan.registry with
    | none =>
        rw [hregistry] at hlists
        exact hlists.eq_none (by simp [ISSUER_REGISTRY_FILE])
    | some registry =>
        rw [hregistry] at hlists
        refine (hlists _ _).mpr ?_
        simp

end Written

end Kubernetes
end SaasFabric
