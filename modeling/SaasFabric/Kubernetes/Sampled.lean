import SaasFabric.Kubernetes.Alone
import SaasFabric.Platform.Passes

/-!
# A namespace of a catalogue

The three objects a catalogue was published to before there is any tenant, as texts: what they are
read as, and that what is made of texts is accepted where it is within the size limit.
-/

namespace SaasFabric
namespace Kubernetes

open Library
open Publication

variable {codecs : Codecs}

/-! ## Texts -/

/-- What is under the two keys of a document's own. -/
def ownTexts (document : DocumentKind) (payload manifest : String) : List (String × String) :=
  [((Keys.of document).payload, payload), ((Keys.of document).manifest, manifest)]

/-- An object of texts is read as what they say. -/
theorem readStored_texts {document : DocumentKind} {payload manifest version : String}
    {carried : List (String × String)} {value : DocumentManifest}
    (hkeys : ((ownTexts document payload manifest ++ carried).map Prod.fst).Nodup)
    (hmanifest : codecs.manifest.read manifest.toUTF8 = .ok value)
    (hdocument : value.document = document) :
    readStored codecs document
        (some ⟨version, collect (ownTexts document payload manifest ++ carried)⟩) =
      .ok
        { held := ⟨some value, some payload.toUTF8⟩
          resourceVersion := some version
          record := if document = .tenants then
              bytesAt (collect (ownTexts document payload manifest ++ carried))
                PUBLICATION_RECORD_FILE
            else none
          registry := if document = .tenants then
              bytesAt (collect (ownTexts document payload manifest ++ carried))
                ISSUER_REGISTRY_FILE
            else none } := by
  have hlists := lists_collect hkeys
  have hown : bytesAt (collect (ownTexts document payload manifest ++ carried))
        (Keys.of document).manifest = some manifest.toUTF8 ∧
      bytesAt (collect (ownTexts document payload manifest ++ carried))
        (Keys.of document).payload = some payload.toUTF8 := by
    constructor
    · exact (hlists _ _).mpr (by simp [ownTexts])
    · exact (hlists _ _).mpr (by simp [ownTexts])
  refine readStored_some.mpr ⟨heldOf_eq_ok.mpr ⟨?_, hown.2.symm⟩, rfl, rfl, rfl⟩
  rw [hown.1]
  exact heldManifest_eq_ok.mpr (Or.inr ⟨_, value, rfl, hmanifest, hdocument, rfl⟩)

/-! ## The namespace -/

/-- The objects of a catalogue, with the manifest of the tenants and the record. -/
def bareObject (manifest record : String) : DocumentKind → Stored
  | .dataSources => ⟨"1", collect (ownTexts .dataSources ("[]" ++ "\n")
      (manifestText "data-sources" "1" ++ "\n") ++ [])⟩
  | .catalog => ⟨"1", collect (ownTexts .catalog (ordersText ++ "\n")
      (manifestText "catalog" "1" ++ "\n") ++ [])⟩
  | .tenants => ⟨"1", collect (ownTexts .tenants ("[]" ++ "\n") manifest ++
      [(PUBLICATION_RECORD_FILE, record)])⟩

def bareCluster (manifest record : String) : Cluster :=
  Cluster.holding fun document => some (bareObject manifest record document)

/-- What is read of them. -/
def bareReads (record : Bytes) : Reads where
  tenants := ⟨⟨some (.new .tenants 1), some (lineOf "[]")⟩, some "1", some record, none⟩
  dataSources := ⟨⟨some (.new .dataSources 1), some (lineOf "[]")⟩, some "1", none, none⟩
  catalog := ⟨⟨some (.new .catalog 1), some (lineOf ordersText)⟩, some "1", none, none⟩

/-- An API server that answers each of some small objects in four kilobytes. -/
def smallAnswers (version : Cluster → DocumentKind → String) : ApiServer where
  version := version
  size _ _ := 4096

theorem smallAnswers_not_exceeds {version : Cluster → DocumentKind → String} (cluster : Cluster)
    (document : DocumentKind) : ¬(smallAnswers version).Exceeds cluster document := by
  rintro ⟨-, hover⟩
  have hcap : ¬RESPONSE_CAP < 4096 := by decide
  exact hcap hover

theorem readAll_bareCluster {version : Cluster → DocumentKind → String} {manifest record : String}
    (hcodec : codecs.manifest = firstManifests.codec)
    (hmanifest : codecs.manifest.read manifest.toUTF8 = .ok (DocumentManifest.new .tenants 1)) :
    readAll codecs (smallAnswers version) (bareCluster manifest record) =
      .ok (bareReads record.toUTF8) := by
  have hread : ∀ {document : DocumentKind} {payload text : String}, document ≠ .tenants →
      (DocumentManifest.new document 1, text.toUTF8) ∈ firstManifests.entries →
        readStored codecs document
            (some ⟨"1", collect (ownTexts document payload (text ++ "\n") ++ [])⟩) =
          .ok ⟨⟨some (.new document 1), some payload.toUTF8⟩, some "1", none, none⟩ := by
    intro document payload text hne hmem
    have hkeys : ((ownTexts document payload (text ++ "\n") ++ []).map Prod.fst).Nodup := by
      show [(Keys.of document).payload, (Keys.of document).manifest].Nodup
      cases document <;> decide
    have hline : codecs.manifest.read (text ++ "\n").toUTF8 = .ok (.new document 1) := by
      rw [hcodec, ← lineOf_eq]
      exact (Sample.faithful_codec _).read_line (Sample.line_of_mem hmem)
    rw [readStored_texts hkeys hline rfl, if_neg hne, if_neg hne]
  refine readAll_eq_ok.mpr fun document =>
    readServed_eq_ok.mpr ⟨smallAnswers_not_exceeds _ document, ?_⟩
  have hempty : (lineOf "[]" : Bytes) = ("[]" ++ "\n").toUTF8 := lineOf_eq "[]"
  cases document with
  | tenants =>
      have hkeys : ((ownTexts .tenants ("[]" ++ "\n") manifest ++
          [(PUBLICATION_RECORD_FILE, record)]).map Prod.fst).Nodup := by
        show ["tenants.json", "tenants.manifest.json", "publication.json"].Nodup
        decide
      have hlists := lists_collect hkeys
      have hrecord : bytesAt (collect (ownTexts .tenants ("[]" ++ "\n") manifest ++
          [(PUBLICATION_RECORD_FILE, record)])) PUBLICATION_RECORD_FILE =
            some record.toUTF8 := (hlists _ _).mpr (by simp)
      have hregistry : bytesAt (collect (ownTexts .tenants ("[]" ++ "\n") manifest ++
          [(PUBLICATION_RECORD_FILE, record)])) ISSUER_REGISTRY_FILE = none := by
        refine hlists.eq_none ?_
        show "issuer-registry.json" ∉ ["tenants.json", "tenants.manifest.json", "publication.json"]
        decide
      show readStored codecs .tenants (some ⟨"1", _⟩) = _
      rw [readStored_texts hkeys hmanifest rfl, if_pos rfl, if_pos rfl, hrecord, hregistry,
        ← hempty]
      rfl
  | dataSources =>
      show readStored codecs .dataSources (some ⟨"1", _⟩) = _
      rw [hread (by decide) (List.mem_cons_of_mem _ List.mem_cons_self), ← hempty]
      rfl
  | catalog =>
      show readStored codecs .catalog (some ⟨"1", _⟩) = _
      rw [hread (by decide) (List.mem_cons_of_mem _ (List.mem_cons_of_mem _ List.mem_cons_self)),
        ← lineOf_eq]
      rfl

/-! ## What is made of it -/

/-- An object of texts is made where they are within the size limit. -/
theorem exists_configMap {namespaceName : String} (object : Object) (payload manifest : String)
    (carried : List (String × String)) (hpayload : object.plan.bytes = payload.toUTF8)
    (hmanifest : codecs.manifest.line object.manifest = .ok manifest.toUTF8)
    (hcarried : object.carried = carried.map fun entry => (entry.1, entry.2.toUTF8))
    (hsize : payload.utf8ByteSize + manifest.utf8ByteSize +
      (Keys.of object.document).payload.utf8ByteSize +
        (Keys.of object.document).manifest.utf8ByteSize +
          (carried.map fun entry => entry.1.utf8ByteSize + entry.2.utf8ByteSize).sum ≤ OBJECT_CAP)
    {version : Option String} :
    ∃ made, object.configMap codecs namespaceName version = .ok made := by
  have htexts : (object.carried.mapM fun entry => do
      let text ← fromUtf8 entry.2 (.unwritable object.document "a carried key is not UTF-8")
      .ok (entry.1, text)) = .ok carried := by
    rw [hcarried]
    refine mapM_eq_ok.mpr ?_
    rw [List.forall₂_map_left_iff, List.forall₂_same]
    intro entry _
    rw [fromUtf8_eq_ok.mpr rfl]
    rfl
  have hdata : dataFor object.document payload manifest carried =
      .ok (collect (ownTexts object.document payload manifest ++ carried)) :=
    if_neg (Nat.not_lt.mpr hsize)
  unfold Object.configMap objectFor
  simp only [bind_eq_ok]
  exact ⟨_, payload, fromUtf8_eq_ok.mpr hpayload.symm, _, mapError_eq_ok.mpr hmanifest,
    manifest, fromUtf8_eq_ok.mpr rfl, carried, htexts, _, hdata, rfl⟩

/-! ## Another catalogue over it -/

/-- The plan of another catalogue at the next revision. -/
noncomputable def readOnlyPlan : PublicationPlan where
  dataSources := ⟨.unchanged, lineOf "[]", 1⟩
  catalog := ⟨.written, lineOf readOnlyText, 2⟩
  tenants := ⟨.unchanged, lineOf "[]", 1⟩
  registry := none
  record := ⟨.written, bareRecord 2 2 readOnlyDigest,
    lineOf (bareRecordText "2" "2" readOnlyDigest),
    ⟨2, bareSamples.codecs.sha256 (lineOf (bareRecordText "2" "2" readOnlyDigest))⟩⟩

/-- What is made of a line is the line of a text. -/
theorem manifestLine_bareSamples {document : DocumentKind} {revision : DocumentRevision}
    {text : String}
    (h : (DocumentManifest.new document revision, text.toUTF8) ∈ firstManifests.entries) :
    bareSamples.codecs.manifest.line (.new document revision) = .ok (text ++ "\n").toUTF8 := by
  rw [← lineOf_eq]
  exact Sample.line_of_mem h

/-- It is accepted over that namespace. -/
theorem accepted_readOnly {version : Cluster → DocumentKind → String} {manifest : String}
    (hmanifest : bareSamples.codecs.manifest.read manifest.toUTF8 = .ok (.new .tenants 1)) :
    accepted bareSamples.codecs (smallAnswers version) "saas-fabric"
      (bareSnapshot readOnlyCatalog 2)
      (bareCluster manifest (bareRecordText "1" "1" ordersDigest ++ "\n")) =
      .ok (bareReads (lineOf (bareRecordText "1" "1" ordersDigest)), readOnlyPlan) := by
  refine accepted_eq_ok.mpr ⟨?_, ?_, fun document => ?_⟩
  · rw [lineOf_eq]
    exact readAll_bareCluster rfl hmanifest
  · exact Platform.planned_bareHeld (Platform.decideDocument_of_newer (by decide))
      (Sample.line_of_mem (List.mem_cons_of_mem _ List.mem_cons_self))
  · cases document with
    | dataSources =>
        exact exists_configMap (objectOf readOnlyPlan _ .dataSources) ("[]" ++ "\n")
          (manifestText "data-sources" "1" ++ "\n") [] (lineOf_eq "[]")
          (manifestLine_bareSamples (List.mem_cons_of_mem _ List.mem_cons_self)) rfl
          (by decide +kernel)
    | catalog =>
        exact exists_configMap (objectOf readOnlyPlan _ .catalog) (readOnlyText ++ "\n")
          (manifestText "catalog" "2" ++ "\n") [] (lineOf_eq readOnlyText)
          (manifestLine_bareSamples (List.mem_cons_of_mem _ (List.mem_cons_of_mem _
            (List.mem_cons_of_mem _ List.mem_cons_self)))) rfl (by decide +kernel)
    | tenants =>
        exact exists_configMap (objectOf readOnlyPlan (bareReads _) .tenants) ("[]" ++ "\n")
          (manifestText "tenants" "1" ++ "\n")
          [(PUBLICATION_RECORD_FILE, bareRecordText "2" "2" readOnlyDigest ++ "\n")]
          (lineOf_eq "[]") (manifestLine_bareSamples List.mem_cons_self)
          (congrArg (fun bytes => [(PUBLICATION_RECORD_FILE, bytes)]) (lineOf_eq _))
          (by decide +kernel)

end Kubernetes
end SaasFabric
