import SaasFabric.Publication.Target

/-!
# The objects of a publication

`fabric-publication-kubernetes`'s `wire.rs`, `object.rs`, `held.rs` and `tenants_object.rs`:
each document is one `ConfigMap` with its payload and its manifest, and the tenants object
carries the publication record and the issuer registry beside them.
-/

namespace SaasFabric
namespace Kubernetes

open Publication

/-! ## The wire -/

/-- `Metadata`. -/
structure Metadata where
  name : String
  namespaceName : String
  labels : BTreeMap String String
  resourceVersion : Option String

/-- `ConfigMap`. -/
structure ConfigMap where
  metadata : Metadata
  data : BTreeMap String String

/-- `MANAGED_BY_LABEL`. -/
def MANAGED_BY_LABEL : String × String := ("app.kubernetes.io/managed-by", "saas-fabric")

/-! ## Names and keys -/

/-- `PUBLICATION_RECORD_FILE`. -/
def PUBLICATION_RECORD_FILE : String := "publication.json"

/-- `ISSUER_REGISTRY_FILE`. -/
def ISSUER_REGISTRY_FILE : String := "issuer-registry.json"

/-- `Keys`. -/
structure Keys where
  payload : String
  manifest : String

/-- `Keys::of`. -/
def Keys.of : DocumentKind → Keys
  | .tenants => ⟨"tenants.json", "tenants.manifest.json"⟩
  | .dataSources => ⟨"data-sources.json", "data-sources.manifest.json"⟩
  | .catalog => ⟨"catalog.json", "catalog.manifest.json"⟩

/-- `name_of`. -/
def nameOf : DocumentKind → String
  | .tenants => "fabric-runtime-tenants"
  | .dataSources => "fabric-runtime-data-sources"
  | .catalog => "fabric-runtime-catalog"

/-! ## What is read -/

/-- `Read`. -/
structure Read where
  held : HeldDocument
  resourceVersion : Option String
  record : Option Bytes
  registry : Option Bytes

/-- What is read where there is no object. -/
def Read.absent : Read := ⟨.absent, none, none, none⟩

/-- `Reads`. -/
structure Reads where
  tenants : Read
  dataSources : Read
  catalog : Read

/-- What was read of a document. -/
def Reads.of (reads : Reads) : DocumentKind → Read
  | .tenants => reads.tenants
  | .dataSources => reads.dataSources
  | .catalog => reads.catalog

/-- `Reads::held`. -/
def Reads.held (reads : Reads) : HeldDocuments where
  tenants := reads.tenants.held
  dataSources := reads.dataSources.held
  catalog := reads.catalog.held
  record := reads.tenants.record
  registry := reads.tenants.registry

/-- The bytes a key holds. -/
def bytesAt (data : BTreeMap String String) (key : String) : Option Bytes :=
  data[key]?.map String.toUTF8

variable (codecs : Codecs)

/-- The manifest of `held_of`. -/
def heldManifest (text : Option Bytes) (document : DocumentKind) :
    Except PublicationError (Option DocumentManifest) :=
  match text with
  | none => .ok none
  | some text => do
      let manifest ← (codecs.manifest.read text).mapError fun _ =>
        PublicationError.unreadable document "the held manifest cannot be read"
      if manifest.document = document then
        .ok (some manifest)
      else
        .error (.unreadable document "the held manifest describes a different document")

/-- `held_of`. -/
def heldOf (data : BTreeMap String String) (document : DocumentKind) :
    Except PublicationError HeldDocument := do
  let keys := Keys.of document
  let manifest ← heldManifest codecs (bytesAt data keys.manifest) document
  .ok { manifest, payload := bytesAt data keys.payload }

/-- `read_one`, of the object that was found: only the tenants object carries a record and a
registry. -/
def readObject (object : ConfigMap) (document : DocumentKind) : Except PublicationError Read :=
  if object.metadata.name = nameOf document then do
    let held ← heldOf codecs object.data document
    let tenantsKey := fun key => if document = .tenants then bytesAt object.data key else none
    .ok { held, resourceVersion := object.metadata.resourceVersion
          record := tenantsKey PUBLICATION_RECORD_FILE
          registry := tenantsKey ISSUER_REGISTRY_FILE }
  else
    .error (.unreadable document "the cluster answered with a different object")

/-- `read_one`, of what was found. -/
def readFound (found : Option ConfigMap) (document : DocumentKind) :
    Except PublicationError Read :=
  match found with
  | none => .ok .absent
  | some object => readObject codecs object document

/-! ## What is written -/

/-- `OBJECT_CAP`. -/
def OBJECT_CAP : Nat := 1024 * 1024

/-- `String::from_utf8`, or an error. -/
def fromUtf8 (bytes : Bytes) (error : PublicationError) : Except PublicationError String :=
  match String.fromUTF8? bytes with
  | some text => .ok text
  | none => .error error

/-- The error of an object that is too large. -/
def overCap (document : DocumentKind) : PublicationError :=
  .unwritable document "the document would exceed the cluster's object size limit"

/-- The `data` of an object, or that it is too large. -/
def dataFor (document : DocumentKind) (payload manifest : String)
    (carried : List (String × String)) : Except PublicationError (BTreeMap String String) :=
  let keys := Keys.of document
  let carriedLen := (carried.map fun entry => entry.1.utf8ByteSize + entry.2.utf8ByteSize).sum
  if OBJECT_CAP < payload.utf8ByteSize + manifest.utf8ByteSize + keys.payload.utf8ByteSize +
      keys.manifest.utf8ByteSize + carriedLen then
    .error (overCap document)
  else
    .ok (Library.collect ((keys.payload, payload) :: (keys.manifest, manifest) :: carried))

/-- `object_for`. -/
def objectFor (namespaceName : String) (document : DocumentKind) (plan : DocumentPlan)
    (manifest : DocumentManifest) (carried : List (String × Bytes))
    (resourceVersion : Option String) : Except PublicationError ConfigMap := do
  let payload ← fromUtf8 plan.bytes
    (.unwritable document "the document's bytes are not UTF-8")
  let manifest ← (codecs.manifest.line manifest).mapError fun _ =>
    PublicationError.unwritable document "the manifest could not be rendered"
  let manifest ← fromUtf8 manifest (.unwritable document "the manifest is not UTF-8")
  let carried ← carried.mapM fun entry => do
    let text ← fromUtf8 entry.2 (.unwritable document "a carried key is not UTF-8")
    .ok (entry.1, text)
  let data ← dataFor document payload manifest carried
  .ok { metadata :=
          { name := nameOf document, namespaceName
            labels := Library.collect [MANAGED_BY_LABEL]
            resourceVersion }
        data }

/-! ## The tenants object -/

/-- The registry of a plan is to be written. -/
def registryWritten (plan : PublicationPlan) : Bool :=
  plan.registry.any fun registry => registry.outcome = .written

/-- `tenants_object_plan`. -/
def tenantsObjectPlan (plan : PublicationPlan) : DocumentPlan :=
  if plan.record.outcome = .written ∨ registryWritten plan then
    { plan.tenants with outcome := .written }
  else
    plan.tenants

/-- `tenants_carried`. -/
def tenantsCarried (plan : PublicationPlan) : List (String × Bytes) :=
  (PUBLICATION_RECORD_FILE, plan.record.bytes) ::
    (plan.registry.map fun registry => (ISSUER_REGISTRY_FILE, registry.bytes)).toList

/-- `tenants_manifest`. -/
def tenantsManifest (plan : PublicationPlan) (held : Read) : DocumentManifest :=
  match held.held.manifest, plan.tenants.outcome with
  | some manifest, .unchanged => manifest
  | _, _ => DocumentManifest.new .tenants plan.tenants.revision

/-- `Object`. -/
structure Object where
  document : DocumentKind
  plan : DocumentPlan
  manifest : DocumentManifest
  carried : List (String × Bytes)
  read : Read

/-- `objects`. -/
def objects (plan : PublicationPlan) (tenants : DocumentPlan) (reads : Reads) : List Object :=
  [⟨.dataSources, plan.dataSources, .new .dataSources plan.dataSources.revision, [],
      reads.dataSources⟩,
    ⟨.catalog, plan.catalog, .new .catalog plan.catalog.revision, [], reads.catalog⟩,
    ⟨.tenants, tenants, tenantsManifest plan reads.tenants, tenantsCarried plan, reads.tenants⟩]

/-- The object a plan makes of a document, for a version. -/
def Object.configMap (object : Object) (namespaceName : String)
    (resourceVersion : Option String) : Except PublicationError ConfigMap :=
  objectFor codecs namespaceName object.document object.plan object.manifest object.carried
    resourceVersion

end Kubernetes
end SaasFabric
