import SaasFabric.Library.Process
import SaasFabric.Kubernetes.Object

/-!
# Publishing to a cluster

`fabric-publication-kubernetes`'s `publish.rs` and `confirm.rs`, and the API server they write
to: three objects are read, the publication is planned, the objects it relied on and leaves alone
are read again, and the others are written in order.  The server keeps every version an object
had, and takes a write where the object is as the writer read it.
-/

namespace SaasFabric
namespace Kubernetes

open Library
open Publication

/-! ## The API server -/

/-- One version of an object. -/
structure Stored where
  resourceVersion : String
  data : BTreeMap String String

/-- The versions of an object: the one that was there, and those that were written, in order. -/
structure History where
  first : Option Stored
  written : List Stored

/-- The version an object is at. -/
def History.current (history : History) : Option Stored :=
  history.written.getLast?.or history.first

/-- Every version an object had. -/
def History.versions (history : History) : List Stored :=
  history.first.toList ++ history.written

/-- Another version is written. -/
def History.append (history : History) (stored : Stored) : History :=
  { history with written := history.written ++ [stored] }

/-- The three objects of a namespace. -/
abbrev Cluster := DocumentKind → History

/-- A namespace with these objects. -/
def Cluster.holding (first : DocumentKind → Option Stored) : Cluster :=
  fun document => ⟨first document, []⟩

/-- Another version of one object is written. -/
def Cluster.append (cluster : Cluster) (document : DocumentKind) (stored : Stored) : Cluster :=
  fun other => if other = document then (cluster document).append stored else cluster other

/-! ## What a publisher does -/

/-- A request to the API server. -/
inductive Effect where
  | get (document : DocumentKind)
  | write (document : DocumentKind) (object : ConfigMap)

/-- What a request answers. -/
abbrev Effect.Answer : Effect → Type
  | get _ => Except PublicationError (Option ConfigMap)
  | write .. => Except PublicationError Unit

/-- A request and its answer. -/
abbrev Exchanged := Process.Event Effect.Answer

/-- What was found is the object at a version. -/
def Finds (document : DocumentKind) (current : Option Stored) (found : Option ConfigMap) : Prop :=
  match current, found with
  | none, none => True
  | some stored, some object =>
      object.metadata.name = nameOf document ∧
        object.metadata.resourceVersion = some stored.resourceVersion ∧ object.data = stored.data
  | _, _ => False

/-- The object is absent, for a create, or at the version that is sent, for a replace. -/
def Admits (current : Option Stored) (object : ConfigMap) : Prop :=
  current.map Stored.resourceVersion = object.metadata.resourceVersion

/-- How the API server answers.  A version is never given twice; a request can be lost before it
arrives, and an answer after it did. -/
def world : Process.World Cluster Effect.Answer := fun before effect after =>
  match effect with
  | .get document => fun answer =>
      after = before ∧
        ((∃ error, answer = .error error) ∨
          ∃ found, answer = .ok found ∧ Finds document (before document).current found)
  | .write document object => fun answer =>
      (after = before ∧ ∃ error, answer = .error error) ∨
        Admits (before document).current object ∧
          ∃ version, version ∉ (before document).versions.map Stored.resourceVersion ∧
            after = before.append document ⟨version, object.data⟩

/-- What a publisher does: requests, and a result or an error. -/
abbrev Pass := ExceptT PublicationError (Process Effect.Answer)

/-- `Client::get`. -/
def get (document : DocumentKind) : Pass (Option ConfigMap) :=
  ExceptT.mk (Process.ask (Effect.get document) : Process Effect.Answer _)

/-- `Client::write`. -/
def write (document : DocumentKind) (object : ConfigMap) : Pass Unit :=
  ExceptT.mk (Process.ask (Effect.write document object) : Process Effect.Answer _)

/-- What needs no request. -/
def settle {α : Type} (result : Except PublicationError α) : Pass α := ExceptT.mk (pure result)

section Publisher

variable (codecs : Codecs)

/-- `read_one`. -/
def readOne (document : DocumentKind) : Pass Read := do
  let found ← get document
  settle (readFound codecs found document)

/-- `Reads::fetch`. -/
def fetch : Pass Reads := do
  let tenants ← readOne codecs .tenants
  let dataSources ← readOne codecs .dataSources
  let catalog ← readOne codecs .catalog
  return { tenants, dataSources, catalog }

/-- `KubernetesRuntimePublication::current`. -/
def current : Pass PublishedRevisions := do
  let reads ← fetch codecs
  return reads.held.revisions codecs

/-- `KubernetesRuntimePublication::published_resources`. -/
def publishedResources : Pass PublishedResources := do
  let reads ← fetch codecs
  settle (reads.held.resources codecs)

/-- The error where an object has moved. -/
def moved (document : DocumentKind) : PublicationError :=
  .unwritable document ("another writer changed a published document this publication relied on; " ++
    "the next pass re-reads it")

/-- `confirm_unmoved`. -/
def confirmUnmoved (document : DocumentKind) (read : Read) : Pass Unit := do
  let now ← readOne codecs document
  if now.resourceVersion = read.resourceVersion then
    return ()
  else
    throw (moved document)

/-- What a plan decided of each document, and how it was read. -/
def reliedOn (plan : PublicationPlan) (reads : Reads) :
    List (DocumentKind × DocumentOutcome × Read) :=
  [(.dataSources, plan.dataSources.outcome, reads.dataSources),
    (.catalog, plan.catalog.outcome, reads.catalog),
    (.tenants, plan.tenants.outcome, reads.tenants)]

/-- The record and every document is left as it is. -/
def LeavesDocuments (plan : PublicationPlan) : Prop :=
  plan.record.outcome = .unchanged ∧ plan.dataSources.outcome = .unchanged ∧
    plan.catalog.outcome = .unchanged ∧ plan.tenants.outcome = .unchanged

instance (plan : PublicationPlan) : Decidable (LeavesDocuments plan) :=
  inferInstanceAs (Decidable (_ ∧ _ ∧ _ ∧ _))

/-- `confirm_read_only_unmoved`. -/
def confirmReadOnlyUnmoved (plan : PublicationPlan) (reads : Reads) : Pass Unit :=
  if LeavesDocuments plan then
    return ()
  else
    (reliedOn plan reads).forM fun (document, outcome, read) =>
      if outcome = .unchanged then confirmUnmoved codecs document read else return ()

variable (namespaceName : String)

/-- `write`. -/
def writeObject (object : Object) : Pass Unit :=
  if object.plan.outcome = .unchanged then
    return ()
  else do
    let configMap ← settle (object.configMap codecs namespaceName object.read.resourceVersion)
    write object.document configMap

/-- The check that every object is within the size limit. -/
def checkObject (object : Object) : Pass Unit := do
  let _ ← settle (object.configMap codecs namespaceName none)
  return ()

/-- `KubernetesRuntimePublication::publish`, once it is planned. -/
def carryOut (plan : PublicationPlan) (reads : Reads) : Pass PublicationReport := do
  let objects := objects plan (tenantsObjectPlan plan) reads
  objects.forM (checkObject codecs namespaceName)
  confirmReadOnlyUnmoved codecs plan reads
  objects.forM (writeObject codecs namespaceName)
  return plan.report

/-- `KubernetesRuntimePublication::publish`. -/
def publish (snapshot : RuntimeSnapshot) : Pass PublicationReport := do
  let reads ← fetch codecs
  let plan ← settle (planPublication codecs snapshot reads.held)
  carryOut codecs namespaceName plan reads

end Publisher

end Kubernetes
end SaasFabric
