import SaasFabric.Core.Debug
import SaasFabric.PlatformGit.Argo
import SaasFabric.PlatformGit.Atomic

/-!
# Moving one component's desired state, as one commit

`write_desired`: the manifest is read, the release is checked against what the component
publishes, every pinned file is read and rewritten, the manifest entry is moved, and all of it
is written in one change.  Advancing keeps the component's hold and rolling back sets one.
-/

namespace SaasFabric
namespace PlatformGit

open Library
open Platform (Hold DesiredRevision)

/-! ## What a caller asks for -/

/-- `ImageDigest`: one image's new identity, as the caller resolved it. -/
structure ImageDigest where
  repository : String
  digest : String
deriving DecidableEq

/-- `ComponentVersion`: one version, one source commit, and every image of the component. -/
structure ComponentVersion where
  version : String
  sourceRevision : String
  images : BTreeMap String ImageDigest
deriving DecidableEq

/-- `WantedVersion`. -/
inductive WantedVersion where
  | images (unit : ComponentVersion)
  | chart (repository chart version : String)
  | described (version : ComponentVersion) (primary : String)
deriving DecidableEq

/-- `WantedVersion::version`. -/
def WantedVersion.version : WantedVersion → String
  | .images unit => unit.version
  | .chart _ _ version => version
  | .described unit _ => unit.version

/-- `WantedVersion::describe`. -/
def WantedVersion.describe : WantedVersion → String
  | .images _ => IMAGES_WORDS
  | .chart .. => HELM_WORDS
  | .described .. => DESCRIBED_WORDS

/-- `HoldChange`: what a write does to the component's hold. -/
inductive HoldChange where
  | keep
  | set (hold : Hold)

/-! ## Refusing what is not this component's release -/

/-- `{:?}` of a list of roles. -/
def listed (roles : List String) : String :=
  "[" ++ String.intercalate ", " (roles.map debugText) ++ "]"

/-- `check_images`: roles agree exactly, and no role's repository moves. -/
def checkImages (component : String) (images : BTreeMap String ImagePin)
    (wanted : ComponentVersion) : Except PlatformGitError Unit :=
  let declared := images.keys
  let offered := wanted.images.keys
  if declared ≠ offered then
    .error (.rejected (component ++ " publishes " ++ listed declared ++
      " and they move together; the request carries " ++ listed offered))
  else
    (images.toList.zip wanted.images.toList).forM fun pair =>
      if pair.2.2.repository ≠ pair.1.2.repository then
        .error (.rejected (component ++ "/" ++ pair.1.1 ++ " is published to '" ++
          pair.1.2.repository ++ "', and the request names '" ++ pair.2.2.repository ++ "'"))
      else .ok ()

/-- `check_chart`. -/
def checkChart (component repository chart foundRepository foundChart : String) :
    Except PlatformGitError Unit :=
  if repository = foundRepository ∧ chart = foundChart then
    .ok ()
  else
    .error (.rejected (component ++ " is published as '" ++ chart ++ "' from '" ++ repository ++
      "', and the request names '" ++ foundChart ++ "' from '" ++ foundRepository ++ "'"))

/-- `check_primary`. -/
def checkPrimary (component primary found : String) : Except PlatformGitError Unit :=
  if primary = found then
    .ok ()
  else
    .error (.rejected (component ++ " is described through its '" ++ primary ++
      "' image, and the request was found through '" ++ found ++ "'"))

/-- `mismatch`: a release shaped for another kind than the component's. -/
def mismatch (component : String) (entry : Component) (wanted : WantedVersion) :
    PlatformGitError :=
  .rejected (component ++ " publishes " ++ entry.artifact.describe ++ ", and the request carries " ++
    wanted.describe)

/-- `check_release`. -/
def checkRelease (component : String) (entry : Component) (wanted : WantedVersion) :
    Except PlatformGitError Unit :=
  match entry.artifact, wanted with
  | .oci _ images, .images unit => checkImages component images unit
  | .helm repository chart, .chart foundRepository foundChart _ =>
      checkChart component repository chart foundRepository foundChart
  | .described primary _ images, .described version found => do
      checkImages component images version
      checkPrimary component primary found
  | _, _ => .error (mismatch component entry wanted)

/-! ## Rendering a pin -/

/-- `repin_role`. -/
def repinRole (text path component : String) (images : BTreeMap String ImagePin) (role : String)
    (unit : ComponentVersion) : Except PlatformGitError (Option String) :=
  match images[role]? with
  | none =>
      .error (.rejected (path ++ " pins '" ++ role ++ "', which " ++ component ++
        " does not publish"))
  | some image =>
      match unit.images[role]? with
      | none => .ok none
      | some offered => some <$> repin text image.repository unit.version offered.digest

/-- `unrenderable`: a renderer that does not match its artifact. -/
def unrenderable (path component : String) (pin : Pin) (artifact : Artifact) : PlatformGitError :=
  .rejected (path ++ " renders " ++ pin.describe ++ " for " ++ component ++
    ", which is published as " ++ artifact.describe)

/-- What a pin of a component published as images writes. -/
def renderImages (text path component : String) (entry : Component)
    (images : BTreeMap String ImagePin) (unit : ComponentVersion) :
    Pin → Except PlatformGitError (Option String)
  | .kustomizeImage _ role => repinRole text path component images role unit
  | pin => .error (unrenderable path component pin entry.artifact)

/-- What a pin of a component published as a chart writes. -/
def renderChart (text path component : String) (entry : Component)
    (publishedRepository publishedChart version : String) :
    Pin → Except PlatformGitError (Option String)
  | .argoTargetRevision _ pinnedRepository pinnedChart =>
      if pinnedChart ≠ publishedChart ∨ pinnedRepository ≠ publishedRepository then
        .error (.rejected (path ++ ": " ++ component ++ " is published as " ++ publishedChart ++
          " from " ++ publishedRepository ++ ", and this pins " ++ pinnedChart ++ " from " ++
          pinnedRepository))
      else
        some <$> retarget text pinnedRepository pinnedChart version
  | pin => .error (unrenderable path component pin entry.artifact)

/-- `render`. -/
def render (text path component : String) (entry : Component) (pin : Pin)
    (wanted : WantedVersion) : Except PlatformGitError (Option String) :=
  match entry.artifact, wanted with
  | .oci _ images, .images unit => renderImages text path component entry images unit pin
  | .described _ _ images, .described unit _ =>
      renderImages text path component entry images unit pin
  | .helm repository chart, .chart _ _ version =>
      renderChart text path component entry repository chart version pin
  | _, _ => .error (mismatch component entry wanted)

/-! ## The files that carry the version -/

namespace Host

variable (host : Host)

/-- The file a pin is in: the change being made to it, or the file as it is read. -/
def pinnedFile (head : CommitRevision) (path : String) (edited : BTreeMap String FileChange) :
    Program Session PlatformGitError FileChange :=
  match edited[path]? with
  | some change => pure change
  | none => do
      let stored ← host.read path head
      pure { path, text := stored.text, expected := some stored.revision }

/-- One pin of `rewrite_pins`. -/
def rewritePin (head : CommitRevision) (component : String) (entry : Component)
    (wanted : WantedVersion) (roots : List String) (edited : BTreeMap String FileChange)
    (pin : Pin) : Program Session PlatformGitError (BTreeMap String FileChange) := do
  MonadExcept.ofExcept (checkWritable pin.path roots)
  let change ← host.pinnedFile head pin.path edited
  let text ← MonadExcept.ofExcept (render change.text pin.path component entry pin wanted)
  pure (edited.insert pin.path { change with text := text.getD change.text })

/-- `rewrite_pins`: every file a pin lives in, read once and rewritten for each of its pins. -/
def rewritePins (head : CommitRevision) (component : String) (entry : Component)
    (wanted : WantedVersion) (roots : List String) :
    Program Session PlatformGitError (List FileChange) := do
  let edited ← entry.pinnedIn.foldlM (host.rewritePin head component entry wanted roots) ∅
  pure (edited.toList.map Prod.snd)

end Host

/-! ## The manifest entry -/

/-- Each image's digest, as the release has it. -/
def moveDigests (images : BTreeMap String ImagePin) (unit : ComponentVersion) :
    BTreeMap String ImagePin :=
  images.map fun role image =>
    match unit.images[role]? with
    | some offered => { image with digest := offered.digest }
    | none => image

/-- `apply`: only the version, the source commit and each image's digest. -/
def apply (component : String) (entry : Component) (wanted : WantedVersion) :
    Except PlatformGitError Component :=
  match entry.artifact, wanted with
  | .oci _ images, .images unit =>
      .ok { entry with
            artifact := .oci unit.sourceRevision (moveDigests images unit)
            desired := ⟨wanted.version⟩ }
  | .described primary _ images, .described unit _ =>
      .ok { entry with
            artifact := .described primary unit.sourceRevision (moveDigests images unit)
            desired := ⟨wanted.version⟩ }
  | .helm _ _, .chart _ _ _ => .ok { entry with desired := ⟨wanted.version⟩ }
  | _, _ => .error (mismatch component entry wanted)

/-- The hold a write leaves. -/
def HoldChange.applied (hold : HoldChange) (entry : Component) : Component :=
  match hold with
  | .keep => entry
  | .set hold => { entry with hold := some hold }

/-! ## The write -/

/-- `ReadManifest`: a manifest as read, with everything a write against it needs. -/
structure ReadManifest where
  head : CommitRevision
  stored : StoredFile
  document : Document

namespace Host

variable (host : Host) (yaml : Yaml Manifest)

/-- `read_manifest`. -/
def readManifest (environment : String) : Program Session PlatformGitError ReadManifest := do
  let head ← host.readHead
  let stored ← host.read (manifestPath environment) head
  let document ← MonadExcept.ofExcept (Document.parse yaml stored.text)
  if document.manifest.environment ≠ environment then
    throw (.rejected ("the components manifest declares environment '" ++
      document.manifest.environment ++ "', not '" ++ environment ++ "'"))
  else
    pure { head, stored, document }

/-- The entry a write leaves: moved to the release, with the hold the write sets. -/
def movedEntry (component : String) (entry : Component) (wanted : WantedVersion)
    (hold : HoldChange) : Except PlatformGitError Component :=
  (apply component entry wanted).map hold.applied

/-- The document with one component's entry replaced. -/
def withEntry (document : Document) (component : String) (entry : Component) : Document :=
  { document with
    manifest := { document.manifest with
      components := document.manifest.components.insert component entry } }

/-- The changes of a write: every pinned file's, and the manifest's last. -/
def desiredChanges (read : ReadManifest) (component : String) (entry : Component)
    (wanted : WantedVersion) (hold : HoldChange) :
    Program Session PlatformGitError (List FileChange) := do
  MonadExcept.ofExcept (checkRelease component entry wanted)
  let changes ← host.rewritePins read.head component entry wanted
    read.document.manifest.managedRoots
  let moved ← MonadExcept.ofExcept (movedEntry component entry wanted hold)
  let text ← MonadExcept.ofExcept ((withEntry read.document component moved).render yaml)
  pure (changes ++ [{ path := read.stored.path, text, expected := some read.stored.revision }])

/-- `write_desired`. -/
def writeDesired (environment component : String) (wanted : WantedVersion) (hold : HoldChange)
    (revision : DesiredRevision) (message : String) :
    Program Session PlatformGitError CommitRevision := do
  let read ← host.readManifest yaml environment
  if read.stored.revision.value ≠ revision.value then
    throw (.conflict read.stored.path)
  else
    match read.document.manifest.components[component]? with
    | none =>
        throw (.rejected (read.stored.path ++ " does not know the component '" ++ component ++
          "'"))
    | some entry => do
        let changes ← host.desiredChanges yaml read component entry wanted hold
        host.updateFilesAtomically read.head changes message

end Host

end PlatformGit
end SaasFabric
