import SaasFabric.PlatformGit.Host
import SaasFabric.Platform.DesiredState

/-!
# The platform repository's desired-state manifest

What an environment is asked to run, where each component's version is written, and how the
manifest is read and written back: whole, under the header it was found with.  What parses and
prints YAML is the serialiser's.
-/

namespace SaasFabric
namespace PlatformGit

open Platform (Channel UpdatePolicy Hold)

/-- `ImagePin`: one image of a component. -/
structure ImagePin where
  repository : String
  digest : String
deriving DecidableEq

/-- `Artifact`: where a component's versions come from, and what provenance they carry. -/
inductive Artifact where
  | oci (sourceRevision : String) (images : BTreeMap String ImagePin)
  | helm (repository chart : String)
  | described (primary sourceRevision : String) (images : BTreeMap String ImagePin)
deriving DecidableEq

def IMAGES_WORDS : String := "container images"

def HELM_WORDS : String := "a Helm chart"

def DESCRIBED_WORDS : String := "container images a component descriptor describes"

/-- `Artifact::describe`. -/
def Artifact.describe : Artifact → String
  | .oci .. => IMAGES_WORDS
  | .helm .. => HELM_WORDS
  | .described .. => DESCRIBED_WORDS

/-- `Pin`: one place a component's version is written, and how. -/
inductive Pin where
  | kustomizeImage (path image : String)
  | argoTargetRevision (path repository chart : String)
deriving DecidableEq

/-- `Pin::path`. -/
def Pin.path : Pin → String
  | .kustomizeImage path _ => path
  | .argoTargetRevision path _ _ => path

/-- `Pin::describe`. -/
def Pin.describe : Pin → String
  | .kustomizeImage .. => "a Kustomize image pin"
  | .argoTargetRevision .. => "an Argo chart revision"

/-- `Desired`. -/
structure Desired where
  version : String
deriving DecidableEq

/-- `Component`: its desired state and the policy that moves it. -/
structure Component where
  artifact : Artifact
  channel : Channel
  update : UpdatePolicy
  desired : Desired
  pinnedIn : List Pin
  hold : Option Hold
deriving DecidableEq

/-- `Manifest`: an environment's whole desired state. -/
structure Manifest where
  schemaVersion : Nat
  environment : String
  managedRoots : List String
  components : BTreeMap String Component
deriving DecidableEq

/-! ## Reading and rendering a document -/

/-- `header_of`: the comment and separator lines from the top of a file, and the blank lines
between them. -/
def headerLines : List (List Char) → List (List Char) → List (List Char)
  | _, [] => []
  | pendingBlanks, line :: rest =>
      let trimmed := Text.trim (String.ofList line)
      if trimmed = "" then
        headerLines (pendingBlanks ++ [line]) rest
      else if Text.startsWith trimmed "#" || trimmed = "---" then
        pendingBlanks ++ line :: headerLines [] rest
      else
        []

/-- Every line ended with a line feed. -/
def unlines (lines : List (List Char)) : List Char :=
  lines.flatMap fun line => line ++ ['\n']

def headerOf (text : String) : String :=
  String.ofList (unlines (headerLines [] (Text.lines text)))

def DESCRIBED_SCHEMA_VERSION : Nat := 3

def SCHEMA_VERSIONS : List Nat := [2, DESCRIBED_SCHEMA_VERSION]

/-- `schema::readable`: the versions this reads, for a refusal. -/
def readable : String := String.intercalate " or " (SCHEMA_VERSIONS.map toString)

/-- `schema::check`: a described component needs the schema that has them, and its primary has
to be one of its images. -/
def checkSchema (manifest : Manifest) : Except PlatformGitError Unit :=
  manifest.components.toList.forM fun (name, component) =>
    match component.artifact with
    | .oci .. | .helm .. => .ok ()
    | .described primary _ images =>
        if manifest.schemaVersion < DESCRIBED_SCHEMA_VERSION then
          .error (.rejected (s!"{name} is a described component, which needs schemaVersion " ++
            s!"{DESCRIBED_SCHEMA_VERSION}; the components manifest declares schemaVersion " ++
            toString manifest.schemaVersion))
        else if images.contains primary then
          .ok ()
        else
          .error (.rejected (name ++ "'s primary '" ++ primary ++ "' is not one of its images"))

/-- What reads and writes YAML documents of one kind: the schema version a text declares, the
document it is, and the text of a document. -/
structure Yaml (α : Type) where
  schemaVersion : String → Except String Nat
  read : String → Except String α
  write : α → Except String String

/-- `Document`: a manifest, and the header it was found under. -/
structure Document where
  header : String
  manifest : Manifest

/-- `Document::parse`: the version first, before anything expects a field. -/
def Document.parse (yaml : Yaml Manifest) (text : String) : Except PlatformGitError Document :=
  let unreadable : String → PlatformGitError := fun error =>
    .rejected s!"the components manifest could not be read: {error}"
  match yaml.schemaVersion text with
  | .error error => .error (unreadable error)
  | .ok declared =>
      if !SCHEMA_VERSIONS.contains declared then
        .error (.rejected (s!"the components manifest declares schemaVersion {declared}, and " ++
          s!"this reads {readable}"))
      else
        match yaml.read text with
        | .error error => .error (unreadable error)
        | .ok manifest => (checkSchema manifest).map fun _ => { header := headerOf text, manifest }

/-- `Document::render`. -/
def Document.render (yaml : Yaml Manifest) (document : Document) :
    Except PlatformGitError String :=
  match yaml.write document.manifest with
  | .error error => .error (.unavailable s!"the components manifest could not be written: {error}")
  | .ok body => .ok (document.header ++ body)

/-! ## Which files may be written -/

/-- `Path::components`, without the root: empty parts and single dots are no components. -/
def pathComponents (path : String) : List String :=
  (Text.split '/' path).filter fun part => part != "" && part != "."

/-- `Path::extension`: what follows the last dot of the last component, where something comes
before it. -/
def pathExtension (path : String) : Option String :=
  match (pathComponents path).getLast? with
  | none => none
  | some name =>
      match name.toList.reverse.span (· != '.') with
      | (after, '.' :: _ :: _) => some (String.ofList after.reverse)
      | _ => none

def MANIFEST_SUFFIXES : List String := ["yaml", "yml"]

/-- `check_writable`: a relative path, without traversal, under a managed root, of a manifest. -/
def checkWritable (path : String) (managedRoots : List String) : Except PlatformGitError Unit :=
  let refuse : String → Except PlatformGitError Unit := fun why =>
    .error (.rejected (path ++ " " ++ why))
  let admitted := managedRoots.any fun root =>
    let root := Text.trim root
    root != "" && Text.endsWith root "/" && Text.startsWith path root
  if path = "" || Text.startsWith path "/" || Text.startsWith path "\\" then
    refuse "is not a repository-relative path"
  else if (pathComponents path).contains ".." then
    refuse "escapes the repository"
  else if !admitted then
    refuse "is under no managedRoot"
  else if MANIFEST_SUFFIXES.contains ((pathExtension path).getD "") then
    .ok ()
  else
    refuse "is not a manifest"

/-! ## The manifest's place -/

/-- `manifest_path`. -/
def manifestPath (environment : String) : String :=
  s!"environments/{environment}/components.yaml"

end PlatformGit
end SaasFabric
