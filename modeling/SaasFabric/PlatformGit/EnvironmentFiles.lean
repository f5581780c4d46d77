import SaasFabric.PlatformGit.Components
import SaasFabric.PlatformGit.Atomic
import SaasFabric.Platform.Placements

/-!
# An environment's data sources and placements, in one commit

`write_environment`: the two documents are read one after the other, each at the head it found,
and are written together on the first one's head, each against the revision its caller read.
The documents are of one shape; each kind has its own words, file, header and order.
-/

namespace SaasFabric
namespace PlatformGit

open Library
open Platform (DataSourceDeclaration DesiredRevision PlacementRecord)

/-- `Envelope`: what a document of an environment's holds. -/
structure Envelope (α : Type) where
  schemaVersion : Nat
  environment : String
  items : List α

/-- A kind of document: what a message calls it, its file, the header it is created with, and
the order its entries are written in. -/
structure DocumentKind (α : Type) where
  words : String
  path : String → String
  createHeader : String
  sorted : List α → List α

/-- `Document`: a document of an environment's, and the header it was found under. -/
structure EnvironmentDocument (α : Type) where
  header : String
  environment : String
  items : List α

namespace EnvironmentDocument

variable {α : Type} (kind : DocumentKind α) (yaml : Yaml (Envelope α))

/-- `SCHEMA_VERSION`. -/
def SCHEMA_VERSION : Nat := 1

/-- `Document::new`. -/
def new (header environment : String) (items : List α) : EnvironmentDocument α :=
  { header, environment, items := kind.sorted items }

/-- `Document::parse`. -/
def parse (text : String) : Except PlatformGitError (EnvironmentDocument α) :=
  let unreadable : String → PlatformGitError := fun error =>
    .rejected s!"the {kind.words} document could not be read: {error}"
  match yaml.schemaVersion text with
  | .error error => .error (unreadable error)
  | .ok declared =>
      if declared ≠ SCHEMA_VERSION then
        .error (.rejected (s!"the {kind.words} document declares schemaVersion {declared}, and " ++
          s!"this reads {SCHEMA_VERSION}"))
      else
        match yaml.read text with
        | .error error => .error (unreadable error)
        | .ok envelope =>
            .ok {
              header := headerOf text
              environment := envelope.environment
              items := kind.sorted envelope.items }

/-- `Document::render`. -/
def render (document : EnvironmentDocument α) : Except PlatformGitError String :=
  match yaml.write ⟨SCHEMA_VERSION, document.environment, document.items⟩ with
  | .error error =>
      .error (.unavailable s!"the {kind.words} document could not be written: {error}")
  | .ok body => .ok (document.header ++ body)

end EnvironmentDocument

/-- `ReadDataSources` and `ReadPlacements`. -/
structure ReadDocument (α : Type) where
  head : CommitRevision
  file : Option (StoredFile × EnvironmentDocument α)

namespace Host

variable (host : Host)

/-- What is read of one document; absence is an answer. -/
def readDocument {α : Type} (kind : DocumentKind α) (yaml : Yaml (Envelope α))
    (environment : String) : Program Session PlatformGitError (ReadDocument α) := do
  let head ← host.readHead
  let stored ← orAbsent none do
    let stored ← host.read (kind.path environment) head
    pure (some stored)
  match stored with
  | none => pure { head, file := none }
  | some stored => do
      let document ← MonadExcept.ofExcept (EnvironmentDocument.parse kind yaml stored.text)
      if document.environment ≠ environment then
        throw (.rejected ("the " ++ kind.words ++ " document declares environment '" ++
          document.environment ++ "', not '" ++ environment ++ "'"))
      else
        pure { head, file := some (stored, document) }

end Host

end PlatformGit
end SaasFabric
