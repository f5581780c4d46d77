import SaasFabric.Library.Collect
import SaasFabric.Library.Program

/-!
# The platform repository, as its host keeps it

What a caller reads and writes, and the calls the adapter makes of the Git host: blobs, trees
and commits are created without the branch moving, and the branch moves by a fast-forward or
not at all.  Other parties put commits on the branch before any request is taken up, and any
request may come to nothing; a host is what it answers to each request in turn.

A commit's hash names its tree and, through its parent, everything before it, so a commit
revision stands here for the commit itself.  A file revision is the hash of the file's text.
-/

namespace SaasFabric
namespace PlatformGit

open Library

/-- `PlatformGitError`. -/
inductive PlatformGitError where
  | conflict (path : String)
  | contended
  | notFound (what : String)
  | notPermitted
  | unavailable (detail : String)
  | rejected (detail : String)
deriving DecidableEq

/-- `FileRevision`: the hash of one file's content. -/
structure FileRevision where
  value : String
deriving DecidableEq

/-- `StoredFile`: a file, as read. -/
structure StoredFile where
  path : String
  text : String
  revision : FileRevision
deriving DecidableEq

/-- `FileChange`: one file's new content, and what the caller believed it was editing. -/
structure FileChange where
  path : String
  text : String
  expected : Option FileRevision
deriving DecidableEq

/-- The files of a commit, by path: the blob each one is. -/
abbrev Tree := BTreeMap String FileRevision

/-- A commit of the integration branch, on the one it was made on. -/
inductive Commit where
  | initial (tree : Tree)
  | on (parent : Commit) (message : String) (tree : Tree)
deriving DecidableEq

namespace Commit

def tree : Commit → Tree
  | .initial tree => tree
  | .on _ _ tree => tree

def parent? : Commit → Option Commit
  | .initial _ => none
  | .on parent _ _ => some parent

/-- The commits a commit contains, itself first. -/
def history : Commit → List Commit
  | .initial tree => [.initial tree]
  | .on parent message tree => .on parent message tree :: parent.history

theorem self_mem_history (commit : Commit) : commit ∈ commit.history := by
  cases commit <;> exact List.mem_cons_self

end Commit

/-- `CommitRevision`. -/
abbrev CommitRevision := Commit

/-- `RefUpdate`: what happened when the branch was asked to move. -/
inductive RefUpdate where
  | applied
  | notFastForward
deriving DecidableEq

/-! ## The host -/

/-- Why a request came to nothing.  Where it or its answer was lost, the host may have acted on
it all the same. -/
inductive Trouble where
  | lost (detail : String) (acted : Bool)
  | notPermitted
  | rejected (detail : String)

def Trouble.toError : Trouble → PlatformGitError
  | .lost detail _ => .unavailable detail
  | .notPermitted => .notPermitted
  | .rejected detail => .rejected detail

/-- One request's turn: the commits other parties put on the branch before the host takes it
up, each with its message and its tree, and what goes wrong with it. -/
structure Turn where
  others : List (String × Tree)
  trouble : Option Trouble

/-- A Git host: how it names a text and the text it keeps under a name, the file a path of a
contents URL reaches, the paths it takes for entries of a tree, and the turn each request gets.  A
path that it takes is the one its contents URL reaches. -/
structure Host where
  hash : String → String
  stored : String → String
  stored_hash : ∀ text, stored (hash text) = text
  locate : String → String
  takes : String → Bool
  locate_of_takes : ∀ path, takes path = true → locate path = path
  turns : Nat → Turn

/-- Who put a commit on the branch. -/
inductive Party where
  | us
  | others
deriving DecidableEq

/-- The branch while a call runs: where it points, every commit put on it in order, how many
ref updates were asked for, and how many requests were made. -/
structure Session where
  head : Commit
  moves : List (Party × Commit)
  updates : Nat
  asked : Nat

namespace Session

/-- The branch moves to a commit made on its head. -/
def push (session : Session) (party : Party) (commit : Commit) : Session :=
  { session with head := commit, moves := session.moves ++ [(party, commit)] }

def afterOthers (session : Session) : List (String × Tree) → Session
  | [] => session
  | (message, tree) :: commits =>
      (session.push .others (.on session.head message tree)).afterOthers commits

end Session

namespace Host

variable (host : Host)

/-- The revision of the file a path reaches at a commit. -/
def revisionIn (commit : Commit) (path : String) : Option FileRevision :=
  commit.tree[host.locate path]?

/-- The next request is taken up. -/
def takeUp : Program Session PlatformGitError (Option Trouble) := do
  let session ← get
  let turn := host.turns session.asked
  set { session.afterOthers turn.others with asked := session.asked + 1 }
  pure turn.trouble

/-- A request the branch does not move by. -/
def request : Program Session PlatformGitError Unit := do
  let trouble ← host.takeUp
  trouble.elim (pure ()) fun trouble => throw trouble.toError

/-- `create_blob`. -/
def createBlob (text : String) : Program Session PlatformGitError String := do
  host.request
  pure (host.hash text)

/-- `tree_of`. -/
def treeOf (commit : CommitRevision) : Program Session PlatformGitError Tree := do
  host.request
  pure commit.tree

/-- `create_tree`: layered on `base_tree`. -/
def createTree (baseTree : Tree) (entries : List (String × String)) :
    Program Session PlatformGitError Tree := do
  host.request
  if entries.all fun entry => host.takes entry.1 then
    pure (collectInto baseTree (entries.map fun entry => (entry.1, ⟨entry.2⟩)))
  else
    throw (.rejected "creating a tree was refused with 422")

/-- `create_commit`, with exactly one parent. -/
def createCommit (message : String) (tree : Tree) (parent : CommitRevision) :
    Program Session PlatformGitError CommitRevision := do
  host.request
  pure (.on parent message tree)

/-- The branch is asked to move to a commit, without forcing. -/
def fastForward (session : Session) (commit : CommitRevision) : Session × RefUpdate :=
  if commit.parent? = some session.head then
    (session.push .us commit, .applied)
  else
    (session, .notFastForward)

/-- `update_ref`. -/
def updateRef (commit : CommitRevision) : Program Session PlatformGitError RefUpdate := do
  let trouble ← host.takeUp
  modify fun session => { session with updates := session.updates + 1 }
  let session ← get
  match trouble with
  | none =>
      let moved := fastForward session commit
      set moved.1
      pure moved.2
  | some (.lost detail acted) =>
      -- The answer is lost on the way back, whatever the host did.
      set (if acted then (fastForward session commit).1 else session)
      throw (.unavailable detail)
  | some trouble => throw trouble.toError

/-- `head`. -/
def readHead : Program Session PlatformGitError CommitRevision := do
  host.request
  let session ← get
  pure session.head

/-- `read`: one file, as it stands at a commit. -/
def read (path : String) (commit : CommitRevision) :
    Program Session PlatformGitError StoredFile := do
  host.request
  (host.revisionIn commit path).elim (throw (.notFound path)) fun revision =>
    pure { path, text := host.stored revision.value, revision }

/-- `Err(NotFound)` answered with a value, and every other failure kept. -/
def orAbsent {α : Type} (absent : α) (program : Program Session PlatformGitError α) :
    Program Session PlatformGitError α :=
  MonadExcept.tryCatch program fun error =>
    match error with
    | .notFound _ => pure absent
    | other => throw other

/-- `revision_at`: absence is an answer rather than an error. -/
def revisionAt (path : String) (commit : CommitRevision) :
    Program Session PlatformGitError (Option FileRevision) :=
  orAbsent none do
    let file ← host.read path commit
    pure (some file.revision)

end Host

end PlatformGit
end SaasFabric
