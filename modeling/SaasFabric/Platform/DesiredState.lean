import SaasFabric.Core.Text

/-!
# What an environment is asked to run

`fabric-platform-management`'s words for it: where a component's versions are looked for,
whether it moves on its own, what stops it, and the revision a decision was taken against.
-/

namespace SaasFabric
namespace Platform

/-- `Channel`: which release stream a version belongs to. -/
inductive Channel where
  | preview
  | stable
deriving DecidableEq

/-- `UpdatePolicy`. -/
inductive UpdatePolicy where
  | automatic
  | manual
  | locked
deriving DecidableEq

/-- `Hold`: advancement paused, and why. -/
structure Hold where
  reason : String
  since : String
  note : Option String
deriving DecidableEq

/-- `DesiredRevision`: what desired state looked like when it was read. -/
structure DesiredRevision where
  value : String
deriving DecidableEq

end Platform
end SaasFabric
