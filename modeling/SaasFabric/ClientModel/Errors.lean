import Mathlib.Tactic.Common
import SaasFabric.Core.Identifier

/-!
# Why desired state is refused

`fabric-client-model`'s `errors.rs`.
-/

namespace SaasFabric
namespace ClientModel

/-- `DesiredStateError`. -/
inductive DesiredStateError where
  | malformed (detail : String)
  | catalogueMalformed (detail : String)
  | unknownDocumentKind (expected : String) (found : Option String)
  | missingField (field : String)
  | invalidField (field detail : String)
  | requiredRoleMissing (role : String)
  | duplicate (field value : String)
  | deferred (field phase detail : String)
  | migration (field replacement detail : String)
deriving DecidableEq

instance : ToString DesiredStateError where
  toString
    | .malformed detail => s!"the client document could not be read: {detail}"
    | .catalogueMalformed detail => s!"the catalogue could not be read: {detail}"
    | .unknownDocumentKind expected found =>
        let found := found.getD "no apiVersion or kind at all"
        s!"expected {expected}, found {found}"
    | .missingField field => s!"{field} is required"
    | .invalidField field detail => s!"{field}: {detail}"
    | .requiredRoleMissing role => s!"{role} is a required realm role and cannot be removed"
    | .duplicate field value => s!"{field} contains {value} more than once"
    | .deferred field phase detail => s!"{field}: {detail} (deferred to {phase})"
    | .migration field replacement detail => s!"{field} was replaced by {replacement}: {detail}"

end ClientModel
end SaasFabric
