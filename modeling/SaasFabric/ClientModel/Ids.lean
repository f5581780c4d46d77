import SaasFabric.Core.Identifier

/-!
# The names of a client

`fabric-client-model`'s `ids/`: what an operator addresses a client by.
-/

namespace SaasFabric
namespace ClientModel

/-- `ClientId`: a DNS label. -/
structure ClientId where
  value : String
  accepted : (parseDnsLabel "client id" value).isOk = true
deriving DecidableEq

namespace ClientId

/-- `ClientId::try_new`. -/
def tryNew (value : String) : Except IdentifierError ClientId :=
  match h : parseDnsLabel "client id" value with
  | .ok _ => .ok ⟨value, by rw [h]; rfl⟩
  | .error error => .error error

theorem value_injective : Function.Injective value := by
  intro first second h
  cases first
  cases second
  cases h
  rfl

/-- A client id's own text is parsed as it. -/
@[simp] theorem tryNew_value (id : ClientId) : tryNew id.value = .ok id := by
  have haccepted := id.accepted
  unfold tryNew
  split
  · rfl
  · rename_i error h
    rw [h] at haccepted
    cases haccepted

end ClientId
end ClientModel
end SaasFabric
