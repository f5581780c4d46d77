import SaasFabric.ClientModel.RedirectStrategy
import SaasFabric.Library.Distinct

/-!
# A client's identity configuration

`fabric-client-model`'s `identity/`: the realm, the roles and the OIDC clients a document
declares, and what is checked of them together.
-/

namespace SaasFabric
namespace ClientModel

open Library

/-! ## Names -/

/-- `slug_newtype!`: a name that a parser of its kind accepts. -/
structure Slug (parse : String → String → Except IdentifierError String) (kind : String) where
  value : String
  accepted : (parse kind value).isOk = true
deriving DecidableEq

namespace Slug

variable {parse : String → String → Except IdentifierError String} {kind : String}

/-- `try_new`. -/
def tryNew (value : String) : Except IdentifierError (Slug parse kind) :=
  match h : parse kind value with
  | .ok _ => .ok ⟨value, by rw [h]; rfl⟩
  | .error error => .error error

/-- A slug's own text is parsed as it. -/
@[simp] theorem tryNew_value (slug : Slug parse kind) : tryNew slug.value = .ok slug := by
  have haccepted := slug.accepted
  unfold tryNew
  split
  · rfl
  · rename_i error h
    rw [h] at haccepted
    cases haccepted

theorem value_of_tryNew {value : String} {slug : Slug parse kind}
    (h : tryNew value = .ok slug) : slug.value = value := by
  unfold tryNew at h
  split at h
  · cases h
    rfl
  · cases h

theorem value_injective : Function.Injective (value : Slug parse kind → String) := by
  intro first second h
  cases first
  cases second
  cases h
  rfl

end Slug

/-- `OidcClientId`. -/
abbrev OidcClientId := Slug parseIdentifier "oidc client id"

/-- `RealmName`. -/
abbrev RealmName := Slug parseDnsLabel "realm name"

namespace RoleName

/-- `RoleName::KIND`. -/
def KIND : String := "role name"

/-- `RoleName::check_characters`, after a space or not. -/
def checkCharacters : Bool → List Char → Except IdentifierError Unit
  | _, [] => .ok ()
  | previousWasSpace, character :: rest =>
      let permitted := isAsciiAlphanumeric character || character == ' ' || character == '-' ||
        character == '_' || character == '.'
      if !permitted || (character == ' ' && previousWasSpace) then
        .error (.disallowedCharacter KIND character
          ("ASCII letters, digits, single interior spaces, hyphens, underscores, and full stops"))
      else checkCharacters (character == ' ') rest

/-- What `RoleName::try_new` decides of a string. -/
def check (value : String) : Except IdentifierError Unit :=
  if value.isEmpty then .error (.empty KIND)
  else if value.utf8ByteSize > 128 then .error (.tooLong KIND 128 value.utf8ByteSize)
  else do
    checkCharacters false value.toList
    checkBoundaries KIND value

end RoleName

/-- `RoleName`. -/
structure RoleName where
  value : String
  accepted : RoleName.check value = .ok ()
deriving DecidableEq

/-- `RoleName::try_new`. -/
def RoleName.tryNew (value : String) : Except IdentifierError RoleName :=
  match h : check value with
  | .ok () => .ok ⟨value, h⟩
  | .error error => .error error

/-- A role name's own text is parsed as it. -/
@[simp] theorem RoleName.tryNew_value (role : RoleName) : tryNew role.value = .ok role := by
  unfold tryNew
  split
  · rfl
  · next error h => exact absurd (h.symm.trans role.accepted) nofun

/-! ## Clients -/

/-- `ClientProtocol`. -/
inductive ClientProtocol where
  | oidc
deriving DecidableEq

/-- `PkceMethod`. -/
inductive PkceMethod where
  | s256
deriving DecidableEq

/-- `OidcClient`. -/
structure OidcClient where
  id : OidcClientId
  protocol : ClientProtocol
  pkce : PkceMethod
  redirect : RedirectStrategy
deriving DecidableEq

/-- `IdentityConfiguration`. -/
structure IdentityConfiguration where
  realm : RealmName
  roles : List RoleName
  clients : List OidcClient
deriving DecidableEq

/-- `REQUIRED_ROLES`. -/
def REQUIRED_ROLES : List String := ["Client Realm Administrator", "Client Realm User"]

/-- `first_missing`. -/
def firstMissing (roles : List RoleName) : Option String :=
  REQUIRED_ROLES.find? fun required => !roles.any fun role => role.value == required

/-- `CUSTOM_SCHEME_PHASE`. -/
def CUSTOM_SCHEME_PHASE : String := "Lane E phase 2"

/-- `client_rules::FIELD`. -/
def CLIENTS_FIELD : String := "spec.identity.clients"

namespace OidcClient

/-- `client_rules::check_strategy_is_carried`. -/
def checkStrategyIsCarried (client : OidcClient) : Except DesiredStateError Unit :=
  match client.redirect.kind with
  | .customScheme scheme =>
      .error (.deferred CLIENTS_FIELD CUSTOM_SCHEME_PHASE
        (client.id.value ++ " declares the private-use scheme " ++ scheme.value ++
          (", which is representable but not yet reconciled; a desktop shell should use a " ++
            "loopback callback under the development strategy, which RFC 8252 §7.3 recommends " ++
            "over a private-use scheme in any case")))
  | _ => .ok ()

/-- `client_rules::check`. -/
def check (client : OidcClient) : Except DesiredStateError Unit := do
  client.checkStrategyIsCarried
  match client.redirect.firstComplaint with
  | some detail => .error (.invalidField CLIENTS_FIELD (client.id.value ++ " " ++ detail))
  | none => .ok ()

end OidcClient

namespace IdentityConfiguration

/-- `IdentityConfiguration::check_roles`. -/
def checkRoles (identity : IdentityConfiguration) : Except DesiredStateError Unit := do
  eachOnce (fun role => role) (fun role => .duplicate "spec.identity.roles" role.value)
    (fun _ => .ok ()) [] identity.roles
  match firstMissing identity.roles with
  | some missing => .error (.requiredRoleMissing missing)
  | none => .ok ()

/-- `IdentityConfiguration::check_clients`. -/
def checkClients (identity : IdentityConfiguration) : Except DesiredStateError Unit :=
  eachOnce OidcClient.id (fun client => .duplicate CLIENTS_FIELD client.id.value)
    OidcClient.check [] identity.clients

/-- `IdentityConfiguration::validate`. -/
def validate (identity : IdentityConfiguration) : Except DesiredStateError Unit := do
  identity.checkRoles
  identity.checkClients

/-- A configuration that was checked declares each client once. -/
theorem ids_nodup_of_validate {identity : IdentityConfiguration}
    (h : identity.validate = .ok ()) : (identity.clients.map OidcClient.id).Nodup :=
  (eachOnce_nil_eq_ok.mp (check_bind_eq_ok.mp h).2).2

end IdentityConfiguration
end ClientModel
end SaasFabric
