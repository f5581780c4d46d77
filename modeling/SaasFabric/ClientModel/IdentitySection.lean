import SaasFabric.ClientModel.Identity
import SaasFabric.Library.Yaml

/-!
# The identity section of a document

How an identity configuration is written in YAML and read from it: the derived
implementations of `fabric-client-model`'s `identity/`, and `redirect_strategy/shape.rs`.
-/

namespace SaasFabric
namespace ClientModel

open Library

variable {N : Type}

/-! ## Reading -/

/-- A string that a name is parsed of. -/
def readName {T : Type} (tryNew : String → Except IdentifierError T) (value : Yaml N) : Option T :=
  value.asStr.bind fun text => (tryNew text).toOption

namespace RedirectStrategyShape

/-- The fields of each variant of `RedirectStrategyShape`, under its name. -/
def fieldsOf : String → Option (List String)
  | "claimedHttps" | "privateNetwork" | "development" => some ["uris"]
  | "customScheme" => some ["scheme", "uris"]
  | _ => none

/-- The kind a variant is, with what it carries of its own. -/
def kindOf (fields : List (String × Yaml N)) : String → Option RedirectStrategyKind
  | "claimedHttps" => some .claimedHttps
  | "privateNetwork" => some .privateNetwork
  | "development" => some .development
  | "customScheme" => (Yaml.required fields "scheme" (readName AppScheme.tryNew)).map .customScheme
  | _ => none

/-- A list of callbacks; nothing stands for the empty one here. -/
def readUris : Yaml N → Option (List RedirectUri)
  | .sequence items => items.mapM (readName RedirectUri.tryNew)
  | _ => none

/-- A variant read from its fields. -/
def readVariant (strategy : String) (members : List (String × Yaml N)) :
    Option RedirectStrategy := do
  let names ← fieldsOf strategy
  let fields ← Yaml.taken ⟨names, true⟩ members
  let kind ← kindOf fields strategy
  let uris ← Yaml.required fields "uris" readUris
  some ⟨kind, uris⟩

/-- The strategy a block names, and the variant of that name.  What stands beside the name
is read after it, and may hold no tag. -/
def read : Yaml N → Option RedirectStrategy
  | .mapping entries => do
      let members ← Yaml.namesOf entries
      let strategy ← Yaml.required members "strategy" Yaml.asStr
      let content := entries.filter fun entry => !Yaml.isName "strategy" entry.1
      let members ← Yaml.namesOf content
      if Yaml.hasTagEntries content then none else readVariant strategy members
  | .sequence (strategy :: content) => do
      let strategy ← strategy.asStr
      let names ← fieldsOf strategy
      if Yaml.hasTagItems content || names.length != content.length then none
      else readVariant strategy (names.zip content)
  | _ => none

end RedirectStrategyShape

/-- `ClientProtocol`'s only name. -/
def readProtocol : String → Option ClientProtocol
  | "oidc" => some .oidc
  | _ => none

/-- `PkceMethod`'s only name. -/
def readPkce : String → Option PkceMethod
  | "s256" => some .s256
  | _ => none

/-- `OidcClient`, as it is derived: no other field is let in. -/
def OidcClient.read (value : Yaml N) : Option OidcClient := do
  let fields ← Yaml.fields ⟨["id", "type", "pkce", "redirect"], true⟩ value
  let id ← Yaml.required fields "id" (readName Slug.tryNew)
  let protocol ← Yaml.required fields "type" (Yaml.unitVariant readProtocol)
  let pkce ← Yaml.required fields "pkce" (Yaml.unitVariant readPkce)
  let redirect ← Yaml.required fields "redirect" RedirectStrategyShape.read
  some ⟨id, protocol, pkce, redirect⟩

/-- `IdentityConfiguration`, as it is derived: no other field is let in. -/
def IdentityConfiguration.read (value : Yaml N) : Option IdentityConfiguration := do
  let fields ← Yaml.fields ⟨["realm", "roles", "clients"], true⟩ value
  let realm ← Yaml.required fields "realm" (readName Slug.tryNew)
  let roles ← Yaml.required fields "roles" (Yaml.items (readName RoleName.tryNew))
  let clients ← Yaml.defaulted fields "clients" (Yaml.items OidcClient.read) []
  some ⟨realm, roles, clients⟩

/-! ## Writing -/

/-- The fields of a strategy, its variant's name first. -/
def RedirectStrategy.members (strategy : RedirectStrategy) : List (Yaml N × Yaml N) :=
  let uris := (.string "uris", .sequence (strategy.uris.map fun uri => .string uri.value))
  match strategy.kind with
  | .claimedHttps => [(.string "strategy", .string "claimedHttps"), uris]
  | .privateNetwork => [(.string "strategy", .string "privateNetwork"), uris]
  | .development => [(.string "strategy", .string "development"), uris]
  | .customScheme scheme =>
      [(.string "strategy", .string "customScheme"), (.string "scheme", .string scheme.value), uris]

/-- `OidcClient`, written as it is derived. -/
def OidcClient.write (client : OidcClient) : Yaml N :=
  .mapping [(.string "id", .string client.id.value), (.string "type", .string "oidc"),
    (.string "pkce", .string "s256"), (.string "redirect", .mapping client.redirect.members)]

/-- `IdentityConfiguration`, written as it is derived. -/
def IdentityConfiguration.write (identity : IdentityConfiguration) : Yaml N :=
  .mapping [(.string "realm", .string identity.realm.value),
    (.string "roles", .sequence (identity.roles.map fun role => .string role.value)),
    (.string "clients", .sequence (identity.clients.map OidcClient.write))]

/-! ## What is written is read back -/

theorem readName_string {T : Type} {tryNew : String → Except IdentifierError T} {text : String}
    {value : T} (h : tryNew text = .ok value) :
    readName tryNew (.string text : Yaml N) = some value := by
  unfold readName
  show (tryNew text).toOption = some value
  rw [h]
  rfl

/-- A URI's own text is parsed as it. -/
theorem RedirectUri.tryNew_value (uri : RedirectUri) : tryNew uri.value = .ok uri :=
  tryNew_of_kind uri.accepted

theorem readUris_write (uris : List RedirectUri) : RedirectStrategyShape.readUris
    (.sequence (uris.map fun uri => .string uri.value) : Yaml N) = some uris :=
  Yaml.mapM_of_forall fun uri _ => readName_string uri.tryNew_value

theorem hasTagItems_uris (uris : List RedirectUri) :
    Yaml.hasTagItems (uris.map fun uri => (.string uri.value : Yaml N)) = false := by
  refine Yaml.hasTagItems_of_forall fun item hitem => ?_
  obtain ⟨uri, -, rfl⟩ := List.mem_map.mp hitem
  rfl

/-- A variant that has nothing but callbacks is read of the block it was written as. -/
theorem read_of_uris {strategy : String} {kind : RedirectStrategyKind} {uris : List RedirectUri}
    (hfields : RedirectStrategyShape.fieldsOf strategy = some ["uris"])
    (hkind : ∀ fields : List (String × Yaml N),
      RedirectStrategyShape.kindOf fields strategy = some kind) :
    RedirectStrategyShape.read (.mapping [(.string "strategy", .string strategy),
      (.string "uris", .sequence (uris.map fun uri => .string uri.value))] : Yaml N) =
      some ⟨kind, uris⟩ := by
  have hvariant : RedirectStrategyShape.readVariant strategy
      [("uris", (.sequence (uris.map fun uri => .string uri.value) : Yaml N))] =
        some ⟨kind, uris⟩ := by
    unfold RedirectStrategyShape.readVariant
    rw [hfields]
    simp [Yaml.taken, hkind, Yaml.required, readUris_write]
  simpa [RedirectStrategyShape.read, Yaml.namesOf, Yaml.asStr, Yaml.untag, Yaml.required,
    Yaml.isName, Yaml.hasTagEntries, Yaml.hasTag, hasTagItems_uris] using hvariant

/-- A strategy is read of the block it was written as. -/
theorem RedirectStrategy.read_members (strategy : RedirectStrategy) :
    RedirectStrategyShape.read (.mapping strategy.members : Yaml N) = some strategy := by
  obtain ⟨kind, uris⟩ := strategy
  cases kind with
  | claimedHttps => exact read_of_uris rfl fun _ => rfl
  | privateNetwork => exact read_of_uris rfl fun _ => rfl
  | development => exact read_of_uris rfl fun _ => rfl
  | customScheme scheme =>
      have hscheme := readName_string (N := N) scheme.tryNew_value
      have hvariant : RedirectStrategyShape.readVariant "customScheme"
          [("scheme", (.string scheme.value : Yaml N)),
            ("uris", .sequence (uris.map fun uri => .string uri.value))] =
          some ⟨.customScheme scheme, uris⟩ := by
        simp [RedirectStrategyShape.readVariant, RedirectStrategyShape.fieldsOf,
          RedirectStrategyShape.kindOf, Yaml.taken, Yaml.required, List.lookup_cons, hscheme,
          readUris_write]
      simpa [RedirectStrategyShape.read, members, Yaml.namesOf, Yaml.asStr, Yaml.untag,
        Yaml.required, Yaml.isName, Yaml.hasTagEntries, Yaml.hasTag, hasTagItems_uris]
        using hvariant

/-- A client is read of what it was written as. -/
theorem OidcClient.read_write (client : OidcClient) :
    OidcClient.read (client.write : Yaml N) = some client := by
  obtain ⟨id, protocol, pkce, redirect⟩ := client
  cases protocol
  cases pkce
  have hid := readName_string (N := N) id.tryNew_value
  have hredirect := redirect.read_members (N := N)
  simp [read, write, Yaml.fields, Yaml.members, Yaml.namesOf, Yaml.asStr, Yaml.untag, Yaml.taken,
    Yaml.required, List.lookup_cons, Yaml.unitVariant, readProtocol, readPkce, hid, hredirect]

/-- An identity configuration is read of what it was written as. -/
theorem IdentityConfiguration.read_write (identity : IdentityConfiguration) :
    IdentityConfiguration.read (identity.write : Yaml N) = some identity := by
  obtain ⟨realm, roles, clients⟩ := identity
  have hrealm := readName_string (N := N) realm.tryNew_value
  have hroles : (roles.map fun role => (.string role.value : Yaml N)).mapM
      (readName RoleName.tryNew) = some roles :=
    Yaml.mapM_of_forall fun role _ => readName_string role.tryNew_value
  have hclients : (clients.map OidcClient.write : List (Yaml N)).mapM OidcClient.read =
      some clients :=
    Yaml.mapM_of_forall fun client _ => client.read_write
  simp [read, write, Yaml.fields, Yaml.members, Yaml.namesOf, Yaml.asStr, Yaml.untag, Yaml.taken,
    Yaml.required, Yaml.defaulted, List.lookup_cons, Yaml.items, hrealm, hroles, hclients]

end ClientModel
end SaasFabric
