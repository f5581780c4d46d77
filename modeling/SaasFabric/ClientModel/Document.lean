import SaasFabric.ClientModel.Authorization
import SaasFabric.ClientModel.IdentitySection
import SaasFabric.ClientModel.Lifecycle
import SaasFabric.Core.Value
import SaasFabric.Library.TextCodec
import SaasFabric.Library.Upsert

/-!
# A client document

`fabric-client-model`'s `document/`: the YAML tree a client is declared in, the version
dependent reading of it, and the writers that change one section and read the result again.
-/

namespace SaasFabric
namespace ClientModel

open Library

/-! ## What a document holds -/

/-- `ProductActivity`. -/
structure ProductActivity where
  at_ : U64
  operator : String
  action : String
  resource : String
deriving DecidableEq

/-- `ApplicationDefinition`.  The hostname template is what a document looks at; the lists of
components, features, plans, fields, navigation items and resources are taken together. -/
structure ApplicationDefinition (Described : Type) where
  name : String
  description : String
  domain : String
  described : Described

/-- `ApplicationRelease`. -/
structure ApplicationRelease (Described : Type) where
  version : Nat
  note : String
  publishedAt : U64
  definition : ApplicationDefinition Described

/-- `ApplicationAssignment`. -/
structure ApplicationAssignment (Described : Type) where
  applicationId : ClientId
  release : ApplicationRelease Described
  planId : ClientId
  configuration : List (String × String)

/-- `ClientProduct`. -/
structure ClientProduct (Described : Type) where
  legalName : String
  region : String
  timezone : String
  definitionVersion : Nat
  configuration : List (String × String)
  applications : List (ApplicationAssignment Described)
  activity : List ProductActivity

/-- `ClientProduct::default`. -/
def ClientProduct.default {Described : Type} : ClientProduct Described :=
  ⟨"", "", "", 0, [], [], []⟩

/-- `ClientProductRequest`, as far as a document is written from it. -/
structure ClientProductRequest where
  displayName : String
  hosts : List Host
  privateNetworkScheme : Option PrivateNetworkScheme

/-- `Client`. -/
structure Client (Secrets Data : Type) where
  id : ClientId
  displayName : String
  hosts : List Host
  privateNetworkScheme : Option PrivateNetworkScheme
  identity : IdentityConfiguration
  authorization : AuthorizationConfiguration
  secrets : Option Secrets
  data : Data
  lifecycle : LifecycleRecord

/-- The YAML library, and the derived implementations of the sections that no function here
looks into. -/
structure Formats (N Described Secrets Data : Type) where
  yaml : TextCodec (Yaml N)
  /-- What is said of a value that is not what was asked for. -/
  complaint : Yaml N → String
  readProduct : Yaml N → Option (ClientProduct Described)
  writeProduct : ClientProduct Described → Except String (Yaml N)
  readAuthorization : Yaml N → Option AuthorizationConfiguration
  readSecrets : Yaml N → Option Secrets
  readData : Yaml N → Option Data
  noData : Data
  readLifecycle : Yaml N → Option LifecycleRecord
  writeLifecycle : LifecycleRecord → Except String (Yaml N)

variable {N Described Secrets Data T : Type}

/-! ## Versions -/

/-- `API_VERSION`. -/
def API_VERSION : String := "fabric.fieldstate.nz/v1"

/-- `API_VERSION_V2`. -/
def API_VERSION_V2 : String := "fabric.fieldstate.nz/v2"

/-- `schema::KIND`. -/
def DOCUMENT_KIND : String := "Client"

/-- `EXPECTED_DOCUMENT`. -/
def EXPECTED_DOCUMENT : String :=
  "fabric.fieldstate.nz/v2/Client or fabric.fieldstate.nz/v1/Client"

example : EXPECTED_DOCUMENT =
    API_VERSION_V2 ++ "/" ++ DOCUMENT_KIND ++ " or " ++ API_VERSION ++ "/" ++ DOCUMENT_KIND := by
  decide

/-- `SchemaVersion`. -/
inductive SchemaVersion where
  | v1
  | v2
deriving DecidableEq

/-- `string_at`. -/
def stringAt (raw : Yaml N) (key : String) : Option String := (raw.get key).bind Yaml.asStr

/-- `check_document_kind`. -/
def checkDocumentKind (raw : Yaml N) : Except DesiredStateError SchemaVersion :=
  let apiVersion := stringAt raw "apiVersion"
  let kind := stringAt raw "kind"
  if kind = some DOCUMENT_KIND ∧ apiVersion = some API_VERSION_V2 then .ok .v2
  else if kind = some DOCUMENT_KIND ∧ apiVersion = some API_VERSION then .ok .v1
  else
    let named := apiVersion.getD "(no apiVersion)" ++ "/" ++ kind.getD "(no kind)"
    .error (.unknownDocumentKind EXPECTED_DOCUMENT
      (if apiVersion.isSome || kind.isSome then some (String.ofList (named.toList.take 80))
      else none))

/-! ## Migration -/

/-- `migration::FIELD`. -/
def REDIRECT_URIS_FIELD : String := "spec.identity.clients[].redirectUris"

/-- `migration::REPLACEMENT`. -/
def REPLACEMENT : String := "redirect, carrying a strategy and its uris"

/-- `migration::clients`. -/
def declaredClients (raw : Yaml N) : Option (List (Yaml N)) :=
  (((raw.get "spec").bind (Yaml.get "identity")).bind (Yaml.get "clients")).bind Yaml.asSequence

/-- `reject_replaced_field`. -/
def rejectReplacedField (raw : Yaml N) : Except DesiredStateError Unit :=
  let carriesIt := (declaredClients raw).any fun clients =>
    clients.any fun client => (client.get "redirectUris").isSome
  if carriesIt then
    .error (.migration REDIRECT_URIS_FIELD REPLACEMENT
      ("a v2 document states which kind of callback each client is entitled to, so its " ++
        "callbacks live under redirect with a strategy beside them"))
  else .ok ()

/-- `mislabelled::mislabelled`. -/
def mislabelled (field found : String) : DesiredStateError :=
  .migration field "apiVersion: fabric.fieldstate.nz/v2, the schema this field belongs to"
    (found ++ ("; a document that carries one is a v2 document mislabelled as v1, and " ++
      "relabelling it is the operator's call, not a value this migrator may silently overwrite"))

/-- `mislabelled::reject`. -/
def rejectMislabelled (client : List (Yaml N × Yaml N)) : Except DesiredStateError Unit :=
  if (Yaml.getEntry "redirect" client).isSome then
    .error (mislabelled "spec.identity.clients[].redirect" "a v1 document has no redirect block")
  else if (Yaml.getEntry "pkce" client).isSome then
    .error (mislabelled "spec.identity.clients[].pkce"
      "a v1 document has no pkce field, and this migrator writes one")
  else .ok ()

/-- `strategy::classify`. -/
def classifyEntry (text : String) : Except DesiredStateError RedirectUriKind :=
  match RedirectUri.tryNew text with
  | .ok uri => .ok uri.kind
  | .error error => .error (.malformed (REDIRECT_URIS_FIELD ++ ": " ++ toString error))

/-- `strategy::mixed`. -/
def mixed : DesiredStateError :=
  .migration REDIRECT_URIS_FIELD REPLACEMENT
    ("its callbacks are not all of one kind, so no strategy describes this client " ++
      "honestly; migrate it to v2 by hand, naming the entitlement it should have")

/-- The kind the callbacks agree on, after those that were looked at. -/
def agreedKind (agreed : Option RedirectUriKind) :
    List (Yaml N) → Except DesiredStateError (Option RedirectUriKind)
  | [] => .ok agreed
  | entry :: rest => do
      let kind ← classifyEntry (entry.asStr.getD "")
      match agreed with
      | some seen => if seen ≠ kind then .error mixed else agreedKind (some kind) rest
      | none => agreedKind (some kind) rest

/-- `strategy::of`. -/
def strategyOf (uris : Yaml N) : Except DesiredStateError String := do
  let agreed ← agreedKind none (uris.asSequence.getD [])
  match agreed with
  | some .https => .ok "claimedHttps"
  | some .privateNetwork => .ok "privateNetwork"
  | some .loopback | none => .ok "development"
  | some .privateUseScheme =>
      .error (.migration REDIRECT_URIS_FIELD REPLACEMENT
        ("it declares something this model reads as a private-use scheme, which v1 had no " ++
          "way to describe. If that is what it is — a native application's own scheme, in " ++
          "reverse-domain form — migrate the client to v2 by hand under the customScheme " ++
          "strategy. If it is a host that lost its https:// prefix, such as " ++
          "www.example.com:/cb, write the scheme instead"))

/-- The entries of a migrated client. -/
def migrateEntries (entries : List (Yaml N × Yaml N)) :
    Except DesiredStateError (List (Yaml N × Yaml N)) := do
  rejectMislabelled entries
  match Yaml.getEntry "redirectUris" entries with
  | none => .error (.missingField REDIRECT_URIS_FIELD)
  | some uris => do
      let strategy ← strategyOf uris
      let entries := Yaml.swapRemoveEntry "redirectUris" entries
      let entries := Yaml.insertEntry "pkce" (.string "s256") entries
      let redirect := .mapping [(.string "strategy", .string strategy), (.string "uris", uris)]
      .ok (Yaml.insertEntry "redirect" redirect entries)

/-- `migrate_client`. -/
def migrateClient (client : Yaml N) : Except DesiredStateError (Yaml N) :=
  match client.asMapping with
  | none => .ok client
  | some entries => do
      let migrated ← migrateEntries entries
      .ok ((Yaml.editMapping (fun _ => some migrated) client).getD client)

/-- A tree whose declared clients are others. -/
def withClients (clients : List (Yaml N)) (raw : Yaml N) : Yaml N :=
  (Yaml.update "spec" (Yaml.update "identity" (Yaml.update "clients"
    (Yaml.editSequence fun _ => clients))) raw).getD raw

/-- `to_v2`. -/
def toV2 (raw : Yaml N) : Except DesiredStateError (Yaml N) :=
  match declaredClients raw with
  | none => .ok raw
  | some clients => do
      let migrated ← clients.mapM migrateClient
      .ok (withClients migrated raw)

/-! ## Reading -/

/-- `PrivateNetworkScheme`'s names. -/
def readScheme : String → Option PrivateNetworkScheme
  | "http" => some .http
  | "https" => some .https
  | _ => none

/-- `MetadataShape`. -/
def readMetadata (value : Yaml N) : Option ClientId := do
  let fields ← Yaml.fields ⟨["name"], false⟩ value
  Yaml.required fields "name" (readName ClientId.tryNew)

/-- The fields of `SpecShape`. -/
def specShape : Shape :=
  ⟨["displayName", "hosts", "privateNetworkScheme", "identity", "authorization", "secrets", "data",
    "lifecycle"], false⟩

/-- The fields of `DocumentShape`. -/
def documentShape : Shape := ⟨["metadata", "spec"], false⟩

/-- `check_display_name`. -/
def checkDisplayName (value : String) : Except DesiredStateError Unit :=
  if (Text.trim value).isEmpty then .error (.missingField "spec.displayName")
  else if value.utf8ByteSize > 128 then
    .error (.invalidField "spec.displayName"
      ("must be at most 128 characters, got " ++ toString value.utf8ByteSize))
  else if value.toList.any isControl then
    .error (.invalidField "spec.displayName" "must not contain control characters")
  else .ok ()

namespace Formats

variable (formats : Formats N Described Secrets Data)

/-- `from_value`, with the error made one of desired state. -/
def decoded (read : Yaml N → Option T) (value : Yaml N) : Except DesiredStateError T :=
  match read value with
  | some decoded => .ok decoded
  | none => .error (.malformed (formats.complaint value))

/-- `SpecShape`, of the client of this name. -/
def readSpec (id : ClientId) (value : Yaml N) : Option (Client Secrets Data) := do
  let fields ← Yaml.fields specShape value
  let displayName ← Yaml.required fields "displayName" Yaml.asStr
  let hosts ← Yaml.defaulted fields "hosts" (Yaml.items (readName Host.tryNew)) []
  let privateNetworkScheme ← Yaml.defaulted fields "privateNetworkScheme"
    (Yaml.optional (Yaml.unitVariant readScheme)) none
  let identity ← Yaml.required fields "identity" IdentityConfiguration.read
  let authorization ← Yaml.defaulted fields "authorization" formats.readAuthorization ⟨[]⟩
  let secrets ← Yaml.defaulted fields "secrets" (Yaml.optional formats.readSecrets) none
  let data ← Yaml.defaulted fields "data" formats.readData formats.noData
  let lifecycle ← Yaml.defaulted fields "lifecycle" formats.readLifecycle ⟨none, none, [], none⟩
  some ⟨id, displayName, hosts, privateNetworkScheme, identity, authorization, secrets, data,
    lifecycle⟩

/-- `DocumentShape`. -/
def readShape (value : Yaml N) : Option (Client Secrets Data) := do
  let fields ← Yaml.fields documentShape value
  let id ← Yaml.required fields "metadata" readMetadata
  Yaml.required fields "spec" (formats.readSpec id)

/-- What is checked of a client once it was read. -/
def checkClient (client : Client Secrets Data) : Except DesiredStateError Unit := do
  checkDisplayName client.displayName
  client.identity.validate
  client.authorization.validate
  client.lifecycle.check.mapError (.invalidField "spec.lifecycle")

/-- The tree a document is read of, whichever version it is in. -/
def reading (raw : Yaml N) : Except DesiredStateError (Yaml N) := do
  match ← checkDocumentKind raw with
  | .v1 => toV2 raw
  | .v2 => do
      rejectReplacedField raw
      .ok raw

/-- What a tree says. -/
def view (raw : Yaml N) : Except DesiredStateError (Client Secrets Data) := do
  let reading ← reading raw
  let client ← formats.decoded formats.readShape reading
  checkClient client
  .ok client

end Formats

/-- `ClientDocument`: a tree, and the client it says. -/
structure ClientDocument (formats : Formats N Described Secrets Data) where
  raw : Yaml N
  client : Client Secrets Data
  viewed : formats.view raw = .ok client

/-- Documents of one tree are one. -/
theorem ClientDocument.eq_of_raw {formats : Formats N Described Secrets Data}
    {first second : ClientDocument formats} (h : first.raw = second.raw) : first = second := by
  obtain ⟨raw, client, hfirst⟩ := first
  obtain ⟨_, other, hsecond⟩ := second
  obtain rfl : raw = _ := h
  obtain rfl : client = other := Except.ok.inj (hfirst.symm.trans hsecond)
  rfl

namespace Formats

variable (formats : Formats N Described Secrets Data)

/-- `from_parts`, for a tree that says a client. -/
def fromRaw (raw : Yaml N) : Except DesiredStateError (ClientDocument formats) :=
  match h : formats.view raw with
  | .ok client => .ok ⟨raw, client, h⟩
  | .error error => .error error

/-- `parse`. -/
def parse (text : String) : Except DesiredStateError (ClientDocument formats) := do
  let raw ← (formats.yaml.read text).mapError .malformed
  formats.fromRaw raw

/-- `render`. -/
def render (raw : Yaml N) : Except DesiredStateError String :=
  (formats.yaml.write raw).mapError .malformed

/-- A tree is written, and the text read. -/
def reread (raw : Yaml N) : Except DesiredStateError (ClientDocument formats) := do
  let text ← formats.render raw
  formats.parse text

end Formats

/-! ## Writing -/

/-- `ok_or`. -/
def orMissing (field : String) : Option T → Except DesiredStateError T
  | some value => .ok value
  | none => .error (.missingField field)

/-- A key of `spec` is written. -/
def insertSpec (name : String) (value raw : Yaml N) : Option (Yaml N) :=
  Yaml.update "spec" (Yaml.insert name value) raw

/-- What `with_identity` writes. -/
def withIdentityRaw (raw : Yaml N) (identity : IdentityConfiguration) :
    Except DesiredStateError (Yaml N) := do
  let raw ← orMissing "apiVersion" (Yaml.insert "apiVersion" (.string API_VERSION_V2) raw)
  orMissing "spec" (insertSpec "identity" identity.write raw)

/-- What `with_product` writes of the scheme. -/
def writeScheme (scheme : Option PrivateNetworkScheme) (spec : Yaml N) : Option (Yaml N) :=
  match scheme with
  | some scheme => Yaml.insert "privateNetworkScheme" (.string scheme.asStr) spec
  | none => Yaml.remove "privateNetworkScheme" spec

/-- What `with_product` writes in `spec`. -/
def writeProductSpec (request : ClientProductRequest) (product spec : Yaml N) :
    Option (Yaml N) := do
  let spec ← Yaml.insert "displayName" (.string request.displayName) spec
  let hosts := .sequence (request.hosts.map fun host => .string host.value)
  let spec ← Yaml.insert "hosts" hosts spec
  let spec ← writeScheme request.privateNetworkScheme spec
  Yaml.insert "product" product spec

/-- What `create` writes. -/
def newDocument (id : ClientId) (request : ClientProductRequest)
    (identity : IdentityConfiguration) (product : Yaml N) : Yaml N :=
  let scheme := match request.privateNetworkScheme with
    | some scheme => [(.string "privateNetworkScheme", .string scheme.asStr)]
    | none => []
  .mapping [(.string "apiVersion", .string API_VERSION_V2), (.string "kind", .string DOCUMENT_KIND),
    (.string "metadata", .mapping [(.string "name", .string id.value)]),
    (.string "spec", .mapping ([(.string "displayName", .string request.displayName),
      (.string "hosts", .sequence (request.hosts.map fun host => .string host.value))] ++ scheme ++
      [(.string "identity", identity.write), (.string "product", product)]))]

namespace Formats

variable (formats : Formats N Described Secrets Data)

/-- `ClientDocument::with_identity`. -/
def withIdentity (document : ClientDocument formats) (identity : IdentityConfiguration) :
    Except DesiredStateError (ClientDocument formats) := do
  identity.validate
  let raw ← withIdentityRaw document.raw identity
  formats.reread raw

/-- `ClientDocument::with_lifecycle`. -/
def withLifecycle (document : ClientDocument formats) (record : LifecycleRecord) :
    Except DesiredStateError (ClientDocument formats) := do
  -- The section is looked for before the record is written.
  let _ ← orMissing "spec" (Yaml.update "spec" (Yaml.editMapping some) document.raw)
  let encoded ← (formats.writeLifecycle record).mapError .malformed
  let raw ← orMissing "spec" (insertSpec "lifecycle" encoded document.raw)
  formats.reread raw

/-- `ClientDocument::product`. -/
def product (document : ClientDocument formats) :
    Except DesiredStateError (ClientProduct Described) :=
  match (document.raw.get "spec").bind (Yaml.get "product") with
  | none => .ok ClientProduct.default
  | some value => formats.decoded formats.readProduct value

/-! ## The projection of the assignments -/

/-- The client an assignment is projected to. -/
def application (client : Client Secrets Data) (scheme : Option PrivateNetworkScheme)
    (assignment : ApplicationAssignment Described) : Except DesiredStateError OidcClient := do
  let redirect ← redirect client.id client.hosts scheme assignment.applicationId.value
    assignment.release.definition.domain
  let id ← (Slug.tryNew assignment.applicationId.value).mapError identifierRefused
  .ok ⟨id, .oidc, .s256, redirect⟩

/-- `with_application_identity_over`. -/
def withApplicationIdentityOver (document : ClientDocument formats)
    (scheme : Option PrivateNetworkScheme) : Except DesiredStateError (ClientDocument formats) := do
  let product ← formats.product document
  let clients ← product.applications.foldlM (fun clients assignment => do
    let application ← application document.client scheme assignment
    .ok (upsert OidcClient.id application clients)) document.client.identity.clients
  formats.withIdentity document { document.client.identity with clients := clients }

/-- `with_application_identity`. -/
def withApplicationIdentity (document : ClientDocument formats) :
    Except DesiredStateError (ClientDocument formats) :=
  formats.withApplicationIdentityOver document document.client.privateNetworkScheme

/-! ## Product saves -/

/-- `product::identifier`. -/
def identityRefused (error : IdentifierError) : DesiredStateError :=
  .invalidField "identity" (toString error)

/-- `ClientDocument::create`. -/
def create (id : ClientId) (request : ClientProductRequest) (product : ClientProduct Described) :
    Except DesiredStateError (ClientDocument formats) := do
  let roles ← (REQUIRED_ROLES.mapM RoleName.tryNew).mapError identityRefused
  checkScheme request.hosts request.privateNetworkScheme
  let realm ← (Slug.tryNew id.value).mapError identityRefused
  let encoded ← (formats.writeProduct product).mapError .malformed
  let document ← formats.reread (newDocument id request ⟨realm, roles, []⟩ encoded)
  formats.withApplicationIdentity document

/-- What `with_product` checks of an assignment: its identity client, if there is one, is the
application's already. -/
def checkOwned (previous : ClientProduct Described) (clients : List OidcClient)
    (assignment : ApplicationAssignment Described) : Except DesiredStateError Unit :=
  let owned := previous.applications.any fun other =>
    other.applicationId == assignment.applicationId
  if !owned && clients.any fun client => client.id.value == assignment.applicationId.value then
    .error (.invalidField "applications"
      "An existing identity client already uses this application identifier")
  else .ok ()

/-- `ClientDocument::with_product`. -/
def withProduct (document : ClientDocument formats) (request : ClientProductRequest)
    (product : ClientProduct Described) : Except DesiredStateError (ClientDocument formats) := do
  let previous ← formats.product document
  product.applications.forM (checkOwned previous document.client.identity.clients)
  checkScheme request.hosts request.privateNetworkScheme
  let migrated ← formats.withIdentity document document.client.identity
  let encoded ← (formats.writeProduct product).mapError .malformed
  let raw ← orMissing "spec"
    (Yaml.update "spec" (writeProductSpec request encoded) migrated.raw)
  let document ← formats.reread raw
  formats.withApplicationIdentity document

end Formats
end ClientModel
end SaasFabric
