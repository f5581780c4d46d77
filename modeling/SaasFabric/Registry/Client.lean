import SaasFabric.Registry.Challenge
import SaasFabric.Registry.Url

/-!
# A registry's client

`fabric-registry`'s `settings.rs`, `client/presented.rs`, `client/realm.rs`, `client/scope.rs`,
`client/wire/responses.rs` and `errors.rs`: what a client is built with, what it presents for
what, and how it reads an answer.
-/

namespace SaasFabric
namespace Registry

open Platform (RegistryError)

/-! ## Credentials and realms -/

/-- `Credential`, but for the mark of a refusal, which its clients share. -/
structure Credential where
  username : String
  secret : String
  repositories : List String
deriving DecidableEq

/-- `str::strip_prefix`, or the text itself. -/
def withoutPrefix (start text : String) : String :=
  if Text.startsWith text start then String.ofList (text.toList.drop start.toList.length) else text

/-- `Presented`: a credential, and the repository paths it is presented for. -/
structure Presented where
  username : String
  secret : String
  paths : List String
deriving DecidableEq

/-- `Presented::new`. -/
def Presented.new (credential : Credential) (namingHost : String) : Presented :=
  { username := credential.username, secret := credential.secret,
    paths := credential.repositories.map (withoutPrefix (namingHost ++ "/")) }

/-- `RealmRule`. -/
inductive RealmRule where
  | fixed (realm service : String)
  | recorded (origin : Option String)
  | followChallenge
deriving DecidableEq

/-- `Realm`, but for what a client that follows its challenge has recorded. -/
inductive Realm where
  | fixed (realm : Url) (service : String)
  | recorded (origin : Option Url)
  | follow
deriving DecidableEq

/-- `Realm::from_rule`. -/
def Realm.fromRule (parseUrl : String → Option Url) : RealmRule → Except String Realm
  | .fixed realm service =>
      match parseUrl realm with
      | some realm => .ok (.fixed realm service)
      | none => .error "registry: the realm is not a URL"
  | .recorded none => .ok (.recorded none)
  | .recorded (some origin) =>
      match parseUrl origin with
      | some origin => .ok (.recorded (some origin))
      | none => .error "registry: the realm is not a URL"
  | .followChallenge => .ok .follow

/-- `OciRegistry`, as far as an exchange reads it: what it was built with. -/
structure OciRegistry where
  transport : Transport
  address : Address
  registryHost : String
  realm : Realm
  honoursBasic : Bool
  credential : Option Presented

/-- `Scope`. -/
inductive Scope where
  | registry
  | repository (path : String)
deriving DecidableEq

namespace OciRegistry

/-- `path`. -/
def path (registry : OciRegistry) (repository : String) : String :=
  withoutPrefix (registry.registryHost ++ "/") repository

/-- `presents`. -/
def presents (registry : OciRegistry) : Scope → Bool
  | .registry => registry.credential.isSome
  | .repository path => registry.credential.any fun credential => credential.paths.contains path

end OciRegistry

/-! ## What is asked -/

/-- `Held`. -/
inductive Held where
  | bearer (token : String)
  | basic
deriving DecidableEq

/-- `Allowed`: where a token request goes, and the service it names. -/
structure Allowed where
  realm : Url
  service : Option String

/-- `token_url`. -/
def tokenUrl (allowed : Allowed) (scope : Scope) : Url :=
  let kept := allowed.realm.queryPairs.filter fun pair => pair.1 ≠ "scope" ∧ pair.1 ≠ "service"
  let service := allowed.service.toList.map fun service => ("service", service)
  let asked := match scope with
    | .registry => []
    | .repository path => [("scope", "repository:" ++ path ++ ":pull")]
  allowed.realm.withPairs (kept ++ service ++ asked)

/-- `Method`. -/
inductive Method where
  | get
  | head
deriving DecidableEq

/-- `Via`: which of the two clients a request goes through. -/
inductive Via where
  | api
  | blob
deriving DecidableEq

/-- `Call`. -/
structure Call where
  method : Method
  via : Via
  operation : String
  url : String
  accept : String
deriving DecidableEq

/-- Where a request goes: to a call's URL, to a token endpoint, or to where it was redirected. -/
inductive Target where
  | call (url : String)
  | token (url : Url)
  | hop (url : Url)
deriving DecidableEq

/-- What a request carries in its `Authorization` header. -/
inductive Authorization where
  | bearer (token : String)
  | basic (username secret : String)
deriving DecidableEq

/-- A request as it is sent. -/
structure Request where
  method : Method
  via : Via
  target : Target
  accept : Option String
  authorization : Option Authorization
deriving DecidableEq

/-! ## What is answered -/

/-- Why a request got no response, as far as failures are told apart. -/
inductive SendFailure where
  | notPublic
  | redirect (reason : Option String)
  | connect
  | timeout
  | decode
  | other
deriving DecidableEq

/-- `Response`: its status, its `WWW-Authenticate` values and its remaining quota as far as they
are text, and its body as it arrives. -/
structure Response where
  status : Nat
  authenticate : List (Option String)
  rateLimitRemaining : Option String
  contentLength : Option Nat
  chunks : List (List UInt8)
  interrupted : Option SendFailure
deriving DecidableEq

/-- A response as it arrives, and its `Location` as far as it is text. -/
structure Answered extends Response where
  location : Option String
deriving DecidableEq

/-- `transport_failure`. -/
def transportFailure (operation : String) (failure : SendFailure) : RegistryError :=
  .unavailable (operation ++ " " ++ match failure with
    | .connect => "could not connect"
    | .timeout => "timed out"
    | .decode => "returned a response that could not be read"
    | _ => "failed")

/-- `send_failure`. -/
def sendFailure (operation : String) : SendFailure → RegistryError
  | .notPublic => .refused NOT_PUBLIC
  | .redirect (some reason) => .refused reason
  | .redirect none => .refused (operation ++ " was redirected off the allowed transport")
  | failure => transportFailure operation failure

/-- `unreadable`. -/
def unreadable (operation : String) : RegistryError :=
  .unavailable (operation ++ " returned a response that could not be read")

namespace Response

/-- `quota_exhausted`. -/
def quotaExhausted (response : Response) : Bool :=
  response.rateLimitRemaining.any fun value => Text.trim value = "0"

/-- `rate_limited`. -/
def rateLimited (response : Response) : Bool :=
  response.status = 429 || (response.status = 403 && response.quotaExhausted)

/-- `is_success`. -/
def isSuccess (response : Response) : Bool := 200 ≤ response.status && response.status < 300

/-- `is_server_error`. -/
def isServerError (response : Response) : Bool := 500 ≤ response.status && response.status < 600

/-- `status_failure`. -/
def statusFailure (operation : String) (response : Response) : RegistryError :=
  if response.rateLimited || response.isServerError then
    .unavailable (operation ++ " returned " ++ toString response.status)
  else
    .refused (operation ++ " was refused with " ++ toString response.status)

/-- The loop of `bounded_body`: the bytes so far, and what arrives after them. -/
def collectBody (most : Nat) (tooLarge : RegistryError) (broken : Option RegistryError) :
    List UInt8 → List (List UInt8) → Except RegistryError (List UInt8)
  | body, [] => match broken with
      | none => .ok body
      | some error => .error error
  | body, chunk :: chunks =>
      if most < body.length + chunk.length then .error tooLarge
      else collectBody most tooLarge broken (body ++ chunk) chunks

/-- `bounded_body`. -/
def boundedBody (response : Response) (most : Nat) (operation : String) :
    Except RegistryError (List UInt8) :=
  let tooLarge := RegistryError.refused
    (operation ++ " answered with more than " ++ toString most ++ " bytes")
  if response.contentLength.any fun length => most < length then .error tooLarge
  else collectBody most tooLarge (response.interrupted.map (transportFailure operation)) []
    response.chunks

end Response

/-- `PullToken`. -/
structure PullToken where
  token : Option String
  accessToken : Option String

/-- `PullToken::bearer`. -/
def PullToken.bearer (minted : PullToken) : Option String :=
  (minted.token.or minted.accessToken).filter (· ≠ "")

/-- How the crate's dependencies read a URL and a token response. -/
structure Formats extends UrlFormat where
  pullToken : List UInt8 → Option PullToken

/-- Where a request goes, as a URL. -/
def Target.url (formats : Formats) : Target → Option Url
  | .call text => formats.parse text
  | .token url => some url
  | .hop url => some url

/-- The statuses that `reqwest` takes for a redirect. -/
def isRedirectStatus (status : Nat) : Bool := [301, 302, 303, 307, 308].contains status

/-- Where an answer redirects a request that went to a URL. -/
def Answered.next (formats : Formats) (answered : Answered) (url : Url) : Option Url :=
  if isRedirectStatus answered.status then answered.location.bind (formats.join url) else none

/-! ## What a token request names -/

theorem queryPairs_tokenUrl (allowed : Allowed) (scope : Scope) :
    (tokenUrl allowed scope).queryPairs =
      (allowed.realm.queryPairs.filter fun pair => pair.1 ≠ "scope" ∧ pair.1 ≠ "service") ++
        (allowed.service.toList.map fun service => ("service", service)) ++
        (match scope with
          | .registry => []
          | .repository path => [("scope", "repository:" ++ path ++ ":pull")]) :=
  Url.queryPairs_withPairs _ _

/-- A token request names its own scope and service, and none the realm's query has. -/
theorem named_tokenUrl (allowed : Allowed) (scope : Scope) :
    ((tokenUrl allowed scope).queryPairs.filter fun pair => pair.1 = "scope") =
        (match scope with
          | .registry => []
          | .repository path => [("scope", "repository:" ++ path ++ ":pull")]) ∧
      ((tokenUrl allowed scope).queryPairs.filter fun pair => pair.1 = "service") =
        allowed.service.toList.map fun service => ("service", service) := by
  rw [queryPairs_tokenUrl]
  have hkept : ∀ name, name = "scope" ∨ name = "service" →
      ((allowed.realm.queryPairs.filter fun pair => pair.1 ≠ "scope" ∧ pair.1 ≠ "service").filter
        fun pair => pair.1 = name) = [] := by
    intro name hname
    rw [List.filter_filter, List.filter_eq_nil_iff]
    intro pair _
    simp only [decide_eq_true_eq, Bool.and_eq_true]
    rintro ⟨rfl, hscope, hservice⟩
    exact hname.elim hscope hservice
  simp only [List.filter_append, hkept _ (Or.inl rfl), hkept _ (Or.inr rfl), List.nil_append]
  constructor
  · cases allowed.service <;> cases scope <;> simp
  · cases allowed.service <;> cases scope <;> simp

end Registry
end SaasFabric
