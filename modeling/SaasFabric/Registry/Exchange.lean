import SaasFabric.Library.Process
import SaasFabric.Registry.Client

/-!
# An exchange with a registry

`fabric-registry`'s `client/send.rs`, `client/answer.rs` and `client/token.rs`, and what their
clients share: the mark of a refused credential, and of each client what its repositories hold
and the realm it follows.  Every access to what is shared is an effect of its own, and so is every
request, which the far end answers as it likes.
-/

namespace SaasFabric
namespace Registry

open Library
open Platform (RegistryError)

/-! ## What clients share -/

/-- The mark of the credential that some clients share, and each client's `tokens` and followed
realm. -/
structure Shared (ι : Type) where
  refused : Bool
  tokens : ι → String → Bool → Option Held
  first : ι → Option Url

/-- An access to what is shared, by which client, or a request. -/
inductive Effect (ι : Type) where
  | loadRefused
  | storeRefused
  | held (client : ι) (path : String) (presents : Bool)
  | hold (client : ι) (path : String) (presents : Bool) (held : Held)
  | firstRealm (client : ι) (named : Url)
  | send (client : ι) (request : Request)
deriving DecidableEq

/-- What an effect answers. -/
abbrev Effect.Answer {ι : Type} : Effect ι → Type
  | loadRefused => Bool
  | storeRefused => Unit
  | held .. => Option Held
  | hold .. => Unit
  | firstRealm .. => Url
  | send .. => Except SendFailure Answered

instance (effect : Effect ι) : DecidableEq effect.Answer :=
  match effect with
  | .loadRefused => inferInstanceAs (DecidableEq Bool)
  | .storeRefused => inferInstanceAs (DecidableEq Unit)
  | .held .. => inferInstanceAs (DecidableEq (Option Held))
  | .hold .. => inferInstanceAs (DecidableEq Unit)
  | .firstRealm .. => inferInstanceAs (DecidableEq Url)
  | .send .. => inferInstanceAs (DecidableEq (Except SendFailure Answered))

variable {ι : Type} [DecidableEq ι]

namespace Shared

/-- Nothing is held and no realm is followed yet; the mark is as the credential's holder has it. -/
def new (refused : Bool) : Shared ι :=
  { refused, tokens := fun _ _ _ => none, first := fun _ => none }

/-- `tokens.insert`. -/
def insert (shared : Shared ι) (client : ι) (path : String) (presents : Bool) (held : Held) :
    Shared ι :=
  { shared with
    tokens := fun other repository presenting =>
      if other = client ∧ repository = path ∧ presenting = presents then some held
      else shared.tokens other repository presenting }

/-- `get_or_insert_with`. -/
def follow (shared : Shared ι) (client : ι) (named : Url) : Shared ι :=
  { shared with
    first := fun other =>
      if other = client then some ((shared.first client).getD named) else shared.first other }

end Shared

/-- How what is shared answers an effect.  A request leaves it alone, whatever its answer. -/
def world : Process.World (Shared ι) (Effect.Answer (ι := ι)) := fun before effect after =>
  match effect with
  | .loadRefused => fun answer => after = before ∧ answer = before.refused
  | .storeRefused => fun _ => after = { before with refused := true }
  | .held client path presents => fun answer =>
      after = before ∧ answer = before.tokens client path presents
  | .hold client path presents held => fun _ => after = before.insert client path presents held
  | .firstRealm client named => fun answer =>
      after = before.follow client named ∧ answer = (before.first client).getD named
  | .send _ _ => fun _ => after = before

/-! ## The exchange -/

/-- What a client does: effects, and a result or an error. -/
abbrev Fallible (ι : Type) := ExceptT RegistryError (Process (Effect.Answer (ι := ι)))

def ask (effect : Effect ι) : Fallible ι effect.Answer := ExceptT.lift (Process.ask effect)

/-- `Exchange`: the last response, and the realm's origin where a `Bearer` challenge was
answered. -/
structure Exchange where
  response : Response
  realm : Option String

/-- `Minted`. -/
inductive Minted where
  | token (token : String)
  | declined

/-- `bounds::TOKEN`. -/
def TOKEN : Nat := 16 * 1024

section Client

variable (formats : Formats) (client : ι) (registry : OciRegistry)

/-- `not_refused`. -/
def notRefused (operation : String) : Fallible ι Unit := do
  if ← ask .loadRefused then
    throw (.denied (operation ++ ": the realm refused this registry's credential; this process does not present it again until it is replaced; a restart clears that, and a later read or proof may present it again"))

/-- `refuse`: the error that says so. -/
def refuse (operation : String) : Fallible ι RegistryError := do
  if registry.credential.isSome then
    ask .storeRefused
  return .denied (operation ++ ": the realm refused this registry's credential")

/-- `held`. -/
def held (scope : Scope) (presents : Bool) : Fallible ι (Option Held) :=
  match scope with
  | .registry => pure none
  | .repository path => ask (.held client path presents)

/-- `hold`. -/
def hold (scope : Scope) (presents : Bool) (held : Held) : Fallible ι Unit :=
  match scope with
  | .registry => pure ()
  | .repository path => ask (.hold client path presents held)

/-- `authorize`: what is attached for what is held. -/
def authorize (held : Option Held) : Option Authorization :=
  match held, registry.credential with
  | some (.bearer token), _ => some (.bearer token)
  | some .basic, some credential => some (.basic credential.username credential.secret)
  | some .basic, none => none
  | none, _ => none

theorem authorize_basic : authorize registry (some .basic) =
    registry.credential.map fun credential =>
      .basic credential.username credential.secret := by
  unfold authorize
  cases registry.credential <;> rfl

/-- The request of an `attempt`. -/
def attemptRequest (call : Call) (held : Option Held) : Request :=
  { method := call.method, via := call.via, target := .call call.url, accept := some call.accept,
    authorization := authorize registry held }

/-- A request of one of the two clients, and what goes on from a redirect that `api_policy` allows;
the client for blobs is redirected by nothing. -/
def sendOnce (goOn : Url → Fallible ι (Except SendFailure Response)) (previous : List Url)
    (url : Url) (request : Request) : Fallible ι (Except SendFailure Response) := do
  match ← ask (.send client request) with
  | .error failure => return .error failure
  | .ok answered =>
      match request.via, answered.next formats url with
      | .api, some next =>
          match apiPolicy formats.toUrlFormat registry.transport registry.address
              (previous ++ [url]) next with
          | .error reason => return .error (.redirect (some reason))
          | .ok () => goOn next
      | _, _ => return .ok answered.toResponse

/-- `RequestBuilder::send`: a request, sent on with all it carries as often as there are redirects
left.  The policy keeps it on its origin, where `reqwest` keeps its `Authorization`, and ends it
no later than the count does. -/
def send : Nat → List Url → Url → Request → Fallible ι (Except SendFailure Response)
  | 0, previous, url, request =>
      sendOnce formats client registry
        (fun _ => return .error (.redirect (some Refusal.tooManyRedirects.text)))
        previous url request
  | left + 1, previous, url, request =>
      sendOnce formats client registry
        (fun next => send left (previous ++ [url]) next { request with target := .hop next })
        previous url request

/-- `attempt`. -/
def attempt (call : Call) (held : Option Held) : Fallible ι Response :=
  match formats.parse call.url with
  | none => throw (sendFailure call.operation .other)
  | some url => do
      match ← send formats client registry MAX_REDIRECTS [] url
          (attemptRequest registry call held) with
      | .ok response => return response
      | .error failure => throw (sendFailure call.operation failure)

/-- The request of a `token`. -/
def tokenRequest (url : Url) (presents : Bool) : Request :=
  { method := .get, via := .api, target := .token url, accept := none,
    authorization := match presents, registry.credential with
      | true, some credential => some (.basic credential.username credential.secret)
      | _, _ => none }

theorem authorization_tokenRequest (url : Url) (presents : Bool) :
    (tokenRequest registry url presents).authorization =
      if presents then registry.credential.map fun credential =>
        .basic credential.username credential.secret
      else none := by
  unfold tokenRequest
  cases presents <;> cases registry.credential <;> rfl

/-- The refusal of a realm that is not HTTPS. -/
def realmNotHttps (operation : String) : RegistryError :=
  .refused (operation ++ ": the registry's realm is not an HTTPS address")

/-- How the answer of a realm is read, where it refused no credential. -/
def readMinted (operation : String) (response : Response) : Except RegistryError Minted :=
  if !response.isSuccess then .error (response.statusFailure operation)
  else match response.boundedBody TOKEN operation with
    | .error error => .error error
    | .ok body =>
        match (formats.pullToken body).bind PullToken.bearer with
        | some token => .ok (.token token)
        | none => .error (unreadable operation)

/-- `token`. -/
def token (operation : String) (allowed : Allowed) (scope : Scope) (presents : Bool) :
    Fallible ι Minted := do
  let url := tokenUrl allowed scope
  if permits registry.transport [] url ≠ .ok () then
    throw (realmNotHttps operation)
  MonadExcept.ofExcept (registry.address.check url)
  match ← send formats client registry MAX_REDIRECTS [] url
    (tokenRequest registry url presents) with
  | .error failure => throw (sendFailure operation failure)
  | .ok response =>
      let forbidden := response.status = 403 && !response.rateLimited
      if presents && (response.status = 401 || (forbidden && scope = .registry)) then
        throw (← refuse registry operation)
      else if response.status = 401 || forbidden then
        return .declined
      else
        MonadExcept.ofExcept (readMinted formats operation response)

/-- What a challenge that names a realm of another origin is refused with. -/
def otherRealm (operation : String) (named : Url) (allowed : Option Url) : RegistryError :=
  .refused (operation ++ ": the registry's challenge named the realm " ++ Origin.text named.origin ++
    ", where " ++ match allowed with
      | none => "none was recorded"
      | some allowed => "only " ++ Origin.text allowed.origin ++ " is allowed")

/-- Where a realm has to be of the origin that is recorded. -/
def allowRecorded (operation : String) (named : Url) (service : Option String)
    (recorded : Option Url) : Except RegistryError Allowed :=
  match recorded with
  | some origin =>
      if origin.same named then .ok { realm := named, service }
      else .error (otherRealm operation named (some origin))
  | none => .error (otherRealm operation named none)

/-- `Realm::allow`. -/
def allow (operation named : String) (service : Option String) : Fallible ι Allowed :=
  match formats.parse named with
  | none => throw (.refused
      (operation ++ ": the registry's challenge named a realm that is not a URL"))
  | some url =>
      if url.username ≠ "" ∨ url.password.isSome then
        throw (.refused
          (operation ++ ": the registry's challenge named a realm carrying a credential"))
      else
        let named := { url with fragment := none }
        match registry.realm with
        | .fixed realm service =>
            if realm.same named then return { realm, service := some service }
            else throw (otherRealm operation named (some realm))
        | .recorded recorded =>
            MonadExcept.ofExcept (allowRecorded operation named service recorded)
        | .follow => do
            let first ← ask (.firstRealm client named)
            MonadExcept.ofExcept (allowRecorded operation named service (some first))

/-- Whether a realm's address and its transport are such as the client asks. -/
def checkRealm (operation named : String) : Except RegistryError Unit :=
  match formats.parse named with
  | none => .ok ()
  | some url => do
      registry.address.check url
      if permits registry.transport [] url = .ok () then .ok ()
      else .error (realmNotHttps operation)

/-- `bearer_realm`. -/
def bearerRealm (operation : String) (response : Response) : Fallible ι (Option Allowed) :=
  match (challenges response.authenticate).find? fun challenge => challenge.scheme = .bearer with
  | none => return none
  | some bearer =>
      match bearer.parameter "realm" with
      | none => return none
      | some named => do
          MonadExcept.ofExcept (checkRealm formats registry operation named)
          let allowed ← allow formats client registry operation named (bearer.parameter "service")
          return some allowed

/-- Whether an answer asks for `Basic`. -/
def Response.asksBasic (response : Response) : Bool :=
  (challenges response.authenticate).any fun challenge => challenge.scheme = .basic

/-- `answer`. -/
def answer (operation : String) (scope : Scope) (presents : Bool) (response : Response) :
    Fallible ι (Option (Held × Option String)) := do
  match ← bearerRealm formats client registry operation response with
  | some allowed =>
      match ← token formats client registry operation allowed scope presents with
      | .declined => return none
      | .token token =>
          hold client scope presents (.bearer token)
          return some (.bearer token, some (Origin.text allowed.realm.origin))
  | none =>
      if response.asksBasic && presents && registry.honoursBasic then
        hold client scope presents .basic
        return some (.basic, none)
      else
        return none

/-- `exchange`, from the answer to its first request. -/
def exchangeAnswered (call : Call) (scope : Scope) (presents : Bool) (response : Response) :
    Fallible ι Exchange := do
  if response.status ≠ 401 then
    return { response, realm := none }
  else
    match ← answer formats client registry call.operation scope presents response with
    | none => return { response, realm := none }
    | some (held, realm) =>
        let response ← attempt formats client registry call (some held)
        -- `Basic` is the credential itself: a refusal of it is the credential refused.
        if held = .basic && response.status = 401 then
          throw (← refuse registry call.operation)
        else
          return { response, realm }

/-- `exchange`. -/
def exchange (call : Call) (scope : Scope) : Fallible ι Exchange := do
  let presents := registry.presents scope
  (if presents then notRefused call.operation else pure ())
  let response ← attempt formats client registry call (← held client scope presents)
  exchangeAnswered formats client registry call scope presents response

end Client

/-- One exchange of one of the clients. -/
structure Asked (ι : Type) where
  client : ι
  call : Call
  scope : Scope

/-- Exchanges of the clients, side by side. -/
def exchanges (formats : Formats) (clients : ι → OciRegistry) :
    Interleaved (Shared ι)
      (Process.Session (Shared ι) (Asked ι) (Effect.Answer (ι := ι))
        (Except RegistryError Exchange)) :=
  Process.sessions world fun asked =>
    (exchange formats asked.client (clients asked.client) asked.call asked.scope).run

/-- The world with a far end that answers each request as it is told to. -/
def answering (far : List (Process.Event (Effect.Answer (ι := ι))) → Request →
    Except SendFailure Answered) (shared : Shared ι)
    (trace : List (Process.Event (Effect.Answer (ι := ι)))) :
    (effect : Effect ι) → Shared ι × effect.Answer
  | .loadRefused => (shared, shared.refused)
  | .storeRefused => ({ shared with refused := true }, ())
  | .held client path presents => (shared, shared.tokens client path presents)
  | .hold client path presents held => (shared.insert client path presents held, ())
  | .firstRealm client named => (shared.follow client named, (shared.first client).getD named)
  | .send _ request => (shared, far trace request)

theorem world_answering (far : List (Process.Event (Effect.Answer (ι := ι))) → Request →
    Except SendFailure Answered) (shared : Shared ι)
    (trace : List (Process.Event (Effect.Answer (ι := ι)))) (effect : Effect ι) :
    world shared effect (answering far shared trace effect).1
      (answering far shared trace effect).2 := by
  cases effect <;> simp [world, answering]

end Registry
end SaasFabric
