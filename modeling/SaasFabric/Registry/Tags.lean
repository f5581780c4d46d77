import SaasFabric.Library.Program
import SaasFabric.Registry.Exchange
import SaasFabric.Registry.Link

/-!
# Listing the tags of a repository

`fabric-registry`'s `client/tags.rs`, over the requests it takes: each of them may be sent on
within the origin, and one that is challenged is sent again.  The far end answers each request as
it likes, by all it was asked before.
-/

namespace SaasFabric
namespace Registry

open Library
open Platform (RegistryError)

namespace Tags

/-! ## Requests -/

/-- What one request is answered with: a response and its `Link` values as far as they are text,
a redirect whose target could be read, or nothing. -/
inductive Reply where
  | response (response : Response) (links : List (Option String))
  | redirect (next : Url)
  | failed (failure : SendFailure)
deriving DecidableEq

/-- What a listing does: it asks for a page, and a request is answered. -/
inductive Event where
  | page (url : String)
  | request (url : Url) (reply : Reply)
deriving DecidableEq

/-- The far end, by all that happened before: how it answers a request, and what the client makes
of it where a credential is refused already or a `401` carries a challenge. -/
structure Far where
  reply : List Event → Url → Reply
  ready : List Event → Except RegistryError Unit
  challenge : List Event → Response → Except RegistryError (Option Held)

/-- A registry's client, where it is served from, and how a page's body is read. -/
structure Served where
  format : UrlFormat
  tagList : List UInt8 → Option (Option (List String))
  transport : Transport
  address : Address
  baseUrl : String
  origin : Url
  registryHost : String

/-- A computation that leaves what happened, also where it fails. -/
abbrev Asking := Program (List Event) RegistryError

/-- `bounds::TAG_PAGE`. -/
def TAG_PAGE : Nat := 1024 * 1024

/-- `MAX_PAGES`. -/
def MAX_PAGES : Nat := 50

/-- `PAGE_SIZE`. -/
def PAGE_SIZE : Nat := 100

/-- `OPERATION`. -/
def OPERATION : String := "listing tags"

/-- `Listing`. -/
inductive Listing where
  | tags (found : List String)
  | absent
  | closed (error : RegistryError)
deriving DecidableEq

section Client

variable (far : Far) (registry : Served)

/-- `url`. -/
def Served.url (repository suffix : String) : String :=
  registry.baseUrl ++ "/v2/" ++ withoutPrefix (registry.registryHost ++ "/") repository ++ "/" ++
    suffix

/-- One request. -/
def request (url : Url) : Asking Reply := do
  let before ← get
  let reply := far.reply before url
  set (before ++ [Event.request url reply])
  return reply

/-- A request, and what goes on from a redirect the policy allows. -/
def sendOnce (goOn : Url → Asking Page) (previous : List Url) (url : Url) : Asking Page := do
  match ← request far url with
  | .failed failure => throw (sendFailure OPERATION failure)
  | .response response links => return ⟨response, url, links⟩
  | .redirect next =>
      match apiPolicy registry.format registry.transport registry.address (previous ++ [url])
          next with
      | .error reason => throw (sendFailure OPERATION (.redirect (some reason)))
      | .ok () => goOn next

/-- A request, sent on as often as there are redirects left.  The policy ends it no later than
the count does. -/
def send : Nat → List Url → Url → Asking Page
  | 0, previous, url =>
      sendOnce far registry
        (fun _ => throw (sendFailure OPERATION (.redirect (some Refusal.tooManyRedirects.text))))
        previous url
  | left + 1, previous, url =>
      sendOnce far registry (fun next => send left (previous ++ [url]) next) previous url

/-- `attempt`. -/
def attempt (url : String) : Asking Page :=
  match registry.format.parse url with
  | none => throw (sendFailure OPERATION .other)
  | some url => send far registry MAX_REDIRECTS [] url

/-- `get`: a request, and once more where its challenge is answered. -/
def getPage (url : String) : Asking Page := do
  modify (· ++ [Event.page url])
  MonadExcept.ofExcept (far.ready (← get))
  let page ← attempt far registry url
  if page.response.status ≠ 401 then
    return page
  else
    match ← MonadExcept.ofExcept (far.challenge (← get) page.response) with
    | none => return page
    | some held =>
        let page ← attempt far registry url
        -- `Basic` is the credential itself: a refusal of it is the credential refused.
        if held = .basic && page.response.status = 401 then
          throw (.denied (OPERATION ++ ": the realm refused this registry's credential"))
        else
          return page

/-! ## Pages -/

/-- Whether a page is closed to the client. -/
def isClosed (response : Response) : Bool :=
  response.status = 401 || (response.status = 403 && !response.rateLimited)

/-- What a page is read as: the page that comes next, and its own tags. -/
def readPage (page : Page) : Except RegistryError (Option String × List String) :=
  if !page.response.isSuccess then .error (page.response.statusFailure OPERATION)
  else match nextPage registry.format registry.origin OPERATION page with
    | .error error => .error error
    | .ok next =>
        match page.response.boundedBody TAG_PAGE OPERATION with
        | .error error => .error error
        | .ok body =>
            match registry.tagList body with
            | none => .error (unreadable OPERATION)
            | some tags => .ok (next, tags.getD [])

/-- The loop of `listing`, with so many pages left. -/
def listPages : Nat → Bool → String → List String → Asking Listing
  | 0, _, _, _ => throw (.unavailable (OPERATION ++ " paged past " ++ toString MAX_PAGES ++ " pages"))
  | left + 1, first, url, found => do
      let page ← getPage far registry url
      if first && page.response.status = 404 then
        return .absent
      else if first && isClosed page.response then
        return .closed (page.response.statusFailure OPERATION)
      else
        let (next, tags) ← MonadExcept.ofExcept (readPage registry page)
        match next with
        | some next => listPages left false next (found ++ tags)
        | none => return .tags (found ++ tags)

/-- `listing`. -/
def listing (repository : String) : Asking Listing :=
  listPages far registry MAX_PAGES true
    (registry.url repository ("tags/list?n=" ++ toString PAGE_SIZE)) []

end Client

end Tags
end Registry
end SaasFabric
