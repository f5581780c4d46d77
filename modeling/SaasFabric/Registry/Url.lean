import SaasFabric.Core.Utf8
import SaasFabric.Library.FormUrlencoded
import SaasFabric.Platform.Errors

/-!
# Where a registry may be asked

`fabric-registry`'s `transport.rs`, `transport/origin.rs`, `address.rs` and the redirect rule of
`client/http.rs`: which URLs a client speaks to at all, and where a request may be sent on to.
How a text is parsed as a URL is the `url` crate's; what is modelled of a URL is what the crate
reads of it.
-/

namespace SaasFabric
namespace Registry

open Library
open Platform (RegistryError)

/-! ## URLs -/

/-- `IpAddr`. -/
inductive IpAddr where
  | v4 (bits : Fin (2 ^ 32))
  | v6 (bits : Fin (2 ^ 128))
deriving DecidableEq

/-- `IpAddr::is_loopback`. -/
def IpAddr.isLoopback : IpAddr → Bool
  | v4 bits => bits.val / 2 ^ 24 = 127
  | v6 bits => bits.val = 1

/-- A host as a URL writes it, and the address it is written as, if it is one. -/
structure Host where
  text : String
  literal : Option IpAddr
deriving DecidableEq

/-- `Origin::Tuple`. -/
structure Origin where
  scheme : String
  host : String
  port : Nat
deriving DecidableEq

/-- `Url`.  Its origin is `none` where it is opaque. -/
structure Url where
  scheme : String
  username : String
  password : Option String
  host : Option Host
  origin : Option Origin
  path : String
  query : Option String
  fragment : Option String
deriving DecidableEq

/-- The port a scheme has where none is named. -/
def defaultPort (scheme : String) : Option Nat :=
  if scheme = "https" ∨ scheme = "wss" then some 443
  else if scheme = "http" ∨ scheme = "ws" then some 80
  else if scheme = "ftp" then some 21
  else none

/-- `Origin::ascii_serialization`. -/
def Origin.text : Option Origin → String
  | none => "null"
  | some origin =>
      origin.scheme ++ "://" ++ origin.host ++
        (if defaultPort origin.scheme = some origin.port then "" else ":" ++ toString origin.port)

namespace Url

/-- `is_ip_literal`. -/
def isIpLiteral (url : Url) : Bool := (url.host.bind Host.literal).isSome

/-- `is_loopback`. -/
def isLoopback (url : Url) : Bool :=
  (url.host.any fun host => Text.eqIgnoreAsciiCase host.text "localhost") ||
    (url.host.bind Host.literal).any IpAddr.isLoopback

/-- `same`: whether two URLs share an origin, which an opaque one shares with none. -/
def same (one other : Url) : Bool := one.origin.isSome && one.origin = other.origin

/-- `Url::query_pairs`. -/
def queryPairs (url : Url) : List (String × String) :=
  (url.query.map (FormUrlencoded.decode Text.fromUtf8Lossy)).getD []

/-- The URL with these pairs as its query, and with none where there are no pairs. -/
def withPairs (url : Url) (pairs : List (String × String)) : Url :=
  { url with query := if pairs = [] then none else some (FormUrlencoded.encode pairs) }

/-- A query that was written is read back. -/
@[simp] theorem queryPairs_withPairs (url : Url) (pairs : List (String × String)) :
    (url.withPairs pairs).queryPairs = pairs := by
  unfold withPairs queryPairs
  split
  · rename_i h
    exact h.symm
  · exact FormUrlencoded.decode_encode Text.fromUtf8Lossy_utf8 pairs

end Url

/-! ## The transport rule -/

/-- `MAX_REDIRECTS`. -/
def MAX_REDIRECTS : Nat := 10

/-- `Transport`. -/
inductive Transport where
  | https
  | loopbackToo
deriving DecidableEq

/-- `Refusal`. -/
inductive Refusal where
  | tooManyRedirects
  | notHttps
deriving DecidableEq

/-- `permits`: the initial step of a request, or one after the hops already followed. -/
def permits (transport : Transport) (previous : List Url) (next : Url) : Except Refusal Unit :=
  if MAX_REDIRECTS < previous.length then .error .tooManyRedirects
  else if next.scheme = "https" then .ok ()
  else if transport = .loopbackToo ∧ (previous.all fun hop => hop.scheme ≠ "https") ∧
      next.isLoopback then .ok ()
  else .error .notHttps

/-- Where a request may be sent on to, it might have been sent at once. -/
theorem permits_nil {transport : Transport} {previous : List Url} {next : Url}
    (h : permits transport previous next = .ok ()) : permits transport [] next = .ok () := by
  have hfirst : ¬MAX_REDIRECTS < ([] : List Url).length := Nat.not_lt_zero MAX_REDIRECTS
  unfold permits at h ⊢
  rw [if_neg hfirst]
  split at h
  · cases h
  · split at h
    · next hhttps => exact if_pos hhttps
    · split at h
      · next hloopback =>
          split
          · rfl
          · exact if_pos ⟨hloopback.1, rfl, hloopback.2.2⟩
      · cases h

/-! ## The address policy -/

/-- `AddressPolicy`. -/
inductive AddressPolicy where
  | publicOnly
  | any
deriving DecidableEq

/-- `NOT_PUBLIC`. -/
def NOT_PUBLIC : String :=
  "a registry an operator registered is read only at public addresses, and this address is not one"

/-- `Address`, as far as URLs are judged by it. -/
structure Address where
  policy : AddressPolicy
deriving DecidableEq

/-- `Address::refuses_literal`. -/
def Address.refusesLiteral (address : Address) (url : Url) : Bool :=
  address.policy = .publicOnly && url.isIpLiteral

/-- `Address::check`. -/
def Address.check (address : Address) (url : Url) : Except RegistryError Unit :=
  if address.refusesLiteral url then .error (.refused NOT_PUBLIC) else .ok ()

theorem Address.refusesLiteral_of_check {address : Address} {url : Url}
    (h : address.check url = .ok ()) : address.refusesLiteral url = false := by
  unfold Address.check at h
  split at h
  · cases h
  · next hliteral => simpa using hliteral

/-! ## Origins -/

/-- What the `url` crate makes of a URL and of a reference. -/
structure UrlFormat where
  parse : String → Option Url
  join : Url → String → Option Url
  text : Url → String
  portOrKnownDefault : Url → Option Nat

section Origin

variable (format : UrlFormat)

/-- `same_origin`. -/
def sameOrigin (one other : Url) : Bool :=
  one.scheme = other.scheme && one.host.map Host.text = other.host.map Host.text &&
    format.portOrKnownDefault one = format.portOrKnownDefault other

variable {format}

theorem sameOrigin_iff {one other : Url} : sameOrigin format one other = true ↔
    one.scheme = other.scheme ∧ one.host.map Host.text = other.host.map Host.text ∧
      format.portOrKnownDefault one = format.portOrKnownDefault other := by
  simp [sameOrigin, and_assoc]

theorem sameOrigin.trans {one other third : Url} (h : sameOrigin format one other = true)
    (h' : sameOrigin format other third = true) : sameOrigin format one third = true := by
  rw [sameOrigin_iff] at *
  exact ⟨h.1.trans h'.1, h.2.1.trans h'.2.1, h.2.2.trans h'.2.2⟩

theorem sameOrigin.symm {one other : Url} (h : sameOrigin format one other = true) :
    sameOrigin format other one = true := by
  rw [sameOrigin_iff] at *
  exact ⟨h.1.symm, h.2.1.symm, h.2.2.symm⟩

end Origin

/-! ## Where a request may be sent on to -/

/-- `refusal`. -/
def Refusal.text : Refusal → String
  | .tooManyRedirects =>
      "a registry request followed more than " ++ toString MAX_REDIRECTS ++ " redirects"
  | .notHttps => "a registry request was redirected off HTTPS"

/-- `api_policy`. -/
def apiPolicy (format : UrlFormat) (transport : Transport) (address : Address)
    (previous : List Url) (next : Url) : Except String Unit :=
  match permits transport previous next with
  | .error refusal => .error refusal.text
  | .ok () =>
      if address.refusesLiteral next then .error NOT_PUBLIC
      else if previous.head?.any fun first => sameOrigin format first next then .ok ()
      else .error
        "a registry request was redirected to another origin, which only a blob read follows"

/-- A request is only ever sent on where the transport and the address policy let it, and within
the origin it was sent to. -/
theorem apiPolicy_eq_ok {format : UrlFormat} {transport : Transport} {address : Address}
    {previous : List Url} {next : Url}
    (h : apiPolicy format transport address previous next = .ok ()) :
    permits transport previous next = .ok () ∧ address.refusesLiteral next = false ∧
      ∃ first ∈ previous.head?, sameOrigin format first next = true := by
  unfold apiPolicy at h
  split at h
  · cases h
  · next hpermits =>
      split at h
      · cases h
      · next hliteral =>
          split at h
          · next hfirst =>
              exact ⟨hpermits, by simpa using hliteral, by simpa [Option.any_eq_true] using hfirst⟩
          · cases h

end Registry
end SaasFabric
