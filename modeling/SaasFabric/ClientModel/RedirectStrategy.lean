import SaasFabric.ClientModel.Errors
import SaasFabric.ClientModel.Ids
import SaasFabric.ClientModel.RedirectUri

/-!
# Redirect strategies, and the one an assignment projects

`identity/redirect_strategy.rs` with its rules, `ids/host.rs`, and
`document/application_identity/callbacks.rs`.
-/

namespace SaasFabric
namespace ClientModel

/-! ## Strategies -/

/-- `AppScheme`. -/
structure AppScheme where
  value : String
  accepted : (appSchemeCheck value.toList).isOk = true
deriving DecidableEq

namespace AppScheme

/-- `AppScheme::try_new`: a scheme is held in lower case. -/
def tryNew (value : String) : Except IdentifierError AppScheme :=
  let value := String.ofList (value.toList.map Char.toLower)
  match h : appSchemeCheck value.toList with
  | .ok _ => .ok ⟨value, by rw [h]; rfl⟩
  | .error error => .error error

/-- What the check lets pass is in lower case. -/
theorem map_toLower_of_check {value : List Char} (h : (appSchemeCheck value).isOk = true) :
    value.map Char.toLower = value := by
  cases value with
  | nil => rfl
  | cons first characters =>
    rw [appSchemeCheck] at h
    split at h
    · cases h
    · next hfirst =>
      split at h
      · cases h
      · next hfind =>
        have hlower : ∀ c ∈ first :: characters, c.toLower = c := by
          intro c hc
          obtain rfl | hc := List.mem_cons.mp hc
          · exact toLower_of_isUpper_eq_false (isUpper_of_isLower (by simpa using hfirst))
          · have hplain := List.find?_eq_none.mp hfind c hc
            simp only [Bool.not_eq_true', Bool.not_eq_false, Bool.or_eq_true, beq_iff_eq] at hplain
            obtain (((hlower | hdigit) | rfl) | rfl) | rfl := hplain
            · exact toLower_of_isUpper_eq_false (isUpper_of_isLower hlower)
            · exact toLower_of_isUpper_eq_false (isUpper_of_isDigit hdigit)
            · rfl
            · rfl
            · rfl
        exact (List.map_congr_left hlower).trans (List.map_id _)

/-- A scheme's own text is parsed as it. -/
@[simp] theorem tryNew_value (scheme : AppScheme) : tryNew scheme.value = .ok scheme := by
  have hlower : String.ofList (scheme.value.toList.map Char.toLower) = scheme.value := by
    rw [map_toLower_of_check scheme.accepted, String.ofList_toList]
  have haccepted := scheme.accepted
  rw [← hlower] at haccepted
  unfold tryNew
  dsimp only
  split
  · obtain ⟨value, _⟩ := scheme
    congr
  · next error herror =>
    rw [herror] at haccepted
    cases haccepted

end AppScheme

/-- `RedirectStrategyKind`. -/
inductive RedirectStrategyKind where
  | claimedHttps
  | privateNetwork
  | development
  | customScheme (scheme : AppScheme)
deriving DecidableEq

namespace RedirectStrategyKind

/-- `RedirectStrategyKind::admitted`. -/
def admitted : RedirectStrategyKind → String
  | claimedHttps => "only public https callbacks"
  | privateNetwork => "only .internal callbacks, over http or https"
  | development => "only loopback callbacks — 127.0.0.1, ::1 or localhost"
  | customScheme _ => "only callbacks on the scheme it declares"

instance : ToString RedirectStrategyKind where
  toString
    | claimedHttps => "claimedHttps"
    | privateNetwork => "privateNetwork"
    | development => "development"
    | customScheme _ => "customScheme"

end RedirectStrategyKind

/-- `RedirectStrategy`.  A document can spell one that breaks its own rules, so it carries no
proof of them. -/
structure RedirectStrategy where
  kind : RedirectStrategyKind
  uris : List RedirectUri
deriving DecidableEq

/-- `rules::admits`. -/
def admits (kind : RedirectStrategyKind) (uri : RedirectUri) : Bool :=
  match kind, uri.kind with
  | .claimedHttps, .https => true
  | .privateNetwork, .privateNetwork => true
  | .development, .loopback => true
  | .customScheme declared, .privateUseScheme =>
    match Text.splitOnce ':' uri.value with
    | some (scheme, _) => Text.eqIgnoreAsciiCase scheme declared.value
    | none => false
  | _, _ => false

/-- `rules::complaint_about`. -/
def complaintAbout (kind : RedirectStrategyKind) (uri : RedirectUri) : Option String :=
  if !admits kind uri then
    some (toString uri.value ++ " is " ++ toString uri.kind ++ " and the " ++ toString kind ++
      " strategy admits " ++ kind.admitted)
  else if uri.hasPathWildcard && kind != .development then
    some (toString uri.value ++ " carries a path wildcard, which the " ++ toString kind ++
      (" strategy does not admit: RFC 9700 §2.1 requires a redirect URI to be matched exactly, and " ++
        "a Universal Link or App Link needs an exact URL in any case"))
  else none

namespace RedirectStrategy

/-- `rules::first_complaint`. -/
def firstComplaint (strategy : RedirectStrategy) : Option String :=
  if strategy.uris.isEmpty then
    some "declares no redirect URI, so it could never sign a user in"
  else strategy.uris.findSome? (complaintAbout strategy.kind)

/-- `RedirectStrategy::try_new`. -/
def tryNew (kind : RedirectStrategyKind) (uris : List RedirectUri) :
    Except DesiredStateError RedirectStrategy :=
  match firstComplaint ⟨kind, uris⟩ with
  | some detail => .error (.invalidField "spec.identity.clients" detail)
  | none => .ok ⟨kind, uris⟩

/-- A strategy that was built holds what it was built from, and nothing to complain of. -/
theorem tryNew_eq_ok {kind : RedirectStrategyKind} {uris : List RedirectUri}
    {strategy : RedirectStrategy} :
    tryNew kind uris = .ok strategy ↔
      strategy = ⟨kind, uris⟩ ∧ uris ≠ [] ∧ ∀ uri ∈ uris, complaintAbout kind uri = none := by
  unfold tryNew firstComplaint
  cases uris with
  | nil => simp
  | cons uri uris =>
    simp only [List.isEmpty_cons, Bool.false_eq_true, if_false]
    cases hfirst : (uri :: uris).findSome? (complaintAbout kind) with
    | some detail =>
      obtain ⟨complained, hmem, hsome⟩ := List.exists_of_findSome?_eq_some hfirst
      constructor
      · exact nofun
      · rintro ⟨-, -, hnone⟩
        exact absurd (hsome.symm.trans (hnone complained hmem)) nofun
    | none =>
      have hnone := List.findSome?_eq_none_iff.mp hfirst
      constructor
      · intro h
        exact ⟨(Except.ok.inj h).symm, List.cons_ne_nil _ _, hnone⟩
      · rintro ⟨rfl, -, -⟩
        rfl

end RedirectStrategy

/-! ## Hosts -/

/-- What `Host::try_new` decides of a string: a sequence of DNS labels. -/
def hostCheck (value : String) : Except IdentifierError Unit :=
  if value.isEmpty then .error (.empty "host")
  else if value.utf8ByteSize > 253 then .error (.tooLong "host" 253 value.utf8ByteSize)
  else
    (Text.split '.' value).forM fun label => do
      let _ ← parseDnsLabel "host" label

/-- `Host`. -/
structure Host where
  value : String
  accepted : hostCheck value = .ok ()
deriving DecidableEq

/-- `Host::try_new`. -/
def Host.tryNew (value : String) : Except IdentifierError Host :=
  match h : hostCheck value with
  | .ok () => .ok ⟨value, h⟩
  | .error error => .error error

/-! ## The callbacks of an assignment -/

/-- `PrivateNetworkScheme`. -/
inductive PrivateNetworkScheme where
  | http
  | https
deriving DecidableEq

/-- `PrivateNetworkScheme::as_str`. -/
def PrivateNetworkScheme.asStr : PrivateNetworkScheme → String
  | http => "http"
  | https => "https"

/-- A host under the private top-level domain. -/
def Host.isInternal (host : Host) : Bool := isPrivateNetwork host.value.toList

/-- `check_scheme`. -/
def checkScheme (hosts : List Host) (scheme : Option PrivateNetworkScheme) :
    Except DesiredStateError Unit :=
  let internal := !hosts.isEmpty && hosts.all Host.isInternal
  if scheme.isSome && !internal then
    .error (.invalidField "privateNetworkScheme" ("privateNetworkScheme applies only to " ++
      "a client whose hosts are all .internal; a public host is always reached over https"))
  else .ok ()

/-- `identifier`. -/
def identifierRefused (error : IdentifierError) : DesiredStateError :=
  .invalidField "applications" (toString error)

/-- `callback`. -/
def callback (value : String) : Except DesiredStateError RedirectUri :=
  (RedirectUri.tryNew value).mapError identifierRefused

/-- `PLACEHOLDER`. -/
def PLACEHOLDER : List Char := "\x7bclient\x7d".toList

/-- `domain.replace(PLACEHOLDER, client)`. -/
def substituted (domain client : String) : String :=
  String.ofList (Text.replaceSlice PLACEHOLDER client.toList 0 domain.toList)

/-- The strategy a client's hosts ask for, and the scheme of their callbacks. -/
def kindAndScheme (internal : Nat) (scheme : Option PrivateNetworkScheme) :
    Except DesiredStateError (RedirectStrategyKind × String) :=
  if internal > 0 then
    match scheme with
    | some scheme => .ok (.privateNetwork, scheme.asStr)
    | none =>
      .error (.invalidField "privateNetworkScheme" ("A client on .internal hosts declares " ++
        "privateNetworkScheme, http or https, before it can be assigned an application: an " ++
        ".internal name does not say whether its network terminates TLS, and the identity " ++
        "provider matches a callback's scheme exactly"))
  else .ok (.claimedHttps, "https")

/-- The callback on the release's own hostname template, where there is one. -/
def templateCallback (kind : RedirectStrategyKind) (client : ClientId) (domain : String) :
    Except DesiredStateError (List RedirectUri) :=
  if kind == .claimedHttps && !domain.isEmpty then
    (callback ("https://" ++ substituted domain client.value ++ "/callback")).map ([·])
  else .ok []

/-- `callbacks::redirect`. -/
def redirect (client : ClientId) (hosts : List Host) (scheme : Option PrivateNetworkScheme)
    (application domain : String) : Except DesiredStateError RedirectStrategy :=
  let internal := (hosts.filter Host.isInternal).length
  if internal > 0 && internal < hosts.length then
    .error (.invalidField "hosts" ("An assigned application follows the kind of the client's " ++
      "hosts, and these mix .internal and public hostnames: one projected client holds one " ++
      "redirect strategy, so declare only .internal hosts or only public ones"))
  else do
    checkScheme hosts scheme
    let (kind, scheme) ← kindAndScheme internal scheme
    let template ← templateCallback kind client domain
    let declared ← hosts.mapM fun host =>
      callback (scheme ++ "://" ++ host.value ++ "/" ++ application ++ "/callback")
    if (template ++ declared).isEmpty then
      .error (.invalidField "hosts" ("An assigned application requires a client hostname or " ++
        "application domain"))
    else RedirectStrategy.tryNew kind (template ++ declared)

end ClientModel
end SaasFabric
