import SaasFabric.ClientModel.IpLiteral
import SaasFabric.Core.Identifier

/-!
# Redirect URIs

`identity/redirect_uri.rs` and its modules: where an application client may be sent back to, and
which kind of callback a URI is.  A slice of text is the list of its characters; a host is
measured once it is known to be ASCII, where a byte is a character.
-/

namespace SaasFabric
namespace ClientModel

/-- `KIND` of the parser and of everything it asks. -/
def REDIRECT_URI : String := "redirect uri"

/-- The refusal of a value outside a boundary. -/
def unadmitted (expected : String) : IdentifierError := .unadmitted REDIRECT_URI expected

/-- `RedirectUriKind`. -/
inductive RedirectUriKind where
  | privateUseScheme
  | loopback
  | privateNetwork
  | https
deriving DecidableEq

instance : ToString RedirectUriKind where
  toString
    | .privateUseScheme => "a private-use scheme callback"
    | .loopback => "a loopback callback"
    | .privateNetwork => "a private-network callback"
    | .https => "a public https callback"

/-! ## The authority -/

/-- `authority::of`. -/
def authorityOf (rest : List Char) : List Char :=
  rest.takeWhile fun c => c != '/' && c != '?' && c != '#'

/-- `str::split_once`, on a slice. -/
def splitOnceAt (separator : Char) (text : List Char) : Option (List Char × List Char) :=
  match text.dropWhile (· != separator) with
  | [] => none
  | _ :: after => some (text.takeWhile (· != separator), after)

/-- `str::strip_prefix` of a character, on a slice. -/
def stripPrefix (first : Char) : List Char → Option (List Char)
  | [] => none
  | c :: rest => if c = first then some rest else none

/-- `authority::host_and_port`. -/
def hostAndPort (authority : List Char) : List Char × Option (List Char) :=
  match stripPrefix '[' authority with
  | some inside =>
    match splitOnceAt ']' inside with
    | some (host, after) => (host, stripPrefix ':' after)
    | none => (inside, none)
  | none =>
    match splitOnceAt ':' authority with
    | some (host, port) => (host, some port)
    | none => (authority, none)

/-- `authority::host`. -/
def hostOf (authority : List Char) : List Char := (hostAndPort authority).1

/-- `value.split_once("://")`, the part after it. -/
def afterScheme : List Char → Option (List Char)
  | [] => none
  | c :: rest => if "://".toList.isPrefixOf (c :: rest) then some (rest.drop 2) else afterScheme rest

/-- `has_wildcard_in_port_position`. -/
def hasWildcardInPortPosition (value : List Char) : Bool :=
  match afterScheme value with
  | none => false
  | some rest => (hostAndPort (authorityOf rest)).2 == some ['*']

/-- `reject_userinfo`. -/
def rejectUserinfo (authority : List Char) : Except IdentifierError Unit :=
  if authority.contains '@' then
    .error (unadmitted ("no userinfo in the authority — a redirect URI has no legitimate use for " ++
      "credentials"))
  else .ok ()

/-- `reject_brackets`. -/
def rejectBrackets (authority : List Char) : Except IdentifierError Unit :=
  match stripPrefix '[' authority with
  | none => .ok ()
  | some inside =>
    let wellFormed := match splitOnceAt ']' inside with
      | some (literal, after) =>
        literal.contains ':' && !literal.contains '%' &&
          (after.isEmpty || after.head? == some ':')
      | none => false
    if wellFormed then .ok ()
    else
      .error (unadmitted ("a bracketed authority closed with ], holding an IPv6 address literal " ++
        "and no zone id, followed by a port or nothing"))

/-! ## The characters -/

/-- The loop of `characters::check`. -/
def checkCharacters : List Char → Except IdentifierError Unit
  | [] => .ok ()
  | character :: rest =>
    let misplacedWildcard := character == '*' && !rest.isEmpty
    if isWhitespace character || isControl character || misplacedWildcard then
      .error (.disallowedCharacter REDIRECT_URI character
        "no spaces or control characters, and a wildcard only as the final character")
    else checkCharacters rest

/-- `characters::check`. -/
def charactersCheck (value : List Char) : Except IdentifierError Unit :=
  if hasWildcardInPortPosition value then
    .error (unadmitted ("a port, or none: a wildcard port is a spelling no identity provider " ++
      "matches — over http a loopback callback registered without a port already matches any port"))
  else checkCharacters value

/-! ## Private-use schemes -/

/-- `AppScheme::check`. -/
def appSchemeCheck (value : List Char) : Except IdentifierError Unit :=
  match value with
  | [] => .error (.empty "app scheme")
  | first :: characters =>
    if !first.isLower then .error (.badBoundary "app scheme")
    else
      match characters.find? fun c =>
        !(c.isLower || c.isDigit || c == '+' || c == '-' || c == '.') with
      | some character =>
        .error (.disallowedCharacter "app scheme" character
          "a reverse-domain scheme such as nz.fieldstate.slipway")
      | none =>
        if !((value.splitOn '.').drop 1).any (!·.isEmpty) then
          .error (.unadmitted "app scheme" "a reverse-domain scheme such as nz.fieldstate.slipway")
        else .ok ()

theorem toLower_of_isUpper_eq_false {c : Char} (h : c.isUpper = false) : c.toLower = c := by
  unfold Char.toLower
  split
  · next hupper => exact absurd h (by simpa [Text.isUpper_eq] using hupper)
  · rfl

theorem isUpper_of_isLower {c : Char} (h : c.isLower = true) : c.isUpper = false := by
  have hbounds : ('Z' : Char).val.toNat = 90 ∧ ('a' : Char).val.toNat = 97 := by decide
  simp only [Text.isLower_eq, Text.isUpper_eq, Bool.and_eq_true, decide_eq_true_eq,
    decide_eq_false_iff_not, UInt32.le_iff_toNat_le] at h ⊢
  omega

theorem isUpper_of_isDigit {c : Char} (h : c.isDigit = true) : c.isUpper = false := by
  have hbounds : ('A' : Char).val.toNat = 65 ∧ ('9' : Char).val.toNat = 57 := by decide
  simp only [Char.isDigit, Text.isUpper_eq, Bool.and_eq_true, decide_eq_true_eq,
    decide_eq_false_iff_not, UInt32.le_iff_toNat_le] at h ⊢
  omega

/-- `is_private_use`. -/
def isPrivateUse (scheme rest : List Char) : Except IdentifierError Bool :=
  match appSchemeCheck scheme with
  | .error _ => .ok false
  | .ok _ =>
    if rest.head?.any Char.isDigit then
      .error (unadmitted ("either a private-use callback whose path starts with a slash, as in " ++
        "nz.fieldstate.slipway:/cb, or a host written with its scheme, as in " ++
        "https://www.example.com:8080/cb — a digit straight after the colon reads as a port, which " ++
        "makes what precedes it a host"))
    else .ok true

/-! ## The host -/

/-- `LOOPBACK`. -/
def LOOPBACK : List (List Char) := ["localhost".toList, "127.0.0.1".toList, "::1".toList]

/-- `is_private_network`. -/
def isPrivateNetwork (host : List Char) : Bool :=
  host == "internal".toList || ".internal".toList.isSuffixOf host

/-- `special_use::RESERVED`. -/
def RESERVED : List (String × String) :=
  [("local", ("a registered domain — .local is reserved for multicast DNS by RFC 6762 and can " ++
      "never be registered, so a callback on it can be claimed as neither a Universal Link nor an " ++
      "App Link")),
    ("test", ("a registered domain — .test is reserved for testing by RFC 2606 and can never be " ++
      "registered, so a callback on it can be claimed as neither a Universal Link nor an App Link")),
    ("example", ("a registered domain — .example is reserved for documentation by RFC 2606 and can " ++
      "never be registered, so a callback on it can be claimed as neither a Universal Link nor an " ++
      "App Link")),
    ("invalid", ("a registered domain — .invalid is reserved by RFC 2606 for names guaranteed not " ++
      "to resolve, so a callback on it can be claimed as neither a Universal Link nor an App Link"))]

/-- A host that is a top-level domain or sits under it. -/
def isUnder (tld host : List Char) : Bool :=
  host == tld || ('.' :: tld).isSuffixOf host

/-- `special_use::check`. -/
def specialUseCheck (host : List Char) : Except IdentifierError Unit :=
  match RESERVED.find? fun reserved => isUnder reserved.1.toList host with
  | some (_, expected) => .error (unadmitted expected)
  | none => .ok ()

/-- `special_use::reaches_localhost`. -/
def reachesLocalhost (host : List Char) : Bool := ".localhost".toList.isSuffixOf host

/-- `reaches_loopback`. -/
def reachesLoopback (host : List Char) : Bool :=
  match ipParse host with
  | some address => isLoopback address
  | none => "localhost.".toList.isPrefixOf host || reachesLocalhost host

/-- `is_host_character`. -/
def isHostCharacter (character : Char) : Bool :=
  character.isLower || character.isDigit || character == '-'

/-- `label::check`. -/
def labelCheck (label : List Char) : Except IdentifierError Unit :=
  if label.length > 63 then
    .error (unadmitted "a registered domain whose labels are at most 63 characters")
  else
    match label.find? fun character => !isHostCharacter character with
    | some character =>
      .error (.disallowedCharacter REDIRECT_URI character
        ("a registered domain, whose labels are letters, digits and hyphens — not brackets, " ++
          "underscores or percent signs"))
    | none =>
      if label.head? == some '-' || label.getLast? == some '-' then
        .error (unadmitted "a registered domain whose labels neither start nor end with a hyphen")
      else .ok ()

/-- `ends_in_a_number`. -/
def endsInANumber (label : List Char) : Bool :=
  "0x".toList.isPrefixOf label || (!label.isEmpty && label.all Char.isDigit)

/-- `registered_domain::check`. -/
def registeredDomainCheck (host : List Char) : Except IdentifierError Unit :=
  if !host.all fun c => c.toNat < 128 then
    .error (unadmitted ("a registered domain in A-label form — an internationalised callback is " ++
      "written as its xn-- encoding, because that is the name the browser resolves and the name an " ++
      "App Link is claimed against"))
  else if host.contains ':' then
    .error (unadmitted "a registered domain, not an IP address")
  else if host.length > 253 then
    .error (unadmitted "a registered domain of at most 253 characters")
  else if (host.splitOn '.').length < 2 then
    .error (unadmitted ("a registered domain of at least two labels — a single-label name is " ++
      "whatever this network's resolver decides it is, which is not something an entitlement can " ++
      "be stated against"))
  else do
    (host.splitOn '.').forM labelCheck
    if (host.splitOn '.').getLast?.any endsInANumber then
      .error (unadmitted ("a registered domain, not an address — a final label that is all digits, " ++
        "or that begins 0x, is what makes a host an IPv4 candidate rather than a name to resolve"))
    else .ok ()

/-- `host_kind::classify`. -/
def hostClassify (host : List Char) (secure : Bool) : Except IdentifierError RedirectUriKind :=
  if (host.splitOn '.').any List.isEmpty then
    .error (unadmitted "a host, not an empty string or an empty label between two dots")
  else if LOOPBACK.contains host then .ok .loopback
  else if reachesLoopback host then
    .error (unadmitted "loopback is 127.0.0.1, ::1 or localhost, and no other spelling of them")
  else if isPrivateNetwork host then .ok .privateNetwork
  else if !secure then
    .error (unadmitted "https for a public host; plain http only on loopback or a .internal host")
  else do
    specialUseCheck host
    registeredDomainCheck host
    return .https

/-! ## The URI -/

/-- What an author is told of a scheme that is not classified. -/
def schemeRefused : IdentifierError :=
  unadmitted "https, http, or a private-use scheme in reverse-domain form"

/-- `kind::classify`, past the scheme. -/
def classifyAuthority (rest : List Char) (secure : Bool) :
    Except IdentifierError RedirectUriKind :=
  match (stripPrefix '/' rest).bind (stripPrefix '/') with
  | none => .error (unadmitted "an authority after the scheme, as in https://host/path")
  | some rest => do
    let authority := authorityOf rest
    rejectUserinfo authority
    rejectBrackets authority
    hostClassify ((hostOf authority).map Char.toLower) secure

/-- `kind::classify`. -/
def classify (value : List Char) : Except IdentifierError RedirectUriKind :=
  match splitOnceAt ':' value with
  | none => .error schemeRefused
  | some (scheme, rest) => do
    let scheme := scheme.map Char.toLower
    let native ← isPrivateUse scheme rest
    if native then .ok .privateUseScheme
    else
      let secure := scheme == "https".toList
      if !secure && scheme != "http".toList then .error schemeRefused
      else classifyAuthority rest secure

/-- What `RedirectUri::try_new` decides of a string. -/
def redirectUriKind (value : String) : Except IdentifierError RedirectUriKind :=
  if value.isEmpty then .error (.empty REDIRECT_URI)
  else if value.utf8ByteSize > 512 then .error (.tooLong REDIRECT_URI 512 value.utf8ByteSize)
  else do
    let kind ← classify value.toList
    charactersCheck value.toList
    .ok kind

/-- `RedirectUri`: a URI the parser accepted, with the kind it decided. -/
structure RedirectUri where
  value : String
  kind : RedirectUriKind
  accepted : redirectUriKind value = .ok kind
deriving DecidableEq

/-- `RedirectUri::try_new`. -/
def RedirectUri.tryNew (value : String) : Except IdentifierError RedirectUri :=
  match h : redirectUriKind value with
  | .ok kind => .ok ⟨value, kind, h⟩
  | .error error => .error error

/-- `RedirectUri::has_path_wildcard`. -/
def RedirectUri.hasPathWildcard (uri : RedirectUri) : Bool :=
  uri.value.toList.getLast? == some '*'

/-- A URI is its own text, parsed. -/
theorem RedirectUri.tryNew_of_kind {value : String} {kind : RedirectUriKind}
    (h : redirectUriKind value = .ok kind) : RedirectUri.tryNew value = .ok ⟨value, kind, h⟩ := by
  unfold tryNew
  split
  · next other hother =>
    have hkind : other = kind := Except.ok.inj (hother.symm.trans h)
    subst hkind
    rfl
  · next error herror => exact absurd (herror.symm.trans h) nofun

example : (RedirectUri.tryNew "http://[::1]:5173/callback").toOption.map (·.kind) =
    some .loopback := by decide +kernel

example : (RedirectUri.tryNew "https://*.example.com/callback").toOption.isNone := by
  decide +kernel

end ClientModel
end SaasFabric
