import SaasFabric.Core.Identifier
import SaasFabric.Core.Text
import SaasFabric.Core.Value
import SaasFabric.Library.Fallible

/-!
# Who a request comes from

`fabric-identity`: the tenant and the subject a bearer token stands for.  How a token is read
to claims is a parameter, as it is in the source; which tenant the claims are bound to is not.
-/

namespace SaasFabric
namespace Identity

/-- `IdentityError`. -/
inductive IdentityError where
  | missingAuthorization
  | notBearer
  | malformedToken
  | unverifiedToken
  | expiredToken
  | tokenNotYetValid
  | missingIssuerClaim
  | unregisteredIssuer
  | missingTenantClaim (claim : String)
  | tenantClaimDisagreesWithIssuer (claim : String)
  | invalidTenantClaim (claim : String)
  | tenantHeaderPresent (header : String)
deriving DecidableEq

/-- `TenantIdentity`. -/
structure TenantIdentity where
  tenant : TenantId
  subject : String
  roles : List String
  scopes : List String
deriving DecidableEq

/-- `TenantIdentity::has_scope`. -/
def TenantIdentity.hasScope (identity : TenantIdentity) (scope : String) : Bool :=
  identity.scopes.contains scope

/-! ## Claims -/

/-- `TokenClaims`. -/
structure TokenClaims where
  claims : BTreeMap String Value

namespace TokenClaims

/-- `TokenClaims::string`. -/
def string (claims : TokenClaims) (name : String) : Option String :=
  match claims.claims[name]? with
  | some (.string text) => some text
  | _ => none

/-- `TokenClaims::string_list`. -/
def stringList (claims : TokenClaims) (name : String) : List String :=
  match claims.claims[name]? with
  | some (.array items) => items.filterMap fun item => match item with
    | .string text => some text
    | _ => none
  | some (.string joined) => Text.splitWhitespace joined
  | _ => []

end TokenClaims

/-! ## Configuration -/

/-- `TrustedIssuer`. -/
structure TrustedIssuer where
  issuer : String
  tenant : TenantId

/-- `TrustedIssuer::find`. -/
def TrustedIssuer.find (registry : List TrustedIssuer) (issuer : String) : Option TrustedIssuer :=
  registry.find? fun registration => registration.issuer == issuer

/-- `IdentityConfig`. -/
structure IdentityConfig where
  tenantClaim : String
  subjectClaim : String
  rolesClaim : String
  scopeClaim : String
  rejectTenantHeader : Bool
  trustedIssuers : List TrustedIssuer

/-- `IdentityConfig::BANNED_TENANT_HEADER`. -/
def BANNED_TENANT_HEADER : String := "x-tenant-id"

/-! ## Binding -/

/-- `registration_for`. -/
def registrationFor (config : IdentityConfig) (claims : TokenClaims) :
    Except IdentityError TrustedIssuer :=
  match claims.string "iss" with
  | none => .error .missingIssuerClaim
  | some issuer =>
      match TrustedIssuer.find config.trustedIssuers issuer with
      | none => .error .unregisteredIssuer
      | some registration => .ok registration

/-- `claimed_tenant`. -/
def claimedTenant (config : IdentityConfig) (claims : TokenClaims) :
    Except IdentityError TenantId :=
  match claims.string config.tenantClaim with
  | none => .error (.missingTenantClaim config.tenantClaim)
  | some raw => (Identifier.tryNew .tenantId raw).mapError fun _ =>
      .invalidTenantClaim config.tenantClaim

/-- `tenant_binding::bind`. -/
def bindTenant (config : IdentityConfig) (claims : TokenClaims) :
    Except IdentityError TenantId := do
  let registration ← registrationFor config claims
  let claimed ← claimedTenant config claims
  if claimed = registration.tenant then
    .ok registration.tenant
  else
    .error (.tenantClaimDisagreesWithIssuer config.tenantClaim)

/-! ## Resolution -/

/-- The headers identity is read from.  An `Authorization` that is not visible text reads as an
absent one. -/
structure Headers where
  authorization : Option String
  hasTenantHeader : Bool

/-- `extract_bearer`. -/
def extractBearer (headers : Headers) : Except IdentityError String :=
  match headers.authorization with
  | none => .error .missingAuthorization
  | some header =>
      match Text.splitOnce ' ' header with
      | none => .error .notBearer
      | some (scheme, token) =>
          if !Text.eqIgnoreAsciiCase scheme "bearer" || token.isEmpty then
            .error .notBearer
          else
            .ok token

/-- `IdentityResolver`. -/
structure IdentityResolver where
  config : IdentityConfig
  read : String → Except IdentityError TokenClaims

namespace IdentityResolver

variable (resolver : IdentityResolver)

/-- `IdentityResolver::reject_tenant_header`. -/
def rejectTenantHeader (headers : Headers) : Except IdentityError Unit :=
  if headers.hasTenantHeader && resolver.config.rejectTenantHeader then
    .error (.tenantHeaderPresent BANNED_TENANT_HEADER)
  else
    .ok ()

/-- What `resolve` makes of a token. -/
def identify (token : String) : Except IdentityError TenantIdentity := do
  let claims ← resolver.read token
  let tenant ← bindTenant resolver.config claims
  let subject := (claims.string resolver.config.subjectClaim).getD ""
  let roles := claims.stringList resolver.config.rolesClaim
  let scopes := claims.stringList resolver.config.scopeClaim
  .ok { tenant, subject, roles, scopes }

/-- `IdentityResolver::resolve`. -/
def resolve (headers : Headers) : Except IdentityError TenantIdentity := do
  resolver.rejectTenantHeader headers
  let token ← extractBearer headers
  resolver.identify token

/-- The identity a request resolves to is the one its own bearer token stands for. -/
theorem identify_of_resolve {headers : Headers} {token : String} {identity : TenantIdentity}
    (hidentity : resolver.resolve headers = .ok identity)
    (htoken : extractBearer headers = .ok token) : resolver.identify token = .ok identity := by
  unfold resolve at hidentity
  obtain ⟨-, hrest⟩ := Library.check_bind_eq_ok.mp hidentity
  rw [htoken] at hrest
  exact hrest

end IdentityResolver

end Identity
end SaasFabric
