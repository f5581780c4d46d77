import SaasFabric.DataApi.Catalog

/-!
# Who may do what

`fabric-data-api`'s `authorization/`: the scope an operation needs, which tenants also ask the
authorization service, and what exactly it is asked.
-/

namespace SaasFabric
namespace DataApi

open Identity (IdentityResolver TenantIdentity)
open Publication (OperationKind)

/-! ## The caller -/

/-- `Caller`: an identity and the credential it was read from.  Both are taken from the headers
of one request, and nothing else builds one. -/
structure Caller where
  identity : TenantIdentity
  credential : String
  resolver : IdentityResolver
  headers : Identity.Headers
  resolved : resolver.resolve headers = .ok identity
  extracted : Identity.extractBearer headers = .ok credential

/-- The subject and the tenant a caller acts as are those of the credential it shows. -/
theorem Caller.identify_credential (caller : Caller) :
    caller.resolver.identify caller.credential = .ok caller.identity :=
  caller.resolver.identify_of_resolve caller.resolved caller.extracted

/-! ## Scopes -/

/-- `required_scope`. -/
def requiredScope (operation : OperationKind) (resource : String) : String :=
  let action := if operation.isWrite then "write" else "read"
  s!"data:{resource}:{action}"

/-- `scopes_permit`. -/
def scopesPermit (identity : TenantIdentity) (operation : OperationKind) (resource : String) :
    Bool :=
  identity.hasScope (requiredScope operation resource)

/-! ## Policies -/

/-- `TenantPosture`. -/
inductive TenantPosture where
  | syntheticTrial
  | relationChecked
deriving DecidableEq

/-- `TenantAuthorization`. -/
structure TenantAuthorization where
  posture : TenantPosture
  relationResources : BTreeSet LogicalResourceName

/-- `TenantAuthorization::requires_check`. -/
def TenantAuthorization.requiresCheck (policy : TenantAuthorization)
    (resource : LogicalResourceName) : Bool :=
  policy.posture == .relationChecked && policy.relationResources.contains resource

/-- `TenantPolicies`. -/
structure TenantPolicies where
  tenants : BTreeMap TenantId TenantAuthorization

/-- `TenantPolicies::requires_check`. -/
def TenantPolicies.requiresCheck (policies : TenantPolicies) (tenant : TenantId)
    (resource : LogicalResourceName) : Bool :=
  policies.tenants[tenant]?.any fun policy => policy.requiresCheck resource

/-! ## Objects -/

namespace CheckObject

/-- `RESERVED`. -/
def RESERVED : List Char := [':', '#', '/']

/-- `MAX_ID`. -/
def MAX_ID : Nat := 255

/-- The character an object id must not contain. -/
def isRefused (c : Char) : Bool := isWhitespace c || RESERVED.contains c

/-- What `try_new` accepts as an object id. -/
def IsId (id : String) : Prop :=
  id ≠ "" ∧ id.utf8ByteSize ≤ MAX_ID ∧ ∀ c ∈ id.toList, isRefused c = false

instance : DecidablePred IsId := fun _ => inferInstanceAs (Decidable (_ ∧ _))

end CheckObject

/-- `CheckObject`: one record, as the authorization service names it. -/
structure CheckObject where
  resource : LogicalResourceName
  id : String
  isId : CheckObject.IsId id

/-- `CheckObject::try_new`. -/
def CheckObject.tryNew (resource : LogicalResourceName) (id : String) :
    Except String CheckObject :=
  if hempty : id = "" then
    .error "object id must not be empty"
  else if hlong : MAX_ID < id.utf8ByteSize then
    .error s!"object id must be at most {MAX_ID} bytes"
  else
    match hfind : id.toList.find? isRefused with
    | some bad => .error s!"object id must not contain {debugChar bad}"
    | none => .ok ⟨resource, id, hempty, not_lt.mp hlong, fun c hc => by
        simpa using List.find?_eq_none.mp hfind c hc⟩

/-- An object that could be named is the record asked for. -/
theorem CheckObject.of_tryNew {resource : LogicalResourceName} {id : String}
    {object : CheckObject} (h : CheckObject.tryNew resource id = .ok object) :
    object.resource = resource ∧ object.id = id := by
  unfold CheckObject.tryNew at h
  split at h
  · cases h
  · split at h
    · cases h
    · split at h
      · cases h
      · cases h
        exact ⟨rfl, rfl⟩

/-- `CheckTarget`. -/
inductive CheckTarget where
  | record (object : CheckObject)
  | collection (object : CollectionObject)

/-- `CheckQuestion`: there is no subject in it; the service takes the subject from the
credential the question comes with. -/
structure CheckQuestion where
  operation : OperationKind
  target : CheckTarget

/-- `CheckDecision`. -/
inductive CheckDecision where
  | allowed
  | denied
deriving DecidableEq

/-! ## The decision -/

/-- `DenialReason`. -/
inductive DenialReason where
  | missingScope
  | checkDenied
  | unnameableObject
deriving DecidableEq

/-- `Refusal`. -/
inductive Refusal where
  | denied (reason : DenialReason)
  | undecided (failure : CheckFailure)
deriving DecidableEq

/-- `DataAuthorization`: the policies, and what the authorization service answers to a
credential and a question. -/
structure DataAuthorization where
  policies : TenantPolicies
  check : String → CheckQuestion → Except CheckFailure CheckDecision

namespace DataAuthorization

/-- `DataAuthorization::target`. -/
def target (operation : OperationKind) (resource : LogicalResourceName) (key : Option String) :
    Except Refusal CheckTarget :=
  if operation.isCollectionOperation then
    match CollectionObject.tryNew resource with
    | .ok collection => .ok (.collection collection)
    | .error _ => .error (.denied .unnameableObject)
  else
    match key.bind fun key => (CheckObject.tryNew resource key).toOption with
    | some object => .ok (.record object)
    | none => .error (.denied .unnameableObject)

variable (authorization : DataAuthorization)

/-- `DataAuthorization::decide`. -/
def decide (caller : Caller) (operation : OperationKind) (resource : LogicalResourceName)
    (key : Option String) : Except Refusal Unit :=
  if !scopesPermit caller.identity operation resource.value then
    .error (.denied .missingScope)
  else if !authorization.policies.requiresCheck caller.identity.tenant resource then
    .ok ()
  else do
    let target ← target operation resource key
    match authorization.check caller.credential ⟨operation, target⟩ with
    | .ok .allowed => .ok ()
    | .ok .denied => .error (.denied .checkDenied)
    | .error failure => .error (.undecided failure)

/-- The object a question is about: the record with the key of the request, or the collection of
the resource where the operation has no record. -/
def IsTarget (operation : OperationKind) (resource : LogicalResourceName) (key : Option String) :
    CheckTarget → Prop
  | .record object => operation.isCollectionOperation = false ∧ object.resource = resource ∧
      key = some object.id
  | .collection object => operation.isCollectionOperation = true ∧ object.resource = resource

theorem isTarget_of_target {operation : OperationKind} {resource : LogicalResourceName}
    {key : Option String} {asked : CheckTarget} (h : target operation resource key = .ok asked) :
    IsTarget operation resource key asked := by
  unfold target at h
  split at h
  · rename_i hcollection
    split at h
    · rename_i collection hnew
      cases h
      exact ⟨hcollection, CollectionObject.tryNew_eq_ok.mp hnew⟩
    · cases h
  · rename_i hrecord
    split at h
    · rename_i object hnew
      cases h
      obtain ⟨key, rfl, hkey⟩ := Option.bind_eq_some_iff.mp hnew
      cases hobject : CheckObject.tryNew resource key with
      | error message => rw [hobject] at hkey; cases hkey
      | ok named =>
          rw [hobject] at hkey
          cases hkey
          obtain ⟨hresource, hid⟩ := CheckObject.of_tryNew hobject
          exact ⟨by simpa using hrecord, hresource, congrArg some hid.symm⟩
    · cases h

/-- A caller without the scope is refused before a policy is read or a question is asked. -/
theorem decide_of_missing_scope {caller : Caller} {operation : OperationKind}
    {resource : LogicalResourceName} {key : Option String}
    (h : scopesPermit caller.identity operation resource.value = false) :
    authorization.decide caller operation resource key = .error (.denied .missingScope) := by
  unfold decide
  rw [h]
  rfl

/-- What a permission rests on: the scope, and where the tenant's policy asks for it an answer
of the authorization service about the very object of the request. -/
theorem of_decide_eq_ok {caller : Caller} {operation : OperationKind}
    {resource : LogicalResourceName} {key : Option String}
    (h : authorization.decide caller operation resource key = .ok ()) :
    scopesPermit caller.identity operation resource.value = true ∧
      (authorization.policies.requiresCheck caller.identity.tenant resource = false ∨
        ∃ asked, IsTarget operation resource key asked ∧
          authorization.check caller.credential ⟨operation, asked⟩ = .ok .allowed) := by
  unfold decide at h
  split at h
  · cases h
  · rename_i hscope
    refine ⟨by simpa using hscope, ?_⟩
    split at h
    · rename_i hfree
      exact Or.inl (by simpa using hfree)
    · obtain ⟨asked, htarget, hanswer⟩ := Library.bind_eq_ok.mp h
      refine Or.inr ⟨asked, isTarget_of_target htarget, ?_⟩
      split at hanswer
      · rename_i hcheck
        exact hcheck
      · cases hanswer
      · cases hanswer

end DataAuthorization

end DataApi
end SaasFabric
