import SaasFabric.Publication.Document

/-!
# The issuer registry

`fabric-runtime-publication`'s `registry/`: which issuer speaks for which tenant.  The
document is rendered for a generation, sorted by issuer, each issuer once.
-/

namespace SaasFabric
namespace Publication

/-! ## Issuers -/

/-- `str::split_once`, on characters. -/
def splitOnce (separator : List Char) : List Char → Option (List Char × List Char)
  | [] => if separator.isEmpty then some ([], []) else none
  | c :: rest =>
      if separator.isPrefixOf (c :: rest) then
        some ([], (c :: rest).drop separator.length)
      else
        (splitOnce separator rest).map fun split => (c :: split.1, split.2)

/-- `str::strip_prefix`, on characters. -/
def stripStart (start text : List Char) : Option (List Char) :=
  if start.isPrefixOf text then some (text.drop start.length) else none

/-- `check_origin`. -/
def checkOrigin (origin : List Char) : Except String Unit :=
  match stripStart "https://".toList origin with
  | none => .error "the scheme is not https"
  | some authority =>
      let (host, port) := match splitOnce [':'] authority with
        | some (host, port) => (host, some port)
        | none => (authority, none)
      if host.isEmpty then
        .error "the host is empty"
      else if !host.all fun c => c.isLower || c.isDigit || c == '.' || c == '-' then
        .error "the host may hold only lowercase letters, digits, '.' and '-', and no path"
      else
        match port with
        | some port =>
            if port.isEmpty || decide (5 < port.length) || !port.all Char.isDigit then
              .error "the port is not one to five digits"
            else
              .ok ()
        | none => .ok ()

/-- `check_realm`. -/
def checkRealm (realm : List Char) : Except String Unit :=
  if realm.isEmpty then
    .error "the realm is empty"
  else if realm.all fun c => isAsciiAlphanumeric c || c == '_' || c == '-' then
    .ok ()
  else
    .error "the realm may hold only letters, digits, '_' and '-'"

/-- What `RegistryIssuer::parse` says of a string. -/
def checkIssuer (value : String) : Except String Unit :=
  match splitOnce "/realms/".toList value.toList with
  | none => .error "no /realms/ segment"
  | some (origin, realm) => do
      checkOrigin origin
      checkRealm realm

/-- `RegistryIssuer`: an issuer that was parsed. -/
structure RegistryIssuer where
  value : String
  accepted : checkIssuer value = .ok ()
deriving DecidableEq

/-- `IssuerError`. -/
structure IssuerError where
  value : String
  reason : String
deriving DecidableEq

/-- `RegistryIssuer::parse`. -/
def RegistryIssuer.parse (value : String) : Except IssuerError RegistryIssuer :=
  match h : checkIssuer value with
  | .ok () => .ok ⟨value, h⟩
  | .error reason => .error ⟨value, reason⟩

instance : Ord RegistryIssuer := ⟨fun a b => compare a.value b.value⟩

instance : ToString RegistryIssuer := ⟨RegistryIssuer.value⟩

example : (RegistryIssuer.parse "https://id.example:8443/realms/acme").isOk = true := by decide

/-! ## The document -/

/-- `RegistryGeneration`: it starts at 1. -/
abbrev RegistryGeneration := { generation : U64 // 0 < generation }

namespace RegistryGeneration

/-- `RegistryGeneration::FIRST`. -/
def FIRST : RegistryGeneration := ⟨1, by decide⟩

/-- `RegistryGeneration::next`. -/
def next (generation : RegistryGeneration) : Option RegistryGeneration :=
  match h : generation.val.checkedSucc with
  | some next => some ⟨next, generation.property.trans (U64.lt_of_checkedSucc h)⟩
  | none => none

theorem lt_of_next {generation next : RegistryGeneration} (h : generation.next = some next) :
    generation < next := by
  unfold RegistryGeneration.next at h
  split at h
  · rename_i value hvalue
    cases h
    exact U64.lt_of_checkedSucc hvalue
  · cases h

end RegistryGeneration

/-- `IssuerRegistration`. -/
structure IssuerRegistration where
  issuer : RegistryIssuer
  tenant : TenantId
deriving DecidableEq

/-- `IssuerRegistration` is ordered by issuer, then by tenant. -/
instance : Ord IssuerRegistration :=
  ⟨fun a b => (compare a.issuer b.issuer).then (compare a.tenant b.tenant)⟩

/-- `REGISTRY_SCHEMA_VERSION`. -/
def REGISTRY_SCHEMA_VERSION : U32 := 1

/-- `IssuerRegistryDocument`. -/
structure IssuerRegistryDocument where
  schemaVersion : U32
  generation : RegistryGeneration
  issuers : List IssuerRegistration
deriving DecidableEq

/-- `RegistryRefusal`. -/
inductive RegistryRefusal where
  | duplicateIssuer (issuer : RegistryIssuer)
  | tenantUnbound (issuer : RegistryIssuer) (tenant : TenantId)
  | generationExhausted (held : RegistryGeneration)
  | withdrawn (held : RegistryGeneration)
deriving DecidableEq

instance : ToString RegistryRefusal where
  toString
    | .duplicateIssuer issuer => s!"issuer {issuer} is registered more than once"
    | .tenantUnbound issuer tenant =>
        s!"issuer {issuer} names tenant {tenant}, " ++
          "which this publication's tenants document does not bind"
    | .generationExhausted held =>
        s!"issuer registry generation {held} is the last; " ++
          "changed registrations cannot be given a new one"
    | .withdrawn held =>
        s!"issuer registry generation {held} is published, " ++
          "and this publication carries no registry"

/-- The first registration of an issuer that was seen before it. -/
def findDuplicate (seen : List RegistryIssuer) : List IssuerRegistration → Option RegistryIssuer
  | [] => none
  | registration :: rest =>
      if registration.issuer ∈ seen then some registration.issuer
      else findDuplicate (registration.issuer :: seen) rest

/-- `IssuerRegistryDocument::new`. -/
def IssuerRegistryDocument.new (generation : RegistryGeneration)
    (issuers : List IssuerRegistration) : Except RegistryRefusal IssuerRegistryDocument :=
  let sorted := issuers.mergeSort fun a b => (compare a b).isLE
  match findDuplicate [] sorted with
  | some issuer => .error (.duplicateIssuer issuer)
  | none => .ok { schemaVersion := REGISTRY_SCHEMA_VERSION, generation, issuers := sorted }

/-- A rendered document is of the generation it was rendered for. -/
theorem IssuerRegistryDocument.generation_new {generation : RegistryGeneration}
    {issuers : List IssuerRegistration} {document : IssuerRegistryDocument}
    (h : IssuerRegistryDocument.new generation issuers = .ok document) :
    document.generation = generation := by
  unfold IssuerRegistryDocument.new at h
  dsimp only at h
  split at h
  · cases h
  · cases h
    rfl

/-- No issuer is found again where each is named once, and none was seen before. -/
theorem findDuplicate_eq_none {seen : List RegistryIssuer} {issuers : List IssuerRegistration} :
    findDuplicate seen issuers = none ↔
      (∀ registration ∈ issuers, registration.issuer ∉ seen) ∧
        (issuers.map IssuerRegistration.issuer).Nodup := by
  induction issuers generalizing seen with
  | nil => simp [findDuplicate]
  | cons registration rest ih =>
      unfold findDuplicate
      by_cases hseen : registration.issuer ∈ seen
      · simp [hseen]
      · rw [if_neg hseen, ih, List.map_cons, List.nodup_cons, List.forall_mem_cons]
        simp only [List.mem_cons, not_or, List.mem_map, not_exists, not_and]
        constructor
        · rintro ⟨hrest, hnodup⟩
          exact ⟨⟨hseen, fun other hother => (hrest other hother).2⟩,
            fun other hother => (hrest other hother).1, hnodup⟩
        · rintro ⟨⟨-, hrest⟩, hfirst, hnodup⟩
          exact ⟨fun other hother => ⟨hfirst other hother, hrest other hother⟩, hnodup⟩

/-- What is rendered names the registrations in some order, and each issuer once. -/
theorem IssuerRegistryDocument.issuers_new {generation : RegistryGeneration}
    {issuers : List IssuerRegistration} {document : IssuerRegistryDocument}
    (h : IssuerRegistryDocument.new generation issuers = .ok document) :
    document.issuers.Perm issuers ∧
      (document.issuers.map IssuerRegistration.issuer).Nodup := by
  unfold IssuerRegistryDocument.new at h
  dsimp only at h
  split at h
  · cases h
  · rename_i hnone
    cases h
    exact ⟨List.mergeSort_perm _ _, (findDuplicate_eq_none.mp hnone).2⟩

/-- `RecordedRegistry`. -/
structure RecordedRegistry where
  generation : RegistryGeneration
  sha256 : String
deriving DecidableEq

end Publication
end SaasFabric
