import SaasFabric.ClientModel.Errors
import SaasFabric.Library.Distinct
import SaasFabric.Publication.Document

/-!
# What a client declares of its authorization

`fabric-client-model`'s `authorization/`, with the names of `fabric-core` that it shares with
the runtime: resources, the relations somebody can hold on one, and what each relation
permits.
-/

namespace SaasFabric

open Publication (OperationKind)

/-! ## Operations -/

namespace Publication.OperationKind

/-- `OperationKind::ALL`. -/
def ALL : List OperationKind := [.read, .list, .create, .update, .delete]

theorem mem_ALL (operation : OperationKind) : operation ∈ ALL := by
  cases operation <;> decide

/-- `OperationKind::as_str`. -/
def asStr : OperationKind → String
  | .read => "read"
  | .list => "list"
  | .create => "create"
  | .update => "update"
  | .delete => "delete"

/-- `OperationKind::is_collection_operation`. -/
def isCollectionOperation : OperationKind → Bool
  | .list | .create => true
  | .read | .update | .delete => false

/-- `OperationKind::computed_relation`. -/
def computedRelation : OperationKind → String
  | .read => "can_read"
  | .list => "can_list"
  | .create => "can_create"
  | .update => "can_update"
  | .delete => "can_delete"

theorem computedRelation_injective : Function.Injective computedRelation := by
  intro first second h
  cases first <;> cases second <;> first | rfl | exact absurd h (by decide)

end Publication.OperationKind

/-! ## Names in an authorization model -/

/-- `authorization_names::PRINCIPAL_TYPE`. -/
def PRINCIPAL_TYPE : String := "user"

/-- `authorization_names::SERVICE_RESERVED`. -/
def SERVICE_RESERVED : List String := ["self", "this"]

namespace CollectionObject

/-- `TYPE_SUFFIX`. -/
def TYPE_SUFFIX : String := "_collection"

/-- `CollectionObject::KIND`. -/
def KIND : String := "resource name with a collection"

/-- `CollectionObject::MAX_RESOURCE_LENGTH`. -/
def MAX_RESOURCE_LENGTH : Nat := MAX_LENGTH - TYPE_SUFFIX.utf8ByteSize

end CollectionObject

/-- `CollectionObject`: a resource whose collection has a name. -/
structure CollectionObject where
  resource : LogicalResourceName
  nameable : resource.value.utf8ByteSize ≤ CollectionObject.MAX_RESOURCE_LENGTH

namespace CollectionObject

/-- `CollectionObject::try_new`. -/
def tryNew (resource : LogicalResourceName) : Except IdentifierError CollectionObject :=
  if h : MAX_RESOURCE_LENGTH < resource.value.utf8ByteSize then
    .error (.tooLong KIND MAX_RESOURCE_LENGTH resource.value.utf8ByteSize)
  else
    .ok ⟨resource, not_lt.mp h⟩

/-- `CollectionObject::type_name`. -/
def typeName (collection : CollectionObject) : String := s!"{collection.resource}{TYPE_SUFFIX}"

/-- `CollectionObject::collides_with`. -/
def collidesWith (collection : CollectionObject) (resource : LogicalResourceName) : Bool :=
  collection.typeName == resource.value

theorem tryNew_eq_ok {resource : LogicalResourceName} {collection : CollectionObject} :
    tryNew resource = .ok collection ↔ collection.resource = resource := by
  unfold tryNew
  constructor
  · intro h
    split at h
    · cases h
    · cases h
      rfl
  · rintro rfl
    rw [dif_neg (not_lt.mpr collection.nameable)]

end CollectionObject

namespace ClientModel

/-! ## The declaration -/

/-- `Relation`. -/
structure Relation where
  name : RelationName
  permits : List OperationKind
deriving DecidableEq

/-- `ResourceAuthorization`. -/
structure ResourceAuthorization where
  resource : LogicalResourceName
  relations : List Relation
deriving DecidableEq

/-- `AuthorizationConfiguration`. -/
structure AuthorizationConfiguration where
  resources : List ResourceAuthorization
deriving DecidableEq

/-- `AuthorizationConfiguration::is_empty`. -/
def AuthorizationConfiguration.isEmpty (configuration : AuthorizationConfiguration) : Bool :=
  configuration.resources.isEmpty

namespace Relation

/-- `Relation::permits`. -/
def permitsOperation (relation : Relation) (operation : OperationKind) : Bool :=
  relation.permits.contains operation

/-- `Relation::check_name_is_not_reserved`. -/
def checkNameIsNotReserved (relation : Relation) (resource : String) :
    Except DesiredStateError Unit :=
  let name := relation.name.value
  let reserved := " and ".intercalate SERVICE_RESERVED
  let computed := OperationKind.ALL.any fun operation => operation.computedRelation == name
  if computed || SERVICE_RESERVED.contains name then
    .error (.invalidField "spec.authorization.resources[].relations[].name"
      (s!"{resource}/{name} is reserved in the authorization model (can_<operation> " ++
        s!"is what an operation is asked as; {reserved} are the " ++
        "service's own); declare a noun such as viewer or editor and list what it permits"))
  else
    .ok ()

/-- `Relation::check`. -/
def check (relation : Relation) (resource : String) : Except DesiredStateError Unit := do
  relation.checkNameIsNotReserved resource
  if relation.permits.isEmpty then
    .error (.invalidField "spec.authorization.resources[].relations[].permits"
      (s!"{resource}/{relation.name} permits no operation; a relation that grants nothing is " ++
        "more likely a half-finished edit than an intention"))
  else
    Library.eachOnce id
      (fun operation => .duplicate "spec.authorization.resources[].relations[].permits"
        operation.asStr) (fun _ => .ok ()) [] relation.permits

end Relation

namespace ResourceAuthorization

/-- `ResourceAuthorization::check_name_is_not_reserved`. -/
def checkNameIsNotReserved (declared : ResourceAuthorization) : Except DesiredStateError Unit :=
  let name := declared.resource.value
  let reserved := " and ".intercalate SERVICE_RESERVED
  if name == PRINCIPAL_TYPE || SERVICE_RESERVED.contains name then
    .error (.invalidField "spec.authorization.resources[].resource"
      (s!"{name} is reserved in the authorization model ({PRINCIPAL_TYPE} is the " ++
        s!"principal type; {reserved} are the service's own); " ++
        "a resource declaring relations must be named something else"))
  else
    .ok ()

/-- `ResourceAuthorization::check_collection_is_nameable`. -/
def checkCollectionIsNameable (declared : ResourceAuthorization) : Except DesiredStateError Unit :=
  match CollectionObject.tryNew declared.resource with
  | .ok _ => .ok ()
  | .error error =>
      .error (.invalidField "spec.authorization.resources[].resource"
        (s!"{declared.resource} has no collection the authorization model can name, so nobody " ++
          s!"could ever be permitted to list or create it: {error}"))

/-- `ResourceAuthorization::check`. -/
def check (declared : ResourceAuthorization) : Except DesiredStateError Unit := do
  declared.checkNameIsNotReserved
  declared.checkCollectionIsNameable
  if declared.relations.isEmpty then
    .error (.invalidField "spec.authorization.resources[].relations"
      (s!"{declared.resource} declares no relations; a resource nobody can be related to " ++
        "is unreachable, so it is refused rather than reconciled"))
  else
    Library.eachOnce Relation.name
      (fun relation => .duplicate "spec.authorization.resources[].relations" relation.name.value)
      (fun relation => relation.check declared.resource.value) [] declared.relations

end ResourceAuthorization

namespace AuthorizationConfiguration

/-- `AuthorizationConfiguration::check_resources_are_unique`. -/
def checkResourcesAreUnique (configuration : AuthorizationConfiguration) :
    Except DesiredStateError Unit :=
  Library.eachOnce ResourceAuthorization.resource
    (fun declared => .duplicate "spec.authorization.resources" declared.resource.value)
    (fun _ => .ok ()) [] configuration.resources

/-- The collision of one declared resource's collection with another resource. -/
def checkCollection (configuration : AuthorizationConfiguration)
    (declared : ResourceAuthorization) : Except DesiredStateError Unit :=
  match CollectionObject.tryNew declared.resource with
  | .error _ => .ok ()
  | .ok collection =>
      match configuration.resources.find? fun other => collection.collidesWith other.resource with
      | none => .ok ()
      | some other =>
          .error (.invalidField "spec.authorization.resources[].resource"
            (s!"{other.resource} is spelled like the collection of {declared.resource}, " ++
              s!"which the authorization model names {collection.typeName}; " ++
              "one of the two must be renamed"))

/-- `AuthorizationConfiguration::check_collections_are_distinct`. -/
def checkCollectionsAreDistinct (configuration : AuthorizationConfiguration) :
    Except DesiredStateError Unit :=
  configuration.resources.forM configuration.checkCollection

/-- `AuthorizationConfiguration::validate`. -/
def validate (configuration : AuthorizationConfiguration) : Except DesiredStateError Unit := do
  configuration.checkResourcesAreUnique
  configuration.resources.forM ResourceAuthorization.check
  configuration.checkCollectionsAreDistinct

end AuthorizationConfiguration

/-! ## What validation asks -/

/-- A relation's name is its own, and it permits something, each operation once. -/
structure Relation.Declarable (relation : Relation) : Prop where
  notComputed : ∀ operation : OperationKind, relation.name.value ≠ operation.computedRelation
  notReserved : relation.name.value ∉ SERVICE_RESERVED
  permits : relation.permits ≠ []
  once : relation.permits.Nodup

theorem Relation.check_eq_ok {relation : Relation} {resource : String} :
    relation.check resource = .ok () ↔ relation.Declarable := by
  have hname : relation.checkNameIsNotReserved resource = .ok () ↔
      (∀ operation : OperationKind, relation.name.value ≠ operation.computedRelation) ∧
        relation.name.value ∉ SERVICE_RESERVED := by
    unfold Relation.checkNameIsNotReserved
    dsimp only
    split
    · rename_i hreserved
      refine ⟨(fun h => nomatch h), fun ⟨hcomputed, hnot⟩ => absurd hreserved ?_⟩
      simp only [Bool.or_eq_true, List.any_eq_true, beq_iff_eq, List.contains_iff_mem, not_or,
        not_exists, not_and]
      exact ⟨fun operation _ h => hcomputed operation h.symm, hnot⟩
    · rename_i hfree
      simp only [Bool.or_eq_true, List.any_eq_true, beq_iff_eq, List.contains_iff_mem, not_or,
        not_exists, not_and] at hfree
      exact ⟨fun _ => ⟨fun operation h => hfree.1 operation operation.mem_ALL h.symm, hfree.2⟩,
        fun _ => rfl⟩
  unfold Relation.check
  rw [Library.check_bind_eq_ok]
  constructor
  · rintro ⟨hreserved, hrest⟩
    obtain ⟨hcomputed, hnot⟩ := hname.mp hreserved
    split at hrest
    · cases hrest
    · rename_i hsome
      have honce := (Library.eachOnce_nil_eq_ok.mp hrest).2
      rw [List.map_id] at honce
      exact ⟨hcomputed, hnot, fun h => hsome (List.isEmpty_iff.mpr h), honce⟩
  · intro h
    refine ⟨hname.mpr ⟨h.notComputed, h.notReserved⟩, ?_⟩
    rw [if_neg fun hempty => h.permits (List.isEmpty_iff.mp hempty)]
    exact Library.eachOnce_nil_eq_ok.mpr ⟨fun _ _ => rfl, by rw [List.map_id]; exact h.once⟩

/-- A resource has a name of its own and a collection, and relations that are told apart. -/
structure ResourceAuthorization.Declarable (declared : ResourceAuthorization) : Prop where
  notPrincipal : declared.resource.value ≠ PRINCIPAL_TYPE
  notReserved : declared.resource.value ∉ SERVICE_RESERVED
  nameable : declared.resource.value.utf8ByteSize ≤ CollectionObject.MAX_RESOURCE_LENGTH
  relations : declared.relations ≠ []
  apart : (declared.relations.map Relation.name).Nodup
  each : ∀ relation ∈ declared.relations, relation.Declarable

theorem ResourceAuthorization.check_eq_ok {declared : ResourceAuthorization} :
    declared.check = .ok () ↔ declared.Declarable := by
  have hname : declared.checkNameIsNotReserved = .ok () ↔
      declared.resource.value ≠ PRINCIPAL_TYPE ∧ declared.resource.value ∉ SERVICE_RESERVED := by
    unfold ResourceAuthorization.checkNameIsNotReserved
    dsimp only
    split <;> rename_i hreserved <;>
      simp only [Bool.or_eq_true, beq_iff_eq, List.contains_iff_mem, not_or] at hreserved
    · exact ⟨(fun h => nomatch h), fun h => absurd hreserved (by simpa using h)⟩
    · exact ⟨fun _ => hreserved, fun _ => rfl⟩
  have hcollection : declared.checkCollectionIsNameable = .ok () ↔
      declared.resource.value.utf8ByteSize ≤ CollectionObject.MAX_RESOURCE_LENGTH := by
    unfold ResourceAuthorization.checkCollectionIsNameable CollectionObject.tryNew
    by_cases hlong : CollectionObject.MAX_RESOURCE_LENGTH < declared.resource.value.utf8ByteSize
    · rw [dif_pos hlong]
      exact ⟨(fun h => nomatch h), fun h => absurd hlong (not_lt.mpr h)⟩
    · rw [dif_neg hlong]
      exact ⟨fun _ => not_lt.mp hlong, fun _ => rfl⟩
  unfold ResourceAuthorization.check
  simp only [Library.check_bind_eq_ok, hname, hcollection]
  constructor
  · rintro ⟨⟨hprincipal, hreserved⟩, hnameable, hrest⟩
    split at hrest
    · cases hrest
    · rename_i hsome
      obtain ⟨heach, hapart⟩ := Library.eachOnce_nil_eq_ok.mp hrest
      exact ⟨hprincipal, hreserved, hnameable, fun h => hsome (List.isEmpty_iff.mpr h), hapart,
        fun relation hrelation => Relation.check_eq_ok.mp (heach relation hrelation)⟩
  · intro h
    refine ⟨⟨h.notPrincipal, h.notReserved⟩, h.nameable, ?_⟩
    rw [if_neg fun hempty => h.relations (List.isEmpty_iff.mp hempty)]
    exact Library.eachOnce_nil_eq_ok.mpr
      ⟨fun relation hrelation => Relation.check_eq_ok.mpr (h.each relation hrelation), h.apart⟩

/-- What is declared can be told apart in one authorization model. -/
structure AuthorizationConfiguration.Declarable (configuration : AuthorizationConfiguration) :
    Prop where
  apart : (configuration.resources.map ResourceAuthorization.resource).Nodup
  each : ∀ declared ∈ configuration.resources, declared.Declarable
  collections : ∀ declared ∈ configuration.resources, ∀ other ∈ configuration.resources,
    other.resource.value ≠ declared.resource.value ++ CollectionObject.TYPE_SUFFIX

theorem AuthorizationConfiguration.checkCollection_eq_ok
    {configuration : AuthorizationConfiguration} {declared : ResourceAuthorization}
    (h : declared.Declarable) : configuration.checkCollection declared = .ok () ↔
      ∀ other ∈ configuration.resources,
        other.resource.value ≠ declared.resource.value ++ CollectionObject.TYPE_SUFFIX := by
  have hcollection : CollectionObject.tryNew declared.resource =
      .ok ⟨declared.resource, h.nameable⟩ := CollectionObject.tryNew_eq_ok.mpr rfl
  unfold AuthorizationConfiguration.checkCollection
  rw [hcollection]
  dsimp only
  cases hfound : configuration.resources.find? fun other =>
      CollectionObject.collidesWith ⟨declared.resource, h.nameable⟩ other.resource with
  | some other =>
      refine ⟨(fun h => nomatch h), fun hnone => ?_⟩
      have hcollides := List.find?_some hfound
      exact absurd (beq_iff_eq.mp hcollides).symm
        (hnone other (List.mem_of_find?_eq_some hfound))
  | none =>
      refine ⟨fun _ other hother heq => ?_, fun _ => rfl⟩
      have hnot := List.find?_eq_none.mp hfound other hother
      exact hnot (beq_iff_eq.mpr heq.symm)

/-- A configuration is valid exactly where it can be told apart. -/
theorem AuthorizationConfiguration.validate_eq_ok {configuration : AuthorizationConfiguration} :
    configuration.validate = .ok () ↔ configuration.Declarable := by
  unfold AuthorizationConfiguration.validate
  simp only [Library.check_bind_eq_ok, Library.forM_eq_ok, ResourceAuthorization.check_eq_ok,
    checkResourcesAreUnique, checkCollectionsAreDistinct, Library.eachOnce_nil_eq_ok]
  constructor
  · rintro ⟨⟨-, hapart⟩, heach, hcollections⟩
    exact ⟨hapart, heach, fun declared hdeclared =>
      (checkCollection_eq_ok (heach declared hdeclared)).mp (hcollections declared hdeclared)⟩
  · intro h
    exact ⟨⟨fun _ _ => trivial, h.apart⟩, h.each, fun declared hdeclared =>
      (checkCollection_eq_ok (h.each declared hdeclared)).mpr (h.collections declared hdeclared)⟩

end ClientModel
end SaasFabric
