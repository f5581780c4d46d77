import SaasFabric.ClientModel.Authorization
import SaasFabric.Library.Userset

/-!
# The authorization model a declaration is written as

`fabric-fga-model`: a type of the principals, and of every declared resource a type of its
records and one of its collection.
-/

namespace SaasFabric
namespace Fga

open ClientModel
open Publication (OperationKind)

/-! ## The model -/

/-- `SCHEMA_VERSION`. -/
def SCHEMA_VERSION : String := "1.1"

/-- `Userset`. -/
abbrev Userset := Library.Userset String

/-- `RelatedType`. -/
structure RelatedType where
  name : String
deriving DecidableEq

/-- `RelationMetadata`. -/
structure RelationMetadata where
  directlyRelatedUserTypes : List RelatedType
deriving DecidableEq

/-- `Metadata`. -/
structure Metadata where
  relations : BTreeMap String RelationMetadata

/-- `TypeDefinition`. -/
structure TypeDefinition where
  name : String
  relations : BTreeMap String Userset
  metadata : Option Metadata

/-- `AuthorizationModel`. -/
structure AuthorizationModel where
  schemaVersion : String
  typeDefinitions : List TypeDefinition

/-- `AuthorizationModel::new`. -/
def AuthorizationModel.new (typeDefinitions : List TypeDefinition) : AuthorizationModel :=
  ⟨SCHEMA_VERSION, typeDefinitions⟩

/-! ## Rewrites -/

/-- `computed`. -/
def computed (relation : Relation) : Userset := .computed relation.name.value

/-- The earlier of two relations that `min_by` keeps: the first one unless another is less. -/
def lesser (least : Option Relation) (relation : Relation) : Option Relation :=
  match least with
  | none => some relation
  | some found => if compare relation.name found.name = .lt then some relation else some found

/-- `first_relation`. -/
def firstRelation (relations : List Relation) : Except DesiredStateError Relation :=
  match relations.foldl lesser none with
  | some relation => .ok relation
  | none =>
      .error (.invalidField "spec.authorization.resources[].relations"
        "a resource with no relations has no model")

/-- `permitted_by`: an operation that nothing permits is held by nobody. -/
def permittedBy (relations : List Relation) (first : Relation) (operation : OperationKind) :
    Userset :=
  match (relations.filter (·.permitsOperation operation)).map computed with
  | [] => .difference (computed first) (computed first)
  | [granting] => granting
  | granting => .union granting

/-! ## Translation -/

/-- `insert`. -/
def insert (relations : BTreeMap String Userset) (name : String) (userset : Userset) :
    Except DesiredStateError (BTreeMap String Userset) :=
  if relations.contains name then
    .error (.duplicate "spec.authorization.resources[].relations" name)
  else
    .ok (relations.insert name userset)

/-- What may be related directly: a principal. -/
def directMetadata : RelationMetadata := ⟨[⟨PRINCIPAL_TYPE⟩]⟩

/-- `object_type`. -/
def objectType (name : String) (declared : ResourceAuthorization) (collection : Bool) :
    Except DesiredStateError TypeDefinition := do
  let first ← firstRelation declared.relations
  let (relations, direct) ← declared.relations.foldlM
    (fun (relations, direct) relation => do
      let relations ← insert relations relation.name.value .direct
      .ok (relations, direct.insert relation.name.value directMetadata))
    ((∅ : BTreeMap String Userset), (∅ : BTreeMap String RelationMetadata))
  let relations ← OperationKind.ALL.foldlM
    (fun relations operation =>
      if operation.isCollectionOperation == collection then
        insert relations operation.computedRelation (permittedBy declared.relations first operation)
      else
        .ok relations) relations
  .ok { name, relations, metadata := some ⟨direct⟩ }

/-- The types of one declared resource. -/
def resourceTypes (declared : ResourceAuthorization) :
    Except DesiredStateError (List TypeDefinition) := do
  let collection ← (CollectionObject.tryNew declared.resource).mapError fun error =>
    .invalidField "spec.authorization.resources[].resource" (toString error)
  let record ← objectType declared.resource.value declared false
  let collectionType ← objectType collection.typeName declared true
  .ok [record, collectionType]

/-- The principal type. -/
def principalType : TypeDefinition := ⟨PRINCIPAL_TYPE, ∅, none⟩

/-- `authorization_model`. -/
def authorizationModel (configuration : AuthorizationConfiguration) :
    Except DesiredStateError (Option AuthorizationModel) := do
  configuration.validate
  if configuration.isEmpty then
    .ok none
  else do
    let types ← configuration.resources.foldlM
      (fun types declared => do
        let both ← resourceTypes declared
        .ok (types ++ both)) [principalType]
    Library.eachOnce TypeDefinition.name
      (fun duplicate =>
        .duplicate "spec.authorization.resources[].resource" duplicate.name)
      (fun _ => .ok ()) [] types
    .ok (some (AuthorizationModel.new types))

end Fga
end SaasFabric
