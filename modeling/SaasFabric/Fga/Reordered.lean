import SaasFabric.Fga.Grants
import SaasFabric.Library.Permuted

/-!
# A declaration in another order

Resources, relations and permissions are lists, and a model is written in their order: its
types, and what a union is of.  Nothing else depends on it, and nothing that is granted.
-/

namespace SaasFabric
namespace Fga

open ClientModel
open Publication (OperationKind)
open Library (PermutedBy)

/-! ## The same declaration -/

/-- A relation that permits the same operations, in another order. -/
def SameRelation (relation other : Relation) : Prop :=
  relation.name = other.name ∧ relation.permits.Perm other.permits

/-- A resource that declares the same relations, in another order. -/
def SameResource (declared other : ResourceAuthorization) : Prop :=
  declared.resource = other.resource ∧
    PermutedBy SameRelation declared.relations other.relations

/-- The same declaration, in another order. -/
def SameDeclaration (configuration other : AuthorizationConfiguration) : Prop :=
  PermutedBy SameResource configuration.resources other.resources

theorem SameRelation.permitsOperation {relation other : Relation} (h : SameRelation relation other)
    (operation : OperationKind) :
    relation.permitsOperation operation = other.permitsOperation operation := by
  unfold Relation.permitsOperation
  rw [Bool.eq_iff_iff, List.contains_iff_mem, List.contains_iff_mem]
  exact h.2.mem_iff

theorem SameRelation.declarable {relation other : Relation} (h : SameRelation relation other)
    (hrelation : relation.Declarable) : other.Declarable where
  notComputed operation := h.1 ▸ hrelation.notComputed operation
  notReserved := h.1 ▸ hrelation.notReserved
  permits hnil := hrelation.permits (List.Perm.eq_nil (hnil ▸ h.2))
  once := h.2.nodup_iff.mp hrelation.once

theorem SameResource.declarable {declared other : ResourceAuthorization}
    (h : SameResource declared other) (hdeclared : declared.Declarable) : other.Declarable where
  notPrincipal := h.1 ▸ hdeclared.notPrincipal
  notReserved := h.1 ▸ hdeclared.notReserved
  nameable := h.1 ▸ hdeclared.nameable
  relations hnil := hdeclared.relations (h.2.eq_nil_iff.mpr hnil)
  apart := (h.2.map_perm fun _ _ hsame => hsame.1).nodup_iff.mp hdeclared.apart
  each relation hrelation := by
    obtain ⟨same, hsame, hrelated⟩ := h.2.exists_left hrelation
    exact hrelated.declarable (hdeclared.each same hsame)

theorem SameDeclaration.declarable {configuration other : AuthorizationConfiguration}
    (h : SameDeclaration configuration other) (hconfiguration : configuration.Declarable) :
    other.Declarable where
  apart := (h.map_perm fun _ _ hsame => hsame.1).nodup_iff.mp hconfiguration.apart
  each declared hdeclared := by
    obtain ⟨same, hsame, hrelated⟩ := h.exists_left hdeclared
    exact hrelated.declarable (hconfiguration.each same hsame)
  collections declared hdeclared another hanother := by
    obtain ⟨same, hsame, hrelated⟩ := h.exists_left hdeclared
    obtain ⟨sameOther, hsameOther, hrelatedOther⟩ := h.exists_left hanother
    rw [← hrelated.1, ← hrelatedOther.1]
    exact hconfiguration.collections same hsame sameOther hsameOther

/-- Declarations that differ in their order grant the same. -/
theorem SameDeclaration.grants_iff {configuration other : AuthorizationConfiguration}
    (h : SameDeclaration configuration other) {tuples : List RelationTuple} {user object : Entity}
    {operation : OperationKind} :
    Grants configuration tuples user operation object ↔
      Grants other tuples user operation object := by
  constructor
  · rintro ⟨declared, hdeclared, htype, relation, hrelation, hpermits, htuple⟩
    obtain ⟨same, hsame, hresource, hrelations⟩ := h.exists_right hdeclared
    obtain ⟨sameRelation, hsameRelation, hname, hperm⟩ := hrelations.exists_right hrelation
    refine ⟨same, hsame, ?_, sameRelation, hsameRelation, hperm.mem_iff.mp hpermits, hname ▸ htuple⟩
    unfold typeName
    rw [htype, ← hresource]
    rfl
  · rintro ⟨declared, hdeclared, htype, relation, hrelation, hpermits, htuple⟩
    obtain ⟨same, hsame, hresource, hrelations⟩ := h.exists_left hdeclared
    obtain ⟨sameRelation, hsameRelation, hname, hperm⟩ := hrelations.exists_left hrelation
    refine ⟨same, hsame, ?_, sameRelation, hsameRelation, hperm.mem_iff.mpr hpermits,
      hname ▸ htuple⟩
    unfold typeName
    rw [htype, hresource]
    rfl

/-! ## The same model -/

/-- A type that differs in the order of its unions at most. -/
structure TypeDefinition.Alike (definition other : TypeDefinition) : Prop where
  name : definition.name = other.name
  metadata : definition.metadata = other.metadata
  relations : ∀ relation : String, Option.Rel Library.Userset.Reordered
    definition.relations[relation]? other.relations[relation]?

/-- A model that differs in the order of its types and of its unions at most. -/
structure AuthorizationModel.Alike (model other : AuthorizationModel) : Prop where
  schemaVersion : model.schemaVersion = other.schemaVersion
  types : PermutedBy TypeDefinition.Alike model.typeDefinitions other.typeDefinitions

section Alike

variable {declared other : ResourceAuthorization} {types otherTypes : List TypeDefinition}
  {first otherFirst : Relation}

/-- The least relation has the same name in whatever order relations are declared. -/
theorem SameResource.first_name (h : SameResource declared other)
    (htranslates : Translates declared types first)
    (hother : Translates other otherTypes otherFirst) : first.name = otherFirst.name := by
  obtain ⟨same, hsame, hname, -⟩ := h.2.exists_right htranslates.mem
  obtain ⟨sameOther, hsameOther, hnameOther, -⟩ := h.2.exists_left hother.mem
  have hle := htranslates.least sameOther hsameOther
  have hge := hother.least same hsame
  rw [hnameOther] at hle
  rw [← hname] at hge
  exact Std.LawfulEqOrd.eq_of_compare (Std.OrientedCmp.isLE_antisymm hle hge)

theorem SameResource.permittedBy (h : SameResource declared other)
    (hfirst : first.name = otherFirst.name) (operation : OperationKind) :
    Library.Userset.Reordered (permittedBy declared.relations first operation)
      (permittedBy other.relations otherFirst operation) := by
  have hperm : ((declared.relations.filter (·.permitsOperation operation)).map computed).Perm
      ((other.relations.filter (·.permitsOperation operation)).map computed) := by
    refine h.2.filter_map_perm (fun relation same hsame => ?_)
      fun relation same hsame => hsame.permitsOperation operation
    unfold computed
    rw [hsame.1]
  have hcomputed : computed first = computed otherFirst := by
    unfold computed
    rw [hfirst]
  unfold Fga.permittedBy
  rw [hcomputed]
  generalize (declared.relations.filter (·.permitsOperation operation)).map computed = granting
    at hperm
  generalize (other.relations.filter (·.permitsOperation operation)).map computed = otherGranting
    at hperm
  match granting, otherGranting, hperm with
  | [], _, hperm => rw [hperm.nil_eq]; exact .refl _
  | [granting], _, hperm => rw [hperm.singleton_eq]; exact .refl _
  | _ :: _ :: _, [], hperm => exact absurd hperm.length_eq (by simp)
  | _ :: _ :: _, [_], hperm => exact absurd hperm.length_eq (by simp)
  | _ :: _ :: _, _ :: _ :: _, hperm => exact .union hperm

theorem SameResource.alike (h : SameResource declared other) (hdeclarable : declared.Declarable)
    (htranslates : Translates declared types first)
    (hother : Translates other otherTypes otherFirst) (collection : Bool) :
    (typeOf declared first collection).Alike (typeOf other otherFirst collection) := by
  have hotherDeclarable := h.declarable hdeclarable
  refine ⟨?_, ?_, fun relation => ?_⟩
  · show typeName declared collection = typeName other collection
    unfold typeName
    rw [h.1]
  · show some _ = some _
    have hentries : (metadataEntries declared).Perm (metadataEntries other) :=
      h.2.map_perm fun relation same hsame => by rw [hsame.1]
    rw [Library.collect_eq_of_perm (nodup_metadataEntries hdeclarable) hentries]
  · by_cases hdirect : ∃ assigned ∈ declared.relations, assigned.name.value = relation
    · obtain ⟨assigned, hassigned, rfl⟩ := hdirect
      obtain ⟨same, hsame, hname, -⟩ := h.2.exists_right hassigned
      rw [relations_direct hdeclarable hassigned, hname, relations_direct hotherDeclarable hsame]
      exact .some (.refl _)
    · by_cases hcomputed : ∃ operation : OperationKind, operation.computedRelation = relation
      · obtain ⟨operation, rfl⟩ := hcomputed
        rw [relations_computed hdeclarable, relations_computed hotherDeclarable]
        split
        · exact .some (h.permittedBy (h.first_name htranslates hother) operation)
        · exact .none
      · -- Neither type has a relation of any other name.
        have hnone : ∀ {resource : ResourceAuthorization}, resource.Declarable →
            ∀ least : Relation, (¬ ∃ assigned ∈ resource.relations,
              assigned.name.value = relation) →
              (typeOf resource least collection).relations[relation]? = none := by
          intro resource _ least hnot
          show (Library.collect _)[_]? = none
          unfold Library.collect
          rw [Library.getElem?_collectInto_of_not_mem]
          · exact Std.ExtTreeMap.getElem?_empty
          · rw [List.map_append, List.mem_append, keys_directEntries]
            rintro (hmem | hmem)
            · exact hnot (List.mem_map.mp hmem)
            · obtain ⟨operation, -, hname⟩ := mem_keys_computedEntries.mp hmem
              exact hcomputed ⟨operation, hname⟩
        rw [hnone hdeclarable first hdirect, hnone hotherDeclarable otherFirst]
        · exact .none
        · rintro ⟨assigned, hassigned, hname⟩
          obtain ⟨same, hsame, hsameName, -⟩ := h.2.exists_left hassigned
          exact hdirect ⟨same, hsame, hsameName ▸ hname⟩

theorem alike_flatten {resources others : List ResourceAuthorization}
    {blocks otherBlocks : List (List TypeDefinition)}
    (hsame : List.Forall₂ SameResource resources others)
    (hdeclarable : ∀ declared ∈ resources, declared.Declarable)
    (hall : TranslatesAll resources blocks) (hothers : TranslatesAll others otherBlocks) :
    List.Forall₂ TypeDefinition.Alike blocks.flatten otherBlocks.flatten := by
  induction hsame generalizing blocks otherBlocks with
  | nil =>
      cases hall
      cases hothers
      exact List.Forall₂.nil
  | cons hresource _ ih =>
      obtain ⟨types, blocks, ⟨first, htranslates⟩, hrest, rfl⟩ :=
        List.forall₂_cons_left_iff.mp hall
      obtain ⟨otherTypes, otherBlocks, ⟨otherFirst, hother⟩, hotherRest, rfl⟩ :=
        List.forall₂_cons_left_iff.mp hothers
      have halike := hresource.alike (hdeclarable _ List.mem_cons_self) htranslates hother
      have hflatten := ih (fun declared hdeclared => hdeclarable declared
        (List.mem_cons_of_mem _ hdeclared)) hrest hotherRest
      rw [List.flatten_cons, List.flatten_cons, htranslates.types, hother.types]
      exact List.Forall₂.cons (halike false) (List.Forall₂.cons (halike true) hflatten)

end Alike

/-! ## What is granted -/

/-- A model of a valid declaration is its types, one block for each resource. -/
theorem exists_authorizationModel {configuration : AuthorizationConfiguration}
    (h : configuration.Declarable) (hsome : configuration.resources ≠ []) :
    ∃ blocks, TranslatesAll configuration.resources blocks ∧
      authorizationModel configuration =
        .ok (some (AuthorizationModel.new (principalType :: blocks.flatten))) := by
  obtain ⟨blocks, hall, hfold⟩ := exists_foldlM_resourceTypes h.each [principalType]
  refine ⟨blocks, hall, ?_⟩
  unfold authorizationModel
  rw [Library.check_bind_eq_ok]
  refine ⟨AuthorizationConfiguration.validate_eq_ok.mpr h, ?_⟩
  have hsome : ¬ configuration.isEmpty = true := fun hempty => hsome (List.isEmpty_iff.mp hempty)
  rw [if_neg hsome]
  refine Library.bind_eq_ok.mpr ⟨_, hfold, Library.check_bind_eq_ok.mpr ⟨?_, rfl⟩⟩
  exact Library.eachOnce_nil_eq_ok.mpr ⟨fun _ _ => rfl, nodup_names h hall⟩

/-- A declaration in another order is written as a model that is alike. -/
theorem alike_of_sameDeclaration {configuration other : AuthorizationConfiguration}
    (h : configuration.Declarable) (hsame : SameDeclaration configuration other)
    {blocks otherBlocks : List (List TypeDefinition)}
    (hall : TranslatesAll configuration.resources blocks)
    (hothers : TranslatesAll other.resources otherBlocks) :
    (AuthorizationModel.new (principalType :: blocks.flatten)).Alike
      (AuthorizationModel.new (principalType :: otherBlocks.flatten)) := by
  obtain ⟨ordered, hperm, hresources⟩ := hsame
  obtain ⟨orderedBlocks, horderedAll, hblocks⟩ := List.perm_comp_forall₂ hperm.symm hall
  have hdeclarable : ∀ declared ∈ ordered, declared.Declarable :=
    fun declared hdeclared => h.each declared (hperm.mem_iff.mpr hdeclared)
  have hprincipal : principalType.Alike principalType :=
    ⟨rfl, rfl, fun relation => by
      rw [show principalType.relations[relation]? = none from Std.ExtTreeMap.getElem?_empty]
      exact .none⟩
  exact ⟨rfl, principalType :: orderedBlocks.flatten, (hblocks.symm.flatten).cons _,
    List.Forall₂.cons hprincipal (alike_flatten hresources hdeclarable horderedAll hothers)⟩

/-- A valid declaration of something is written as a model whose types, and whose relations, are
told apart, and which grants an operation exactly to the principals that hold a declared
relation that permits it, on the type that carries it.  Only declared relations are assigned.
Of the order of the declaration the model keeps that of its types and of its unions, and what
it grants does not depend on it. -/
theorem generated_model_grants_declaration {configuration : AuthorizationConfiguration}
    (hvalid : configuration.validate = .ok ()) (hsome : configuration.resources ≠ []) :
    ∃ model, authorizationModel configuration = .ok (some model) ∧
      (model.typeDefinitions.map TypeDefinition.name).Nodup ∧
      (∀ definition ∈ model.typeDefinitions, definition.relations.keys.Nodup) ∧
      (∀ tuples user object operation depth, 2 ≤ depth →
        (model.check tuples depth user (OperationKind.computedRelation operation) object =
            some true ↔
          user.type = PRINCIPAL_TYPE ∧ Grants configuration tuples user operation object)) ∧
      (∀ definition ∈ model.typeDefinitions, ∀ relation user,
        definition.assigns relation user = true → user.type = PRINCIPAL_TYPE ∧
          ∃ declared ∈ configuration.resources,
            (∃ collection, definition.name = typeName declared collection) ∧
              ∃ assigned ∈ declared.relations, assigned.name.value = relation) ∧
      ∀ other, SameDeclaration configuration other →
        ∃ otherModel, authorizationModel other = .ok (some otherModel) ∧ model.Alike otherModel ∧
          ∀ tuples user object operation depth, 2 ≤ depth →
            (model.check tuples depth user (OperationKind.computedRelation operation) object =
                some true ↔
              otherModel.check tuples depth user (OperationKind.computedRelation operation)
                object = some true) := by
  have h := AuthorizationConfiguration.validate_eq_ok.mp hvalid
  obtain ⟨blocks, hall, hmodel⟩ := exists_authorizationModel h hsome
  have hchecks := fun tuples user object operation depth (hdepth : 2 ≤ depth) =>
    check_eq_some_true_iff h hall tuples user object operation hdepth
  refine ⟨_, hmodel, nodup_names h hall, fun definition _ => ?_, hchecks, ?_, ?_⟩
  · have hkeys := Std.ExtTreeMap.distinct_keys (t := definition.relations)
    refine hkeys.imp fun hne heq => hne ?_
    rw [heq]
    exact Std.ReflOrd.compare_self
  · intro definition hdefinition relation user hassigns
    rcases List.mem_cons.mp hdefinition with rfl | hmem
    · cases hassigns
    · obtain ⟨declared, hdeclared, types, first, collection, -, -, rfl⟩ := (mem_flatten hall).mp hmem
      obtain ⟨hprincipal, hassigned⟩ :=
        (assigns_iff (h.each declared hdeclared) first collection).mp hassigns
      exact ⟨hprincipal, declared, hdeclared, ⟨collection, rfl⟩, hassigned⟩
  · intro other hsame
    have hother := hsame.declarable h
    obtain ⟨otherBlocks, hothers, hotherModel⟩ := exists_authorizationModel hother
      fun hnil => hsome (hsame.eq_nil_iff.mpr hnil)
    refine ⟨_, hotherModel, alike_of_sameDeclaration h hsame hall hothers, ?_⟩
    intro tuples user object operation depth hdepth
    rw [hchecks tuples user object operation depth hdepth,
      check_eq_some_true_iff hother hothers tuples user object operation hdepth, hsame.grants_iff]

/-! ## Two resources -/

/-- Orders that owners delete. -/
def orders : ResourceAuthorization :=
  ⟨⟨"orders", by decide⟩, [⟨⟨"owner", by decide⟩, [.delete]⟩]⟩

/-- Customers that viewers read and list. -/
def customers : ResourceAuthorization :=
  ⟨⟨"customers", by decide⟩, [⟨⟨"viewer", by decide⟩, [.read, .list]⟩]⟩

/-- Somebody. -/
def alice : Entity := ⟨PRINCIPAL_TYPE, "alice"⟩

/-- The collection of the customers. -/
def allCustomers : Entity := ⟨"customers_collection", "customers"⟩

/-- A viewer of all customers lists them, and creates none. -/
theorem viewer_lists_customers : ∃ model,
    authorizationModel ⟨[orders, customers]⟩ = .ok (some model) ∧
      model.check [⟨alice, "viewer", allCustomers⟩] 2 alice "can_list" allCustomers = some true ∧
      model.check [⟨alice, "viewer", allCustomers⟩] 2 alice "can_create" allCustomers ≠
        some true := by
  obtain ⟨model, hmodel, -, -, hchecks, -⟩ :=
    @generated_model_grants_declaration ⟨[orders, customers]⟩ (by decide +kernel) (by simp)
  have hlist := hchecks [⟨alice, "viewer", allCustomers⟩] alice allCustomers .list 2 le_rfl
  have hcreate := hchecks [⟨alice, "viewer", allCustomers⟩] alice allCustomers .create 2 le_rfl
  refine ⟨model, hmodel, hlist.mpr ⟨rfl, customers, by simp, rfl, _, List.mem_singleton.mpr rfl,
    by decide, List.mem_singleton.mpr rfl⟩, fun hholds => ?_⟩
  obtain ⟨-, declared, hdeclared, -, relation, hrelation, hpermits, -⟩ := hcreate.mp hholds
  rcases List.mem_cons.mp hdeclared with rfl | hrest
  · rw [List.mem_singleton.mp hrelation] at hpermits
    exact absurd hpermits (by decide)
  · rw [List.mem_singleton.mp hrest] at hrelation
    rw [List.mem_singleton.mp hrelation] at hpermits
    exact absurd hpermits (by decide)

/-- The same two resources the other way round are another model: its types are in another
order. -/
theorem order_of_types_differs :
    AuthorizationConfiguration.validate ⟨[orders, customers]⟩ = .ok () ∧
      AuthorizationConfiguration.validate ⟨[customers, orders]⟩ = .ok () ∧
        SameDeclaration ⟨[orders, customers]⟩ ⟨[customers, orders]⟩ ∧
          authorizationModel ⟨[orders, customers]⟩ ≠ authorizationModel ⟨[customers, orders]⟩ := by
  refine ⟨by decide +kernel, by decide +kernel, ?_, fun hsame => ?_⟩
  · have hself : ∀ declared : ResourceAuthorization, SameResource declared declared :=
      fun declared => ⟨rfl, declared.relations, List.Perm.refl _,
        List.forall₂_same.mpr fun relation _ => ⟨rfl, List.Perm.refl _⟩⟩
    exact ⟨[customers, orders], List.Perm.swap _ _ _,
      List.forall₂_same.mpr fun declared _ => hself declared⟩
  · have hnames : ∀ configuration : AuthorizationConfiguration, ∀ types : List String,
        ((authorizationModel configuration).toOption.join.map fun model =>
          model.typeDefinitions.map TypeDefinition.name) = some types → ∀ other : List String,
            ((authorizationModel configuration).toOption.join.map fun model =>
              model.typeDefinitions.map TypeDefinition.name) = some other → types = other := by
      intro configuration types htypes other hother
      rw [htypes] at hother
      exact Option.some.inj hother
    have hdiffer := hnames ⟨[orders, customers]⟩
      ["user", "orders", "orders_collection", "customers", "customers_collection"]
      (by decide +kernel) ["user", "customers", "customers_collection", "orders",
        "orders_collection"] (by rw [hsame]; decide +kernel)
    exact absurd hdiffer (by decide)

end Fga
end SaasFabric
