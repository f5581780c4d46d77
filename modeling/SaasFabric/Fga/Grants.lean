import SaasFabric.Fga.Model

/-!
# What a generated model grants

The types of a generated model and their relations, read as an authorization service reads
them over a set of tuples: an operation is granted to whoever holds a declared relation that
permits it, on the type that carries it, and to nobody else.
-/

namespace SaasFabric
namespace Fga

open ClientModel
open Publication (OperationKind)

/-! ## Reading a model -/

/-- An object of a type. -/
structure Entity where
  type : String
  id : String
deriving DecidableEq

/-- What is stored: somebody holds a relation on an object. -/
structure RelationTuple where
  user : Entity
  relation : String
  object : Entity
deriving DecidableEq

/-- Somebody may be assigned a relation: its metadata lists their type. -/
def TypeDefinition.assigns (definition : TypeDefinition) (relation : String) (user : Entity) :
    Bool :=
  match definition.metadata.bind fun metadata => metadata.relations[relation]? with
  | some metadata => metadata.directlyRelatedUserTypes.any fun related => related.name == user.type
  | none => false

/-- Somebody was assigned a relation on an object. -/
def TypeDefinition.related (definition : TypeDefinition) (tuples : List RelationTuple)
    (user object : Entity) (relation : String) : Bool :=
  tuples.contains ⟨user, relation, object⟩ && definition.assigns relation user

/-- Whether somebody has a relation on an object; without an answer where the type or the
relation is not defined. -/
def AuthorizationModel.check (model : AuthorizationModel) (tuples : List RelationTuple)
    (depth : Nat) (user : Entity) (relation : String) (object : Entity) : Option Bool :=
  (model.typeDefinitions.find? fun definition => definition.name == object.type).bind
    fun definition => Library.Userset.holds (fun name => definition.relations[name]?)
      (definition.related tuples user object) depth relation

/-! ## What is declared -/

/-- The name of a resource's record type, or of its collection's. -/
def typeName (declared : ResourceAuthorization) (collection : Bool) : String :=
  if collection then declared.resource.value ++ CollectionObject.TYPE_SUFFIX
  else declared.resource.value

/-- A declaration grants an operation on an object: of the type that carries the operation, to
who holds a relation that permits it. -/
def Grants (configuration : AuthorizationConfiguration) (tuples : List RelationTuple)
    (user : Entity) (operation : OperationKind) (object : Entity) : Prop :=
  ∃ declared ∈ configuration.resources,
    object.type = typeName declared operation.isCollectionOperation ∧
      ∃ relation ∈ declared.relations, operation ∈ relation.permits ∧
        (⟨user, relation.name.value, object⟩ : RelationTuple) ∈ tuples

/-! ## The least relation -/

theorem lesser_spec {relations : List Relation} {least : Option Relation} :
    (relations.foldl lesser least = none ↔ relations = [] ∧ least = none) ∧
      ∀ first, relations.foldl lesser least = some first →
        (first ∈ relations ∨ least = some first) ∧
          (∀ relation ∈ relations, (compare first.name relation.name).isLE) ∧
            ∀ found, least = some found → (compare first.name found.name).isLE := by
  induction relations generalizing least with
  | nil =>
      refine ⟨by simp, fun first h => ?_⟩
      rw [List.foldl_nil] at h
      refine ⟨Or.inr h, fun _ hmem => absurd hmem List.not_mem_nil, fun found hfound => ?_⟩
      rw [h] at hfound
      cases hfound
      exact Std.ReflCmp.isLE_rfl
  | cons relation rest ih =>
      -- What is kept after one relation is the lesser of it and what was kept before.
      obtain ⟨kept, hkept, hmem, hle, hfoundLe⟩ : ∃ kept, lesser least relation = some kept ∧
          (kept = relation ∨ least = some kept) ∧ (compare kept.name relation.name).isLE ∧
            ∀ found, least = some found → (compare kept.name found.name).isLE := by
        cases least with
        | none => exact ⟨relation, rfl, Or.inl rfl, Std.ReflCmp.isLE_rfl, fun _ h => nomatch h⟩
        | some found =>
            by_cases hlt : compare relation.name found.name = .lt
            · refine ⟨relation, if_pos hlt, Or.inl rfl, Std.ReflCmp.isLE_rfl, ?_⟩
              rintro _ ⟨⟩
              rw [hlt]
              rfl
            · refine ⟨found, if_neg hlt, Or.inr rfl, ?_, ?_⟩
              · have hswap : compare found.name relation.name =
                    (compare relation.name found.name).swap := Std.OrientedOrd.eq_swap
                rw [hswap]
                cases hcompare : compare relation.name found.name with
                | lt => exact absurd hcompare hlt
                | eq => rfl
                | gt => rfl
              · rintro _ ⟨⟩
                exact Std.ReflCmp.isLE_rfl
      rw [List.foldl_cons, hkept]
      obtain ⟨hnone, hsome⟩ := @ih (some kept)
      refine ⟨?_, fun first hfirst => ?_⟩
      · rw [hnone]
        simp
      · obtain ⟨hfirstMem, hfirstLe, hkeptLe⟩ := hsome first hfirst
        have hfirstKept := hkeptLe kept rfl
        refine ⟨?_, ?_, fun found hfound =>
          Std.TransCmp.isLE_trans hfirstKept (hfoundLe found hfound)⟩
        · rcases hfirstMem with hrest | hkeptFirst
          · exact Or.inl (List.mem_cons_of_mem _ hrest)
          · cases hkeptFirst
            rcases hmem with rfl | hleast
            · exact Or.inl List.mem_cons_self
            · exact Or.inr hleast
        · intro other hother
          rcases List.mem_cons.mp hother with rfl | hrest
          · exact Std.TransCmp.isLE_trans hfirstKept hle
          · exact hfirstLe other hrest

/-- The first relation is the least by name, where there is any. -/
theorem exists_firstRelation {relations : List Relation} (h : relations ≠ []) :
    ∃ first ∈ relations, firstRelation relations = .ok first ∧
      ∀ relation ∈ relations, (compare first.name relation.name).isLE := by
  obtain ⟨hnone, hsome⟩ := @lesser_spec relations none
  cases hfold : relations.foldl lesser none with
  | none => exact absurd (hnone.mp hfold).1 h
  | some first =>
      obtain ⟨hmem, hle, -⟩ := hsome first hfold
      refine ⟨first, hmem.resolve_right (by simp), ?_, hle⟩
      unfold firstRelation
      rw [hfold]

/-! ## A type, written out -/

/-- The relations that are assigned. -/
def directEntries (declared : ResourceAuthorization) : List (String × Userset) :=
  declared.relations.map fun relation => (relation.name.value, .direct)

/-- The relations that are asked about. -/
def computedEntries (declared : ResourceAuthorization) (first : Relation) (collection : Bool) :
    List (String × Userset) :=
  (OperationKind.ALL.filter fun operation => operation.isCollectionOperation == collection).map
    fun operation =>
      (operation.computedRelation, permittedBy declared.relations first operation)

def metadataEntries (declared : ResourceAuthorization) : List (String × RelationMetadata) :=
  declared.relations.map fun relation => (relation.name.value, directMetadata)

/-- The type of a declared resource's records, or of its collection. -/
def typeOf (declared : ResourceAuthorization) (first : Relation) (collection : Bool) :
    TypeDefinition where
  name := typeName declared collection
  relations := Library.collect
    (directEntries declared ++ computedEntries declared first collection)
  metadata := some ⟨Library.collect (metadataEntries declared)⟩

theorem keys_directEntries (declared : ResourceAuthorization) :
    (directEntries declared).map Prod.fst =
      declared.relations.map fun relation => relation.name.value := by
  unfold directEntries
  rw [List.map_map]
  rfl

theorem mem_keys_computedEntries {declared : ResourceAuthorization} {first : Relation}
    {collection : Bool} {name : String} :
    name ∈ (computedEntries declared first collection).map Prod.fst ↔
      ∃ operation : OperationKind, operation.isCollectionOperation = collection ∧
        operation.computedRelation = name := by
  unfold computedEntries
  rw [List.map_map]
  simp [OperationKind.mem_ALL]

theorem nodup_relationNames {declared : ResourceAuthorization} (h : declared.Declarable) :
    (declared.relations.map fun relation => relation.name.value).Nodup := by
  have hnames := h.apart.map (Identifier.value_injective : Function.Injective
    (Identifier.value : RelationName → String))
  rwa [List.map_map] at hnames

theorem nodup_metadataEntries {declared : ResourceAuthorization} (h : declared.Declarable) :
    ((metadataEntries declared).map Prod.fst).Nodup := by
  have hnames := nodup_relationNames h
  unfold metadataEntries
  rw [List.map_map]
  exact hnames

/-- No two relations of a type have one name. -/
theorem nodup_entries {declared : ResourceAuthorization} (h : declared.Declarable)
    (first : Relation) (collection : Bool) :
    ((directEntries declared ++ computedEntries declared first collection).map
      Prod.fst).Nodup := by
  rw [List.map_append, List.nodup_append]
  refine ⟨?_, ?_, ?_⟩
  · rw [keys_directEntries]
    exact nodup_relationNames h
  · unfold computedEntries
    rw [List.map_map]
    refine List.Nodup.map OperationKind.computedRelation_injective ?_
    exact (show OperationKind.ALL.Nodup by decide).filter _
  · intro name hdirect other hcomputed heq
    rw [keys_directEntries] at hdirect
    obtain ⟨relation, hrelation, rfl⟩ := List.mem_map.mp hdirect
    obtain ⟨operation, -, rfl⟩ := mem_keys_computedEntries.mp hcomputed
    exact (h.each relation hrelation).notComputed operation heq

/-- Entries of new names are all inserted. -/
theorem foldlM_insert {entries : List (String × Userset)} {relations : BTreeMap String Userset}
    (hnodup : (entries.map Prod.fst).Nodup)
    (hfresh : ∀ name ∈ entries.map Prod.fst, relations.contains name = false) :
    entries.foldlM (fun relations entry => insert relations entry.1 entry.2) relations =
      .ok (Library.collectInto relations entries) := by
  induction entries generalizing relations with
  | nil => rfl
  | cons entry rest ih =>
      rw [List.map_cons, List.nodup_cons] at hnodup
      have hinsert : insert relations entry.1 entry.2 =
          .ok (relations.insert entry.1 entry.2) := by
        unfold insert
        rw [hfresh entry.1 List.mem_cons_self]
        rfl
      have hrest : ∀ name ∈ rest.map Prod.fst,
          (relations.insert entry.1 entry.2).contains name = false := by
        intro name hname
        rw [Std.ExtTreeMap.contains_insert, hfresh name (List.mem_cons_of_mem _ hname),
          Bool.or_false]
        refine beq_false_of_ne fun heq => ?_
        exact hnodup.1 (Std.LawfulEqOrd.eq_of_compare heq ▸ hname)
      rw [List.foldlM_cons, hinsert]
      exact ih hnodup.2 hrest

/-- The assigned relations of a type, with their metadata. -/
theorem foldlM_direct {declared : List Relation} {relations : BTreeMap String Userset}
    {direct : BTreeMap String RelationMetadata}
    (hnodup : (declared.map fun relation => relation.name.value).Nodup)
    (hfresh : ∀ relation ∈ declared, relations.contains relation.name.value = false) :
    declared.foldlM
        (fun (relations, direct) relation => do
          let relations ← insert relations relation.name.value .direct
          .ok (relations, direct.insert relation.name.value directMetadata)) (relations, direct) =
      (.ok (Library.collectInto relations
          (declared.map fun relation => (relation.name.value, .direct)),
        Library.collectInto direct
          (declared.map fun relation => (relation.name.value, directMetadata))) :
        Except DesiredStateError _) := by
  induction declared generalizing relations direct with
  | nil => rfl
  | cons relation rest ih =>
      rw [List.map_cons, List.nodup_cons] at hnodup
      have hinsert : insert relations relation.name.value .direct =
          .ok (relations.insert relation.name.value .direct) := by
        unfold insert
        rw [hfresh relation List.mem_cons_self]
        rfl
      have hrest : ∀ other ∈ rest,
          (relations.insert relation.name.value Library.Userset.direct).contains
            other.name.value = false := by
        intro other hother
        rw [Std.ExtTreeMap.contains_insert, hfresh other (List.mem_cons_of_mem _ hother),
          Bool.or_false]
        refine beq_false_of_ne fun heq => hnodup.1 ?_
        rw [Std.LawfulEqOrd.eq_of_compare heq]
        exact List.mem_map_of_mem (f := fun relation : Relation => relation.name.value) hother
      rw [List.foldlM_cons]
      dsimp only
      rw [hinsert]
      exact ih hnodup.2 hrest

/-- The relations that are asked about are inserted where the type carries their operation. -/
theorem foldlM_computed {operations : List OperationKind} {declared : List Relation}
    {first : Relation} {collection : Bool} {relations : BTreeMap String Userset} :
    operations.foldlM
        (fun relations operation =>
          if operation.isCollectionOperation == collection then
            insert relations operation.computedRelation (permittedBy declared first operation)
          else
            .ok relations) relations =
      ((operations.filter fun operation => operation.isCollectionOperation == collection).map
        fun operation => (operation.computedRelation, permittedBy declared first operation)).foldlM
          (fun relations entry => insert relations entry.1 entry.2) relations := by
  induction operations generalizing relations with
  | nil => rfl
  | cons operation rest ih =>
      by_cases hcarried : (operation.isCollectionOperation == collection) = true
      · have hfilter : (operation :: rest).filter (fun operation =>
            operation.isCollectionOperation == collection) = operation :: rest.filter
              fun operation => operation.isCollectionOperation == collection :=
          List.filter_cons_of_pos hcarried
        rw [List.foldlM_cons, if_pos hcarried, hfilter, List.map_cons, List.foldlM_cons]
        cases insert relations operation.computedRelation
            (permittedBy declared first operation) with
        | error error => rfl
        | ok inserted => exact ih
      · have hfilter : (operation :: rest).filter (fun operation =>
            operation.isCollectionOperation == collection) = rest.filter
              fun operation => operation.isCollectionOperation == collection :=
          List.filter_cons_of_neg hcarried
        rw [List.foldlM_cons, if_neg hcarried, hfilter]
        exact ih

/-- A type of a resource that can be declared is written, with nothing overwritten. -/
theorem objectType_eq {declared : ResourceAuthorization} (h : declared.Declarable)
    {first : Relation} (hfirst : firstRelation declared.relations = .ok first)
    (collection : Bool) : objectType (typeName declared collection) declared collection =
      .ok (typeOf declared first collection) := by
  have hnodup := nodup_entries h first collection
  rw [List.map_append, List.nodup_append] at hnodup
  obtain ⟨hdirect, hcomputed, hapart⟩ := hnodup
  rw [keys_directEntries] at hdirect hapart
  have hfold := @foldlM_direct declared.relations ∅ ∅ hdirect fun relation _ =>
    Std.ExtTreeMap.contains_empty
  have hfresh : ∀ name ∈ (computedEntries declared first collection).map Prod.fst,
      (Library.collectInto ∅ (directEntries declared)).contains name = false := by
    intro name hname
    have hnone : (Library.collectInto ∅ (directEntries declared))[name]? = none := by
      rw [Library.getElem?_collectInto_of_not_mem]
      · exact Std.ExtTreeMap.getElem?_empty
      · rw [keys_directEntries]
        exact fun hmem => hapart name hmem name hname rfl
    rw [← Std.ExtTreeMap.isSome_getElem?_eq_contains]
    exact congrArg Option.isSome hnone
  refine Library.bind_eq_ok.mpr ⟨first, hfirst, Library.bind_eq_ok.mpr ⟨_, hfold,
    Library.bind_eq_ok.mpr ⟨_, foldlM_computed.trans (foldlM_insert hcomputed hfresh), ?_⟩⟩⟩
  unfold typeOf Library.collect Library.collectInto
  rw [List.foldl_append]
  rfl

/-! ## The types of a model -/

/-- Two types of declared resources that have one name are one type. -/
theorem typeName_injective {configuration : AuthorizationConfiguration}
    (h : configuration.Declarable) {declared other : ResourceAuthorization}
    (hdeclared : declared ∈ configuration.resources) (hother : other ∈ configuration.resources)
    {collection otherCollection : Bool}
    (hname : typeName declared collection = typeName other otherCollection) :
    declared = other ∧ collection = otherCollection := by
  have hsame : declared.resource.value = other.resource.value → declared = other :=
    fun hvalue => List.inj_on_of_nodup_map h.apart hdeclared hother (Identifier.ext hvalue)
  unfold typeName at hname
  cases collection with
  | false =>
      cases otherCollection with
      | false => exact ⟨hsame hname, rfl⟩
      | true => exact absurd hname (h.collections other hother declared hdeclared)
  | true =>
      cases otherCollection with
      | false => exact absurd hname.symm (h.collections declared hdeclared other hother)
      | true => exact ⟨hsame ((String.append_left_inj _).mp hname), rfl⟩

theorem typeName_ne_principal {declared : ResourceAuthorization} (h : declared.Declarable)
    (collection : Bool) : typeName declared collection ≠ PRINCIPAL_TYPE := by
  intro hname
  cases collection with
  | false => exact h.notPrincipal hname
  | true =>
      have hlength := congrArg String.length hname
      unfold typeName at hlength
      rw [if_pos rfl, String.length_append] at hlength
      have hsuffix : CollectionObject.TYPE_SUFFIX.length = 11 := by decide
      have hprincipal : PRINCIPAL_TYPE.length = 4 := by decide
      omega

/-- The two types of a declared resource, over its least relation. -/
structure Translates (declared : ResourceAuthorization) (types : List TypeDefinition)
    (first : Relation) : Prop where
  mem : first ∈ declared.relations
  found : firstRelation declared.relations = .ok first
  least : ∀ relation ∈ declared.relations, (compare first.name relation.name).isLE
  types : types = [typeOf declared first false, typeOf declared first true]

theorem exists_resourceTypes {declared : ResourceAuthorization} (h : declared.Declarable) :
    ∃ types first, Translates declared types first ∧ resourceTypes declared = .ok types := by
  obtain ⟨first, hmem, hfirst, hleast⟩ := exists_firstRelation h.relations
  have hcollection : CollectionObject.tryNew declared.resource =
      .ok ⟨declared.resource, h.nameable⟩ := CollectionObject.tryNew_eq_ok.mpr rfl
  refine ⟨_, first, ⟨hmem, hfirst, hleast, rfl⟩, Library.bind_eq_ok.mpr
    ⟨_, Library.mapError_eq_ok.mpr hcollection, Library.bind_eq_ok.mpr
      ⟨_, objectType_eq h hfirst false, Library.bind_eq_ok.mpr
        ⟨_, objectType_eq h hfirst true, rfl⟩⟩⟩⟩

/-- The types of every declared resource, in the order of the declaration. -/
def TranslatesAll (resources : List ResourceAuthorization) (types : List (List TypeDefinition)) :
    Prop :=
  List.Forall₂ (fun declared both => ∃ first, Translates declared both first) resources types

theorem exists_foldlM_resourceTypes {resources : List ResourceAuthorization}
    (h : ∀ declared ∈ resources, declared.Declarable) (start : List TypeDefinition) :
    ∃ blocks, TranslatesAll resources blocks ∧
      resources.foldlM
        (fun types declared => do
          let both ← resourceTypes declared
          .ok (types ++ both)) start =
        (.ok (start ++ blocks.flatten) : Except DesiredStateError _) := by
  induction resources generalizing start with
  | nil => exact ⟨[], List.Forall₂.nil, by rw [List.flatten_nil, List.append_nil]; rfl⟩
  | cons declared rest ih =>
      obtain ⟨both, first, htranslates, htypes⟩ := exists_resourceTypes (h declared
        List.mem_cons_self)
      obtain ⟨blocks, hall, hrest⟩ := ih (fun other hother => h other
        (List.mem_cons_of_mem _ hother)) (start ++ both)
      refine ⟨both :: blocks, List.Forall₂.cons ⟨first, htranslates⟩ hall, ?_⟩
      rw [List.foldlM_cons, htypes, List.flatten_cons, ← List.append_assoc]
      exact hrest

section Types

variable {configuration : AuthorizationConfiguration} {blocks : List (List TypeDefinition)}

theorem mem_flatten {resources : List ResourceAuthorization}
    (hall : TranslatesAll resources blocks) {definition : TypeDefinition} :
    definition ∈ blocks.flatten ↔ ∃ declared ∈ resources, ∃ types first collection,
      Translates declared types first ∧ types ∈ blocks ∧
        definition = typeOf declared first collection := by
  unfold TranslatesAll at hall
  constructor
  · intro hmem
    obtain ⟨types, htypes, hdefinition⟩ := List.mem_flatten.mp hmem
    obtain ⟨declared, hdeclared, first, htranslates⟩ :=
      Library.exists_of_forall₂_of_mem hall types htypes
    rw [htranslates.types] at hdefinition
    rcases List.mem_cons.mp hdefinition with rfl | hrest
    · exact ⟨declared, hdeclared, types, first, false, htranslates, htypes, rfl⟩
    · exact ⟨declared, hdeclared, types, first, true, htranslates, htypes,
        List.mem_singleton.mp hrest⟩
  · rintro ⟨declared, -, types, first, collection, htranslates, htypes, rfl⟩
    refine List.mem_flatten.mpr ⟨types, htypes, ?_⟩
    rw [htranslates.types]
    cases collection <;> simp

theorem names_flatten {resources : List ResourceAuthorization}
    (hall : TranslatesAll resources blocks) : blocks.flatten.map TypeDefinition.name =
      resources.flatMap fun declared => [typeName declared false, typeName declared true] := by
  unfold TranslatesAll at hall
  induction hall with
  | nil => rfl
  | cons hfirst _ ih =>
      obtain ⟨first, htranslates⟩ := hfirst
      rw [List.flatten_cons, List.map_append, ih, List.flatMap_cons, htranslates.types]
      rfl

/-- No two types of a model have one name. -/
theorem nodup_names (h : configuration.Declarable)
    (hall : TranslatesAll configuration.resources blocks) :
    ((principalType :: blocks.flatten).map TypeDefinition.name).Nodup := by
  have hnodup : configuration.resources.Nodup := h.apart.of_map _
  rw [List.map_cons, names_flatten hall, List.nodup_cons]
  constructor
  · intro hmem
    obtain ⟨declared, hdeclared, hname⟩ := List.mem_flatMap.mp hmem
    have hprincipal := typeName_ne_principal (h.each declared hdeclared)
    rcases List.mem_cons.mp hname with hrecord | hrest
    · exact hprincipal false hrecord.symm
    · exact hprincipal true (List.mem_singleton.mp hrest).symm
  · refine List.nodup_flatMap.mpr ⟨fun declared hdeclared => ?_, ?_⟩
    · refine List.nodup_cons.mpr ⟨fun hmem => ?_, List.nodup_singleton _⟩
      have hsame := typeName_injective h hdeclared hdeclared (List.mem_singleton.mp hmem)
      exact absurd hsame.2 (by decide)
    · refine List.Pairwise.imp_of_mem ?_ hnodup
      intro declared other hdeclared hother hne name hname hotherName
      have hof : ∀ {resource : ResourceAuthorization},
          name ∈ [typeName resource false, typeName resource true] →
            ∃ collection, name = typeName resource collection := by
        intro resource hmem
        rcases List.mem_cons.mp hmem with hrecord | hrest
        · exact ⟨false, hrecord⟩
        · exact ⟨true, List.mem_singleton.mp hrest⟩
      obtain ⟨collection, hname⟩ := hof hname
      obtain ⟨otherCollection, hotherName⟩ := hof hotherName
      exact hne (typeName_injective h hdeclared hother (hname.symm.trans hotherName)).1

/-! ## One type, asked -/

theorem relations_direct {declared : ResourceAuthorization} (h : declared.Declarable)
    {relation : Relation} (hrelation : relation ∈ declared.relations) (first : Relation)
    (collection : Bool) :
    (typeOf declared first collection).relations[relation.name.value]? = some .direct := by
  refine (Library.getElem?_collect_eq_some (nodup_entries h first collection)).mpr ?_
  exact List.mem_append_left _ (List.mem_map_of_mem (f := fun relation : Relation =>
    (relation.name.value, (Library.Userset.direct : Userset))) hrelation)

/-- An operation is asked about on the type that carries it, and on no other. -/
theorem relations_computed {declared : ResourceAuthorization} (h : declared.Declarable)
    (first : Relation) (collection : Bool) (operation : OperationKind) :
    (typeOf declared first collection).relations[operation.computedRelation]? =
      if operation.isCollectionOperation = collection then
        some (permittedBy declared.relations first operation)
      else
        none := by
  by_cases hcarried : operation.isCollectionOperation = collection
  · rw [if_pos hcarried]
    refine (Library.getElem?_collect_eq_some (nodup_entries h first collection)).mpr ?_
    refine List.mem_append_right _ (List.mem_map.mpr ⟨operation, ?_, rfl⟩)
    exact List.mem_filter.mpr ⟨operation.mem_ALL, beq_iff_eq.mpr hcarried⟩
  · rw [if_neg hcarried]
    show (Library.collect _)[_]? = none
    unfold Library.collect
    rw [Library.getElem?_collectInto_of_not_mem]
    · exact Std.ExtTreeMap.getElem?_empty
    · rw [List.map_append, List.mem_append, keys_directEntries]
      rintro (hdirect | hcomputed)
      · obtain ⟨relation, hrelation, hname⟩ := List.mem_map.mp hdirect
        exact (h.each relation hrelation).notComputed operation hname
      · obtain ⟨other, hother, hname⟩ := mem_keys_computedEntries.mp hcomputed
        rw [OperationKind.computedRelation_injective hname] at hother
        exact hcarried hother

/-- A principal, and nobody else, may be assigned a declared relation, and no other relation. -/
theorem assigns_iff {declared : ResourceAuthorization} (h : declared.Declarable)
    (first : Relation) (collection : Bool) {relation : String} {user : Entity} :
    (typeOf declared first collection).assigns relation user = true ↔
      user.type = PRINCIPAL_TYPE ∧
        ∃ assigned ∈ declared.relations, assigned.name.value = relation := by
  have hnodup := nodup_metadataEntries h
  have hassigns : (typeOf declared first collection).assigns relation user =
      match (Library.collect (metadataEntries declared))[relation]? with
      | some metadata =>
          metadata.directlyRelatedUserTypes.any fun related => related.name == user.type
      | none => false := rfl
  rw [hassigns]
  cases hfound : (Library.collect (metadataEntries declared))[relation]? with
  | none =>
      refine ⟨(fun h => nomatch h), ?_⟩
      rintro ⟨-, assigned, hassigned, rfl⟩
      have hmem : (assigned.name.value, directMetadata) ∈ metadataEntries declared :=
        List.mem_map_of_mem (f := fun relation : Relation => (relation.name.value, directMetadata))
          hassigned
      rw [(Library.getElem?_collect_eq_some hnodup).mpr hmem] at hfound
      cases hfound
  | some metadata =>
      obtain ⟨assigned, hassigned, hentry⟩ :=
        List.mem_map.mp ((Library.getElem?_collect_eq_some hnodup).mp hfound)
      cases hentry
      have hany : (directMetadata.directlyRelatedUserTypes.any fun related =>
          related.name == user.type) = (PRINCIPAL_TYPE == user.type) := Bool.or_false _
      dsimp only
      rw [hany, beq_iff_eq]
      exact ⟨fun hprincipal => ⟨hprincipal.symm, assigned, hassigned, rfl⟩, fun h => h.1.symm⟩

/-- Whoever holds a relation that permits an operation is granted it; where no relation permits
it, that is nobody. -/
theorem eval_permittedBy {relations : List Relation} {first : Relation}
    {known : String → Option Bool} {answer : String → Bool} (hfirst : first ∈ relations)
    (hknown : ∀ relation ∈ relations, known relation.name.value = some (answer relation.name.value))
    (related : Bool) (operation : OperationKind) :
    Library.Userset.eval known related (permittedBy relations first operation) =
      some (relations.any fun relation =>
        relation.permitsOperation operation && answer relation.name.value) := by
  have hgranting : ∀ relation ∈ relations.filter (·.permitsOperation operation),
      known relation.name.value = some (answer relation.name.value) :=
    fun relation hrelation => hknown relation (List.mem_of_mem_filter hrelation)
  have hany : (relations.any fun relation =>
      relation.permitsOperation operation && answer relation.name.value) =
        (relations.filter (·.permitsOperation operation)).any fun relation =>
          answer relation.name.value := by
    rw [List.any_filter]
  rw [hany]
  unfold permittedBy
  cases hfilter : relations.filter (·.permitsOperation operation) with
  | nil =>
      have hevalFirst : Library.Userset.eval known related (computed first) =
          some (answer first.name.value) :=
        (Library.Userset.eval_computed _ _ _).trans (hknown first hfirst)
      exact Library.Userset.eval_difference_self hevalFirst
  | cons granting rest =>
      rw [hfilter] at hgranting
      cases rest with
      | nil =>
          show Library.Userset.eval known related (computed granting) = _
          unfold computed
          rw [Library.Userset.eval_computed, hgranting granting List.mem_cons_self]
          simp
      | cons second others =>
          have hnames : ∀ name ∈ (granting :: second :: others).map
              fun relation => relation.name.value, known name = some (answer name) := by
            intro name hname
            obtain ⟨relation, hrelation, rfl⟩ := List.mem_map.mp hname
            exact hgranting relation hrelation
          have hunion : Library.Userset.eval known related _ = _ :=
            Library.Userset.eval_union_computed hnames
          rw [List.map_map, List.any_map] at hunion
          exact hunion

/-- What a generated model answers is what the declaration grants. -/
theorem check_eq_some_true_iff (h : configuration.Declarable)
    (hall : TranslatesAll configuration.resources blocks) (tuples : List RelationTuple)
    (user object : Entity) (operation : OperationKind) {depth : Nat} (hdepth : 2 ≤ depth) :
    (AuthorizationModel.new (principalType :: blocks.flatten)).check tuples depth user
        operation.computedRelation object = some true ↔
      user.type = PRINCIPAL_TYPE ∧ Grants configuration tuples user operation object := by
  obtain ⟨depth, rfl⟩ : ∃ rest, depth = rest + 1 + 1 := ⟨depth - 2, by omega⟩
  have hnames := nodup_names h hall
  unfold AuthorizationModel.check AuthorizationModel.new
  dsimp only
  -- The types are told apart by name: the one asked for is none, the principal's, or of one
  -- declared resource.
  cases hfound : (principalType :: blocks.flatten).find? fun definition =>
      definition.name == object.type with
  | none =>
      refine ⟨(fun h => nomatch h), ?_⟩
      rintro ⟨-, declared, hdeclared, htype, -⟩
      obtain ⟨types, htypes, first, htranslates⟩ :=
        Library.exists_of_mem_of_forall₂ hall declared hdeclared
      have hmem := (mem_flatten hall).mpr ⟨declared, hdeclared, types, first,
        operation.isCollectionOperation, htranslates, htypes, rfl⟩
      exact absurd (beq_iff_eq.mpr htype.symm)
        (List.find?_eq_none.mp hfound _ (List.mem_cons_of_mem _ hmem))
  | some definition =>
      have hname : definition.name = object.type := beq_iff_eq.mp (List.find?_some hfound :)
      rw [Option.bind_some]
      rcases List.mem_cons.mp (List.mem_of_find?_eq_some hfound) with rfl | hmem
      · -- The principal type has no relations.
        have hundefined : principalType.relations[operation.computedRelation]? = none :=
          Std.ExtTreeMap.getElem?_empty
        rw [Library.Userset.holds_of_undefined hundefined]
        refine ⟨(fun h => nomatch h), ?_⟩
        rintro ⟨-, declared, hdeclared, htype, -⟩
        exact absurd (htype.symm.trans hname.symm)
          (typeName_ne_principal (h.each declared hdeclared) _)
      · obtain ⟨declared, hdeclared, types, first, collection, htranslates, -, rfl⟩ :=
          (mem_flatten hall).mp hmem
        have hdeclarable := h.each declared hdeclared
        have hgrants : Grants configuration tuples user operation object ↔
            operation.isCollectionOperation = collection ∧
              ∃ relation ∈ declared.relations, operation ∈ relation.permits ∧
                (⟨user, relation.name.value, object⟩ : RelationTuple) ∈ tuples := by
          constructor
          · rintro ⟨other, hother, htype, hrelation⟩
            obtain ⟨rfl, hcarried⟩ := typeName_injective h hdeclared hother (hname.trans htype)
            exact ⟨hcarried.symm, hrelation⟩
          · rintro ⟨hcarried, hrelation⟩
            exact ⟨declared, hdeclared, hcarried ▸ hname.symm, hrelation⟩
        rw [hgrants]
        have hdefined := relations_computed hdeclarable first collection operation
        -- The type of a collection has the collection's operations, the other type the rest.
        by_cases hcarried : operation.isCollectionOperation = collection
        · rw [if_pos hcarried] at hdefined
          rw [Library.Userset.holds_of_defined hdefined, eval_permittedBy htranslates.mem
            (fun relation hrelation => Library.Userset.holds_direct
              (relations_direct hdeclarable hrelation first collection) depth)]
          simp only [Option.some.injEq, List.any_eq_true, Bool.and_eq_true,
            Relation.permitsOperation, TypeDefinition.related, List.contains_iff_mem,
            assigns_iff hdeclarable, hcarried, true_and]
          constructor
          · rintro ⟨relation, hrelation, hpermits, htuple, hprincipal, -⟩
            exact ⟨hprincipal, relation, hrelation, hpermits, htuple⟩
          · rintro ⟨hprincipal, relation, hrelation, hpermits, htuple⟩
            exact ⟨relation, hrelation, hpermits, htuple, hprincipal, relation, hrelation, rfl⟩
        · rw [if_neg hcarried] at hdefined
          rw [Library.Userset.holds_of_undefined hdefined]
          exact ⟨(fun h => nomatch h), fun h => absurd h.2.1 hcarried⟩

end Types

end Fga
end SaasFabric
