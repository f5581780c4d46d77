import Mathlib.Tactic.Common
import SaasFabric.Connector.TenantScoping
import SaasFabric.Ndc.MutationCall

/-!
# A key value is implied by the predicate

A keyed procedure is told a key beside its predicate.  The value is one the whole predicate
demands of the field, so the rows the predicate selects have it; and where the field is the
tenant discriminator, the platform's own clause is among those that demand it.
-/

namespace SaasFabric
namespace Ndc

/-! ## One demanded value -/

/-- What is kept is among what there was, and everything there was equals something kept. -/
theorem foldl_distinct {kept values : List Value} :
    let distinct := values.foldl (fun distinct value =>
      if distinct.any (·.equals value) then distinct else distinct ++ [value]) kept
    (∀ value ∈ distinct, value ∈ kept ∨ value ∈ values) ∧
      (∀ value ∈ kept, value ∈ distinct) ∧
        ∀ value ∈ values, ∃ held ∈ distinct, held.equals value = true := by
  induction values generalizing kept with
  | nil => exact ⟨fun _ => Or.inl, fun _ hvalue => hvalue, nofun⟩
  | cons first values ih =>
      dsimp only
      rw [List.foldl_cons]
      split
      · rename_i hany
        obtain ⟨hfrom, hkept, hall⟩ := @ih kept
        refine ⟨fun value hvalue => ?_, hkept, List.forall_mem_cons.mpr ⟨?_, hall⟩⟩
        · exact (hfrom value hvalue).imp_right (List.mem_cons_of_mem _)
        · obtain ⟨held, hheld, hequals⟩ := List.any_eq_true.mp hany
          exact ⟨held, hkept held hheld, hequals⟩
      · obtain ⟨hfrom, hkept, hall⟩ := @ih (kept ++ [first])
        refine ⟨fun value hvalue => ?_, fun value hvalue => ?_,
          List.forall_mem_cons.mpr ⟨⟨first, ?_, first.equals_self⟩, hall⟩⟩
        · rcases hfrom value hvalue with hmem | hrest
          · rcases List.mem_append.mp hmem with hmem | hmem
            · exact Or.inl hmem
            · exact Or.inr (List.mem_singleton.mp hmem ▸ List.mem_cons_self)
          · exact Or.inr (List.mem_cons_of_mem _ hrest)
        · exact hkept value (List.mem_append_left _ hvalue)
        · exact hkept first (List.mem_append_right _ (List.mem_singleton.mpr rfl))

/-- The one value an extraction gives is demanded of the field, and equals every value that is. -/
theorem singleEquality_eq_ok {filter : Filter} {field : String} {value : Value}
    (h : singleEquality filter field = .ok value) :
    value ∈ directEqualities filter field ∧
      ∀ other ∈ directEqualities filter field, value.equals other = true := by
  obtain ⟨hfrom, -, hall⟩ := @foldl_distinct [] (directEqualities filter field)
  unfold singleEquality distinctValues at h
  split at h
  · cases h
  · rename_i held hheld
    cases h
    rw [hheld] at hfrom hall
    constructor
    · exact (hfrom value (List.mem_singleton.mpr rfl)).resolve_left List.not_mem_nil
    · intro other hother
      obtain ⟨same, hsame, hequals⟩ := hall other hother
      rwa [List.mem_singleton.mp hsame] at hequals
  · cases h

/-! ## What a predicate demands -/

theorem equalityOn_eq_some {field : String} {filter : Filter} {value : Value} :
    equalityOn field filter = some value ↔
      ∃ name : FieldName, name.value = field ∧ filter = .compare name .equal value := by
  constructor
  · intro h
    unfold equalityOn at h
    split at h
    · rename_i name held
      split at h
      · rename_i hname
        cases h
        exact ⟨name, hname, rfl⟩
      · cases h
    · cases h
  · rintro ⟨name, rfl, rfl⟩
    simp [equalityOn]

/-- A demanded value is that of an equality: the predicate itself, or a clause of its outermost
conjunction. -/
theorem mem_directEqualities {filter : Filter} {field : String} {value : Value} :
    value ∈ directEqualities filter field ↔ ∃ name : FieldName, name.value = field ∧
      (filter = .compare name .equal value ∨
        ∃ clauses, filter = .and clauses ∧ Filter.compare name .equal value ∈ clauses) := by
  unfold directEqualities
  split
  · rename_i clauses
    rw [List.mem_filterMap]
    constructor
    · rintro ⟨clause, hclause, hvalue⟩
      obtain ⟨name, hname, rfl⟩ := equalityOn_eq_some.mp hvalue
      exact ⟨name, hname, Or.inr ⟨clauses, rfl, hclause⟩⟩
    · rintro ⟨name, hname, hsame | ⟨others, hsame, hclause⟩⟩
      · cases hsame
      · cases hsame
        exact ⟨_, hclause, equalityOn_eq_some.mpr ⟨name, hname, rfl⟩⟩
  · rename_i hand
    rw [Option.mem_toList, equalityOn_eq_some]
    constructor
    · rintro ⟨name, hname, hsame⟩
      exact ⟨name, hname, Or.inl hsame⟩
    · rintro ⟨name, hname, hsame | ⟨clauses, hsame, -⟩⟩
      · exact ⟨name, hname, hsame⟩
      · exact absurd hsame (hand clauses)

/-- A row that matches a predicate has every value the predicate demands. -/
theorem compare_of_mem_directEqualities {filter : Filter} {field : String} {value : Value}
    (h : value ∈ directEqualities filter field) :
    ∃ name : FieldName, name.value = field ∧ ∀ S row, filter.Selects S row →
      S.compare .equal (row.get name) value = .true := by
  obtain ⟨name, hname, rfl | ⟨clauses, rfl, hclause⟩⟩ := mem_directEqualities.mp h
  · refine ⟨name, hname, fun S row hselects => ?_⟩
    rw [Filter.Selects, Filter.eval_compare] at hselects
    exact hselects
  · refine ⟨name, hname, fun S row hselects => ?_⟩
    rw [Filter.Selects, Filter.eval, Filter.evalBy_and, Library.Truth.all_eq_true] at hselects
    have hclause := hselects _ (List.mem_map_of_mem hclause)
    rw [Filter.evalBy_compare] at hclause
    exact hclause

/-- A predicate joined to the caller's is demanded by the whole, however the caller's was
nested. -/
theorem mem_directEqualities_conjoin (caller : Option Filter) (column : FieldName)
    (value : Value) :
    value ∈ directEqualities (conjoin caller (.compare column .equal value)) column.value := by
  rw [mem_directEqualities]
  refine ⟨column, rfl, ?_⟩
  cases caller with
  | none => exact Or.inl rfl
  | some filter =>
      right
      cases filter with
      | and clauses => exact ⟨clauses ++ [_], rfl, by simp⟩
      | or clauses => exact ⟨[.or clauses, _], rfl, by simp⟩
      | not clause => exact ⟨[.not clause, _], rfl, by simp⟩
      | compare field operator other => exact ⟨[.compare field operator other, _], rfl, by simp⟩
      | isNull field => exact ⟨[.isNull field, _], rfl, by simp⟩
      | «in» field values => exact ⟨[.in field values, _], rfl, by simp⟩

/-! ## What is sent -/

/-- A mapped key is sent with the value the predicate demands of its field. -/
theorem addKeyArguments_sends {binding : ProcedureBinding} {spec : MutationSpec}
    {filter : Filter} {entries : List (String × String)}
    {arguments result : BTreeMap String Value} {field name : String}
    (h : entries.foldlM (addKeyArgument binding filter spec) arguments = .ok result)
    (hentry : (field, name) ∈ entries) :
    ∃ value, singleEquality filter field = .ok value ∧ result[name]? = some value := by
  induction entries generalizing arguments with
  | nil => cases hentry
  | cons entry entries ih =>
      rw [List.foldlM_cons, Library.bind_eq_ok] at h
      obtain ⟨next, hnext, hrest⟩ := h
      rcases List.mem_cons.mp hentry with rfl | hlater
      · obtain ⟨-, value, hvalue, rfl⟩ := addKeyArgument_eq_ok hnext
        -- No later key is added under a name that is taken.
        have hkept := (foldlM_addKeyArgument_eq_ok hrest).1 name value
        exact ⟨value, hvalue, hkept (Library.getElem?_insert_self _ _ _)⟩
      · exact ih hrest hlater

/-- The mapping of an update or a delete; an insert has no predicate to read a key from. -/
def predicateBinding (procedures : CollectionProcedures) : MutationSpec → Option ProcedureBinding
  | .insert _ _ => none
  | .update _ _ _ => procedures.update
  | .delete _ _ => procedures.delete

/-- Scoped by a discriminator, an update and a delete are sent with the keys their conjoined
predicate demands. -/
theorem procedureArguments_forTarget {spec : MutationSpec} {target : ExecutionTarget}
    {column : FieldName} {tenant : String}
    (htarget : target.isolation = .discriminator column tenant)
    {procedures : CollectionProcedures} {index : SchemaIndex} {binding sent : ProcedureBinding}
    {arguments : BTreeMap String Value}
    (hbinding : predicateBinding procedures spec = some binding)
    (h : procedureArguments (spec.forTarget target) procedures index = .ok (sent, arguments)) :
    ∃ caller before, addKeyArguments before binding
      (conjoin caller (.compare column .equal (.string tenant))) (spec.forTarget target) =
        .ok arguments := by
  cases spec with
  | insert collection rows => cases hbinding
  | update collection filter changes =>
      simp only [MutationSpec.forTarget, htarget, IsolationModel.tenantPredicate] at h ⊢
      obtain ⟨hsent, payloadName, filterName, predicate, expression, -, -, hpredicate, -, hkeys⟩ :=
        procedureArguments_update h
      have hsame : sent = binding := Option.some.inj (hsent.symm.trans hbinding)
      cases hpredicate
      rw [hsame] at hkeys
      exact ⟨filter, _, hkeys⟩
  | delete collection filter =>
      simp only [MutationSpec.forTarget, htarget, IsolationModel.tenantPredicate] at h ⊢
      obtain ⟨hsent, filterName, predicate, expression, -, hpredicate, -, hkeys⟩ :=
        procedureArguments_delete h
      have hsame : sent = binding := Option.some.inj (hsent.symm.trans hbinding)
      cases hpredicate
      rw [hsame] at hkeys
      exact ⟨filter, _, hkeys⟩

theorem collection_forTarget (spec : MutationSpec) (target : ExecutionTarget) :
    (spec.forTarget target).collection = spec.collection := by
  unfold MutationSpec.forTarget
  split
  · rfl
  · cases spec <;> rfl

/-- A key value sent to a keyed procedure is implied by the predicate, and names the tenant
where the key is the discriminator: every row a filter selects has the value that is extracted
from it, as the store compares and, in a text column or a plain store, to the letter; and a
scoped update or delete whose mapping sends the discriminator column as a key sends the
tenant's own value, whatever the caller's predicate was. -/
theorem key_value_is_implied :
    (∀ filter field value, singleEquality filter field = .ok value →
      ∃ name : FieldName, name.value = field ∧
        (∀ S row, filter.Selects S row → S.compare .equal (row.get name) value = .true) ∧
        (∀ S row text, value = .string text → filter.Selects S row →
          row.get name = some value) ∧
        ∀ row, filter.Selects .plain row → row.get name = some value) ∧
    (∀ spec target column tenant requestArguments config index procedures binding argument
        request, target.isolation = .discriminator column tenant →
      config.procedures[spec.collection.value]? = some procedures →
      predicateBinding procedures spec = some binding →
      binding.keyArguments[column.value]? = some argument →
      toMutationRequest (spec.forTarget target) requestArguments config index = .ok request →
      ∃ operation, request.operations = [operation] ∧
        operation.arguments[argument]? = some (.string tenant)) := by
  constructor
  · intro filter field value h
    have hdemanded := (singleEquality_eq_ok h).1
    obtain ⟨name, hname, hall⟩ := compare_of_mem_directEqualities hdemanded
    refine ⟨name, hname, hall, ?_, ?_⟩
    · rintro S row text rfl hselects
      exact (S.compare_equal_string _ _).mp (hall S row hselects)
    · intro row hselects
      have hequal := hall .plain row hselects
      cases hcell : row.get name with
      | none =>
          rw [hcell] at hequal
          cases hequal
      | some held =>
          rw [hcell] at hequal
          have hheld : held = value := by simpa [FilterSemantics.plain] using hequal
          rw [hheld]
  · intro spec target column tenant requestArguments config index procedures binding argument
      request htarget hprocedures hbinding hkey h
    unfold toMutationRequest at h
    rw [collection_forTarget, hprocedures] at h
    simp only [Library.bind_eq_ok] at h
    obtain ⟨⟨sent, arguments⟩, harguments, -, -, hok⟩ := h
    cases hok
    obtain ⟨caller, before, hkeys⟩ := procedureArguments_forTarget htarget hbinding harguments
    obtain ⟨value, hvalue, hheld⟩ :=
      addKeyArguments_sends hkeys (Std.ExtTreeMap.mem_toList_iff_getElem?_eq_some.mpr hkey)
    -- The platform's own clause is among the demanded ones, so it is the one that is left.
    have hown := mem_directEqualities_conjoin caller column (.string tenant)
    have hsame := Value.equals_string_iff.mp ((singleEquality_eq_ok hvalue).2 _ hown)
    exact ⟨_, rfl, by rw [← hsame]; exact hheld⟩

/-- A mapping that sends the discriminator column as a key. -/
def tenantKeyedConfig : NdcConnectorConfig :=
  { ordersConfig with
    procedures := Library.collect [("orders", {
      insert := none
      update := some {
        procedure := "update_orders"
        payloadArgument := some "columns"
        filterArgument := some "check"
        keyArguments := Library.collect [("tenant_key", "key_id")]
        payloadShape := .setOperations }
      delete := none })] }

/-- A caller's predicate that names tenants itself, beside a disjunction. -/
def crowdedFilter : Filter :=
  .and [.compare tenantKey .equal (.string "acme"),
    .or [.compare tenantKey .equal (.string "globex"),
      .compare ⟨"id", idField_accepted⟩ .equal (.string "7")]]

def crowdedUpdate : MutationSpec :=
  .update ⟨"orders", ordersCollection_accepted⟩ (some crowdedFilter) Row.new

/-- One of the rows it matches. -/
def acmeOrder : Row :=
  (Row.new.with ⟨"id", idField_accepted⟩ (.string "7")).with tenantKey (.string "acme")

/-- The key that is sent is the tenant's, and a row that matches has the value extracted. -/
theorem crowded_update_sends_the_tenant_key :
    (∃ name : FieldName, name.value = "tenant_key" ∧
      acmeOrder.get name = some (.string "acme")) ∧
    ∃ request operation, toMutationRequest (crowdedUpdate.forTarget acmeTarget) none
        tenantKeyedConfig (.build ordersSchema) = .ok request ∧
      request.operations = [operation] ∧
      operation.arguments[("key_id" : String)]? = some (.string "acme") := by
  constructor
  · obtain ⟨name, hname, -, -, hplain⟩ :=
      key_value_is_implied.1 crowdedFilter "tenant_key" (.string "acme") rfl
    exact ⟨name, hname, hplain acmeOrder (by decide +kernel)⟩
  · obtain ⟨operation, hoperation, hvalue⟩ :=
      key_value_is_implied.2 crowdedUpdate acmeTarget tenantKey "acme" none tenantKeyedConfig
        (.build ordersSchema) _ _ "key_id" _ rfl rfl rfl rfl rfl
    exact ⟨_, operation, rfl, hoperation, hvalue⟩

end Ndc
end SaasFabric
