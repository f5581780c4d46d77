import Mathlib.Tactic.Common
import SaasFabric.Ndc.Mutation

/-!
# A checked mapping sends well-formed, scoped calls

A configuration that validates and passes the three start-up checks against a schema
turns a mutation into a call the schema declares: of a declared procedure, with
declared arguments, all the required ones among them, the whole predicate under a
predicate argument, and the payload as it was given.
-/

namespace SaasFabric
namespace Ndc

/-! ## What each step of the assembly puts where -/

section Assembly

variable {binding : ProcedureBinding} {spec : MutationSpec}

/-- A key is added under a name nothing was written to yet. -/
theorem addKeyArgument_eq_ok {filter : Filter} {arguments result : BTreeMap String Value}
    {field name : String}
    (h : addKeyArgument binding filter spec arguments (field, name) = .ok result) :
    arguments[name]? = none ∧
      ∃ value, singleEquality filter field = .ok value ∧ result = arguments.insert name value := by
  unfold addKeyArgument at h
  dsimp only at h
  split at h
  · cases h
  · rename_i value hvalue
    split at h
    · cases h
    · rename_i hfree
      cases h
      exact ⟨by simpa using hfree, value, hvalue, rfl⟩

/-- Adding keys leaves what was there, and adds exactly the names of the keys. -/
theorem foldlM_addKeyArgument_eq_ok {filter : Filter} {entries : List (String × String)}
    {arguments result : BTreeMap String Value}
    (h : entries.foldlM (addKeyArgument binding filter spec) arguments = .ok result) :
    (∀ (name : String) value, arguments[name]? = some value → result[name]? = some value) ∧
    (∀ name : String, (result[name]?).isSome ↔
      (arguments[name]?).isSome ∨ ∃ field, (field, name) ∈ entries) := by
  induction entries generalizing arguments with
  | nil =>
      cases h
      simp
  | cons entry entries ih =>
      rw [List.foldlM_cons, Library.bind_eq_ok] at h
      obtain ⟨next, hentry, hrest⟩ := h
      obtain ⟨field, added⟩ := entry
      obtain ⟨hfree, value, -, rfl⟩ := addKeyArgument_eq_ok hentry
      obtain ⟨hkept, hnames⟩ := ih hrest
      constructor
      · intro name held hheld
        refine hkept name held ?_
        rw [Library.getElem?_insert_ne _ _ ?_, hheld]
        rintro rfl
        rw [hfree] at hheld
        cases hheld
      · intro name
        rw [hnames]
        by_cases hname : added = name
        · subst hname
          simp
        · rw [Library.getElem?_insert_ne _ _ hname]
          simp [Ne.symm hname]

/-- The same, of the keys of a mapping. -/
theorem addKeyArguments_eq_ok {filter : Filter} {arguments result : BTreeMap String Value}
    (h : addKeyArguments arguments binding filter spec = .ok result) :
    (∀ (name : String) value, arguments[name]? = some value → result[name]? = some value) ∧
    (∀ name : String, (result[name]?).isSome ↔
      (arguments[name]?).isSome ∨ name ∈ binding.keyNames) := by
  obtain ⟨hkept, hnames⟩ := foldlM_addKeyArgument_eq_ok h
  refine ⟨hkept, fun name => (hnames name).trans ?_⟩
  simp [ProcedureBinding.keyNames]

theorem require_eq_ok {binding : Option ProcedureBinding} {feature : UnsupportedFeature}
    {operation collection : String} {required : ProcedureBinding}
    (h : require binding feature operation collection = .ok required) :
    binding = some required := by
  unfold require at h
  split at h
  · cases h
    rfl
  · cases h

theorem payload_eq_ok {value : Value} {arguments : BTreeMap String Value}
    (h : payload binding value = .ok arguments) :
    ∃ name, binding.payloadArgument = some name ∧
      arguments = (∅ : BTreeMap String Value).insert name value := by
  unfold payload at h
  split at h
  · rename_i name hname
    cases h
    exact ⟨name, hname, rfl⟩
  · cases h

theorem addPredicate_eq_ok {index : SchemaIndex} {arguments built : BTreeMap String Value}
    {filter : Option Filter} {predicate : Filter}
    (h : addPredicate arguments binding filter spec index = .ok (built, predicate)) :
    ∃ name expression, binding.filterArgument = some name ∧ filter = some predicate ∧
      toExpression spec.collection predicate index = .ok expression ∧
      built = arguments.insert name expression.toValue := by
  unfold addPredicate at h
  split at h
  · cases h
  · rename_i name hname
    split at h
    · cases h
    · rename_i filter
      rw [Library.bind_eq_ok] at h
      obtain ⟨expression, hexpression, hok⟩ := h
      cases hok
      exact ⟨name, expression, hname, rfl, hexpression, rfl⟩

end Assembly

/-! ## What each verb sends -/

section Verbs

variable {procedures : CollectionProcedures} {index : SchemaIndex}
  {binding : ProcedureBinding} {arguments : BTreeMap String Value}

/-- An insert goes by the insert mapping, and sends its rows as the payload and nothing
else. -/
theorem procedureArguments_insert {collection : CollectionName} {rows : List Row}
    (h : procedureArguments (.insert collection rows) procedures index =
      .ok (binding, arguments)) :
    procedures.insert = some binding ∧
      ∃ name, binding.payloadArgument = some name ∧
        arguments = (∅ : BTreeMap String Value).insert name (.array (rows.map rowToJson)) := by
  unfold procedureArguments at h
  dsimp only at h
  simp only [Library.bind_eq_ok] at h
  obtain ⟨required, hrequired, built, hbuilt, hok⟩ := h
  cases hok
  exact ⟨require_eq_ok hrequired, payload_eq_ok hbuilt⟩

/-- An update goes by the update mapping, and sends its changes, its predicate and its
keys. -/
theorem procedureArguments_update {collection : CollectionName} {filter : Option Filter}
    {changes : Row}
    (h : procedureArguments (.update collection filter changes) procedures index =
      .ok (binding, arguments)) :
    procedures.update = some binding ∧
      ∃ payloadName filterName predicate expression,
        binding.payloadArgument = some payloadName ∧
        binding.filterArgument = some filterName ∧
        filter = some predicate ∧
        toExpression collection predicate index = .ok expression ∧
        addKeyArguments
          (((∅ : BTreeMap String Value).insert payloadName
            (shapedRowToJson changes binding.payloadShape)).insert filterName
              expression.toValue)
          binding predicate (.update collection filter changes) = .ok arguments := by
  unfold procedureArguments at h
  dsimp only at h
  simp only [Library.bind_eq_ok] at h
  obtain ⟨required, hrequired, built, hbuilt, ⟨built', predicate⟩, hbuilt', all, hall, hok⟩ := h
  cases hok
  obtain ⟨payloadName, hpayload, rfl⟩ := payload_eq_ok hbuilt
  obtain ⟨filterName, expression, hfilter, hpredicate, hexpression, rfl⟩ :=
    addPredicate_eq_ok hbuilt'
  exact ⟨require_eq_ok hrequired, payloadName, filterName, predicate, expression, hpayload,
    hfilter, hpredicate, hexpression, hall⟩

/-- A delete goes by the delete mapping, and sends its predicate and its keys. -/
theorem procedureArguments_delete {collection : CollectionName} {filter : Option Filter}
    (h : procedureArguments (.delete collection filter) procedures index =
      .ok (binding, arguments)) :
    procedures.delete = some binding ∧
      ∃ filterName predicate expression,
        binding.filterArgument = some filterName ∧
        filter = some predicate ∧
        toExpression collection predicate index = .ok expression ∧
        addKeyArguments ((∅ : BTreeMap String Value).insert filterName expression.toValue)
          binding predicate (.delete collection filter) = .ok arguments := by
  unfold procedureArguments at h
  dsimp only at h
  simp only [Library.bind_eq_ok] at h
  obtain ⟨required, hrequired, ⟨built', predicate⟩, hbuilt', all, hall, hok⟩ := h
  cases hok
  obtain ⟨filterName, expression, hfilter, hpredicate, hexpression, rfl⟩ :=
    addPredicate_eq_ok hbuilt'
  exact ⟨require_eq_ok hrequired, filterName, predicate, expression, hfilter, hpredicate,
    hexpression, hall⟩

/-- The mapping of a mutation's verb. -/
def verbBinding (procedures : CollectionProcedures) : MutationSpec → Option ProcedureBinding
  | .insert _ _ => procedures.insert
  | .update _ _ _ => procedures.update
  | .delete _ _ => procedures.delete

/-- The mapping a mutation goes by is the one of its verb. -/
theorem verbBinding_of_procedureArguments {spec : MutationSpec}
    (h : procedureArguments spec procedures index = .ok (binding, arguments)) :
    verbBinding procedures spec = some binding := by
  cases spec with
  | insert collection rows => exact (procedureArguments_insert h).1
  | update collection filter changes => exact (procedureArguments_update h).1
  | delete collection filter => exact (procedureArguments_delete h).1

theorem mem_all_of_procedureArguments {spec : MutationSpec}
    (h : procedureArguments spec procedures index = .ok (binding, arguments)) :
    (spec.operationName, some binding) ∈ procedures.all := by
  rw [← verbBinding_of_procedureArguments h]
  cases spec <;> simp [CollectionProcedures.all, MutationSpec.operationName, verbBinding]

/-- What a mutation sends is, name for name, what the start-up check counts its mapping
as supplying. -/
theorem isSome_arguments_iff_mem_supplied {spec : MutationSpec}
    (h : procedureArguments spec procedures index = .ok (binding, arguments)) (name : String) :
    (arguments[name]?).isSome ↔ name ∈ suppliedArguments binding spec.operationName := by
  cases spec with
  | insert collection rows =>
      obtain ⟨-, payloadName, hpayload, rfl⟩ := procedureArguments_insert h
      rw [Library.isSome_insert_iff]
      simp [MutationSpec.operationName, hpayload]
  | update collection filter changes =>
      obtain ⟨-, payloadName, filterName, predicate, expression, hpayload, hfilter, -, -, hkeys⟩ :=
        procedureArguments_update h
      rw [(addKeyArguments_eq_ok hkeys).2 name, Library.isSome_insert_iff,
        Library.isSome_insert_iff]
      simp [MutationSpec.operationName, hpayload, hfilter,
        or_left_comm, or_assoc]
  | delete collection filter =>
      obtain ⟨-, filterName, predicate, expression, hfilter, -, -, hkeys⟩ :=
        procedureArguments_delete h
      rw [(addKeyArguments_eq_ok hkeys).2 name, Library.isSome_insert_iff]
      simp [MutationSpec.operationName, hfilter]

end Verbs

/-! ## What a call is to be -/

section Call

variable (schema : NdcSchemaResponse) (binding : ProcedureBinding)

/-- The argument a mapping names carries a value, and its declared type is of a kind. -/
def Carries (operation : NdcMutationOperation) (kind : ArgumentKind) (argument : Option String)
    (value : Value) : Prop :=
  ∃ name argumentType, argument = some name ∧ operation.arguments[name]? = some value ∧
    schema.argumentOf operation.name name = some argumentType ∧ kindOf argumentType = kind

/-- An update or a delete carries its whole filter, translated, under the mapping's own filter
argument, a predicate. -/
def CarriesPredicate (spec : MutationSpec) (operation : NdcMutationOperation) : Prop :=
  let carries (collection : CollectionName) (filter : Option Filter) :=
    ∃ predicate expression, filter = some predicate ∧
      toExpression collection predicate (.build schema) = .ok expression ∧
      Carries schema operation .predicate binding.filterArgument expression.toValue
  match spec with
  | .insert _ _ => True
  | .update collection filter _ => carries collection filter
  | .delete collection filter => carries collection filter

/-- An insert carries every row and an update its changes, in the mapping's shape, under the
mapping's own payload argument, which is no predicate. -/
def CarriesPayload (spec : MutationSpec) (operation : NdcMutationOperation) : Prop :=
  match spec with
  | .insert _ rows =>
      Carries schema operation .value binding.payloadArgument (.array (rows.map rowToJson))
  | .update _ _ changes =>
      Carries schema operation .value binding.payloadArgument
        (shapedRowToJson changes binding.payloadShape)
  | .delete _ _ => True

/-- A call the connector can take and that reaches only what the mutation selects. -/
structure WellFormedCall (spec : MutationSpec) (operation : NdcMutationOperation) : Prop where
  procedure : operation.name = binding.procedure
  procedure_declared : (schema.procedureOf operation.name).isSome
  arguments_declared : ∀ name : String, (operation.arguments[name]?).isSome →
    (schema.argumentOf operation.name name).isSome
  required_carried : ∀ (name : String) argumentType,
    schema.argumentOf operation.name name = some argumentType →
      isNullable argumentType = false → (operation.arguments[name]?).isSome
  carriesPredicate : CarriesPredicate schema binding spec operation
  carriesPayload : CarriesPayload schema binding spec operation

end Call

/-! ## A checked mapping -/

section Checked

variable {config : NdcConnectorConfig} {schema : NdcSchemaResponse} {spec : MutationSpec}
  {procedures : CollectionProcedures} {binding : ProcedureBinding}
  {arguments : BTreeMap String Value} {operation : NdcMutationOperation}
  (hvalid : config.validate = .ok ())
  (hprocedureArguments : checkProcedureArguments config (.build schema) = .ok ())
  (hkeyArguments : checkKeyArguments config (.build schema) = .ok ())
  (hrequiredArguments : checkRequiredArguments config (.build schema) = .ok ())
  (hprocedures : config.procedures[spec.collection.value]? = some procedures)
  (h : procedureArguments spec procedures (.build schema) = .ok (binding, arguments))
  (hname : operation.name = binding.procedure) (harguments : operation.arguments = arguments)

include hprocedureArguments hkeyArguments hprocedures h in
/-- Everything that is sent is declared: the payload, the predicate and every key. -/
theorem argumentOf_isSome_of_sent {name : String} (hsent : (arguments[name]?).isSome) :
    (schema.argumentOf binding.procedure name).isSome := by
  have hbinding := mem_all_of_procedureArguments h
  have hpayload : binding.payloadArgument = some name →
      (schema.argumentOf binding.procedure name).isSome :=
    argumentOf_payload hprocedures hbinding hprocedureArguments
  have hfilter : binding.filterArgument = some name →
      (schema.argumentOf binding.procedure name).isSome := by
    intro hfilter
    obtain ⟨argumentType, hargument, -⟩ :=
      argumentOf_filter hprocedures hbinding hprocedureArguments hfilter
    rw [hargument]
    rfl
  have hkey : name ∈ binding.keyNames →
      (schema.argumentOf binding.procedure name).isSome := by
    intro hmem
    obtain ⟨⟨field, held⟩, hentry, rfl⟩ := List.mem_map.mp hmem
    exact argumentOf_key hprocedures hbinding hkeyArguments
      (Std.ExtTreeMap.mem_toList_iff_getElem?_eq_some.mp hentry)
  rw [isSome_arguments_iff_mem_supplied h] at hsent
  cases spec with
  | insert collection rows =>
      exact hpayload (by simpa [MutationSpec.operationName] using hsent)
  | update collection filter changes =>
      simp only [MutationSpec.operationName, suppliedArguments_update, List.mem_append,
        Option.mem_toList] at hsent
      rcases hsent with (hmem | hmem) | hmem
      · exact hpayload hmem
      · exact hfilter hmem
      · exact hkey hmem
  | delete collection filter =>
      simp only [MutationSpec.operationName, suppliedArguments_delete, List.mem_append,
        Option.mem_toList] at hsent
      rcases hsent with hmem | hmem
      · exact hfilter hmem
      · exact hkey hmem

include hprocedureArguments hprocedures h hname harguments in
/-- An update or a delete carries its whole predicate: no key takes its place. -/
theorem carriesPredicate_of_checked : CarriesPredicate schema binding spec operation := by
  have hbinding := mem_all_of_procedureArguments h
  have hcarries : ∀ {filterName : String} {value : Value},
      binding.filterArgument = some filterName → arguments[filterName]? = some value →
        Carries schema operation .predicate binding.filterArgument value := by
    intro filterName value hfilter hheld
    obtain ⟨argumentType, hargument, hkind⟩ :=
      argumentOf_filter hprocedures hbinding hprocedureArguments hfilter
    exact ⟨filterName, argumentType, hfilter, by rw [harguments, hheld],
      by rw [hname, hargument], hkind⟩
  cases spec with
  | insert collection rows => trivial
  | update collection filter changes =>
      obtain ⟨-, payloadName, filterName, predicate, expression, -, hfilter, hpredicate,
        hexpression, hkeys⟩ := procedureArguments_update h
      refine ⟨predicate, expression, hpredicate, hexpression, hcarries hfilter ?_⟩
      exact (addKeyArguments_eq_ok hkeys).1 _ _ (Library.getElem?_insert_self _ _ _)
  | delete collection filter =>
      obtain ⟨-, filterName, predicate, expression, hfilter, hpredicate, hexpression, hkeys⟩ :=
        procedureArguments_delete h
      refine ⟨predicate, expression, hpredicate, hexpression, hcarries hfilter ?_⟩
      exact (addKeyArguments_eq_ok hkeys).1 _ _ (Library.getElem?_insert_self _ _ _)

include hvalid hprocedureArguments hprocedures h hname harguments in
/-- An insert or an update carries its payload: neither the predicate, which a valid
mapping names apart, nor a key takes its place. -/
theorem carriesPayload_of_checked : CarriesPayload schema binding spec operation := by
  have hbinding := mem_all_of_procedureArguments h
  have hcarries : ∀ {payloadName : String} {value : Value},
      binding.payloadArgument = some payloadName → arguments[payloadName]? = some value →
        Carries schema operation .value binding.payloadArgument value := by
    intro payloadName value hpayload hheld
    have hrequirement : ("payload_argument", some payloadName, ArgumentKind.value) ∈
        requirements binding := by
      simp [requirements, hpayload]
    obtain ⟨argumentType, hargument, hkind⟩ :=
      argumentOf_of_requirement hprocedures hbinding hprocedureArguments hrequirement
    exact ⟨payloadName, argumentType, hpayload, by rw [harguments, hheld],
      by rw [hname, hargument], hkind⟩
  cases spec with
  | insert collection rows =>
      obtain ⟨-, payloadName, hpayload, rfl⟩ := procedureArguments_insert h
      exact hcarries hpayload (Library.getElem?_insert_self _ _ _)
  | update collection filter changes =>
      obtain ⟨-, payloadName, filterName, predicate, expression, hpayload, hfilter, -, -,
        hkeys⟩ := procedureArguments_update h
      have hapart : filterName ≠ payloadName :=
        (NdcConnectorConfig.payload_ne_filter_of_validate hvalid hprocedures hbinding hpayload
          hfilter).symm
      refine hcarries hpayload ?_
      refine (addKeyArguments_eq_ok hkeys).1 _ _ ?_
      rw [Library.getElem?_insert_ne _ _ hapart]
      exact Library.getElem?_insert_self _ _ _
  | delete collection filter => trivial

end Checked

/-- A write mapping that passes start-up never sends a malformed or unscoped procedure
call: whatever mutation it is given, a request it makes is one well-formed call by the mapping
of its verb; and a payload it carries can be read back. -/
theorem toMutationRequest_wellFormed (config : NdcConnectorConfig) (schema : NdcSchemaResponse)
    (spec : MutationSpec) (requestArguments : Option (BTreeMap String Value))
    (request : NdcMutationRequest)
    (hvalid : config.validate = .ok ())
    (hprocedureArguments : checkProcedureArguments config (.build schema) = .ok ())
    (hkeyArguments : checkKeyArguments config (.build schema) = .ok ())
    (hrequiredArguments : checkRequiredArguments config (.build schema) = .ok ())
    (h : toMutationRequest spec requestArguments config (.build schema) = .ok request) :
    (∃ procedures binding operation,
      config.procedures[spec.collection.value]? = some procedures ∧
        verbBinding procedures spec = some binding ∧ request.operations = [operation] ∧
          WellFormedCall schema binding spec operation) ∧
      ∀ shape, Function.Injective (shapedRowToJson · shape) := by
  refine ⟨?_, shapedRowToJson_injective⟩
  unfold toMutationRequest at h
  split at h
  · cases h
  · rename_i procedures hprocedures
    simp only [Library.bind_eq_ok] at h
    obtain ⟨⟨binding, arguments⟩, harguments, -, -, hok⟩ := h
    cases hok
    have hbinding := mem_all_of_procedureArguments harguments
    exact ⟨procedures, binding, _, hprocedures, verbBinding_of_procedureArguments harguments, rfl, {
      procedure := rfl
      procedure_declared := procedureOf_isSome_of_check hprocedures hbinding hprocedureArguments
      arguments_declared := fun name hsent =>
        argumentOf_isSome_of_sent hprocedureArguments hkeyArguments hprocedures harguments hsent
      required_carried := fun name argumentType hargument hrequired =>
        (isSome_arguments_iff_mem_supplied harguments name).mpr
          (mem_supplied_of_required hprocedures hbinding hrequiredArguments hargument hrequired)
      carriesPredicate :=
        carriesPredicate_of_checked hprocedureArguments hprocedures harguments rfl rfl
      carriesPayload :=
        carriesPayload_of_checked hvalid hprocedureArguments hprocedures harguments rfl rfl }⟩

/-- A connector with one procedure: a keyed update. -/
def ordersSchema : NdcSchemaResponse where
  scalarTypes := Library.collect [("text", ⟨Library.collect [("_eq", .equal)]⟩)]
  objectTypes := Library.collect [("orders", ⟨Library.collect
    [("id", ⟨.named "text"⟩), ("tenant_key", ⟨.named "text"⟩)]⟩)]
  collections := [⟨"orders", "orders"⟩]
  procedures := [⟨"update_orders", Library.collect
    [("columns", ⟨.named "orders_set"⟩), ("key_id", ⟨.named "text"⟩),
      ("check", ⟨.predicate "orders"⟩)]⟩]

/-- A mapping for it. -/
def ordersConfig : NdcConnectorConfig where
  id := ⟨"warehouse", warehouse_accepted⟩
  endpoint := "http://connector:8080"
  httpTimeoutSeconds := 10
  httpConnectTimeoutSeconds := 5
  connectionNameArgument := none
  connectionStringArgument := none
  procedures := Library.collect [("orders", {
    insert := none
    update := some {
      procedure := "update_orders"
      payloadArgument := some "columns"
      filterArgument := some "check"
      keyArguments := Library.collect [("id", "key_id")]
      payloadShape := .setOperations }
    delete := none })]

theorem tenantKey_accepted : (IdentifierKind.fieldName.parse "tenant_key").isOk = true := by decide

/-- An update of one order, scoped to its tenant. -/
def ordersUpdate : MutationSpec :=
  .update ⟨"orders", ordersCollection_accepted⟩
    (some (.and [.compare ⟨"id", idField_accepted⟩ .equal (.string "7"),
      .compare ⟨"tenant_key", tenantKey_accepted⟩ .equal (.string "acme")]))
    (Row.new.with ⟨"tenant_key", tenantKey_accepted⟩ (.string "acme"))

/-- The call it becomes. -/
theorem orders_update_wellFormed :
    ∃ request, toMutationRequest ordersUpdate none ordersConfig (.build ordersSchema) =
        .ok request ∧
      ∃ procedures binding operation, ordersConfig.procedures["orders"]? = some procedures ∧
        verbBinding procedures ordersUpdate = some binding ∧ request.operations = [operation] ∧
          WellFormedCall ordersSchema binding ordersUpdate operation :=
  ⟨_, rfl, (toMutationRequest_wellFormed ordersConfig ordersSchema ordersUpdate none _
    rfl rfl rfl rfl rfl).1⟩

end Ndc
end SaasFabric
