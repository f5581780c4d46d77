import Mathlib.Tactic.Common
import SaasFabric.Ndc.Config
import SaasFabric.Ndc.SchemaIndex

/-!
# Checking a write mapping at start-up

`fabric-connector-ndc`'s `registration/`: the three checks a configuration's mappings
pass against the connector's schema before the connector serves anything, and what a
mapping that passed them may rely on.
-/

namespace SaasFabric
namespace Ndc

variable (config : NdcConnectorConfig) (index : SchemaIndex)

/-! ## Argument names -/

/-- `requirements`: each setting of a mapping with the kind its argument must have. -/
def requirements (binding : ProcedureBinding) : List (String × Option String × ArgumentKind) :=
  [("payload_argument", binding.payloadArgument, .value),
    ("filter_argument", binding.filterArgument, .predicate)]

/-- `declares`: what a refusal says a procedure declares. -/
def declares (procedure : String) : String :=
  let declared := index.declaredArguments procedure
  if declared.isEmpty then
    "declares no arguments at all"
  else
    "declares only: " ++ ", ".intercalate declared

/-- One setting of `check_procedure_arguments::check_binding`. -/
def checkSetting (where_ procedure setting : String) (argument : Option String)
    (required : ArgumentKind) : Except String Unit :=
  match argument with
  | none => .ok ()
  | some argument =>
      match index.procedureArgument procedure argument with
      | none =>
          .error (s!"{where_} names `{argument}` as its {setting}, but procedure " ++
            s!"`{procedure}` {declares index procedure}; an argument a procedure never " ++
            "declared may be silently ignored, which for a filter_argument means the write " ++
            "runs unscoped")
      | some kind =>
          if kind ≠ required then
            .error (s!"{where_} names `{argument}` as its {setting}, but procedure " ++
              s!"`{procedure}` declares that argument as {kind.describe}; a {setting} must " ++
              s!"be {required.describe}")
          else
            .ok ()

/-- `check_procedure_arguments::check_binding`. -/
def checkProcedureBinding (collection verb : String) (binding : ProcedureBinding) :
    Except String Unit :=
  let procedure := binding.procedure
  let where_ := s!"connector {config.id}: {collection}.{verb}"
  if index.hasProcedure procedure then
    (requirements binding).forM fun (setting, argument, required) =>
      checkSetting index where_ procedure setting argument required
  else
    .error (s!"{where_} maps to procedure `{procedure}`, which the connector's schema does " ++
      "not declare")

/-- `check_procedure_arguments`. -/
def checkProcedureArguments : Except String Unit :=
  config.forBindings CollectionProcedures.all (checkProcedureBinding config index)

/-! ## Key arguments -/

/-- `check_field_known`.  A collection the schema does not have is not this check's to
refuse. -/
def checkFieldKnown (collection field where_ : String) : Except String Unit :=
  match Identifier.tryNew .collectionName collection with
  | .error _ => .ok ()
  | .ok collectionName =>
      if (index.neutral.collection collectionName).isNone then
        .ok ()
      else
        let known := match Identifier.tryNew .fieldName field with
          | .ok fieldName => index.hasField collectionName fieldName
          | .error _ => false
        if known then
          .ok ()
        else
          .error (s!"{where_} names field `{field}` as a key, but the collection's schema " ++
            "has no such field")

/-- One key of `check_key_arguments::check_binding`. -/
def checkKey (collection where_ procedure field argument : String) : Except String Unit :=
  match index.procedureArgument procedure argument with
  | none =>
      .error (s!"{where_} names `{argument}` as the key argument for field `{field}`, but " ++
        s!"procedure `{procedure}` does not declare it")
  | some .predicate =>
      .error (s!"{where_} names `{argument}` as the key argument for field `{field}`, but " ++
        s!"procedure `{procedure}` declares that argument as a predicate; a key is never a " ++
        "predicate")
  | some .value => checkFieldKnown index collection field where_

/-- `check_key_arguments::check_binding`. -/
def checkKeyBinding (collection verb : String) (binding : ProcedureBinding) :
    Except String Unit :=
  let where_ := s!"connector {config.id}: {collection}.{verb}"
  binding.keyArguments.toList.forM fun (field, argument) =>
    checkKey index collection where_ binding.procedure field argument

/-- `check_key_arguments`. -/
def checkKeyArguments : Except String Unit :=
  config.forBindings CollectionProcedures.all (checkKeyBinding config index)

/-! ## Required arguments -/

/-- `supplied_arguments`: what a mapping of a verb sends. -/
def suppliedArguments (binding : ProcedureBinding) (verb : String) : List String :=
  let payload := binding.payloadArgument.toList
  let filter := binding.filterArgument.toList
  let keys := binding.keyNames
  if verb = "insert" then payload
  else if verb = "update" then payload ++ filter ++ keys
  else if verb = "delete" then filter ++ keys
  else []

@[simp] theorem suppliedArguments_insert (binding : ProcedureBinding) :
    suppliedArguments binding "insert" = binding.payloadArgument.toList := by
  simp [suppliedArguments]

@[simp] theorem suppliedArguments_update (binding : ProcedureBinding) :
    suppliedArguments binding "update" =
      binding.payloadArgument.toList ++ binding.filterArgument.toList ++ binding.keyNames := by
  simp [suppliedArguments]

@[simp] theorem suppliedArguments_delete (binding : ProcedureBinding) :
    suppliedArguments binding "delete" =
      binding.filterArgument.toList ++ binding.keyNames := by
  simp [suppliedArguments]

/-- `check_required_arguments::check_binding`. -/
def checkRequiredBinding (collection verb : String) (binding : ProcedureBinding) :
    Except String Unit :=
  let procedure := binding.procedure
  (index.requiredArguments procedure).forM fun required =>
    if required ∈ suppliedArguments binding verb then
      .ok ()
    else
      .error (s!"connector {config.id}: {collection}.{verb} maps to procedure " ++
        s!"`{procedure}`, which requires `{required}`, and the mapping supplies nothing for " ++
        "it; a required argument this platform never sends means the connector refuses " ++
        s!"every {verb}")

/-- `check_required_arguments`. -/
def checkRequiredArguments : Except String Unit :=
  config.forBindings CollectionProcedures.all (checkRequiredBinding config index)

/-! ## What a checked mapping may rely on -/

section Checked

variable {config} {schema : NdcSchemaResponse} {collection verb : String}
  {procedures : CollectionProcedures} {binding : ProcedureBinding}
  (hprocedures : config.procedures[collection]? = some procedures)
  (hbinding : (verb, some binding) ∈ procedures.all)

include hprocedures hbinding

/-- A checked mapping names a procedure the schema declares. -/
theorem procedureOf_isSome_of_check
    (hcheck : checkProcedureArguments config (.build schema) = .ok ()) :
    (schema.procedureOf binding.procedure).isSome := by
  have hone := NdcConnectorConfig.forBindings_eq_ok.mp hcheck collection procedures
    hprocedures verb binding hbinding
  unfold checkProcedureBinding at hone
  dsimp only at hone
  split at hone
  · rename_i hprocedure
    exact hasProcedure_build.symm.trans hprocedure
  · cases hone

/-- Each setting of a checked mapping names an argument the procedure declares, of the
kind the setting is for. -/
theorem argumentOf_of_requirement
    (hcheck : checkProcedureArguments config (.build schema) = .ok ())
    {setting argument : String} {required : ArgumentKind}
    (hrequirement : (setting, some argument, required) ∈ requirements binding) :
    ∃ argumentType, schema.argumentOf binding.procedure argument = some argumentType ∧
      kindOf argumentType = required := by
  have hone := NdcConnectorConfig.forBindings_eq_ok.mp hcheck collection procedures
    hprocedures verb binding hbinding
  unfold checkProcedureBinding at hone
  dsimp only at hone
  split at hone
  · have hsetting := Library.forM_eq_ok.mp hone _ hrequirement
    unfold checkSetting at hsetting
    simp only [procedureArgument_build] at hsetting
    cases hargument : schema.argumentOf binding.procedure argument with
    | none => simp [hargument] at hsetting
    | some argumentType =>
        refine ⟨argumentType, rfl, ?_⟩
        by_contra hkind
        simp [hargument, hkind] at hsetting
  · cases hone

/-- A payload goes under an argument the procedure declares. -/
theorem argumentOf_payload (hcheck : checkProcedureArguments config (.build schema) = .ok ())
    {argument : String} (hpayload : binding.payloadArgument = some argument) :
    (schema.argumentOf binding.procedure argument).isSome := by
  have hrequirement : ("payload_argument", some argument, ArgumentKind.value) ∈
      requirements binding := by
    simp [requirements, hpayload]
  obtain ⟨argumentType, hargument, -⟩ :=
    argumentOf_of_requirement hprocedures hbinding hcheck hrequirement
  rw [hargument]
  rfl

/-- A predicate goes under an argument the procedure declares as a predicate. -/
theorem argumentOf_filter (hcheck : checkProcedureArguments config (.build schema) = .ok ())
    {argument : String} (hfilter : binding.filterArgument = some argument) :
    ∃ argumentType, schema.argumentOf binding.procedure argument = some argumentType ∧
      kindOf argumentType = .predicate := by
  have hrequirement : ("filter_argument", some argument, ArgumentKind.predicate) ∈
      requirements binding := by
    simp [requirements, hfilter]
  exact argumentOf_of_requirement hprocedures hbinding hcheck hrequirement

/-- A key goes under an argument the procedure declares. -/
theorem argumentOf_key (hcheck : checkKeyArguments config (.build schema) = .ok ())
    {field argument : String} (hkey : binding.keyArguments[field]? = some argument) :
    (schema.argumentOf binding.procedure argument).isSome := by
  have hone := NdcConnectorConfig.forBindings_eq_ok.mp hcheck collection procedures
    hprocedures verb binding hbinding
  unfold checkKeyBinding at hone
  have hfield := Library.forM_eq_ok.mp hone (field, argument)
    (Std.ExtTreeMap.mem_toList_iff_getElem?_eq_some.mpr hkey)
  unfold checkKey at hfield
  simp only [procedureArgument_build] at hfield
  cases hargument : schema.argumentOf binding.procedure argument with
  | none => simp [hargument] at hfield
  | some argumentType => rfl

/-- A checked mapping supplies every argument the procedure requires. -/
theorem mem_supplied_of_required
    (hcheck : checkRequiredArguments config (.build schema) = .ok ())
    {argument : String} {argumentType : NdcType}
    (hargument : schema.argumentOf binding.procedure argument = some argumentType)
    (hrequired : isNullable argumentType = false) :
    argument ∈ suppliedArguments binding verb := by
  have hone := NdcConnectorConfig.forBindings_eq_ok.mp hcheck collection procedures
    hprocedures verb binding hbinding
  unfold checkRequiredBinding at hone
  have hsupplied := Library.forM_eq_ok.mp hone argument
    (mem_requiredArguments_build hargument hrequired)
  by_contra hmissing
  simp [hmissing] at hsupplied

end Checked

end Ndc
end SaasFabric
