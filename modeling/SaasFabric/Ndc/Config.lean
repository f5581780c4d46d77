import Mathlib.Tactic.Common
import SaasFabric.Core.Text
import SaasFabric.Core.Value
import SaasFabric.Library.Fallible

/-!
# A connector's configuration

`fabric-connector-ndc`'s `config/`: which procedure serves which verb of which
collection, under which argument names, and what is refused before any schema is
read.
-/

namespace SaasFabric
namespace Ndc

/-- `PayloadShape`. -/
inductive PayloadShape where
  | values
  | setOperations
deriving DecidableEq

/-- `ProcedureBinding`. -/
structure ProcedureBinding where
  procedure : String
  payloadArgument : Option String
  filterArgument : Option String
  keyArguments : BTreeMap String String
  payloadShape : PayloadShape

/-- `ProcedureBinding::argument_names`: both names, where both are set. -/
def ProcedureBinding.argumentNames (binding : ProcedureBinding) : Option (String × String) :=
  binding.payloadArgument.bind fun payload =>
    binding.filterArgument.map fun filter => (payload, filter)

/-- `key_arguments.values()`: the names of the key arguments, in the order of their
fields. -/
def ProcedureBinding.keyNames (binding : ProcedureBinding) : List String :=
  binding.keyArguments.toList.map Prod.snd

/-- `CollectionProcedures`. -/
structure CollectionProcedures where
  insert : Option ProcedureBinding
  update : Option ProcedureBinding
  delete : Option ProcedureBinding

namespace CollectionProcedures

variable (procedures : CollectionProcedures)

def predicateBearing : List (String × Option ProcedureBinding) :=
  [("update", procedures.update), ("delete", procedures.delete)]

def payloadBearing : List (String × Option ProcedureBinding) :=
  [("insert", procedures.insert), ("update", procedures.update)]

def all : List (String × Option ProcedureBinding) :=
  [("insert", procedures.insert), ("update", procedures.update),
    ("delete", procedures.delete)]

def nonUpdate : List (String × Option ProcedureBinding) :=
  procedures.all.filter fun entry => entry.1 != "update"

/-- The mappings of one verb, for the checks that read only that one. -/
def insertOnly : List (String × Option ProcedureBinding) := [("insert", procedures.insert)]

def deleteOnly : List (String × Option ProcedureBinding) := [("delete", procedures.delete)]

end CollectionProcedures

/-- `NdcConnectorConfig`. -/
structure NdcConnectorConfig where
  id : ConnectorId
  endpoint : String
  httpTimeoutSeconds : U64
  httpConnectTimeoutSeconds : U64
  connectionNameArgument : Option String
  connectionStringArgument : Option String
  procedures : BTreeMap String CollectionProcedures

namespace NdcConnectorConfig

variable (config : NdcConnectorConfig)

/-- The loop every check of the mappings runs: collection by collection, verb by verb,
over the mappings there are. -/
def forBindings (verbs : CollectionProcedures → List (String × Option ProcedureBinding))
    (check : String → String → ProcedureBinding → Except String Unit) : Except String Unit :=
  config.procedures.toList.forM fun (collection, procedures) =>
    (verbs procedures).forM fun (operation, binding) =>
      match binding with
      | none => .ok ()
      | some binding => check collection operation binding

/-- The loop succeeds when every mapping passes. -/
theorem forBindings_eq_ok {config : NdcConnectorConfig}
    {verbs : CollectionProcedures → List (String × Option ProcedureBinding)}
    {check : String → String → ProcedureBinding → Except String Unit} :
    config.forBindings verbs check = .ok () ↔
      ∀ collection procedures, config.procedures[collection]? = some procedures →
        ∀ operation binding, (operation, some binding) ∈ verbs procedures →
          check collection operation binding = .ok () := by
  unfold forBindings
  rw [Library.forM_eq_ok]
  constructor
  · intro h collection procedures hprocedures operation binding hbinding
    have hcollection := h (collection, procedures)
      (Std.ExtTreeMap.mem_toList_iff_getElem?_eq_some.mpr hprocedures)
    exact Library.forM_eq_ok.mp hcollection (operation, some binding) hbinding
  · rintro h ⟨collection, procedures⟩ hmem
    refine Library.forM_eq_ok.mpr ?_
    rintro ⟨operation, binding⟩ hbinding
    cases binding with
    | none => rfl
    | some binding =>
        exact h collection procedures
          (Std.ExtTreeMap.mem_toList_iff_getElem?_eq_some.mp hmem) operation binding hbinding

/-! ## Validation of the configuration alone -/

def validateTransport : Except String Unit :=
  if config.endpoint.toList.all isWhitespace then
    .error s!"connector {config.id}: endpoint must not be empty"
  else if config.httpTimeoutSeconds = 0 then
    .error s!"connector {config.id}: http_timeout_seconds must be greater than zero"
  else if config.httpConnectTimeoutSeconds = 0 then
    .error s!"connector {config.id}: http_connect_timeout_seconds must be greater than zero"
  else if config.httpTimeoutSeconds < config.httpConnectTimeoutSeconds then
    .error (s!"connector {config.id}: http_connect_timeout_seconds must not exceed " ++
      "http_timeout_seconds")
  else
    .ok ()

def validatePredicateArguments : Except String Unit :=
  config.forBindings CollectionProcedures.predicateBearing fun collection operation binding =>
    if binding.filterArgument.isNone then
      .error (s!"connector {config.id}: {collection}.{operation} needs a filter_argument, " ++
        "otherwise the tenant predicate would be dropped and the write would reach every " ++
        "tenant's rows")
    else
      .ok ()

def validatePayloadArguments : Except String Unit :=
  config.forBindings CollectionProcedures.payloadBearing fun collection operation binding =>
    if binding.payloadArgument.isNone then
      .error (s!"connector {config.id}: {collection}.{operation} needs a payload_argument, " ++
        s!"otherwise every {operation} is refused at execution time with nowhere to put the " ++
        "row values")
    else
      .ok ()

def validateDeleteHasNoPayloadArgument : Except String Unit :=
  config.forBindings CollectionProcedures.deleteOnly fun collection _ binding =>
    if binding.payloadArgument.isSome then
      .error (s!"connector {config.id}: {collection}.delete declares payload_argument, but a " ++
        "delete carries no payload; remove payload_argument from this mapping")
    else
      .ok ()

def validateDistinctArguments : Except String Unit :=
  config.forBindings CollectionProcedures.all fun collection operation binding =>
    match binding.argumentNames with
    | none => .ok ()
    | some (payload, filter) =>
        if payload = filter then
          .error (s!"connector {config.id}: {collection}.{operation} names {payload} as both " ++
            "its payload_argument and its filter_argument, so the predicate would overwrite " ++
            "the payload and the write would silently change nothing")
        else
          .ok ()

def validateKeyArgumentsOnInsert : Except String Unit :=
  config.forBindings CollectionProcedures.insertOnly fun collection _ binding =>
    if binding.keyArguments.isEmpty then
      .ok ()
    else
      .error (s!"connector {config.id}: {collection}.insert declares key_arguments, but an " ++
        "insert has no key to scope by; remove key_arguments from this mapping")

/-- The loop of `check_binding_distinctness`, over the names seen so far. -/
def checkUnseen (connector : ConnectorId) (collection operation : String) (seen : List String) :
    List String → Except String Unit
  | [] => .ok ()
  | argument :: arguments =>
      if argument ∈ seen then
        .error (s!"connector {connector}: {collection}.{operation} names `{argument}` as a key " ++
          s!"argument, but it also names `{argument}` as its payload_argument or " ++
          "filter_argument (or as another key argument); one argument map, so the second " ++
          "write would overwrite the first")
      else
        checkUnseen connector collection operation (seen ++ [argument]) arguments

/-- `check_binding_distinctness`. -/
def checkBindingDistinctness (connector : ConnectorId) (collection operation : String)
    (binding : ProcedureBinding) : Except String Unit :=
  checkUnseen connector collection operation
    (binding.payloadArgument.toList ++ binding.filterArgument.toList)
    binding.keyNames

def validateKeyArgumentDistinctness : Except String Unit :=
  config.forBindings CollectionProcedures.all (checkBindingDistinctness config.id)

def validatePayloadShape : Except String Unit :=
  config.forBindings CollectionProcedures.nonUpdate fun collection operation binding =>
    if binding.payloadShape = .values then
      .ok ()
    else
      .error (s!"connector {config.id}: {collection}.{operation} declares payload_shape = " ++
        "set_operations, but only an update mapping may shape its payload that way; " ++
        s!"{operation} has no per-column argument to wrap it in")

/-- `validate`. -/
def validate : Except String Unit := do
  config.validateTransport
  config.validatePredicateArguments
  config.validatePayloadArguments
  config.validateDeleteHasNoPayloadArgument
  config.validateDistinctArguments
  config.validateKeyArgumentsOnInsert
  config.validateKeyArgumentDistinctness
  config.validatePayloadShape

/-- In a valid configuration no mapping names one argument for both the payload and the
predicate. -/
theorem payload_ne_filter_of_validate {config : NdcConnectorConfig}
    (h : config.validate = .ok ()) {collection operation : String}
    {procedures : CollectionProcedures} {binding : ProcedureBinding}
    (hprocedures : config.procedures[collection]? = some procedures)
    (hbinding : (operation, some binding) ∈ procedures.all) {payload filter : String}
    (hpayload : binding.payloadArgument = some payload)
    (hfilter : binding.filterArgument = some filter) : payload ≠ filter := by
  unfold validate at h
  simp only [Library.bind_eq_ok] at h
  obtain ⟨_, -, _, -, _, -, _, -, _, hdistinct, -⟩ := h
  have hcheck := forBindings_eq_ok.mp hdistinct collection procedures hprocedures operation
    binding hbinding
  simp only [ProcedureBinding.argumentNames, hpayload, hfilter, Option.bind_some,
    Option.map_some] at hcheck
  rintro rfl
  rw [if_pos rfl] at hcheck
  cases hcheck

end NdcConnectorConfig

end Ndc
end SaasFabric
