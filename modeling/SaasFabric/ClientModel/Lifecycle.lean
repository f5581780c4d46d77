import SaasFabric.ClientModel.Errors
import SaasFabric.ClientModel.Ids
import SaasFabric.Core.Text
import SaasFabric.Library.Fallible
import SaasFabric.Library.JsonText

/-!
# What desired state records about a client's lifecycle

`fabric-client-model`'s `lifecycle/`: the record, the three transitions an operator writes, and
what is checked of a record that is read.  Every transition takes the record one step further, so
no record comes back.
-/

namespace SaasFabric
namespace ClientModel

open Library

/-! ## Entries -/

/-- `Tombstone`. -/
structure Tombstone where
  at_ : U64
  by_ : String
  reason : String
deriving DecidableEq

/-- `DeletionConfirmation`. -/
structure DeletionConfirmation where
  at_ : U64
  by_ : String
deriving DecidableEq

/-- `Restoration`. -/
structure Restoration where
  tombstone : Tombstone
  at_ : U64
  by_ : String
  reason : String
deriving DecidableEq

/-- `IdentityInstance`: 32 lowercase hexadecimal characters. -/
structure IdentityInstance where
  value : String
  accepted : value.toList.length = 32 ∧
    (value.toList.all fun c => c.isDigit || ('a' ≤ c && c ≤ 'f')) = true
deriving DecidableEq

/-- `LifecycleRecord`. -/
structure LifecycleRecord where
  tombstone : Option Tombstone
  deletionConfirmed : Option DeletionConfirmation
  restorations : List Restoration
  instance_ : Option IdentityInstance
deriving DecidableEq

/-! ## Reasons -/

/-- `LifecycleRefusal`, as far as the transitions refuse. -/
inductive LifecycleRefusal where
  | alreadyTombstoned
  | deletionRequiresTombstone
  | deletionAlreadyConfirmed
  | confirmationMismatch
  | invalidReason (detail : String)
  | restoreRequiresTombstone
  | deletionConfirmedNotRestorable
  | invalidRestorationReason (detail : String)
deriving DecidableEq

/-- `MAX_REASON`. -/
def MAX_REASON : Nat := 512

/-- `Reasoned`: what a reason is for. -/
inductive Reasoned where
  | tombstone
  | restoration
deriving DecidableEq

def Reasoned.text : Reasoned → String
  | .tombstone => "a tombstone"
  | .restoration => "a restoration"

/-- `check_reason`: the reason as it is recorded. -/
def checkReason (entry : Reasoned) (reason : String) : Except String String :=
  let trimmed := Text.trim reason
  if trimmed = "" then
    .error (entry.text ++ " needs a reason")
  else if MAX_REASON < trimmed.utf8ByteSize then
    .error (entry.text ++ " reason must be at most 512 bytes")
  else if trimmed.toList.any isControl then
    .error (entry.text ++ " reason must not contain control characters")
  else
    .ok trimmed

/-- A reason is recorded trimmed, and accepted again as it is recorded. -/
theorem checkReason_recorded {entry : Reasoned} {reason recorded : String}
    (h : checkReason entry reason = .ok recorded) :
    recorded = Text.trim reason ∧ checkReason entry recorded = .ok recorded := by
  have hrecorded : recorded = Text.trim reason := by
    unfold checkReason at h
    dsimp only at h
    split at h
    · cases h
    · split at h
      · cases h
      · split at h
        · cases h
        · exact (Except.ok.inj h).symm
  refine ⟨hrecorded, ?_⟩
  have hsame : checkReason entry (Text.trim reason) = checkReason entry reason := by
    unfold checkReason
    rw [Text.trim_trim]
  rw [hrecorded, hsame, h, hrecorded]

namespace LifecycleRecord

/-! ## The transitions -/

/-- `LifecycleRecord::tombstone`. -/
def toTombstoned (record : LifecycleRecord) (at_ : U64) (by_ reason : String) :
    Except LifecycleRefusal LifecycleRecord :=
  if record.deletionConfirmed.isSome then
    .error .deletionAlreadyConfirmed
  else if record.tombstone.isSome then
    .error .alreadyTombstoned
  else do
    let reason ← (checkReason .tombstone reason).mapError .invalidReason
    return { record with tombstone := some { at_, by_, reason }, deletionConfirmed := none }

/-- `LifecycleRecord::confirm_deletion`. -/
def confirmDeletion (record : LifecycleRecord) (client confirming : ClientId) (at_ : U64)
    (by_ : String) : Except LifecycleRefusal LifecycleRecord :=
  if client ≠ confirming then
    .error .confirmationMismatch
  else if record.deletionConfirmed.isSome then
    .error .deletionAlreadyConfirmed
  else if record.tombstone.isNone then
    .error .deletionRequiresTombstone
  else
    .ok { record with deletionConfirmed := some { at_, by_ } }

/-- `LifecycleRecord::restore`. -/
def restore (record : LifecycleRecord) (at_ : U64) (by_ reason : String) :
    Except LifecycleRefusal LifecycleRecord :=
  if record.deletionConfirmed.isSome then
    .error .deletionConfirmedNotRestorable
  else match record.tombstone with
    | none => .error .restoreRequiresTombstone
    | some tombstone => do
        let reason ← (checkReason .restoration reason).mapError .invalidRestorationReason
        return {
          tombstone := none
          deletionConfirmed := none
          restorations := record.restorations ++ [{ tombstone, at_, by_, reason }]
          instance_ := record.instance_
        }

/-- What a tombstone writes, where it is accepted. -/
theorem toTombstoned_eq_ok {record next : LifecycleRecord} {at_ : U64} {by_ reason : String} :
    record.toTombstoned at_ by_ reason = .ok next ↔
      record.deletionConfirmed = none ∧ record.tombstone = none ∧
        ∃ recorded, checkReason .tombstone reason = .ok recorded ∧
          next = { record with tombstone := some ⟨at_, by_, recorded⟩, deletionConfirmed := none } := by
  unfold toTombstoned
  cases hdeletion : record.deletionConfirmed with
  | some deletion => simp
  | none =>
      cases htombstone : record.tombstone with
      | some tombstone => simp
      | none =>
          cases hreason : checkReason .tombstone reason with
          | error detail => simp [Except.mapError, bind, Except.bind]
          | ok recorded => simp [Except.mapError, bind, Except.bind, pure, Except.pure, eq_comm]

/-- What a deletion confirmation writes, where it is accepted. -/
theorem confirmDeletion_eq_ok {record next : LifecycleRecord} {client confirming : ClientId}
    {at_ : U64} {by_ : String} :
    record.confirmDeletion client confirming at_ by_ = .ok next ↔
      client = confirming ∧ record.deletionConfirmed = none ∧
        (∃ tombstone, record.tombstone = some tombstone) ∧
          next = { record with deletionConfirmed := some ⟨at_, by_⟩ } := by
  unfold confirmDeletion
  by_cases hclient : client = confirming
  · cases hdeletion : record.deletionConfirmed with
    | some deletion => simp [hclient]
    | none =>
        cases htombstone : record.tombstone with
        | none => simp [hclient]
        | some tombstone => simp [hclient, eq_comm]
  · simp [hclient]

/-- What a restore writes, where it is accepted. -/
theorem restore_eq_ok {record next : LifecycleRecord} {at_ : U64} {by_ reason : String} :
    record.restore at_ by_ reason = .ok next ↔
      record.deletionConfirmed = none ∧ ∃ tombstone, record.tombstone = some tombstone ∧
        ∃ recorded, checkReason .restoration reason = .ok recorded ∧
          next = ⟨none, none, record.restorations ++ [⟨tombstone, at_, by_, recorded⟩],
            record.instance_⟩ := by
  unfold restore
  cases hdeletion : record.deletionConfirmed with
  | some deletion => simp
  | none =>
      cases htombstone : record.tombstone with
      | none => simp
      | some tombstone =>
          cases hreason : checkReason .restoration reason with
          | error detail => simp [Except.mapError, bind, Except.bind]
          | ok recorded => simp [Except.mapError, bind, Except.bind, pure, Except.pure, eq_comm]

/-! ## What is checked of a record that is read -/

/-- The loop of `check`: the restorations are in order, each with reasons that are accepted. -/
def checkRestorations : U64 → List Restoration → Except String U64
  | floor, [] => .ok floor
  | floor, restoration :: rest => do
      let _ ← (checkReason .tombstone restoration.tombstone.reason).mapError fun _ =>
        "restorations[].tombstone.reason is invalid"
      let _ ← (checkReason .restoration restoration.reason).mapError fun _ =>
        "restorations[].reason is invalid"
      if restoration.tombstone.at_ < floor ∨ restoration.at_ < restoration.tombstone.at_ then
        .error "restorations must each follow the tombstone they reverse, in order"
      else
        checkRestorations restoration.at_ rest

/-- The first part of `check`. -/
def checkDeletion (record : LifecycleRecord) : Except String Unit :=
  match record.tombstone, record.deletionConfirmed with
  | none, some _ => .error "deletionConfirmed requires a tombstone"
  | some tombstone, some deletion =>
      if deletion.at_ < tombstone.at_ then
        .error "deletionConfirmed must not precede the tombstone"
      else .ok ()
  | _, _ => .ok ()

/-- `LifecycleRecord::check`. -/
def check (record : LifecycleRecord) : Except String Unit := do
  record.checkDeletion
  match record.tombstone with
  | none => pure ()
  | some tombstone => do
      let _ ← (checkReason .tombstone tombstone.reason).mapError fun _ =>
        "tombstone.reason is invalid"
  let floor ← checkRestorations 0 record.restorations
  match record.tombstone with
  | some tombstone =>
      if tombstone.at_ < floor then
        .error "the tombstone must not precede the last restoration"
      else .ok ()
  | none => .ok ()

/-! ## Its JSON -/

def numeral (value : U64) : Json Numeral := .number (.natural value.val)

/-- `Serialize` for `Tombstone`. -/
def tombstoneJson (tombstone : Tombstone) : Json Numeral :=
  .object [("at", numeral tombstone.at_), ("by", .string tombstone.by_),
    ("reason", .string tombstone.reason)]

/-- `Serialize` for `DeletionConfirmation`. -/
def deletionJson (deletion : DeletionConfirmation) : Json Numeral :=
  .object [("at", numeral deletion.at_), ("by", .string deletion.by_)]

/-- `Serialize` for `Restoration`. -/
def restorationJson (restoration : Restoration) : Json Numeral :=
  .object [("tombstone", tombstoneJson restoration.tombstone),
    ("at", numeral restoration.at_), ("by", .string restoration.by_),
    ("reason", .string restoration.reason)]

/-- A member that is left out where there is no value. -/
def optionalMember (name : String) (value : Option (Json Numeral)) :
    List (String × Json Numeral) :=
  (value.map fun json => (name, json)).toList

/-- `skip_serializing_if`. -/
def restorationsJson (restorations : List Restoration) : Option (Json Numeral) :=
  if restorations = [] then none else some (.array (restorations.map restorationJson))

/-- `Serialize`: what is not recorded is left out. -/
def toJson (record : LifecycleRecord) : Json Numeral :=
  .object <|
    optionalMember "tombstone" (record.tombstone.map tombstoneJson) ++
      optionalMember "deletionConfirmed" (record.deletionConfirmed.map deletionJson) ++
      optionalMember "restorations" (restorationsJson record.restorations) ++
      optionalMember "instance" (record.instance_.map fun identity => .string identity.value)

theorem tombstoneJson_injective : Function.Injective tombstoneJson := by
  intro first second h
  cases first
  cases second
  simpa [tombstoneJson, numeral, Fin.ext_iff] using h

theorem deletionJson_injective : Function.Injective deletionJson := by
  intro first second h
  cases first
  cases second
  simpa [deletionJson, numeral, Fin.ext_iff] using h

theorem restorationJson_injective : Function.Injective restorationJson := by
  intro first second h
  cases first
  cases second
  simpa [restorationJson, numeral, Fin.ext_iff, tombstoneJson_injective.eq_iff] using h

theorem restorationsJson_injective : Function.Injective restorationsJson := by
  intro first second h
  unfold restorationsJson at h
  split at h <;> split at h
  · rename_i hfirst hsecond
    rw [hfirst, hsecond]
  · cases h
  · cases h
  · have hmap := Json.array.inj (Option.some.inj h)
    exact List.map_injective_iff.mpr restorationJson_injective hmap

/-- A member is found by its name, and by no other. -/
theorem lookup_optionalMember (name other : String) (value : Option (Json Numeral)) :
    (optionalMember name value).lookup other = if other = name then value else none := by
  cases value with
  | none => simp [optionalMember]
  | some json =>
      by_cases h : other = name
      · simp [optionalMember, h]
      · have hbeq : (other == name) = false := beq_eq_false_iff_ne.mpr h
        simp [optionalMember, h, List.lookup_cons, hbeq]

/-- Another entry, or one that is missing, is written otherwise. -/
theorem toJson_injective : Function.Injective toJson := by
  intro first second h
  obtain ⟨tombstone, deletion, restorations, identity⟩ := first
  obtain ⟨tombstone', deletion', restorations', identity'⟩ := second
  have hmembers := Json.object.inj h
  have htombstone := congrArg (List.lookup "tombstone") hmembers
  have hdeletion := congrArg (List.lookup "deletionConfirmed") hmembers
  have hrestorations := congrArg (List.lookup "restorations") hmembers
  have hinstance := congrArg (List.lookup "instance") hmembers
  simp [List.lookup_append, lookup_optionalMember] at htombstone hdeletion hrestorations hinstance
  have hidentity : Function.Injective fun identity : IdentityInstance =>
      (Json.string identity.value : Json Numeral) := by
    intro first second heq
    cases first
    cases second
    simpa using heq
  cases Option.map_injective tombstoneJson_injective htombstone
  cases Option.map_injective deletionJson_injective hdeletion
  cases restorationsJson_injective hrestorations
  cases Option.map_injective hidentity hinstance
  rfl

/-! ## How far a record has come -/

/-- How many transitions led to a record. -/
def steps (record : LifecycleRecord) : Nat :=
  2 * record.restorations.length + record.tombstone.isSome.toNat +
    record.deletionConfirmed.isSome.toNat

end LifecycleRecord
end ClientModel
end SaasFabric
