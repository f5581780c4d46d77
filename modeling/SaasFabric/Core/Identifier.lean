import Mathlib.Algebra.GroupWithZero.Nat
import Mathlib.Data.List.Basic
import Mathlib.Order.Fin.Basic
import Mathlib.Tactic.Common
import SaasFabric.Core.Debug
import SaasFabric.Library.Collect

/-!
# Identifiers and fixed-width numbers

The identifiers of `fabric-core` and `fabric-connector` are string newtypes that
one of two parsers admits (`ids/slug.rs`).  The newtype macro becomes one type
with the kind as its parameter; a value carries the proof that its parser
accepted it, so an identifier no parser would admit cannot be written down.
-/

namespace SaasFabric

/-- `u64`. -/
abbrev U64 := Fin (2 ^ 64)

/-- `u32`. -/
abbrev U32 := Fin (2 ^ 32)

instance (priority := 2000) U64.neZero : NeZero (2 ^ 64) := ⟨by decide⟩

instance (priority := 2000) U32.neZero : NeZero (2 ^ 32) := ⟨by decide⟩

theorem U64.max_lt : 2 ^ 64 - 1 < 2 ^ 64 := by decide

/-- Bytes are compared one by one. -/
instance (priority := 2000) decidableEqBytes : DecidableEq ByteArray := ByteArray.instDecidableEq

/-- `u64::saturating_add(1)`. -/
def U64.saturatingSucc (n : U64) : U64 :=
  if h : n.val + 1 < 2 ^ 64 then ⟨n.val + 1, h⟩ else n

theorem U64.val_saturatingSucc (n : U64) :
    n.saturatingSucc.val = min (n.val + 1) (2 ^ 64 - 1) := by
  have hlt := n.isLt
  unfold U64.saturatingSucc
  split
  · show n.val + 1 = min (n.val + 1) (2 ^ 64 - 1)
    omega
  · omega

theorem U64.le_saturatingSucc (n : U64) : n ≤ n.saturatingSucc := by
  have hlt := n.isLt
  rw [Fin.le_def, val_saturatingSucc]
  omega

theorem U64.saturatingSucc_mono {low high : U64} (h : low ≤ high) :
    low.saturatingSucc ≤ high.saturatingSucc := by
  rw [Fin.le_def] at h ⊢
  rw [val_saturatingSucc, val_saturatingSucc]
  omega

/-- Short of the last number, the successor is above. -/
theorem U64.lt_saturatingSucc {low high : U64} (hle : low ≤ high) (hlt : high < Fin.last _) :
    low < high.saturatingSucc := by
  have hval : high.val < 2 ^ 64 - 1 := Fin.lt_def.mp hlt
  rw [Fin.le_def] at hle
  rw [Fin.lt_def, val_saturatingSucc]
  omega

/-- `u64::saturating_add`. -/
def U64.saturatingAdd (a b : U64) : U64 :=
  if h : a.val + b.val < 2 ^ 64 then ⟨a.val + b.val, h⟩ else ⟨2 ^ 64 - 1, max_lt⟩

theorem U64.val_saturatingAdd (a b : U64) :
    (a.saturatingAdd b).val = min (a.val + b.val) (2 ^ 64 - 1) := by
  unfold U64.saturatingAdd
  split <;> simp only <;> omega

/-- `u64::checked_add(1)`. -/
def U64.checkedSucc (n : U64) : Option U64 :=
  if h : n.val + 1 < 2 ^ 64 then some ⟨n.val + 1, h⟩ else none

theorem U64.lt_of_checkedSucc {n next : U64} (h : n.checkedSucc = some next) : n < next := by
  unfold U64.checkedSucc at h
  split at h
  · cases h
    exact Fin.lt_def.mpr (Nat.lt_succ_self _)
  · cases h

/-- The longest identifier. -/
def MAX_LENGTH : Nat := 63

/-- Why a string is no identifier. -/
inductive IdentifierError where
  | empty (kind : String)
  | tooLong (kind : String) (max actual : Nat)
  | disallowedCharacter (kind : String) (character : Char) (expected : String)
  | badBoundary (kind : String)
  | unadmitted (kind expected : String)
deriving DecidableEq, Repr

instance : ToString IdentifierError where
  toString
    | .empty kind => s!"{kind} must not be empty"
    | .tooLong kind max actual => s!"{kind} must be at most {max} characters, got {actual}"
    | .disallowedCharacter kind character expected =>
        s!"{kind} contains disallowed character {debugChar character}; expected {expected}"
    | .badBoundary kind => s!"{kind} must start and end with an alphanumeric character"
    | .unadmitted kind expected => s!"{kind} does not admit this value: {expected}"

def checkLength (kind value : String) : Except IdentifierError Unit :=
  if value.isEmpty then
    .error (.empty kind)
  else if MAX_LENGTH < value.utf8ByteSize then
    .error (.tooLong kind MAX_LENGTH value.utf8ByteSize)
  else
    .ok ()

/-- `char::is_ascii_alphanumeric`. -/
def isAsciiAlphanumeric (c : Char) : Bool := c.isAlphanum

def checkBoundaries (kind value : String) : Except IdentifierError Unit :=
  let firstOk := value.toList.head?.any isAsciiAlphanumeric
  let lastOk := value.toList.getLast?.any isAsciiAlphanumeric
  if firstOk && lastOk then .ok () else .error (.badBoundary kind)

/-- Lowercase ASCII letters, digits and inner hyphens. -/
def parseDnsLabel (kind value : String) : Except IdentifierError String := do
  checkLength kind value
  match value.toList.find? fun c => !(c.isLower || c.isDigit || c == '-') with
  | some c =>
      .error (.disallowedCharacter kind c "lowercase ASCII letters, digits, and hyphens")
  | none =>
      checkBoundaries kind value
      .ok value

/-- ASCII letters, digits, hyphens and underscores, a letter first. -/
def parseIdentifier (kind value : String) : Except IdentifierError String := do
  checkLength kind value
  match value.toList.find? fun c => !(isAsciiAlphanumeric c || c == '-' || c == '_') with
  | some c =>
      .error (.disallowedCharacter kind c "ASCII letters, digits, hyphens, and underscores")
  | none =>
      if value.toList.head?.any Char.isAlpha then .ok value else .error (.badBoundary kind)

/-- The identifier newtypes the modelled code uses. -/
inductive IdentifierKind where
  | tenantId
  | dataSourceId
  | logicalDataSourceName
  | logicalResourceName
  | connectorId
  | connectionName
  | collectionName
  | fieldName
  | schemaName
  | relationName
deriving DecidableEq, Repr

namespace IdentifierKind

/-- What an error calls this kind. -/
def text : IdentifierKind → String
  | tenantId => "tenant id"
  | dataSourceId => "data source id"
  | logicalDataSourceName => "logical data source name"
  | logicalResourceName => "logical resource name"
  | connectorId => "connector id"
  | connectionName => "connection name"
  | collectionName => "collection name"
  | fieldName => "field name"
  | schemaName => "schema name"
  | relationName => "relation name"

/-- The parser this kind is admitted by: a tenant id is a DNS label. -/
def parse : IdentifierKind → String → Except IdentifierError String
  | tenantId => parseDnsLabel tenantId.text
  | kind => parseIdentifier kind.text

end IdentifierKind

/-- A string its kind's parser accepted. -/
structure Identifier (kind : IdentifierKind) where
  value : String
  accepted : (kind.parse value).isOk = true
deriving DecidableEq

namespace Identifier

variable {kind : IdentifierKind}

/-- `try_new`: the parser's verdict on a string. -/
def tryNew (kind : IdentifierKind) (value : String) : Except IdentifierError (Identifier kind) :=
  match h : kind.parse value with
  | .ok _ => .ok ⟨value, by rw [h]; rfl⟩
  | .error error => .error error

@[ext] theorem ext {a b : Identifier kind} (h : a.value = b.value) : a = b := by
  cases a
  cases b
  cases h
  rfl

theorem value_injective : Function.Injective (value : Identifier kind → String) :=
  fun _ _ h => Identifier.ext h

/-- Parsing an identifier's own string gives it back. -/
@[simp] theorem tryNew_value (id : Identifier kind) : tryNew kind id.value = .ok id := by
  have haccepted := id.accepted
  unfold tryNew
  split
  · rfl
  · rename_i error h
    rw [h] at haccepted
    cases haccepted

/-- An identifier is spelled as the string it was parsed from. -/
theorem value_of_tryNew {value : String} {id : Identifier kind} (h : tryNew kind value = .ok id) :
    id.value = value := by
  unfold tryNew at h
  split at h
  · cases h
    rfl
  · cases h

/-- `Ord` on a newtype is the order of its string. -/
instance : Ord (Identifier kind) := ⟨fun a b => compare a.value b.value⟩

instance : Std.TransOrd (Identifier kind) where
  eq_swap {a b} := (Std.OrientedOrd.eq_swap : compare a.value b.value = _)
  isLE_trans {a _ c} hab hbc :=
    (Std.TransOrd.isLE_trans hab hbc : (compare a.value c.value).isLE)

instance : Std.LawfulEqOrd (Identifier kind) where
  eq_of_compare {a b} h :=
    Identifier.ext (Std.LawfulEqOrd.eq_of_compare (h : compare a.value b.value = .eq))
  compare_self {a} := (Std.ReflOrd.compare_self : compare a.value a.value = .eq)

instance : LawfulBEq (Identifier kind) := inferInstance

instance : ToString (Identifier kind) := ⟨value⟩

end Identifier

abbrev TenantId := Identifier .tenantId
abbrev DataSourceId := Identifier .dataSourceId
abbrev LogicalDataSourceName := Identifier .logicalDataSourceName
abbrev LogicalResourceName := Identifier .logicalResourceName
abbrev ConnectorId := Identifier .connectorId
abbrev ConnectionName := Identifier .connectionName
abbrev CollectionName := Identifier .collectionName
abbrev FieldName := Identifier .fieldName
abbrev SchemaName := Identifier .schemaName
abbrev RelationName := Identifier .relationName

/-- The revision of one reconciled resource; it only moves forward. -/
abbrev BindingRevision := U64

/-! ## Names the parsers accept -/

theorem acme_accepted : (IdentifierKind.tenantId.parse "acme").isOk = true := by decide

theorem globex_accepted : (IdentifierKind.tenantId.parse "globex").isOk = true := by decide

theorem warehouse_accepted : (IdentifierKind.connectorId.parse "warehouse").isOk = true := by decide

theorem ordersCollection_accepted :
    (IdentifierKind.collectionName.parse "orders").isOk = true := by decide

theorem statusField_accepted :
    (IdentifierKind.fieldName.parse "status").isOk = true := by decide

theorem idField_accepted : (IdentifierKind.fieldName.parse "id").isOk = true := by decide

end SaasFabric
