import Mathlib.Tactic.Common
import SaasFabric.Core.Identifier

/-!
# JSON values

`serde_json::Value`.  An object is the list of its members in key order, as the
map behind it iterates them.  Numbers keep the three forms the crate keeps; no
modelled function does arithmetic on one.
-/

namespace SaasFabric

/-- `serde_json::Number`: a float by its bits. -/
inductive Number where
  | posInt (n : U64)
  | negInt (n : Int)
  | float (bits : U64)
deriving DecidableEq

namespace Number

/-- The bits of a positive or a negative zero. -/
def isZeroBits (bits : U64) : Bool := bits.val = 0 || bits.val = 2 ^ 63

/-- `==` of two numbers.  Floats are compared as `f64`s, of which the two zeros are equal; none is
a NaN. -/
def equals : Number → Number → Bool
  | .posInt a, .posInt b => a = b
  | .negInt a, .negInt b => a = b
  | .float a, .float b => a = b || (isZeroBits a && isZeroBits b)
  | _, _ => false

@[simp] theorem equals_self (number : Number) : number.equals number = true := by
  cases number <;> simp [equals]

end Number

/-- `serde_json::Value`. -/
inductive Value where
  | null
  | bool (b : Bool)
  | number (n : Number)
  | string (text : String)
  | array (items : List Value)
  | object (members : List (String × Value))

namespace Value

mutual

/-- Equality of values is decided structurally. -/
def decEq : (a b : Value) → Decidable (a = b)
  | .null, .null => isTrue rfl
  | .bool a, .bool b => decidable_of_iff (a = b) (by simp)
  | .number a, .number b => decidable_of_iff (a = b) (by simp)
  | .string a, .string b => decidable_of_iff (a = b) (by simp)
  | .array a, .array b =>
      match decEqItems a b with
      | isTrue h => isTrue (by rw [h])
      | isFalse h => isFalse (by simpa using h)
  | .object a, .object b =>
      match decEqMembers a b with
      | isTrue h => isTrue (by rw [h])
      | isFalse h => isFalse (by simpa using h)
  | .null, .bool _ | .null, .number _ | .null, .string _ | .null, .array _ | .null, .object _
  | .bool _, .null | .bool _, .number _ | .bool _, .string _ | .bool _, .array _
  | .bool _, .object _
  | .number _, .null | .number _, .bool _ | .number _, .string _ | .number _, .array _
  | .number _, .object _
  | .string _, .null | .string _, .bool _ | .string _, .number _ | .string _, .array _
  | .string _, .object _
  | .array _, .null | .array _, .bool _ | .array _, .number _ | .array _, .string _
  | .array _, .object _
  | .object _, .null | .object _, .bool _ | .object _, .number _ | .object _, .string _
  | .object _, .array _ => isFalse (by simp)

def decEqItems : (a b : List Value) → Decidable (a = b)
  | [], [] => isTrue rfl
  | [], _ :: _ | _ :: _, [] => isFalse (by simp)
  | a :: as, b :: bs =>
      match decEq a b, decEqItems as bs with
      | isTrue h, isTrue hs => isTrue (by rw [h, hs])
      | isFalse h, _ => isFalse (by simp [h])
      | _, isFalse hs => isFalse (by simp [hs])

def decEqMembers : (a b : List (String × Value)) → Decidable (a = b)
  | [], [] => isTrue rfl
  | [], _ :: _ | _ :: _, [] => isFalse (by simp)
  | (ka, a) :: as, (kb, b) :: bs =>
      match decEq a b, decEqMembers as bs with
      | isTrue h, isTrue hs => decidable_of_iff (ka = kb) (by simp [h, hs])
      | isFalse h, _ => isFalse (by simp [h])
      | _, isFalse hs => isFalse (by simp [hs])

end

instance : DecidableEq Value := decEq

mutual

/-- `==` of two values: as they are written, but for the two zeros. -/
def equals : Value → Value → Bool
  | .null, .null => true
  | .bool a, .bool b => a = b
  | .number a, .number b => a.equals b
  | .string a, .string b => a = b
  | .array a, .array b => equalsItems a b
  | .object a, .object b => equalsMembers a b
  | _, _ => false

def equalsItems : List Value → List Value → Bool
  | [], [] => true
  | a :: as, b :: bs => equals a b && equalsItems as bs
  | _, _ => false

def equalsMembers : List (String × Value) → List (String × Value) → Bool
  | [], [] => true
  | (ka, a) :: as, (kb, b) :: bs => ka = kb && equals a b && equalsMembers as bs
  | _, _ => false

end

mutual

@[simp] theorem equals_self : ∀ value : Value, value.equals value = true
  | .null => rfl
  | .bool _ => decide_eq_true rfl
  | .number n => n.equals_self
  | .string _ => decide_eq_true rfl
  | .array items => equalsItems_self items
  | .object members => equalsMembers_self members

theorem equalsItems_self : ∀ items : List Value, equalsItems items items = true
  | [] => rfl
  | value :: rest => by
      rw [equalsItems, equals_self value, equalsItems_self rest]
      rfl

theorem equalsMembers_self : ∀ members : List (String × Value),
    equalsMembers members members = true
  | [] => rfl
  | (key, value) :: rest => by
      rw [equalsMembers, equals_self value, equalsMembers_self rest, decide_eq_true rfl]
      rfl

end

/-- A text equals no other value. -/
@[simp] theorem equals_string_iff {value : Value} {text : String} :
    value.equals (.string text) = true ↔ value = .string text := by
  cases value <;> simp [equals]

end Value

/-- `fabric_connector::Row`: one record, its fields in name order. -/
structure Row where
  fields : BTreeMap FieldName Value
deriving DecidableEq

namespace Row

/-- `Row::new`. -/
def new : Row := ⟨∅⟩

/-- `Row::with`: sets one field. -/
def «with» (row : Row) (field : FieldName) (value : Value) : Row :=
  ⟨row.fields.insert field value⟩

/-- `Row::get`. -/
def get (row : Row) (field : FieldName) : Option Value := row.fields[field]?

@[simp] theorem get_with_self (row : Row) (field : FieldName) (value : Value) :
    (row.with field value).get field = some value :=
  Library.getElem?_insert_self _ _ _

theorem get_with_ne (row : Row) {field other : FieldName} (value : Value)
    (hne : field ≠ other) : (row.with field value).get other = row.get other :=
  Library.getElem?_insert_ne _ _ hne

/-- Two rows with the same fields are the same row. -/
theorem ext_get {a b : Row} (h : ∀ field, a.get field = b.get field) : a = b := by
  cases a
  cases b
  exact congrArg Row.mk (Std.ExtTreeMap.ext_getElem? h)

end Row

end SaasFabric
