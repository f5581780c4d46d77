import Mathlib.Data.List.Nodup
import Mathlib.Tactic.Common

/-!
# Structs read from a JSON text

A JSON text as it is written, the members of an object in their order and with repeats, and
what a derived reader makes of it: a struct is read from an object by the names of its
fields, or from an array by their order.
-/

namespace SaasFabric
namespace Library

/-- A JSON text, over a type of numbers. -/
inductive Json (N : Type) where
  | null
  | bool (value : Bool)
  | number (value : N)
  | string (text : String)
  | array (items : List (Json N))
  | object (members : List (String × Json N))

/-- The fields of a struct, in order, and whether a member that is none of them is refused. -/
structure Shape where
  fields : List String
  closed : Bool

namespace Json

variable {N T : Type}

/-- The text is an object. -/
def IsObject (json : Json N) : Prop := ∃ members, json = .object members

/-- The members of an object that a struct has fields for. -/
def known (shape : Shape) (members : List (String × Json N)) : List (String × Json N) :=
  members.filter fun member => member.1 ∈ shape.fields

/-- What a struct's fields are read from. A repeated field is refused; an array may leave out
the last fields, and has no more items than there are fields. -/
def fields (shape : Shape) : Json N → Option (List (String × Json N))
  | .object members =>
      if shape.closed = true ∧ ¬ members.all (fun member => member.1 ∈ shape.fields) = true then
        none
      else if ((known shape members).map Prod.fst).Nodup then
        some (known shape members)
      else
        none
  | .array items => if items.length ≤ shape.fields.length then some (shape.fields.zip items) else none
  | _ => none

/-- The text that a struct finds for one of its fields. -/
def field (shape : Shape) (name : String) (json : Json N) : Option (Json N) :=
  (fields shape json).bind fun taken => taken.lookup name

/-- A field that has to be there. -/
def required (fields : List (String × Json N)) (name : String) (read : Json N → Option T) :
    Option T :=
  (fields.lookup name).bind read

/-- A field with a default. -/
def defaulted (fields : List (String × Json N)) (name : String) (read : Json N → Option T)
    (default : T) : Option T :=
  match fields.lookup name with
  | none => some default
  | some json => read json

/-- `null`, or a value. -/
def optional (read : Json N → Option T) : Json N → Option (Option T)
  | .null => some none
  | json => (read json).map some

/-- A string. -/
def text : Json N → Option String
  | .string text => some text
  | _ => none

theorem required_eq_some {fields : List (String × Json N)} {name : String}
    {read : Json N → Option T} {value : T} : required fields name read = some value ↔
      ∃ json, fields.lookup name = some json ∧ read json = some value :=
  Option.bind_eq_some_iff

theorem field_of_fields {shape : Shape} {json : Json N} {taken : List (String × Json N)}
    (h : fields shape json = some taken) (name : String) :
    field shape name json = taken.lookup name := by
  unfold field
  rw [h]
  rfl

/-! ## One text, two structs -/

theorem lookup_known {shape : Shape} {members : List (String × Json N)} {name : String}
    (h : name ∈ shape.fields) : (known shape members).lookup name = members.lookup name := by
  unfold known
  induction members with
  | nil => rfl
  | cons member rest ih =>
      obtain ⟨field, value⟩ := member
      by_cases hfield : field ∈ shape.fields
      · rw [List.filter_cons_of_pos (by simpa using hfield), List.lookup_cons, List.lookup_cons, ih]
      · have hne : (name == field) = false := by
          apply beq_false_of_ne
          rintro rfl
          exact hfield h
        rw [List.filter_cons_of_neg (by simpa using hfield), List.lookup_cons, hne, ih]

/-- A struct is read from an object that repeats no field, and where the struct is closed has
no other member. -/
theorem fields_object_eq_some {shape : Shape} {members taken : List (String × Json N)} :
    fields shape (.object members) = some taken ↔
      (shape.closed = true → ∀ member ∈ members, member.1 ∈ shape.fields) ∧
        ((known shape members).map Prod.fst).Nodup ∧ known shape members = taken := by
  simp only [fields, List.all_eq_true, decide_eq_true_eq]
  by_cases hothers : shape.closed = true ∧ ¬ ∀ member ∈ members, member.1 ∈ shape.fields
  · rw [if_pos hothers]
    exact ⟨(fun h => nomatch h), fun h => absurd (h.1 hothers.1) hothers.2⟩
  · rw [if_neg hothers]
    have hclosed : shape.closed = true → ∀ member ∈ members, member.1 ∈ shape.fields :=
      fun h => not_not.mp fun hnot => hothers ⟨h, hnot⟩
    by_cases hnodup : ((known shape members).map Prod.fst).Nodup
    · simp only [if_pos hnodup, Option.some.injEq]
      exact ⟨fun h => ⟨hclosed, hnodup, h⟩, fun h => h.2.2⟩
    · rw [if_neg hnodup]
      exact ⟨(fun h => nomatch h), fun h => absurd h.2.1 hnodup⟩

/-- A struct is read from an array of at most as many items as it has fields. -/
theorem fields_array_eq_some {shape : Shape} {items : List (Json N)}
    {taken : List (String × Json N)} : fields shape (.array items) = some taken ↔
      items.length ≤ shape.fields.length ∧ shape.fields.zip items = taken := by
  simp only [fields]
  split
  · rename_i hle
    simp only [Option.some.injEq, hle, true_and]
  · rename_i hle
    exact ⟨(fun h => nomatch h), fun h => absurd h.1 hle⟩

/-- The fields of an object are looked up among its members. -/
theorem lookup_fields {shape : Shape} {members taken : List (String × Json N)} {name : String}
    (hfields : fields shape (.object members) = some taken) (h : name ∈ shape.fields) :
    taken.lookup name = members.lookup name := by
  obtain ⟨-, -, rfl⟩ := fields_object_eq_some.mp hfields
  exact lookup_known h

/-- An object that one struct is read from can be read as any open struct with fewer fields. -/
theorem exists_fields_of_subset {inner outer : Shape} {members taken : List (String × Json N)}
    (hsubset : inner.fields ⊆ outer.fields) (hopen : inner.closed = false)
    (h : fields outer (.object members) = some taken) :
    ∃ fewer, fields inner (.object members) = some fewer := by
  obtain ⟨-, hnodup, -⟩ := fields_object_eq_some.mp h
  have hsublist : (known inner members).Sublist (known outer members) := by
    have hinner : known inner members = known inner (known outer members) := by
      unfold known
      rw [List.filter_filter]
      refine List.filter_congr fun member _ => ?_
      by_cases hmem : member.1 ∈ inner.fields
      · simp [hmem, hsubset hmem]
      · simp [hmem]
    rw [hinner]
    exact List.filter_sublist
  refine ⟨known inner members, fields_object_eq_some.mpr ⟨fun hclosed => ?_,
    (hsublist.map Prod.fst).nodup hnodup, rfl⟩⟩
  rw [hopen] at hclosed
  cases hclosed

/-- What one struct is read from, every open struct with fewer fields is read from alike. -/
theorem fields_of_subset {inner outer : Shape} {members taken : List (String × Json N)}
    (hsubset : inner.fields ⊆ outer.fields) (hopen : inner.closed = false)
    (h : fields outer (.object members) = some taken) :
    ∃ fewer, fields inner (.object members) = some fewer ∧
      ∀ name ∈ inner.fields, fewer.lookup name = taken.lookup name := by
  obtain ⟨fewer, hfewer⟩ := exists_fields_of_subset hsubset hopen h
  refine ⟨fewer, hfewer, fun name hname => ?_⟩
  rw [lookup_fields hfewer hname, lookup_fields h (hsubset hname)]

/-! ## An array -/

/-- The fields of an array are its items, in order. -/
theorem lookup_zip {names : List String} (hnodup : names.Nodup) (items : List (Json N))
    {place : Nat} {name : String} (hname : names[place]? = some name) :
    (names.zip items).lookup name = items[place]? := by
  induction names generalizing items place with
  | nil => simp at hname
  | cons first rest ih =>
      obtain ⟨hfirst, hrest⟩ := List.nodup_cons.mp hnodup
      cases items with
      | nil => simp
      | cons item items =>
          rw [List.zip_cons_cons, List.lookup_cons]
          cases place with
          | zero =>
              obtain rfl : first = name := by simpa using hname
              simp
          | succ place =>
              have hmem : name ∈ rest := List.mem_of_getElem? (by simpa using hname)
              have hne : (name == first) = false := by
                apply beq_false_of_ne
                rintro rfl
                exact hfirst hmem
              rw [hne]
              simpa using ih hrest items (by simpa using hname)

/-- A field that was read from an array is one of its items. -/
theorem lt_of_lookup_fields {shape : Shape} {items : List (Json N)}
    {taken : List (String × Json N)} (h : fields shape (.array items) = some taken)
    (hnodup : shape.fields.Nodup) (place : Nat) {name : String} {json : Json N}
    (hname : shape.fields[place]? = some name) (hlookup : taken.lookup name = some json) :
    place < items.length := by
  obtain ⟨-, rfl⟩ := fields_array_eq_some.mp h
  rw [lookup_zip hnodup items hname] at hlookup
  obtain ⟨hlt, -⟩ := List.getElem?_eq_some_iff.mp hlookup
  exact hlt

end Json
end Library
end SaasFabric
