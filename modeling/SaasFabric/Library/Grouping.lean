import Mathlib.Data.List.Nodup
import Mathlib.Tactic.Common
import SaasFabric.Library.Collect

/-!
# Hash maps built by `entry`

What a hash map holds after a list of entries went into it one by one: each key's
values appended to what it holds, or a key's one value, until there is a second.
Neither depends on the order a hash map is listed in.
-/

namespace SaasFabric

/-- The values of a hash map, in the order it happens to be listed in. -/
def HashMap.values {K V : Type} (map : HashMap K V) : List V :=
  map.entries.map Sigma.snd

namespace Library

variable {K V : Type} [DecidableEq K]

theorem mem_values_iff {map : HashMap K V} {value : V} :
    value ∈ HashMap.values map ↔ ∃ key, map.lookup key = some value := by
  unfold HashMap.values
  rw [List.mem_map]
  constructor
  · rintro ⟨⟨key, held⟩, hmem, rfl⟩
    exact ⟨key, AList.mem_lookup_iff.mpr hmem⟩
  · rintro ⟨key, hkey⟩
    exact ⟨⟨key, value⟩, AList.mem_lookup_iff.mp hkey, rfl⟩

/-- The values of a map whose keys are read off its values are listed once each. -/
theorem nodup_values_map {map : HashMap K V} {key : V → K}
    (hkeys : ∀ k value, map.lookup k = some value → key value = k) :
    ((HashMap.values map).map key).Nodup := by
  have heq : (HashMap.values map).map key = map.keys := by
    unfold HashMap.values AList.keys List.keys
    rw [List.map_map]
    refine List.map_congr_left fun entry hentry => ?_
    exact hkeys entry.1 entry.2 (AList.mem_lookup_iff.mpr hentry)
  rw [heq]
  exact map.keys_nodup

/-! ## Lists under each key -/

/-- `entry(key).or_default().extend(values)`, for each entry in turn. -/
def extendAll (map : HashMap K (List V)) (entries : List (K × List V)) : HashMap K (List V) :=
  entries.foldl (fun map entry =>
    map.insert entry.1 ((map.lookup entry.1).getD [] ++ entry.2)) map

/-- A key holds what it held, and the values of its entries in order. -/
theorem getD_lookup_extendAll (map : HashMap K (List V)) (entries : List (K × List V))
    (key : K) :
    ((extendAll map entries).lookup key).getD [] =
      (map.lookup key).getD [] ++
        (entries.filter fun entry => decide (entry.1 = key)).flatMap Prod.snd := by
  induction entries generalizing map with
  | nil => simp [extendAll]
  | cons entry entries ih =>
      refine (ih _).trans ?_
      by_cases hkey : entry.1 = key
      · subst hkey
        simp
      · rw [AList.lookup_insert_ne (Ne.symm hkey)]
        simp [hkey]

/-- A value is under a key exactly when an entry of that key has it. -/
theorem mem_getD_lookup_extendAll {entries : List (K × List V)} {key : K} {value : V} :
    value ∈ ((extendAll ∅ entries).lookup key).getD [] ↔
      ∃ values, (key, values) ∈ entries ∧ value ∈ values := by
  rw [getD_lookup_extendAll]
  simp only [AList.lookup_empty, Option.getD_none, List.nil_append, List.mem_flatMap,
    List.mem_filter, decide_eq_true_eq]
  constructor
  · rintro ⟨⟨_, values⟩, ⟨hmem, rfl⟩, hvalue⟩
    exact ⟨values, hmem, hvalue⟩
  · rintro ⟨values, hmem, hvalue⟩
    exact ⟨(key, values), ⟨hmem, rfl⟩, hvalue⟩

/-! ## One value, or several -/

/-- What one key is known to hold: one value, or more than one. -/
inductive Held (V : Type) where
  | one (value : V)
  | several
deriving DecidableEq

/-- `entry(key).and_modify(several).or_insert(one)`, for each entry in turn. -/
def holdAll (map : HashMap K (Held V)) (entries : List (K × V)) : HashMap K (Held V) :=
  entries.foldl (fun map entry =>
    map.insert entry.1 (match map.lookup entry.1 with
      | some _ => .several
      | none => .one entry.2)) map

/-- What is known of a list of values. -/
def heldOf : List V → Option (Held V)
  | [] => none
  | [value] => some (.one value)
  | _ :: _ :: _ => some .several

theorem heldOf_append_singleton (values : List V) (value : V) :
    heldOf (values ++ [value]) =
      some (match heldOf values with
        | some _ => .several
        | none => .one value) := by
  match values with
  | [] => rfl
  | [_] => rfl
  | _ :: _ :: _ => rfl

/-- A key holds what is known of the values of its entries. -/
theorem lookup_holdAll (entries : List (K × V)) (key : K) :
    (holdAll ∅ entries).lookup key =
      heldOf ((entries.filter fun entry => decide (entry.1 = key)).map Prod.snd) := by
  induction entries using List.reverseRecOn with
  | nil => simp [holdAll, heldOf]
  | append_singleton entries entry ih =>
      have hfold : holdAll ∅ (entries ++ [entry]) =
          (holdAll ∅ entries).insert entry.1 (match (holdAll ∅ entries).lookup entry.1 with
            | some _ => .several
            | none => .one entry.2) := by
        simp [holdAll]
      rw [hfold, List.filter_append, List.map_append]
      by_cases hkey : entry.1 = key
      · subst hkey
        rw [AList.lookup_insert, ih, List.filter_singleton]
        simp [heldOf_append_singleton]
      · rw [AList.lookup_insert_ne (Ne.symm hkey), ih, List.filter_singleton]
        simp [hkey]

/-- Of values listed once each, what is known of them tells whether any is another than
a given one. -/
theorem heldOf_other_iff {values : List V} (hnodup : values.Nodup) {value : V} :
    (heldOf values = some .several ∨ ∃ held, heldOf values = some (.one held) ∧ held ≠ value) ↔
      ∃ other ∈ values, other ≠ value := by
  match values, hnodup with
  | [], _ => simp [heldOf]
  | [_], _ => simp [heldOf]
  | first :: second :: rest, hnodup =>
      simp only [heldOf, true_or, true_iff]
      have hne : first ≠ second := by
        rintro rfl
        simp at hnodup
      by_cases hfirst : first = value
      · exact ⟨second, by simp, fun hsecond => hne (hfirst.trans hsecond.symm)⟩
      · exact ⟨first, by simp, hfirst⟩

end Library
end SaasFabric
