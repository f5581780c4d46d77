import Mathlib.Data.List.Nodup
import Mathlib.Tactic.Common

/-!
# Lists with keys, written key by key

An item takes the place of the first one with its key, or goes to the end.  Writing the same
items once more changes nothing, and what has another key stays where it is.
-/

namespace SaasFabric
namespace Library

section Upsert

variable {α K : Type} [DecidableEq K] (key : α → K)

/-- An item is put in the place of the first one with its key, or at the end. -/
def upsert (item : α) : List α → List α
  | [] => [item]
  | other :: rest => if key other = key item then item :: rest else other :: upsert item rest

/-- Items are put in place one after another. -/
def upsertAll (items list : List α) : List α := items.foldl (fun list item => upsert key item list) list

/-- The first item with a key. -/
def findKey (k : K) (list : List α) : Option α := list.find? fun item => decide (key item = k)

variable {key}

@[simp] theorem upsertAll_nil (list : List α) : upsertAll key [] list = list := rfl

@[simp] theorem upsertAll_cons (item : α) (items list : List α) :
    upsertAll key (item :: items) list = upsertAll key items (upsert key item list) := rfl

theorem findKey_cons (k : K) (item : α) (list : List α) :
    findKey key k (item :: list) = if key item = k then some item else findKey key k list := by
  unfold findKey
  by_cases h : key item = k
  · simp [h]
  · simp [h]

/-- An item put in place is found under its key, and every other key as before. -/
theorem findKey_upsert (k : K) (item : α) (list : List α) :
    findKey key k (upsert key item list) =
      if key item = k then some item else findKey key k list := by
  induction list with
  | nil => rw [upsert, findKey_cons]
  | cons other rest ih =>
      rw [upsert]
      by_cases hother : key other = key item
      · rw [if_pos hother, findKey_cons, findKey_cons, hother]
        split <;> rfl
      · rw [if_neg hother, findKey_cons, findKey_cons, ih]
        by_cases hitem : key item = k
        · have hne : key other ≠ k := fun h => hother (h.trans hitem.symm)
          simp only [if_pos hitem, if_neg hne]
        · simp only [if_neg hitem]

/-- The last of the items with a key, or what was there. -/
theorem findKey_upsertAll (k : K) (items list : List α) :
    findKey key k (upsertAll key items list) =
      (findKey key k items.reverse).or (findKey key k list) := by
  induction items generalizing list with
  | nil => rfl
  | cons item items ih =>
      rw [upsertAll_cons, ih, findKey_upsert, List.reverse_cons]
      unfold findKey
      rw [List.find?_append, Option.or_assoc]
      by_cases hitem : key item = k
      · simp [hitem]
      · simp [hitem]

/-- A key that is there stays alone. -/
theorem map_upsert_of_mem {item : α} {list : List α} (h : key item ∈ list.map key) :
    (upsert key item list).map key = list.map key := by
  induction list with
  | nil => exact absurd h List.not_mem_nil
  | cons other rest ih =>
      rw [upsert]
      by_cases hother : key other = key item
      · rw [if_pos hother, List.map_cons, List.map_cons, hother]
      · rw [if_neg hother, List.map_cons, List.map_cons, ih]
        obtain heq | hrest := List.mem_cons.mp h
        · exact absurd heq.symm hother
        · exact hrest

/-- A key that is not there goes to the end. -/
theorem map_upsert_of_notMem {item : α} {list : List α} (h : key item ∉ list.map key) :
    (upsert key item list).map key = list.map key ++ [key item] := by
  induction list with
  | nil => rfl
  | cons other rest ih =>
      rw [List.map_cons, List.mem_cons, not_or] at h
      rw [upsert, if_neg fun heq => h.1 heq.symm, List.map_cons, List.map_cons, ih h.2,
        List.cons_append]

theorem mem_map_upsert {k : K} {item : α} {list : List α} :
    k ∈ (upsert key item list).map key ↔ k = key item ∨ k ∈ list.map key := by
  by_cases h : key item ∈ list.map key
  · rw [map_upsert_of_mem h]
    constructor
    · exact Or.inr
    · rintro (rfl | hk)
      · exact h
      · exact hk
  · rw [map_upsert_of_notMem h, List.mem_append, List.mem_singleton, or_comm]

theorem mem_map_upsertAll {k : K} {items list : List α} :
    k ∈ (upsertAll key items list).map key ↔ k ∈ items.map key ∨ k ∈ list.map key := by
  induction items generalizing list with
  | nil => simp
  | cons item items ih =>
      rw [upsertAll_cons, ih, mem_map_upsert, List.map_cons, List.mem_cons]
      tauto

/-- Keys that differ keep differing. -/
theorem nodup_map_upsert {item : α} {list : List α} (h : (list.map key).Nodup) :
    ((upsert key item list).map key).Nodup := by
  by_cases hmem : key item ∈ list.map key
  · rwa [map_upsert_of_mem hmem]
  · rw [map_upsert_of_notMem hmem]
    exact List.nodup_append_comm.mp (List.nodup_cons.mpr ⟨hmem, h⟩)

theorem nodup_map_upsertAll {items list : List α} (h : (list.map key).Nodup) :
    ((upsertAll key items list).map key).Nodup := by
  induction items generalizing list with
  | nil => exact h
  | cons item items ih => exact ih (nodup_map_upsert h)

/-- Items whose keys are all there change no key. -/
theorem map_upsertAll_of_mem {items list : List α}
    (h : ∀ item ∈ items, key item ∈ list.map key) :
    (upsertAll key items list).map key = list.map key := by
  induction items generalizing list with
  | nil => rfl
  | cons item items ih =>
      have hitem := map_upsert_of_mem (h item List.mem_cons_self)
      rw [upsertAll_cons, ih, hitem]
      intro other hother
      rw [hitem]
      exact h other (List.mem_cons_of_mem _ hother)

/-- Among keys that differ, an item is what is found under its key. -/
theorem findKey_eq_some {k : K} {item : α} {list : List α} (h : (list.map key).Nodup) :
    findKey key k list = some item ↔ item ∈ list ∧ key item = k := by
  constructor
  · intro hfind
    exact ⟨List.mem_of_find?_eq_some hfind, of_decide_eq_true (List.find?_some hfind :)⟩
  · rintro ⟨hmem, rfl⟩
    cases hfind : findKey key (key item) list with
    | none => exact absurd (List.find?_eq_none.mp hfind item hmem) (by simp)
    | some found =>
        have hkey : key found = key item := of_decide_eq_true (List.find?_some hfind :)
        rw [List.inj_on_of_nodup_map h (List.mem_of_find?_eq_some hfind) hmem hkey]

/-- Lists with the same keys, which differ, and the same item under each are one. -/
theorem eq_of_findKey {first second : List α} (hkeys : first.map key = second.map key)
    (hnodup : (first.map key).Nodup) (h : ∀ k, findKey key k first = findKey key k second) :
    first = second := by
  have hlength : first.length = second.length := by
    simpa using congrArg List.length hkeys
  refine List.ext_getElem hlength fun i hi hi' => ?_
  have hkey : key first[i] = key second[i] := by
    have hget := List.getElem_of_eq hkeys (by simpa using hi)
    simpa using hget
  have hfirst := (findKey_eq_some hnodup).mpr ⟨List.getElem_mem hi, hkey⟩
  have hsecond := (findKey_eq_some (hkeys ▸ hnodup)).mpr ⟨List.getElem_mem hi', rfl⟩
  rw [h, hsecond] at hfirst
  exact (Option.some.inj hfirst).symm

/-- Putting the same items in place once more changes nothing. -/
theorem upsertAll_upsertAll {items list : List α} (h : (list.map key).Nodup) :
    upsertAll key items (upsertAll key items list) = upsertAll key items list := by
  have hkeys : (upsertAll key items (upsertAll key items list)).map key =
      (upsertAll key items list).map key :=
    map_upsertAll_of_mem fun item hitem =>
      mem_map_upsertAll.mpr (Or.inl (List.mem_map_of_mem hitem))
  refine eq_of_findKey hkeys (nodup_map_upsertAll (nodup_map_upsertAll h)) fun k => ?_
  rw [findKey_upsertAll, findKey_upsertAll, ← Option.or_assoc, Option.or_self]

theorem getElem?_upsert {item other : α} {list : List α} {i : Nat} (h : list[i]? = some other)
    (hkey : key other ≠ key item) : (upsert key item list)[i]? = some other := by
  induction list generalizing i with
  | nil => simp at h
  | cons first rest ih =>
      rw [upsert]
      by_cases hfirst : key first = key item
      · rw [if_pos hfirst]
        cases i with
        | zero =>
            obtain rfl : first = other := Option.some.inj h
            exact absurd hfirst hkey
        | succ i => exact h
      · rw [if_neg hfirst]
        cases i with
        | zero => exact h
        | succ i => exact ih h

/-- What none of the items has the key of stays where it is. -/
theorem getElem?_upsertAll {items list : List α} {other : α} {i : Nat}
    (h : list[i]? = some other) (hkey : ∀ item ∈ items, key other ≠ key item) :
    (upsertAll key items list)[i]? = some other := by
  induction items generalizing list with
  | nil => exact h
  | cons item items ih =>
      exact ih (getElem?_upsert h (hkey item List.mem_cons_self))
        fun item' hitem' => hkey item' (List.mem_cons_of_mem _ hitem')

/-- A key among keys that differ is there once. -/
theorem countP_key_eq_one {k : K} {list : List α} (hnodup : (list.map key).Nodup)
    (h : k ∈ list.map key) : list.countP (fun item => decide (key item = k)) = 1 := by
  have hcount := List.count_eq_one_of_mem hnodup h
  rw [List.count_eq_countP, List.countP_map] at hcount
  rw [← hcount]
  refine List.countP_congr fun item _ => ?_
  simp

end Upsert
end Library
end SaasFabric
