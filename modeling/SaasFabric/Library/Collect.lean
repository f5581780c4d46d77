import Mathlib.Data.List.AList
import Mathlib.Data.List.Induction
import Mathlib.Data.List.Basic
import Mathlib.Tactic.Common

/-!
# Maps collected from lists

An ordered map is Lean's extensional tree map: two of them are equal when they
look up alike, and it is listed in key order.  A hash map is Mathlib's `AList`,
its entries in the order they happen to be listed in, which nothing about a hash
map fixes.  Both are built from a list by inserting its entries in turn, so a
key that is listed twice keeps its last value.
-/

namespace SaasFabric

/-- A map listed in key order. -/
abbrev BTreeMap (K V : Type) [Ord K] := Std.ExtTreeMap K V compare

/-- A set listed in order. -/
abbrev BTreeSet (K : Type) [Ord K] := Std.ExtTreeSet K compare

/-- A map listed in no particular order. -/
abbrev HashMap (K V : Type) := AList (fun _ : K => V)

namespace Library

/-! ## Ordered maps -/

section Ordered

variable {K V : Type} [Ord K] [Std.TransOrd K] [Std.LawfulEqOrd K]

/-- Inserts the entries of a list in turn. -/
def collectInto (map : BTreeMap K V) (entries : List (K × V)) : BTreeMap K V :=
  entries.foldl (fun map entry => map.insert entry.1 entry.2) map

/-- The map of a list of entries; the last entry of a key is the one kept. -/
def collect (entries : List (K × V)) : BTreeMap K V :=
  collectInto ∅ entries

theorem getElem?_insert_self (map : BTreeMap K V) (key : K) (value : V) :
    (map.insert key value)[key]? = some value := by
  simp

theorem getElem?_insert_ne (map : BTreeMap K V) {key other : K} (value : V)
    (hne : key ≠ other) : (map.insert key value)[other]? = map[other]? := by
  rw [Std.ExtTreeMap.getElem?_insert, if_neg]
  simpa using hne

/-- An inserted map holds the new key, and the keys it held. -/
theorem isSome_insert_iff (map : BTreeMap K V) {key other : K} (value : V) :
    ((map.insert key value)[other]?).isSome ↔ other = key ∨ (map[other]?).isSome := by
  by_cases hkey : key = other
  · subst hkey
    simp
  · rw [getElem?_insert_ne _ _ hkey]
    simp [Ne.symm hkey]

/-- What a key holds after a list of entries was inserted came from the list, or
was there before and the list does not name the key. -/
theorem getElem?_collectInto {map : BTreeMap K V} {entries : List (K × V)}
    {key : K} {value : V} (h : (collectInto map entries)[key]? = some value) :
    (key, value) ∈ entries ∨
      (map[key]? = some value ∧ key ∉ entries.map Prod.fst) := by
  induction entries generalizing map with
  | nil => exact Or.inr ⟨h, by simp⟩
  | cons entry entries ih =>
      rcases ih h with hmem | ⟨hheld, hnot⟩
      · exact Or.inl (List.mem_cons_of_mem _ hmem)
      · by_cases hkey : entry.1 = key
        · subst hkey
          rw [getElem?_insert_self] at hheld
          cases hheld
          exact Or.inl List.mem_cons_self
        · rw [getElem?_insert_ne _ _ hkey] at hheld
          refine Or.inr ⟨hheld, ?_⟩
          simp only [List.map_cons, List.mem_cons, not_or]
          exact ⟨fun h => hkey h.symm, hnot⟩

/-- What a collected map holds was listed. -/
theorem mem_of_getElem?_collect {entries : List (K × V)} {key : K} {value : V}
    (h : (collect entries)[key]? = some value) : (key, value) ∈ entries := by
  rcases getElem?_collectInto h with hmem | ⟨hempty, -⟩
  · exact hmem
  · simp at hempty

theorem getElem?_collectInto_of_not_mem {map : BTreeMap K V} {entries : List (K × V)}
    {key : K} (h : key ∉ entries.map Prod.fst) :
    (collectInto map entries)[key]? = map[key]? := by
  induction entries generalizing map with
  | nil => rfl
  | cons entry entries ih =>
      simp only [List.map_cons, List.mem_cons, not_or] at h
      refine (ih h.2).trans ?_
      exact getElem?_insert_ne _ _ (fun heq => h.1 heq.symm)

/-- A map entries were inserted into holds, under each key, the last one listed for it, or what
it held. -/
theorem getElem?_collectInto_eq [DecidableEq K] (map : BTreeMap K V) (entries : List (K × V))
    (key : K) : (collectInto map entries)[key]? =
      ((entries.reverse.find? fun entry => decide (entry.1 = key)).map Prod.snd).or map[key]? := by
  induction entries using List.reverseRecOn with
  | nil => simp [collectInto]
  | append_singleton entries entry ih =>
      have hfold : collectInto map (entries ++ [entry]) =
          (collectInto map entries).insert entry.1 entry.2 := by
        simp [collectInto]
      rw [hfold, List.reverse_append, List.reverse_singleton, List.singleton_append,
        List.find?_cons]
      by_cases hkey : entry.1 = key
      · subst hkey
        simp
      · rw [getElem?_insert_ne _ _ hkey, ih]
        simp [hkey]

/-- A collected map holds, under each key, the last entry listed for it. -/
theorem getElem?_collect [DecidableEq K] (entries : List (K × V)) (key : K) :
    (collect entries)[key]? =
      (entries.reverse.find? fun entry => decide (entry.1 = key)).map Prod.snd := by
  rw [collect, getElem?_collectInto_eq]
  simp

/-- Where each key is listed once, a collected map holds what is listed. -/
theorem getElem?_collect_eq_some {entries : List (K × V)} (hnodup : (entries.map Prod.fst).Nodup)
    {key : K} {value : V} : (collect entries)[key]? = some value ↔ (key, value) ∈ entries := by
  refine ⟨mem_of_getElem?_collect, fun hmem => ?_⟩
  classical
  rw [getElem?_collect]
  cases hfound : entries.reverse.find? fun entry => decide (entry.1 = key) with
  | none =>
      have hnot := List.find?_eq_none.mp hfound _ (List.mem_reverse.mpr hmem)
      exact absurd (decide_eq_true rfl) hnot
  | some entry =>
      have hkey : entry.1 = key := of_decide_eq_true (List.find?_some hfound :)
      have hentry := List.mem_reverse.mp (List.mem_of_find?_eq_some hfound)
      rw [List.inj_on_of_nodup_map hnodup hentry hmem hkey]
      rfl

/-- A map is collected from its own entries. -/
theorem collect_toList (map : BTreeMap K V) : collect map.toList = map := by
  have hnodup : (map.toList.map Prod.fst).Nodup := by
    rw [Std.ExtTreeMap.map_fst_toList_eq_keys]
    exact Std.ExtTreeMap.distinct_keys.imp fun hne heq => hne (by simp [heq])
  apply Std.ExtTreeMap.ext_getElem?
  intro key
  apply Option.ext
  intro value
  rw [getElem?_collect_eq_some hnodup, Std.ExtTreeMap.mem_toList_iff_getElem?_eq_some]

/-- A map is the same in whatever order it was collected. -/
theorem collect_eq_of_perm {entries others : List (K × V)}
    (hnodup : (entries.map Prod.fst).Nodup) (hperm : entries.Perm others) :
    collect entries = collect others := by
  have hothers : (others.map Prod.fst).Nodup := (hperm.map Prod.fst).nodup_iff.mp hnodup
  refine Std.ExtTreeMap.ext_getElem? fun key => Option.ext fun value => ?_
  rw [getElem?_collect_eq_some hnodup, getElem?_collect_eq_some hothers]
  exact hperm.mem_iff

end Ordered

/-! ## Hash maps -/

section Hashed

variable {K V : Type} [DecidableEq K]

/-- The hash map of a list of entries; the last entry of a key is the one kept. -/
def hashCollect (entries : List (K × V)) : HashMap K V :=
  entries.foldl (fun map entry => map.insert entry.1 entry.2) ∅

theorem hashCollect_append_singleton (entries : List (K × V)) (entry : K × V) :
    hashCollect (entries ++ [entry]) = (hashCollect entries).insert entry.1 entry.2 := by
  unfold hashCollect
  rw [List.foldl_append]
  rfl

/-- What a hash map holds was listed. -/
theorem mem_of_lookup_hashCollect {entries : List (K × V)} {key : K} {value : V}
    (h : (hashCollect entries).lookup key = some value) : (key, value) ∈ entries := by
  induction entries using List.reverseRecOn with
  | nil => cases h
  | append_singleton entries entry ih =>
      rw [hashCollect_append_singleton] at h
      by_cases hkey : key = entry.1
      · subst hkey
        rw [AList.lookup_insert] at h
        cases h
        simp
      · rw [AList.lookup_insert_ne hkey] at h
        exact List.mem_append_left _ (ih h)

/-- Under every key that was listed something is held. -/
theorem exists_lookup_hashCollect {entries : List (K × V)} {key : K} {value : V}
    (h : (key, value) ∈ entries) : ∃ held, (hashCollect entries).lookup key = some held := by
  induction entries using List.reverseRecOn with
  | nil => cases h
  | append_singleton entries entry ih =>
      rw [hashCollect_append_singleton]
      by_cases hkey : key = entry.1
      · subst hkey
        exact ⟨entry.2, AList.lookup_insert _⟩
      · rw [AList.lookup_insert_ne hkey]
        rcases List.mem_append.mp h with hearlier | hlast
        · exact ih hearlier
        · exact absurd (congrArg Prod.fst (List.mem_singleton.mp hlast)) hkey

/-- What was listed under a key of its own is held. -/
theorem lookup_hashCollect_of_nodup {entries : List (K × V)}
    (hnodup : (entries.map Prod.fst).Nodup) {key : K} {value : V}
    (h : (key, value) ∈ entries) : (hashCollect entries).lookup key = some value := by
  induction entries using List.reverseRecOn with
  | nil => cases h
  | append_singleton entries entry ih =>
      rw [List.map_append, List.nodup_append] at hnodup
      rw [hashCollect_append_singleton]
      rcases List.mem_append.mp h with hearlier | hlast
      · have hne : key ≠ entry.1 :=
          hnodup.2.2 key (List.mem_map_of_mem (f := Prod.fst) hearlier) entry.1 (by simp)
        rw [AList.lookup_insert_ne hne]
        exact ih hnodup.1 hearlier
      · rw [← List.mem_singleton.mp hlast]
        exact AList.lookup_insert _

end Hashed
end Library
end SaasFabric
