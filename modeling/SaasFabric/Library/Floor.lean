import Mathlib.Order.MinMax
import SaasFabric.Library.Collect

/-!
# Floors

A floor is the highest value seen, if one was.  A map of floors is raised entry by
entry; what it comes to does not depend on the order, nor on an entry being seen twice,
so everything about it is said through what it is at least.
-/

namespace SaasFabric
namespace Library

section Floors

variable {R : Type} [LinearOrder R]

/-- A floor is there, and not below a value. -/
def AtLeast (floor : Option R) (value : R) : Prop := ∃ held, floor = some held ∧ value ≤ held

/-- The higher of two floors; none is below every one. -/
def maxFloor : Option R → Option R → Option R
  | none, floor => floor
  | some held, none => some held
  | some held, some other => some (max held other)

@[simp] theorem not_atLeast_none (value : R) : ¬ AtLeast none value := by
  rintro ⟨held, hheld, -⟩
  cases hheld

@[simp] theorem atLeast_some {held value : R} : AtLeast (some held) value ↔ value ≤ held := by
  constructor
  · rintro ⟨_, hheld, hle⟩
    cases hheld
    exact hle
  · exact fun hle => ⟨held, rfl, hle⟩

theorem AtLeast.mono {floor : Option R} {value lower : R} (h : AtLeast floor value)
    (hle : lower ≤ value) : AtLeast floor lower := by
  obtain ⟨held, hheld, hvalue⟩ := h
  exact ⟨held, hheld, hle.trans hvalue⟩

theorem atLeast_maxFloor {first second : Option R} {value : R} :
    AtLeast (maxFloor first second) value ↔ AtLeast first value ∨ AtLeast second value := by
  cases first with
  | none => simp [maxFloor]
  | some held =>
      cases second with
      | none => simp [maxFloor]
      | some other => simp [maxFloor]

/-- Two floors that are at least the same values are one. -/
theorem eq_of_atLeast_iff {first second : Option R}
    (h : ∀ value, AtLeast first value ↔ AtLeast second value) : first = second := by
  cases first with
  | none =>
      cases second with
      | none => rfl
      | some other => exact absurd ((h other).mpr (atLeast_some.mpr le_rfl)) (not_atLeast_none _)
  | some held =>
      cases second with
      | none => exact absurd ((h held).mp (atLeast_some.mpr le_rfl)) (not_atLeast_none _)
      | some other =>
          have hle : held ≤ other := atLeast_some.mp ((h held).mp (atLeast_some.mpr le_rfl))
          have hge : other ≤ held := atLeast_some.mp ((h other).mpr (atLeast_some.mpr le_rfl))
          rw [le_antisymm hle hge]

theorem maxFloor_some_of_forall_le {floor : Option R} {value : R}
    (h : ∀ held, floor = some held → held ≤ value) : maxFloor floor (some value) = some value := by
  cases floor with
  | none => rfl
  | some held => exact congrArg some (max_eq_right (h held rfl))

end Floors

/-! ## Maps of floors -/

section Maps

variable {K R : Type} [Ord K] [Std.TransOrd K] [Std.LawfulEqOrd K] [LinearOrder R]

/-- Raises the floor of a key to a value. -/
def raise (floors : BTreeMap K R) (key : K) (value : R) : BTreeMap K R :=
  match floors[key]? with
  | none => floors.insert key value
  | some highest => if highest < value then floors.insert key value else floors

/-- Raises the floors of a list of entries. -/
def raiseAll (floors : BTreeMap K R) (entries : List (K × R)) : BTreeMap K R :=
  entries.foldl (fun floors entry => raise floors entry.1 entry.2) floors

theorem atLeast_raise {floors : BTreeMap K R} {key other : K} {value bound : R} :
    AtLeast (raise floors key value)[other]? bound ↔
      AtLeast floors[other]? bound ∨ (key = other ∧ bound ≤ value) := by
  by_cases hkey : key = other
  · subst hkey
    simp only [true_and]
    unfold raise
    cases hheld : floors[key]? with
    | none =>
        dsimp only
        rw [getElem?_insert_self, atLeast_some]
        simp
    | some highest =>
        dsimp only
        by_cases hlt : highest < value
        · rw [if_pos hlt, getElem?_insert_self, atLeast_some, atLeast_some]
          exact ⟨Or.inr, fun h => h.elim (fun hle => hle.trans hlt.le) id⟩
        · rw [if_neg hlt, hheld, atLeast_some]
          exact ⟨Or.inl, fun h => h.elim id fun hle => hle.trans (not_lt.mp hlt)⟩
  · have hother : (raise floors key value)[other]? = floors[other]? := by
      unfold raise
      split
      · exact getElem?_insert_ne _ _ hkey
      · split
        · exact getElem?_insert_ne _ _ hkey
        · rfl
    rw [hother]
    simp [hkey]

/-- A raised map is at least what it was, and at least every entry. -/
theorem atLeast_raiseAll {floors : BTreeMap K R} {entries : List (K × R)} {key : K} {bound : R} :
    AtLeast (raiseAll floors entries)[key]? bound ↔
      AtLeast floors[key]? bound ∨ ∃ entry ∈ entries, entry.1 = key ∧ bound ≤ entry.2 := by
  induction entries generalizing floors with
  | nil => simp [raiseAll]
  | cons entry entries ih =>
      refine (@ih (raise floors entry.1 entry.2)).trans ?_
      rw [atLeast_raise]
      simp only [List.mem_cons, exists_eq_or_imp, or_assoc]

/-- Two maps that are at least the same values, key by key, are one. -/
theorem ext_of_atLeast_iff {first second : BTreeMap K R}
    (h : ∀ (key : K) (bound : R), AtLeast first[key]? bound ↔ AtLeast second[key]? bound) :
    first = second :=
  Std.ExtTreeMap.ext_getElem? fun key => eq_of_atLeast_iff (h key)

end Maps
end Library
end SaasFabric
