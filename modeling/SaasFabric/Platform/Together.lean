import Mathlib.Data.List.Range
import Mathlib.Tactic.Common

/-!
# Several reads at once

`discovery/described/together.rs`: every read is polled on every wake, and the answers are handed
back once all are in or those so far already decide.  Polls are numbered from zero.  A read has
the answer it will give and the polls at which it would give it, which may be none.
-/

namespace SaasFabric
namespace Platform

/-- `Read`. -/
structure Read (T : Type) where
  value : T
  ready : ℕ → Bool

variable {T : Type}

/-- `Future::poll`. -/
def Read.poll (read : Read T) (now : ℕ) : Option T :=
  if read.ready now then some read.value else none

/-- What the read has answered by the end of this many polls. -/
def Read.within (read : Read T) (polls : ℕ) : Option T :=
  if (List.range polls).any read.ready then some read.value else none

@[simp] theorem Read.within_zero (read : Read T) : read.within 0 = none := rfl

theorem Read.within_isSome {read : Read T} {polls : ℕ} :
    (read.within polls).isSome ↔ ∃ now < polls, read.ready now := by
  simp [Read.within]

theorem Read.within_eq_some {read : Read T} {polls : ℕ} (h : (read.within polls).isSome) :
    read.within polls = some read.value := by
  unfold Read.within at h ⊢
  split at h
  case isTrue hready => exact if_pos hready
  case isFalse => exact absurd h Bool.false_ne_true

theorem Read.within_succ (read : Read T) (now : ℕ) :
    read.within (now + 1) = (read.within now).or (read.poll now) := by
  unfold Read.within Read.poll
  rw [List.range_succ, List.any_append]
  cases (List.range now).any read.ready <;> cases hready : read.ready now <;> simp [hready]

/-! ## Polling -/

/-- One place in `pending`, beside its place in `answers`. -/
structure Slot (T : Type) where
  pending : Option (Read T)
  answer : Option T

/-- What one pass over the slots leaves. -/
structure Polled (T : Type) where
  slots : List (Slot T)
  waiting : Bool
  arrived : Bool

/-- One pass: every read still pending is polled. -/
def pollEach (now : ℕ) : List (Slot T) → Polled T
  | [] => ⟨[], false, false⟩
  | slot :: slots =>
    let rest := pollEach now slots
    match slot.pending with
    | none => { rest with slots := slot :: rest.slots }
    | some read =>
      match read.poll now with
      | some value => { rest with slots := ⟨none, some value⟩ :: rest.slots, arrived := true }
      | none => { rest with slots := slot :: rest.slots, waiting := true }

/-- The passes from one on, as many as there are wakes: `none` while the answers are not given. -/
def pollUntil (settled : List (Option T) → Bool) : ℕ → ℕ → List (Slot T) →
    Option (List (Option T))
  | _, 0, _ => none
  | now, wakes + 1, slots =>
    let polled := pollEach now slots
    let answers := polled.slots.map Slot.answer
    if polled.waiting && !(polled.arrived && settled answers) then
      pollUntil settled (now + 1) wakes polled.slots
    else some answers

/-- `together`, after this many polls. -/
def together (reads : List (Read T)) (settled : List (Option T) → Bool) (polls : ℕ) :
    Option (List (Option T)) :=
  pollUntil settled 0 polls (reads.map fun read => ⟨some read, none⟩)

/-! ## What is in after each pass -/

/-- The slot of a read after this many polls. -/
def Read.slot (read : Read T) (polls : ℕ) : Slot T :=
  ⟨if (read.within polls).isSome then none else some read, read.within polls⟩

/-- The answers in after this many polls. -/
def answered (reads : List (Read T)) (polls : ℕ) : List (Option T) :=
  reads.map fun read => read.within polls

@[simp] theorem length_answered (reads : List (Read T)) (polls : ℕ) :
    (answered reads polls).length = reads.length := List.length_map _

/-- One pass brings in exactly what is ready, and says whether anything is out and came in. -/
theorem pollEach_slot (reads : List (Read T)) (now : ℕ) :
    pollEach now (reads.map fun read => read.slot now) =
      ⟨reads.map fun read => read.slot (now + 1),
        reads.any fun read => (read.within (now + 1)).isNone,
        reads.any fun read => (read.within now).isNone && read.ready now⟩ := by
  induction reads with
  | nil => rfl
  | cons read reads ih =>
    simp only [List.map_cons, List.any_cons, pollEach, ih]
    have hsucc := read.within_succ now
    cases hwithin : read.within now with
    | some value =>
      rw [hwithin, Option.some_or] at hsucc
      simp [Read.slot, hwithin, hsucc]
    | none =>
      rw [hwithin, Option.none_or] at hsucc
      cases hready : read.ready now <;>
        simp [Read.slot, Read.poll, hwithin, hsucc, hready]

/-- The answers are given at this pass. -/
def EndsAt (reads : List (Read T)) (settled : List (Option T) → Bool) (now : ℕ) : Prop :=
  (∀ read ∈ reads, (read.within (now + 1)).isSome) ∨
    (∃ read ∈ reads, read.within now = none ∧ read.ready now) ∧
      settled (answered reads (now + 1))

theorem endsAt_iff (reads : List (Read T)) (settled : List (Option T) → Bool) (now : ℕ) :
    EndsAt reads settled now ↔
      ((reads.any fun read => (read.within (now + 1)).isNone) &&
        !((reads.any fun read => (read.within now).isNone && read.ready now) &&
          settled (answered reads (now + 1)))) = false := by
  have hwaiting : (∀ read ∈ reads, (read.within (now + 1)).isSome) ↔
      (reads.any fun read => (read.within (now + 1)).isNone) = false := by
    simp [Option.isSome_iff_ne_none]
  have harrived : (∃ read ∈ reads, read.within now = none ∧ read.ready now) ↔
      (reads.any fun read => (read.within now).isNone && read.ready now) = true := by
    simp
  rw [EndsAt, hwaiting, harrived, Bool.and_eq_false_iff, Bool.not_eq_false', Bool.and_eq_true]

/-- The first pass at which the answers are given decides which are in. -/
theorem pollUntil_slot (reads : List (Read T)) (settled : List (Option T) → Bool)
    (now wakes : ℕ) (answers : List (Option T)) :
    pollUntil settled now wakes (reads.map fun read => read.slot now) = some answers ↔
      ∃ last, now ≤ last ∧ last < now + wakes ∧ EndsAt reads settled last ∧
        (∀ earlier, now ≤ earlier → earlier < last → ¬ EndsAt reads settled earlier) ∧
        answered reads (last + 1) = answers := by
  induction wakes generalizing now with
  | zero =>
    constructor
    · intro h
      exact absurd h nofun
    · rintro ⟨last, hle, hlt, -⟩
      omega
  | succ wakes ih =>
    have hslots : (reads.map fun read => read.slot (now + 1)).map Slot.answer =
        answered reads (now + 1) := by
      rw [List.map_map]
      rfl
    have hends := endsAt_iff reads settled now
    simp only [pollUntil, pollEach_slot, hslots]
    by_cases h : EndsAt reads settled now
    · rw [hends.mp h, if_neg Bool.false_ne_true, Option.some_inj]
      constructor
      · intro heq
        exact ⟨now, le_refl _, by omega, h, fun _ _ _ => by omega, heq⟩
      · rintro ⟨last, hle, -, -, hfirst, heq⟩
        have hlast : last = now := by
          by_contra hne
          exact hfirst now (le_refl _) (by omega) h
        exact hlast ▸ heq
    · rw [if_pos (Bool.of_not_eq_false (mt hends.mpr h)), ih (now + 1)]
      constructor
      · rintro ⟨last, hle, hlt, hend, hfirst, heq⟩
        refine ⟨last, by omega, by omega, hend, fun earlier hfrom hbefore => ?_, heq⟩
        by_cases hnow : earlier = now
        · exact hnow ▸ h
        · exact hfirst earlier (by omega) hbefore
      · rintro ⟨last, hle, hlt, hend, hfirst, heq⟩
        have hne : last ≠ now := fun hnow => h (hnow ▸ hend)
        exact ⟨last, by omega, by omega, hend,
          fun earlier hfrom => hfirst earlier (by omega), heq⟩

theorem together_eq_some {reads : List (Read T)} {settled : List (Option T) → Bool} {polls : ℕ}
    {answers : List (Option T)} :
    together reads settled polls = some answers ↔
      ∃ last < polls, EndsAt reads settled last ∧
        (∀ earlier < last, ¬ EndsAt reads settled earlier) ∧
        answered reads (last + 1) = answers := by
  have h := pollUntil_slot reads settled 0 polls answers
  simpa [together, Read.slot] using h

end Platform
end SaasFabric
