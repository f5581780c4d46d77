import Mathlib.Data.List.Basic
import Mathlib.Logic.Relation
import Mathlib.Tactic.Common

/-!
# Operations that run side by side

Any number of operations share one state.  Each is at a place of its own; a step moves one of
them and may change what is shared, and the others are left where they are.  What is always
true of what is shared is proved together with what an operation knows at each place, which
has to outlast whatever the others do.
-/

namespace SaasFabric
namespace Library

/-- Operations over a shared state: where one may begin, and how one moves. -/
structure Interleaved (σ α : Type*) where
  begins : α → Prop
  moves : σ → α → σ → α → Prop

namespace Interleaved

variable {σ α : Type*}

/-- What is shared, and where each operation is. -/
structure Configuration (σ α : Type*) where
  shared : σ
  operations : List α

/-- An operation begins, or one of those that have begun moves. -/
inductive Step (system : Interleaved σ α) : Configuration σ α → Configuration σ α → Prop where
  | begin {shared : σ} {operations : List α} (operation : α) (begins : system.begins operation) :
      Step system ⟨shared, operations⟩ ⟨shared, operation :: operations⟩
  | move {shared next : σ} {before after : List α} {operation moved : α}
      (moves : system.moves shared operation next moved) :
      Step system ⟨shared, before ++ operation :: after⟩ ⟨next, before ++ moved :: after⟩

/-- What a run can come to, however the operations interleave. -/
def Runs (system : Interleaved σ α) :
    Configuration σ α → Configuration σ α → Prop :=
  Relation.ReflTransGen (Step system)

/-- The same operations, where every move meets a condition. -/
def restrict (system : Interleaved σ α) (Cond : σ → α → σ → α → Prop) : Interleaved σ α where
  begins := system.begins
  moves shared operation next moved :=
    system.moves shared operation next moved ∧ Cond shared operation next moved

/-- What every move keeps: an invariant of what is shared, what each operation knows at its
place, and a relation every move stands in that no knowledge is lost by. -/
structure Keeps (system : Interleaved σ α) (Inv : σ → Prop) (Rely : σ → σ → Prop)
    (Knows : σ → α → Prop) : Prop where
  begins : ∀ shared operation, Inv shared → system.begins operation → Knows shared operation
  moves : ∀ shared operation next moved, Inv shared → Knows shared operation →
    system.moves shared operation next moved → Inv next ∧ Rely shared next ∧ Knows next moved
  stable : ∀ shared next operation, Rely shared next → Knows shared operation →
    Knows next operation

variable {system : Interleaved σ α} {Inv : σ → Prop} {Rely : σ → σ → Prop}
  {Knows : σ → α → Prop}

/-- The invariant, and what every operation knows. -/
def Holds (Inv : σ → Prop) (Knows : σ → α → Prop) (configuration : Configuration σ α) : Prop :=
  Inv configuration.shared ∧
    ∀ operation ∈ configuration.operations, Knows configuration.shared operation

theorem Keeps.step (h : system.Keeps Inv Rely Knows) {configuration next : Configuration σ α}
    (hstep : Step system configuration next) (hholds : Holds Inv Knows configuration) :
    Holds Inv Knows next := by
  obtain ⟨hinv, hknows⟩ := hholds
  cases hstep with
  | begin operation hbegins =>
      refine ⟨hinv, fun other hother => ?_⟩
      rcases List.mem_cons.mp hother with rfl | hearlier
      · exact h.begins _ _ hinv hbegins
      · exact hknows other hearlier
  | @move shared _ before after operation moved hmoves =>
      have hmem : operation ∈ before ++ operation :: after :=
        List.mem_append_right _ List.mem_cons_self
      obtain ⟨hnext, hrely, hmoved⟩ := h.moves _ _ _ _ hinv (hknows operation hmem) hmoves
      refine ⟨hnext, fun other hother => ?_⟩
      -- The one that moved knows what its move says; the others, what outlasts the move.
      rcases List.mem_append.mp hother with hbefore | hafter
      · exact h.stable _ _ _ hrely (hknows other (List.mem_append_left _ hbefore))
      · rcases List.mem_cons.mp hafter with rfl | hlater
        · exact hmoved
        · exact h.stable _ _ _ hrely
            (hknows other (List.mem_append_right _ (List.mem_cons_of_mem _ hlater)))

/-- The induction rule: what every move keeps holds wherever a run comes to. -/
theorem Keeps.runs (h : system.Keeps Inv Rely Knows) {configuration next : Configuration σ α}
    (hruns : system.Runs configuration next) (hholds : Holds Inv Knows configuration) :
    Holds Inv Knows next := by
  induction hruns with
  | refl => exact hholds
  | tail _ hstep ih => exact h.step hstep ih

/-- Before any operation begins there is the invariant alone to show. -/
theorem Keeps.runs_of_idle (h : system.Keeps Inv Rely Knows) {start : σ} (hstart : Inv start)
    {configuration : Configuration σ α} (hruns : system.Runs ⟨start, []⟩ configuration) :
    Holds Inv Knows configuration :=
  h.runs hruns ⟨hstart, fun _ hmem => absurd hmem List.not_mem_nil⟩

/-- A run goes on with a move of the operation that began last. -/
theorem Runs.moved {shared next : σ} {others : List α} {operation moved : α}
    {configuration : Configuration σ α}
    (hruns : system.Runs configuration ⟨shared, operation :: others⟩)
    (hmoves : system.moves shared operation next moved) :
    system.Runs configuration ⟨next, moved :: others⟩ :=
  Relation.ReflTransGen.tail hruns (@Step.move _ _ _ _ _ [] others _ _ hmoves)

/-- Another operation begins. -/
theorem Runs.begun {configuration next : Configuration σ α}
    (hruns : system.Runs configuration next) (operation : α) (hbegins : system.begins operation) :
    system.Runs configuration ⟨next.shared, operation :: next.operations⟩ :=
  Relation.ReflTransGen.tail hruns (Step.begin operation hbegins)

/-- A run whose moves all meet a condition is a run. -/
theorem Runs.of_restrict {Cond : σ → α → σ → α → Prop} {configuration next : Configuration σ α}
    (hruns : (system.restrict Cond).Runs configuration next) :
    system.Runs configuration next := by
  have hle : Step (system.restrict Cond) ≤ Step system := by
    intro _ _ hstep
    cases hstep with
    | begin operation hbegins => exact Step.begin operation hbegins
    | move hmoves => exact Step.move hmoves.1
  exact Relation.ReflTransGen.mono hle _ _ hruns

end Interleaved
end Library
end SaasFabric
