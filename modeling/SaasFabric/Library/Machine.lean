import Mathlib.Data.List.Basic
import Mathlib.Tactic.Common

/-!
# Runs of a machine that answers every input

A deterministic machine takes an input, moves to a next state and emits a list
of outputs.  A run feeds it a list of inputs.  An invariant may speak about the
state and about everything emitted so far, so a property of a whole run (what
two outputs far apart have to do with each other) is an invariant of one step.
-/

namespace SaasFabric
namespace Library

/-- One step from a state under an input: the next state and what it emits. -/
structure Machine (σ ι ω : Type*) where
  step : σ → ι → σ × List ω

namespace Machine

variable {σ ι ω : Type*} (machine : Machine σ ι ω)

/-- The state a run ends in. -/
def final (start : σ) : List ι → σ
  | [] => start
  | input :: inputs => final (machine.step start input).1 inputs

/-- Everything a run emits, in order. -/
def emitted (start : σ) : List ι → List ω
  | [] => []
  | input :: inputs =>
      (machine.step start input).2 ++ emitted (machine.step start input).1 inputs

@[simp] theorem final_nil (start : σ) : machine.final start [] = start := rfl

@[simp] theorem final_cons (start : σ) (input : ι) (inputs : List ι) :
    machine.final start (input :: inputs) =
      machine.final (machine.step start input).1 inputs := rfl

@[simp] theorem emitted_nil (start : σ) : machine.emitted start [] = [] := rfl

@[simp] theorem emitted_cons (start : σ) (input : ι) (inputs : List ι) :
    machine.emitted start (input :: inputs) =
      (machine.step start input).2 ++
        machine.emitted (machine.step start input).1 inputs := rfl

/-- A run over two lists of inputs is the second run from where the first ends. -/
theorem final_append (start : σ) (first second : List ι) :
    machine.final start (first ++ second) =
      machine.final (machine.final start first) second := by
  induction first generalizing start with
  | nil => rfl
  | cons input first ih => exact ih _

theorem emitted_append (start : σ) (first second : List ι) :
    machine.emitted start (first ++ second) =
      machine.emitted start first ++
        machine.emitted (machine.final start first) second := by
  induction first generalizing start with
  | nil => rfl
  | cons input first ih =>
      rw [List.cons_append, emitted_cons, ih, emitted_cons, final_cons, List.append_assoc]

/-- Every step of a run meets a condition on the state it starts from and its input. -/
def Meets (Cond : σ → ι → Prop) : σ → List ι → Prop
  | _, [] => True
  | state, input :: inputs =>
      Cond state input ∧ Meets Cond (machine.step state input).1 inputs

theorem meets_of_forall {Cond : σ → ι → Prop} {inputs : List ι}
    (h : ∀ state, ∀ input ∈ inputs, Cond state input) (start : σ) :
    machine.Meets Cond start inputs := by
  induction inputs generalizing start with
  | nil => trivial
  | cons input inputs ih =>
      exact ⟨h start input List.mem_cons_self,
        ih (fun state other hother => h state other (List.mem_cons_of_mem _ hother)) _⟩

/-- The induction rule: what every step that meets a condition keeps, of the state and of
everything emitted so far, every run of such steps keeps. -/
theorem trace_invariant_of_meets {Cond : σ → ι → Prop} (Inv : σ → List ω → Prop)
    (hstep : ∀ state trace input, Cond state input → Inv state trace →
      Inv (machine.step state input).1 (trace ++ (machine.step state input).2))
    {start : σ} {trace : List ω} (hstart : Inv start trace) {inputs : List ι}
    (hmeets : machine.Meets Cond start inputs) :
    Inv (machine.final start inputs) (trace ++ machine.emitted start inputs) := by
  induction inputs generalizing start trace with
  | nil => simpa using hstart
  | cons input inputs ih =>
      rw [final_cons, emitted_cons, ← List.append_assoc]
      exact ih (hstep start trace input hmeets.1 hstart) hmeets.2

/-- What every step keeps, of the state and of everything emitted so far, every run keeps. -/
theorem trace_invariant (Inv : σ → List ω → Prop)
    (hstep : ∀ state trace input, Inv state trace →
      Inv (machine.step state input).1 (trace ++ (machine.step state input).2))
    {start : σ} {trace : List ω} (hstart : Inv start trace) (inputs : List ι) :
    Inv (machine.final start inputs) (trace ++ machine.emitted start inputs) :=
  machine.trace_invariant_of_meets Inv
    (fun state trace input (_ : True) hinv => hstep state trace input hinv) hstart
    (machine.meets_of_forall (fun _ _ _ => trivial) start)

/-- An invariant of the state alone. -/
theorem invariant (Inv : σ → Prop)
    (hstep : ∀ state input, Inv state → Inv (machine.step state input).1)
    {start : σ} (hstart : Inv start) (inputs : List ι) :
    Inv (machine.final start inputs) := by
  induction inputs generalizing start with
  | nil => exact hstart
  | cons input inputs ih => exact ih (hstep start input hstart)

end Machine

/-! ## Logs -/

section Logs

variable {T : Type*} {R : T → T → Prop}

/-- An entry of an ordered log is the last one, or comes before it. -/
theorem eq_or_rel_getLast {log : List T} (h : log.Pairwise R) {earlier last : T}
    (hmem : earlier ∈ log) (hlast : log.getLast? = some last) : earlier = last ∨ R earlier last := by
  obtain ⟨before, rfl⟩ := List.getLast?_eq_some_iff.mp hlast
  rcases List.mem_append.mp hmem with hbefore | hsingle
  · exact Or.inr ((List.pairwise_append.mp h).2.2 earlier hbefore last List.mem_cons_self)
  · exact Or.inl (List.mem_singleton.mp hsingle)

/-- A log stays ordered by a transitive relation where what is added follows the last entry. -/
theorem pairwise_concat (htrans : ∀ first second third, R first second → R second third →
    R first third) {log : List T} (h : log.Pairwise R) {next : T}
    (hnext : ∀ last, log.getLast? = some last → R last next) : (log ++ [next]).Pairwise R := by
  refine List.pairwise_append.mpr ⟨h, List.pairwise_singleton _ _, ?_⟩
  intro earlier hearlier later hlater
  rw [List.mem_singleton.mp hlater]
  cases hlast : log.getLast? with
  | none =>
      rw [List.getLast?_eq_none_iff.mp hlast] at hearlier
      exact absurd hearlier List.not_mem_nil
  | some last =>
      have hfollows := hnext last hlast
      rcases eq_or_rel_getLast h hearlier hlast with rfl | hbefore
      · exact hfollows
      · exact htrans _ _ _ hbefore hfollows

end Logs

end Library
end SaasFabric
