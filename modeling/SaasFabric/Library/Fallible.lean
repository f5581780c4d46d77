import Mathlib.Data.List.Forall2
import Mathlib.Tactic.Common

/-!
# Computations that can fail

Inversion of a computation in `Except` that succeeded: of a sequence, of a check of
every element of a list, and of a list whose elements are translated in turn.
-/

namespace SaasFabric
namespace Library

variable {ε α β : Type}

theorem ok_bind {value : α} {rest : α → Except ε β} : (.ok value >>= rest) = rest value := rfl

/-- A sequence succeeds when its first part does and its rest does on what that gave. -/
theorem bind_eq_ok {first : Except ε α} {rest : α → Except ε β} {result : β} :
    (first >>= rest) = .ok result ↔ ∃ value, first = .ok value ∧ rest value = .ok result := by
  cases first with
  | error error => simp [bind, Except.bind]
  | ok value => simp [bind, Except.bind]

/-- A check comes first: what follows it is reached where it passes. -/
theorem check_bind_eq_ok {check : Except ε Unit} {rest : Unit → Except ε β} {result : β} :
    (check >>= rest) = .ok result ↔ check = .ok () ∧ rest () = .ok result := by
  cases check with
  | error error => simp [bind, Except.bind]
  | ok value => simp [bind, Except.bind]

theorem map_eq_ok {computation : Except ε α} {f : α → β} {result : β} :
    f <$> computation = .ok result ↔ ∃ value, computation = .ok value ∧ f value = result := by
  cases computation with
  | error error => simp [Functor.map, Except.map]
  | ok value => simp [Functor.map, Except.map]

theorem mapError_eq_ok {f : ε → δ} {result : Except ε α} {value : α} :
    result.mapError f = .ok value ↔ result = .ok value := by
  cases result <;> simp [Except.mapError]

/-- A list passes a check exactly when every element does. -/
theorem forM_eq_ok {check : α → Except ε Unit} {items : List α} :
    items.forM check = .ok () ↔ ∀ item ∈ items, check item = .ok () := by
  induction items with
  | nil => simp [pure, Except.pure]
  | cons item items ih =>
      change (check item >>= fun _ => items.forM check) = .ok () ↔ _
      rw [bind_eq_ok, List.forall_mem_cons, ← ih]
      exact ⟨fun ⟨_, hitem, hitems⟩ => ⟨hitem, hitems⟩, fun ⟨hitem, hitems⟩ =>
        ⟨_, hitem, hitems⟩⟩

/-- A list is translated exactly when every element is, in place. -/
theorem mapM_eq_ok {translate : α → Except ε β} {items : List α} {results : List β} :
    items.mapM translate = .ok results ↔
      List.Forall₂ (fun item result => translate item = .ok result) items results := by
  induction items generalizing results with
  | nil => cases results <;> simp [pure, Except.pure]
  | cons item items ih =>
      rw [List.mapM_cons, bind_eq_ok, List.forall₂_cons_left_iff]
      simp only [bind_eq_ok, ih]
      constructor
      · rintro ⟨result, hitem, rest, hitems, hpure⟩
        cases hpure
        exact ⟨result, rest, hitem, hitems, rfl⟩
      · rintro ⟨result, rest, hitem, hitems, rfl⟩
        exact ⟨result, hitem, rest, hitems, rfl⟩

/-- What every step of a run keeps holds of what a successful run ends in. -/
theorem foldlM_invariant {step : β → α → Except ε β} (Inv : β → Prop) {items : List α}
    (hstep : ∀ state, ∀ item ∈ items, ∀ next, step state item = .ok next → Inv state → Inv next)
    {start result : β} (h : items.foldlM step start = .ok result) (hstart : Inv start) :
    Inv result := by
  induction items generalizing start with
  | nil =>
      cases h
      exact hstart
  | cons item items ih =>
      rw [List.foldlM_cons] at h
      obtain ⟨next, hnext, hrest⟩ := bind_eq_ok.mp h
      refine ih (fun state other hother => hstep state other (List.mem_cons_of_mem _ hother))
        hrest ?_
      exact hstep start item List.mem_cons_self next hnext hstart

theorem mapM_congr {translate other : α → Except ε β} {items : List α}
    (h : ∀ item ∈ items, translate item = other item) :
    items.mapM translate = items.mapM other := by
  induction items with
  | nil => rfl
  | cons item items ih =>
      rw [List.forall_mem_cons] at h
      rw [List.mapM_cons, List.mapM_cons, h.1, ih h.2]

/-- Steps that agree on every item make the same run. -/
theorem foldlM_congr {step other : β → α → Except ε β} {items : List α}
    (h : ∀ state, ∀ item ∈ items, step state item = other state item) (start : β) :
    items.foldlM step start = items.foldlM other start := by
  induction items generalizing start with
  | nil => rfl
  | cons item items ih =>
      rw [List.foldlM_cons, List.foldlM_cons, h start item List.mem_cons_self]
      refine congrArg _ (funext fun next => ih ?_ next)
      exact fun state later hlater => h state later (List.mem_cons_of_mem _ hlater)

/-! ## What a computation fails with -/

/-- Whatever a computation fails with has some property. -/
def FailsWith (P : ε → Prop) (computation : Except ε α) : Prop :=
  ∀ error, computation = .error error → P error

namespace FailsWith

variable {P : ε → Prop}

theorem mono {Q : ε → Prop} {computation : Except ε α} (h : FailsWith P computation)
    (hle : ∀ error, P error → Q error) : FailsWith Q computation :=
  fun error herror => hle error (h error herror)

theorem ok (value : α) : FailsWith P (.ok value) := fun _ h => nomatch h

theorem error {error : ε} (h : P error) : FailsWith P (.error error : Except ε α) := by
  intro other hother
  cases hother
  exact h

theorem bind {first : Except ε α} {rest : α → Except ε β} (h : FailsWith P first)
    (hrest : ∀ value, FailsWith P (rest value)) : FailsWith P (first >>= rest) := by
  cases first with
  | error cause => exact FailsWith.error (h cause rfl)
  | ok value => exact hrest value

theorem map {f : α → β} {result : Except ε α} (h : FailsWith P result) :
    FailsWith P (f <$> result) := by
  cases result with
  | error cause => exact FailsWith.error (h cause rfl)
  | ok value => exact FailsWith.ok (f value)

theorem mapError {δ : Type} {f : δ → ε} {result : Except δ α} (h : ∀ cause, P (f cause)) :
    FailsWith P (result.mapError f) := by
  cases result with
  | error cause => exact FailsWith.error (h cause)
  | ok value => exact FailsWith.ok value

theorem ite {p : Prop} [Decidable p] {first second : Except ε α} (hfirst : FailsWith P first)
    (hsecond : FailsWith P second) : FailsWith P (if p then first else second) := by
  split
  · exact hfirst
  · exact hsecond

theorem forM {items : List α} {check : α → Except ε Unit}
    (h : ∀ item ∈ items, FailsWith P (check item)) : FailsWith P (items.forM check) := by
  induction items with
  | nil => exact FailsWith.ok ()
  | cons item items ih =>
      rw [List.forall_mem_cons] at h
      exact h.1.bind fun _ => ih h.2

theorem mapM {items : List α} {translate : α → Except ε β}
    (h : ∀ item ∈ items, FailsWith P (translate item)) : FailsWith P (items.mapM translate) := by
  induction items with
  | nil => exact FailsWith.ok []
  | cons item items ih =>
      rw [List.forall_mem_cons] at h
      rw [List.mapM_cons]
      exact h.1.bind fun result => (ih h.2).bind fun results => FailsWith.ok (result :: results)

theorem foldlM {items : List α} {step : β → α → Except ε β} (start : β)
    (h : ∀ state, ∀ item ∈ items, FailsWith P (step state item)) :
    FailsWith P (items.foldlM step start) := by
  induction items generalizing start with
  | nil => exact FailsWith.ok start
  | cons item items ih =>
      rw [List.foldlM_cons]
      refine FailsWith.bind (h start item List.mem_cons_self) fun next => ih next ?_
      exact fun state other hother => h state other (List.mem_cons_of_mem _ hother)

end FailsWith

/-- In two lists related in place, every element of the second has its partner. -/
theorem exists_of_forall₂_of_mem {R : α → β → Prop} {items : List α} {results : List β}
    (h : List.Forall₂ R items results) :
    ∀ result ∈ results, ∃ item ∈ items, R item result := by
  induction h with
  | nil => simp
  | cons hitem _ ih =>
      intro result hresult
      rcases List.mem_cons.mp hresult with rfl | htail
      · exact ⟨_, List.mem_cons_self, hitem⟩
      · obtain ⟨item, hmem, hrelated⟩ := ih result htail
        exact ⟨item, List.mem_cons_of_mem _ hmem, hrelated⟩

theorem exists_of_mem_of_forall₂ {R : α → β → Prop} {items : List α} {results : List β}
    (h : List.Forall₂ R items results) :
    ∀ item ∈ items, ∃ result ∈ results, R item result :=
  exists_of_forall₂_of_mem h.flip

end Library
end SaasFabric
