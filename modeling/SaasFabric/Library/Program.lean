import Mathlib.Data.List.Forall2
import Mathlib.Tactic.Common

/-!
# Programs that change a state and can fail

A program runs from a state to a state and a result; where it fails, the state it has made by
then stays.  What a run ends in is said of the two kinds of end together, and the rules follow
the program: a sequence, a failure, a recovery from one, and a walk along a list.
-/

namespace SaasFabric
namespace Library

/-- A computation over a state that can fail. -/
abbrev Program (σ ε : Type) : Type → Type := ExceptT ε (StateM σ)

variable {σ ε α β : Type}

/-- What a program ends in from a state, and the state it leaves. -/
def Program.runFrom (program : Program σ ε α) (start : σ) : Except ε α × σ :=
  StateT.run (ExceptT.run program) start

/-- A run from `start` gives a value and a state that meet `Gives`, or fails with an error and
a state that meet `Fails`. -/
def Ends (program : Program σ ε α) (start : σ) (Gives : α → σ → Prop) (Fails : ε → σ → Prop) :
    Prop :=
  match program.runFrom start with
  | (.ok value, final) => Gives value final
  | (.error error, final) => Fails error final

namespace Ends

variable {Gives : α → σ → Prop} {Fails : ε → σ → Prop} {start : σ}

theorem runFrom_bind (first : Program σ ε α) (rest : α → Program σ ε β) (start : σ) :
    (first >>= rest).runFrom start =
      match first.runFrom start with
      | (.ok value, next) => (rest value).runFrom next
      | (.error error, next) => (.error error, next) := by
  unfold Program.runFrom ExceptT.run StateT.run
  simp only [Bind.bind, ExceptT.bind, ExceptT.mk, StateT.bind]
  rcases first start with ⟨_ | _, next⟩ <;> rfl

theorem pure {value : α} (h : Gives value start) :
    Ends (Pure.pure value : Program σ ε α) start Gives Fails := h

theorem throw {error : ε} (h : Fails error start) :
    Ends (MonadExcept.throw error : Program σ ε α) start Gives Fails := h

theorem get {Gives : σ → σ → Prop} (h : Gives start start) :
    Ends (MonadStateOf.get : Program σ ε σ) start Gives Fails := h

theorem set {Gives : PUnit → σ → Prop} {next : σ} (h : Gives ⟨⟩ next) :
    Ends (MonadStateOf.set next : Program σ ε PUnit) start Gives Fails := h

theorem modify {Gives : PUnit → σ → Prop} {f : σ → σ} (h : Gives ⟨⟩ (f start)) :
    Ends (modifyGet (fun state => (⟨⟩, f state)) : Program σ ε PUnit) start Gives Fails := h

/-- What follows a step is run from where the step ended. -/
theorem bind {first : Program σ ε α} {rest : α → Program σ ε β} {Gives : β → σ → Prop}
    (h : Ends first start (fun value next => Ends (rest value) next Gives Fails) Fails) :
    Ends (first >>= rest) start Gives Fails := by
  unfold Ends at h ⊢
  rw [runFrom_bind]
  rcases hfirst : first.runFrom start with ⟨_ | _, next⟩
  · rw [hfirst] at h
    exact h
  · rw [hfirst] at h
    exact h

/-- An end that is described more closely is described. -/
theorem mono {program : Program σ ε α} {Gives' : α → σ → Prop} {Fails' : ε → σ → Prop}
    (h : Ends program start Gives Fails) (hgives : ∀ value final, Gives value final →
      Gives' value final) (hfails : ∀ error final, Fails error final → Fails' error final) :
    Ends program start Gives' Fails' := by
  unfold Ends at h ⊢
  split at h
  · exact hgives _ _ h
  · exact hfails _ _ h

theorem and {program : Program σ ε α} {Gives' : α → σ → Prop} {Fails' : ε → σ → Prop}
    (h : Ends program start Gives Fails) (h' : Ends program start Gives' Fails') :
    Ends program start (fun value final => Gives value final ∧ Gives' value final)
      (fun error final => Fails error final ∧ Fails' error final) := by
  unfold Ends at h h' ⊢
  split at h
  · exact ⟨h, by simpa only [*] using h'⟩
  · exact ⟨h, by simpa only [*] using h'⟩

/-- A run ends in what it ends in. -/
theorem runs (program : Program σ ε α) (start : σ) :
    Ends program start (fun value final => program.runFrom start = (.ok value, final))
      (fun error final => program.runFrom start = (.error error, final)) := by
  unfold Ends
  rcases program.runFrom start with ⟨_ | _, final⟩ <;> rfl

theorem ite {p : Prop} [Decidable p] {first second : Program σ ε α}
    (hfirst : p → Ends first start Gives Fails) (hsecond : ¬ p → Ends second start Gives Fails) :
    Ends (if p then first else second) start Gives Fails := by
  split
  · exact hfirst ‹_›
  · exact hsecond ‹_›

/-- A failure is handed to the recovery, in the state it was reached in. -/
theorem tryCatch {program : Program σ ε α} {recover : ε → Program σ ε α}
    (h : Ends program start Gives (fun error next => Ends (recover error) next Gives Fails)) :
    Ends (MonadExcept.tryCatch program recover) start Gives Fails := by
  have hrun : Program.runFrom (MonadExcept.tryCatch program recover) start =
      match program.runFrom start with
      | (.ok value, next) => (.ok value, next)
      | (.error error, next) => (recover error).runFrom next := by
    unfold Program.runFrom ExceptT.run StateT.run
    simp only [MonadExcept.tryCatch, tryCatchThe, MonadExceptOf.tryCatch, ExceptT.tryCatch,
      Bind.bind, ExceptT.mk, StateT.bind]
    rcases program start with ⟨_ | _, next⟩ <;> rfl
  unfold Ends at h ⊢
  rw [hrun]
  rcases hprogram : program.runFrom start with ⟨_ | _, next⟩
  · rw [hprogram] at h
    exact h
  · rw [hprogram] at h
    exact h

/-- What is fallible and changes nothing. -/
theorem liftExcept {result : Except ε α} (hok : ∀ value, result = .ok value → Gives value start)
    (herror : ∀ error, result = .error error → Fails error start) :
    Ends (MonadExcept.ofExcept result : Program σ ε α) start Gives Fails := by
  cases result with
  | ok value => exact hok value rfl
  | error error => exact herror error rfl

/-- A walk along a list: what holds before each item holds after it. -/
theorem forM {items : List α} {visit : α → Program σ ε PUnit} (Inv : List α → σ → Prop)
    (hstart : Inv [] start)
    (hvisit : ∀ done item rest, items = done ++ item :: rest → ∀ state, Inv done state →
      Ends (visit item) state (fun _ next => Inv (done ++ [item]) next) Fails) :
    Ends (items.forM visit) start (fun _ final => Inv items final) Fails := by
  suffices hwalk : ∀ rest done state, items = done ++ rest → Inv done state →
      Ends (rest.forM visit) state (fun _ final => Inv items final) Fails from
    hwalk items [] start rfl hstart
  intro rest
  induction rest with
  | nil =>
      intro done state hitems hinv
      rw [List.append_nil] at hitems
      subst hitems
      exact hinv
  | cons item rest ih =>
      intro done state hitems hinv
      apply Ends.bind
      apply (hvisit done item rest hitems state hinv).mono _ (fun _ _ h => h)
      intro _ next hnext
      exact ih (done ++ [item]) next (by simpa using hitems) hnext

/-- A fold along a list: what holds before each item holds after it. -/
theorem foldlM {items : List α} {step : β → α → Program σ ε β} {value : β}
    (Inv : List α → β → σ → Prop) (hstart : Inv [] value start)
    (hstep : ∀ done item rest, items = done ++ item :: rest → ∀ acc state, Inv done acc state →
      Ends (step acc item) state (fun next final => Inv (done ++ [item]) next final) Fails) :
    Ends (items.foldlM step value) start (fun result final => Inv items result final) Fails := by
  suffices hfold : ∀ rest done acc state, items = done ++ rest → Inv done acc state →
      Ends (rest.foldlM step acc) state (fun result final => Inv items result final) Fails from
    hfold items [] value start rfl hstart
  intro rest
  induction rest with
  | nil =>
      intro done acc state hitems hinv
      rw [List.append_nil] at hitems
      subst hitems
      exact hinv
  | cons item rest ih =>
      intro done acc state hitems hinv
      rw [List.foldlM_cons]
      apply Ends.bind
      apply (hstep done item rest hitems acc state hinv).mono _ (fun _ _ h => h)
      intro acc next hnext
      exact ih (done ++ [item]) acc next (by simpa using hitems) hnext

/-- A list translated item by item: each result belongs to its item, and what holds of the
state goes on holding. -/
theorem mapM {items : List α} {translate : α → Program σ ε β} {Inv : σ → Prop}
    {Result : α → β → Prop} (hstart : Inv start)
    (hitem : ∀ item ∈ items, ∀ state, Inv state →
      Ends (translate item) state (fun result next => Result item result ∧ Inv next) Fails) :
    Ends (items.mapM translate) start
      (fun results final => List.Forall₂ Result items results ∧ Inv final) Fails := by
  induction items generalizing start with
  | nil => exact ⟨List.Forall₂.nil, hstart⟩
  | cons item items ih =>
      rw [List.mapM_cons]
      apply Ends.bind
      apply (hitem item List.mem_cons_self start hstart).mono _ (fun _ _ h => h)
      intro result next hnext
      apply Ends.bind
      apply (ih hnext.2 fun other hother => hitem other (List.mem_cons_of_mem _ hother)).mono _
        (fun _ _ h => h)
      intro results final hfinal
      exact ⟨List.Forall₂.cons hnext.1 hfinal.1, hfinal.2⟩

end Ends

end Library
end SaasFabric
