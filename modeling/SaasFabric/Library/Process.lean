import SaasFabric.Library.Interleaved

/-!
# Processes that share a state

A process is done with a value, or performs an effect and goes on with what that answers; what
an effect does and answers is said by the world it is performed in.  Any number of sessions of
processes run side by side, each remembering what was shared when it began and everything it
was answered.  What a session comes to is proved along its process, whatever the others do
between two of its effects.
-/

namespace SaasFabric
namespace Library

/-- Done, or an effect and what follows each answer to it. -/
inductive Process {Effect : Type} (Answer : Effect → Type) (α : Type) where
  | done (value : α)
  | perform (effect : Effect) (next : Answer effect → Process Answer α)

namespace Process

variable {Effect : Type} {Answer : Effect → Type} {σ κ ε α β : Type}

def bind : Process Answer α → (α → Process Answer β) → Process Answer β
  | done value, rest => rest value
  | perform effect next, rest => perform effect fun answer => bind (next answer) rest

instance : Monad (Process Answer) where
  pure := done
  bind := bind

@[simp] theorem pure_eq (value : α) : (pure value : Process Answer α) = done value := rfl

@[simp] theorem done_bind (value : α) (rest : α → Process Answer β) :
    (done value >>= rest) = rest value := rfl

@[simp] theorem perform_bind (effect : Effect) (next : Answer effect → Process Answer α)
    (rest : α → Process Answer β) :
    (perform effect next >>= rest) = perform effect fun answer => next answer >>= rest := rfl

theorem bind_done (process : Process Answer α) : (process >>= done) = process := by
  induction process with
  | done value => rfl
  | perform effect next ih =>
      rw [perform_bind]
      exact congrArg (perform effect) (funext ih)

/-- The process that performs one effect. -/
def ask (effect : Effect) : Process Answer (Answer effect) := perform effect done

/-- An effect that was performed, and its answer. -/
abbrev Event (Answer : Effect → Type) := Σ effect, Answer effect

/-- How a world answers: from what is shared before an effect, to what is shared after it and
the answer. -/
abbrev World (σ : Type) (Answer : Effect → Type) :=
  σ → (effect : Effect) → σ → Answer effect → Prop

/-! ## Sessions -/

/-- A process that is under way: what it was called with, what was shared when it began, what it
has been answered, and what is left of it. -/
structure Session (σ κ : Type) (Answer : Effect → Type) (α : Type) where
  call : κ
  began : Option σ
  trace : List (Event Answer)
  rest : Process Answer α

/-- A session begins, or performs its next effect. -/
inductive Moves (world : World σ Answer) :
    σ → Session σ κ Answer α → σ → Session σ κ Answer α → Prop where
  | begin {shared : σ} {call : κ} {trace : List (Event Answer)} {rest : Process Answer α} :
      Moves world shared ⟨call, none, trace, rest⟩ shared ⟨call, some shared, trace, rest⟩
  | perform {shared next began : σ} {call : κ} {trace : List (Event Answer)} {effect : Effect}
      {rest : Answer effect → Process Answer α} {answer : Answer effect}
      (answers : world shared effect next answer) :
      Moves world shared ⟨call, some began, trace, .perform effect rest⟩ next
        ⟨call, some began, trace ++ [⟨effect, answer⟩], rest answer⟩

/-- Sessions of one process, each with a call of its own. -/
def sessions (world : World σ Answer) (process : κ → Process Answer α) :
    Interleaved σ (Session σ κ Answer α) where
  begins session := session = ⟨session.call, none, [], process session.call⟩
  moves := Moves world

/-! ## What a session comes to -/

/-- What every effect keeps, whoever performs it: an invariant of what is shared, and a relation
of what is shared before to what is shared after. -/
structure Contract (σ : Type) where
  Inv : σ → Prop
  Rely : σ → σ → Prop
  refl : ∀ shared, Rely shared shared
  trans : ∀ {first second third}, Rely first second → Rely second third → Rely first third

/-- From what is shared and what was answered so far, a process keeps the contract with every
effect, each of them is as `Seen` says of it and of what came before it, and the process ends as
`Ends` says.  The others may have kept the contract before each of its effects. -/
def Follows (world : World σ Answer) (contract : Contract σ)
    (Seen : σ → List (Event Answer) → Event Answer → Prop)
    (Ends : σ → List (Event Answer) → α → Prop) :
    σ → List (Event Answer) → Process Answer α → Prop
  | shared, trace, .done value => Ends shared trace value
  | shared, trace, .perform effect next => ∀ before, contract.Rely shared before →
      contract.Inv before → ∀ after answer, world before effect after answer →
        contract.Inv after ∧ contract.Rely before after ∧ Seen after trace ⟨effect, answer⟩ ∧
          Follows world contract Seen Ends after (trace ++ [⟨effect, answer⟩]) (next answer)

section Follows

variable {world : World σ Answer} {contract : Contract σ}
  {Seen : σ → List (Event Answer) → Event Answer → Prop}
  {Ends : σ → List (Event Answer) → α → Prop} {shared : σ} {trace : List (Event Answer)}

theorem Follows.mono {process : Process Answer α}
    {Ends' : σ → List (Event Answer) → α → Prop}
    (h : Follows world contract Seen Ends shared trace process)
    (hends : ∀ shared trace value, Ends shared trace value → Ends' shared trace value) :
    Follows world contract Seen Ends' shared trace process := by
  induction process generalizing shared trace with
  | done value => exact hends _ _ _ h
  | perform effect next ih =>
      intro before hrely hinv after answer hanswer
      obtain ⟨hafter, hkept, hseen, hnext⟩ := h before hrely hinv after answer hanswer
      exact ⟨hafter, hkept, hseen, ih answer hnext⟩

/-- What follows a process goes on from where it ended. -/
theorem Follows.bind {process : Process Answer α} {rest : α → Process Answer β}
    {Ends : σ → List (Event Answer) → β → Prop}
    (h : Follows world contract Seen
      (fun shared trace value => Follows world contract Seen Ends shared trace (rest value))
      shared trace process) :
    Follows world contract Seen Ends shared trace (process >>= rest) := by
  induction process generalizing shared trace with
  | done value => exact h
  | perform effect next ih =>
      intro before hrely hinv after answer hanswer
      obtain ⟨hafter, hkept, hseen, hnext⟩ := h before hrely hinv after answer hanswer
      exact ⟨hafter, hkept, hseen, ih answer hnext⟩

/-- What can fail goes on where it succeeded, and ends where it failed. -/
theorem Follows.bindExcept {process : ExceptT ε (Process Answer) α}
    {rest : α → ExceptT ε (Process Answer) β}
    {Ends : σ → List (Event Answer) → Except ε β → Prop}
    (h : Follows world contract Seen
      (fun shared trace result => match result with
        | .ok value => Follows world contract Seen Ends shared trace (rest value).run
        | .error error => Ends shared trace (.error error))
      shared trace process.run) :
    Follows world contract Seen Ends shared trace (process >>= rest).run := by
  show Follows world contract Seen Ends shared trace (process.run >>= ExceptT.bindCont rest)
  apply Follows.bind
  apply h.mono
  intro shared trace result hresult
  cases result with
  | ok value => exact hresult
  | error error => exact hresult

/-- A loop goes on with each item from where the one before it succeeded, and ends where one
failed. -/
theorem Follows.forM {κ : Type} {body : κ → ExceptT ε (Process Answer) Unit}
    {Ends : σ → List (Event Answer) → Except ε Unit → Prop}
    {Holds : List κ → σ → List (Event Answer) → Prop}
    (hstep : ∀ item rest shared trace, Holds (item :: rest) shared trace →
      Follows world contract Seen
        (fun shared trace result => match result with
          | .ok _ => Holds rest shared trace
          | .error error => Ends shared trace (.error error))
        shared trace (body item).run)
    (hdone : ∀ shared trace, Holds [] shared trace → Ends shared trace (.ok ())) :
    ∀ (items : List κ) (shared : σ) (trace : List (Event Answer)), Holds items shared trace →
      Follows world contract Seen Ends shared trace (items.forM body).run := by
  intro items
  induction items with
  | nil => exact fun shared trace hholds => hdone shared trace hholds
  | cons item rest ih =>
      intro shared trace hholds
      show Follows world contract Seen Ends shared trace (body item >>= fun _ => rest.forM body).run
      apply Follows.bindExcept
      apply (hstep item rest shared trace hholds).mono
      intro shared trace result hresult
      cases result with
      | ok _ => exact ih shared trace hresult
      | error error => exact hresult

/-- What an unfinished process does outlasts whatever the others do; so does an end that is
stable. -/
theorem Follows.stable {process : Process Answer α} {next : σ}
    (hends : ∀ trace value shared next, contract.Rely shared next → Ends shared trace value →
      Ends next trace value)
    (h : Follows world contract Seen Ends shared trace process)
    (hrely : contract.Rely shared next) :
    Follows world contract Seen Ends next trace process := by
  cases process with
  | done value => exact hends _ _ _ _ hrely h
  | perform effect rest =>
      intro before hbefore hinv
      exact h before (contract.trans hrely hbefore) hinv

end Follows

/-- What a specification says of a session: of each effect and what came before it, and of the
end. -/
structure Spec (σ κ : Type) (Answer : Effect → Type) (α : Type) where
  contract : Contract σ
  Seen : κ → σ → σ → List (Event Answer) → Event Answer → Prop
  Ends : κ → σ → σ → List (Event Answer) → α → Prop
  seen_stable : ∀ {call began shared next before event}, contract.Rely shared next →
    Seen call began shared before event → Seen call began next before event
  ends_stable : ∀ {call began shared next trace value}, contract.Rely shared next →
    Ends call began shared trace value → Ends call began next trace value

namespace Spec

variable (spec : Spec σ κ Answer α)

/-- What is known of a session. -/
def Knows (world : World σ Answer) (process : κ → Process Answer α) (shared : σ)
    (session : Session σ κ Answer α) : Prop :=
  match session.began with
  | none => session.trace = [] ∧ session.rest = process session.call
  | some began => spec.contract.Rely began shared ∧
      (∀ before event after, session.trace = before ++ event :: after →
        spec.Seen session.call began shared before event) ∧
        Follows world spec.contract (spec.Seen session.call began)
          (spec.Ends session.call began) shared session.trace session.rest

/-- A process meets a specification: from wherever it begins, it follows it. -/
def Meets (world : World σ Answer) (process : κ → Process Answer α) : Prop :=
  ∀ call began, spec.contract.Inv began →
    Follows world spec.contract (spec.Seen call began) (spec.Ends call began) began []
      (process call)

variable {spec} {world : World σ Answer} {process : κ → Process Answer α}

theorem Meets.keeps (h : spec.Meets world process) :
    (sessions world process).Keeps spec.contract.Inv spec.contract.Rely
      (spec.Knows world process) where
  begins shared session _ hbegins := by
    have hsession : session = ⟨session.call, none, [], process session.call⟩ := hbegins
    rw [hsession]
    exact ⟨rfl, rfl⟩
  moves shared session next moved hinv hknows hmoves := by
    cases hmoves with
    | begin =>
        obtain ⟨htrace, hrest⟩ := hknows
        dsimp only at htrace hrest
        subst htrace hrest
        refine ⟨hinv, spec.contract.refl _, spec.contract.refl _, fun before event after hsplit => ?_,
          h _ _ hinv⟩
        simp at hsplit
    | perform hanswers =>
        obtain ⟨hbegan, hearlier, hfollows⟩ := hknows
        obtain ⟨hnext, hkept, hseen, hrest⟩ :=
          hfollows _ (spec.contract.refl _) hinv _ _ hanswers
        refine ⟨hnext, hkept, spec.contract.trans hbegan hkept, fun before event after hsplit => ?_,
          hrest⟩
        -- The last event is the new one; the others were seen before.
        rcases List.eq_nil_or_concat after with rfl | ⟨others, last, rfl⟩
        · obtain ⟨rfl, hevent⟩ := List.append_inj' hsplit rfl
          cases hevent
          exact hseen
        · rw [List.concat_eq_append, ← List.cons_append, ← List.append_assoc] at hsplit
          obtain ⟨htrace, -⟩ := List.append_inj' hsplit rfl
          exact spec.seen_stable hkept (hearlier before event others htrace)
  stable shared next session hrely hknows := by
    unfold Knows at hknows ⊢
    split at hknows
    · exact hknows
    · exact ⟨spec.contract.trans hknows.1 hrely,
        fun before event after hsplit => spec.seen_stable hrely (hknows.2.1 before event after hsplit),
        hknows.2.2.stable (fun _ _ _ _ => spec.ends_stable) hrely⟩

/-- Wherever a run comes to, the invariant holds, and each session that has begun is as its
specification says. -/
theorem Meets.runs (h : spec.Meets world process) {start : σ} (hstart : spec.contract.Inv start)
    {configuration : Interleaved.Configuration σ (Session σ κ Answer α)}
    (hruns : (sessions world process).Runs ⟨start, []⟩ configuration) :
    spec.contract.Inv configuration.shared ∧
      ∀ session ∈ configuration.operations, ∀ began, session.began = some began →
        spec.contract.Rely began configuration.shared ∧
          (∀ before event after, session.trace = before ++ event :: after →
            spec.Seen session.call began configuration.shared before event) ∧
            ∀ value, session.rest = .done value →
              spec.Ends session.call began configuration.shared session.trace value := by
  obtain ⟨hinv, hknows⟩ := h.keeps.runs_of_idle hstart hruns
  refine ⟨hinv, fun session hmem began hbegan => ?_⟩
  have hknown := hknows session hmem
  unfold Knows at hknown
  rw [hbegan] at hknown
  obtain ⟨hrely, hseen, hfollows⟩ := hknown
  refine ⟨hrely, hseen, fun value hvalue => ?_⟩
  rw [hvalue] at hfollows
  exact hfollows

/-- Every effect of a session is as its specification says. -/
theorem Meets.seen (h : spec.Meets world process) {start : σ} (hstart : spec.contract.Inv start)
    {configuration : Interleaved.Configuration σ (Session σ κ Answer α)}
    (hruns : (sessions world process).Runs ⟨start, []⟩ configuration)
    {session : Session σ κ Answer α} (hmem : session ∈ configuration.operations)
    {before after : List (Event Answer)} {event : Event Answer}
    (hsplit : session.trace = before ++ event :: after) :
    ∃ began, session.began = some began ∧
      spec.Seen session.call began configuration.shared before event := by
  obtain ⟨-, hknows⟩ := h.keeps.runs_of_idle hstart hruns
  have hknown := hknows session hmem
  unfold Knows at hknown
  split at hknown
  · rw [hknown.1] at hsplit
    simp at hsplit
  · rename_i began hbegan
    exact ⟨began, hbegan, hknown.2.1 before event after hsplit⟩

end Spec

/-! ## A session run alone -/

/-- A process from what is shared and what it was answered so far, every effect answered by an
oracle. -/
def alone (oracle : σ → List (Event Answer) → (effect : Effect) → σ × Answer effect) :
    σ → List (Event Answer) → Process Answer α → σ × List (Event Answer) × α
  | shared, trace, .done value => (shared, trace, value)
  | shared, trace, .perform effect next =>
      alone oracle (oracle shared trace effect).1
        (trace ++ [⟨effect, (oracle shared trace effect).2⟩])
        (next (oracle shared trace effect).2)

/-- What is shared as a process begins and after each of its effects, every effect answered by an
oracle. -/
def states (oracle : σ → List (Event Answer) → (effect : Effect) → σ × Answer effect) :
    σ → List (Event Answer) → Process Answer α → List σ
  | shared, _, .done _ => [shared]
  | shared, trace, .perform effect next =>
      shared :: states oracle (oracle shared trace effect).1
        (trace ++ [⟨effect, (oracle shared trace effect).2⟩])
        (next (oracle shared trace effect).2)

variable {world : World σ Answer} {process : κ → Process Answer α}
  {oracle : σ → List (Event Answer) → (effect : Effect) → σ × Answer effect}
  {shared : σ} {trace : List (Event Answer)}

/-- What follows a process goes on alone from where it ended. -/
theorem alone_bind (first : Process Answer α) (rest : α → Process Answer β) :
    alone oracle shared trace (first >>= rest) =
      alone oracle (alone oracle shared trace first).1 (alone oracle shared trace first).2.1
        (rest (alone oracle shared trace first).2.2) := by
  induction first generalizing shared trace with
  | done value => rfl
  | perform effect next ih => exact ih _

/-- What is shared along two processes. -/
theorem mem_states_bind {first : Process Answer α} {rest : α → Process Answer β} {state : σ} :
    state ∈ states oracle shared trace (first >>= rest) ↔
      state ∈ states oracle shared trace first ∨
        state ∈ states oracle (alone oracle shared trace first).1
          (alone oracle shared trace first).2.1 (rest (alone oracle shared trace first).2.2) := by
  induction first generalizing shared trace with
  | done value =>
      show state ∈ states oracle shared trace (rest value) ↔
        state ∈ [shared] ∨ state ∈ states oracle shared trace (rest value)
      constructor
      · exact Or.inr
      · rintro (hstart | hrest)
        · rw [List.mem_singleton.mp hstart]
          cases rest value with
          | done value => exact List.mem_singleton_self _
          | perform effect next => exact List.mem_cons_self
        · exact hrest
  | perform effect next ih =>
      show state ∈ shared :: states oracle _ _ (next _ >>= rest) ↔
        state ∈ shared :: states oracle _ _ (next _) ∨ _
      rw [List.mem_cons, List.mem_cons, ih, or_assoc]
      rfl

/-- A session goes on alone to where the first of two processes ends. -/
theorem runs_bind
    (h : ∀ shared trace effect, world shared effect (oracle shared trace effect).1
      (oracle shared trace effect).2)
    {configuration : Interleaved.Configuration σ (Session σ κ Answer β)} {call : κ} {began : σ}
    {before after : List (Session σ κ Answer β)} {process : κ → Process Answer β}
    {first : Process Answer α} {rest : α → Process Answer β}
    (hruns : (sessions world process).Runs configuration
      ⟨shared, before ++ ⟨call, some began, trace, first >>= rest⟩ :: after⟩) :
    (sessions world process).Runs configuration
      ⟨(alone oracle shared trace first).1,
        before ++ ⟨call, some began, (alone oracle shared trace first).2.1,
          rest (alone oracle shared trace first).2.2⟩ :: after⟩ := by
  induction first generalizing shared trace with
  | done value => exact hruns
  | perform effect next ih =>
      have hmoved := hruns.tail (Interleaved.Step.move (.perform (h shared trace effect)))
      exact ih _ hmoved

/-- A session goes on alone to its end. -/
theorem runs_on
    (h : ∀ shared trace effect, world shared effect (oracle shared trace effect).1
      (oracle shared trace effect).2)
    {configuration : Interleaved.Configuration σ (Session σ κ Answer α)} {call : κ} {began : σ}
    {before after : List (Session σ κ Answer α)} {rest : Process Answer α}
    (hruns : (sessions world process).Runs configuration
      ⟨shared, before ++ ⟨call, some began, trace, rest⟩ :: after⟩) :
    (sessions world process).Runs configuration
      ⟨(alone oracle shared trace rest).1,
        before ++ ⟨call, some began, (alone oracle shared trace rest).2.1,
          .done (alone oracle shared trace rest).2.2⟩ :: after⟩ := by
  rw [← bind_done rest] at hruns
  exact runs_bind h hruns

/-- A session run alone is a run. -/
theorem runs_alone
    (h : ∀ shared trace effect, world shared effect (oracle shared trace effect).1
      (oracle shared trace effect).2)
    {configuration : Interleaved.Configuration σ (Session σ κ Answer α)} (call : κ)
    {others : List (Session σ κ Answer α)}
    (hruns : (sessions world process).Runs configuration ⟨shared, others⟩) :
    (sessions world process).Runs configuration
      ⟨(alone oracle shared [] (process call)).1,
        ⟨call, some shared, (alone oracle shared [] (process call)).2.1,
          .done (alone oracle shared [] (process call)).2.2⟩ :: others⟩ := by
  have hbegun := (hruns.begun ⟨call, none, [], process call⟩ rfl).moved .begin
  exact @runs_on _ _ _ _ _ _ _ _ _ _ h _ _ _ [] others _ hbegun

end Process
end Library
end SaasFabric
