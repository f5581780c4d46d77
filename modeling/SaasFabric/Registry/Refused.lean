import SaasFabric.Registry.Carried

/-!
# A refused credential

Where a request that carried the credential itself is answered `401`, its exchange marks the
credential, and no exchange that would present it and begins after the mark contacts anything.
The one request whose refusal alone marks nothing is the first of an exchange, sent with `Basic`
because it was held.
-/

namespace SaasFabric
namespace Registry

open Library
open Platform (RegistryError)

variable {ι : Type} [DecidableEq ι]

/-- Whatever some clients of one credential are answered and however their exchanges interleave,
an exchange that is done has marked the credential for every refusal of a request with it exactly
where the refusal of what it sent first, because it was held, was answered by another.  A mark
stays and follows a request with the credential that was answered `401`, or for no repository
`403`; an exchange that presents the credential and begins after it contacts nothing; one that
does not present it never looks at the mark and never sets it. -/
theorem refused_credential_is_marked (formats : Formats) (clients : ι → OciRegistry)
    (refused : Bool)
    {configuration : Interleaved.Configuration (Shared ι) (Process.Session (Shared ι) (Asked ι)
      (Effect.Answer (ι := ι)) (Except RegistryError Exchange))}
    (hruns : (exchanges formats clients).Runs ⟨.new refused, []⟩ configuration) :
    ∀ session ∈ configuration.operations,
      (∀ result, session.rest = .done result →
        ((session.trace.any isRefusal = true → session.trace.any isMark = true) ↔
          answeredAgain session.trace = true)) ∧
      (session.trace.any isMark = true → configuration.shared.refused = true) ∧
      (∀ before event after, session.trace = before ++ event :: after → isMark event = true →
        Marked session.call before) ∧
      (∀ began, session.began = some began → began.refused = true →
        (clients session.call.client).presents session.call.scope = true →
          session.trace.any isRequest = false) ∧
      ((clients session.call.client).presents session.call.scope = false →
        session.trace.any isLook = false ∧ session.trace.any isMark = false) := by
  intro session hmem
  have hmeets := meets_spec formats clients
  have hstart := consistent_new clients refused
  have hseen : ∀ event ∈ session.trace, ∃ before began, session.began = some began ∧
      Seen formats clients session.call began configuration.shared before event := by
    intro event hevent
    obtain ⟨before, after, hsplit⟩ := List.append_of_mem hevent
    obtain ⟨began, hbegan, hseen⟩ := hmeets.seen hstart hruns hmem hsplit
    exact ⟨before, began, hbegan, hseen⟩
  refine ⟨?_, ?_, ?_, ?_, ?_⟩
  · intro result hresult
    -- An exchange that has not begun has done nothing.
    cases hbegan : session.began with
    | none =>
        cases htrace : session.trace with
        | nil => simp [answeredAgain]
        | cons event later =>
            obtain ⟨before, began, hsome, -⟩ := hseen event (by rw [htrace]; exact List.mem_cons_self)
            rw [hbegan] at hsome
            cases hsome
    | some began =>
        obtain ⟨-, hknown⟩ := hmeets.runs hstart hruns
        exact (hknown session hmem began hbegan).2.2 result hresult
  · intro hmark
    obtain ⟨event, hevent, hismark⟩ := List.any_eq_true.mp hmark
    obtain ⟨before, began, -, hseen⟩ := hseen event hevent
    unfold isMark at hismark
    split at hismark
    · exact hseen.2.1
    · cases hismark
  · intro before event after hsplit hismark
    obtain ⟨began, -, hseen⟩ := hmeets.seen hstart hruns hmem hsplit
    unfold isMark at hismark
    split at hismark
    · exact hseen.2.2
    · cases hismark
  · intro began hbegan hrefused hpresents
    -- Every request of it says that the mark was not set when it began.
    rw [List.any_eq_false]
    intro event hevent hrequest
    obtain ⟨before, began', hbegan', hseen⟩ := hseen event hevent
    rw [hbegan] at hbegan'
    cases hbegan'
    unfold isRequest at hrequest
    split at hrequest
    · rw [hseen.2.1 hpresents] at hrefused
      cases hrefused
    · cases hrequest
  · intro hpresents
    constructor
    · rw [List.any_eq_false]
      intro event hevent hlook
      obtain ⟨before, began, -, hseen⟩ := hseen event hevent
      unfold isLook at hlook
      split at hlook
      · have hdoes : (clients session.call.client).presents session.call.scope = true := hseen
        rw [hpresents] at hdoes
        cases hdoes
      · cases hlook
    · rw [List.any_eq_false]
      intro event hevent hmark
      obtain ⟨before, began, -, hseen⟩ := hseen event hevent
      unfold isMark at hmark
      split at hmark
      · have hdoes : (clients session.call.client).presents session.call.scope = true := hseen.1
        rw [hpresents] at hdoes
        cases hdoes
      · cases hmark

/-! ## A distribution registry -/

/-- No realm is named and nothing is redirected. -/
def unread : Formats :=
  { parse := fun text =>
      if text = "https://registry.example.com/v2/team/app/tags/list" then some tagsUrl else none
    join := fun _ _ => none
    text := fun url => Origin.text url.origin ++ url.path
    portOrKnownDefault := fun url => url.origin.map Origin.port
    pullToken := fun _ => none }

/-- A `distribution` registry, with a credential for one repository. -/
def distribution : OciRegistry :=
  { transport := .https, address := { policy := .publicOnly },
    registryHost := "registry.example.com", realm := .recorded none, honoursBasic := true,
    credential := some (.new
      { username := "robot", secret := "hunter2",
        repositories := ["registry.example.com/team/app"] } "registry.example.com") }

/-- Listing the repository's tags. -/
def listing : Asked Unit :=
  { client := (), scope := .repository (distribution.path "registry.example.com/team/app"),
    call :=
      { method := .get, via := .api, operation := "listing tags",
        url := "https://registry.example.com/v2/team/app/tags/list",
        accept := "application/json" } }

/-- An answer with no body. -/
def bare (status : Nat) (authenticate : List (Option String)) : Answered :=
  { status, authenticate, rateLimitRemaining := none, contentLength := some 0, chunks := [],
    interrupted := none, location := none }

/-- A registry that asks for `Basic` and refuses it. -/
def refuses (_ : List (Event Unit)) (_ : Request) : Except SendFailure Answered :=
  .ok (bare 401 [some "Basic realm=\"registry\""])

/-- A registry that asks for `Basic` and accepts it, and refuses it once it is sent unasked. -/
def revokes (trace : List (Event Unit)) (request : Request) : Except SendFailure Answered :=
  if trace.any findsBasic then .ok (bare 401 [])
  else if request.carriesCredential then .ok (bare 200 [])
  else .ok (bare 401 [some "Basic realm=\"registry\""])

/-- The listing, alone, from what is shared, against a registry. -/
def listed (far : List (Event Unit) → Request → Except SendFailure Answered)
    (shared : Shared Unit) :
    Shared Unit × List (Event Unit) × Except RegistryError Exchange :=
  Process.alone (answering far) shared []
    (exchange unread listing.client distribution listing.call listing.scope).run

theorem runs_listed (far : List (Event Unit) → Request → Except SendFailure Answered) :
    (exchanges unread fun _ : Unit => distribution).Runs ⟨.new false, []⟩
      ⟨(listed far (.new false)).1, [⟨listing, some (.new false), (listed far (.new false)).2.1,
        .done (listed far (.new false)).2.2⟩]⟩ :=
  Process.runs_alone (world_answering far) listing Relation.ReflTransGen.refl

/-- The answer to a challenge is refused, and the credential is marked. -/
theorem refused_answer_is_marked : (listed refuses (.new false)).1.refused = true := by
  obtain ⟨hmarks, hstays, -⟩ := refused_credential_is_marked unread (fun _ : Unit => distribution)
    false (runs_listed refuses) _ List.mem_cons_self
  have hrefused : (listed refuses (.new false)).2.1.any isRefusal = true := by decide +kernel
  have hanswered : answeredAgain (listed refuses (.new false)).2.1 = true := by decide +kernel
  exact hstays ((hmarks _ rfl).mpr hanswered hrefused)

/-- The credential is refused to an exchange that sent it first because it was held, in an answer
without a challenge, and is not marked. -/
theorem refusal_of_held_basic_is_not_marked :
    ∃ configuration, (exchanges unread fun _ : Unit => distribution).Runs ⟨.new false, []⟩
        configuration ∧
      configuration.shared.refused = false ∧
        ∃ session ∈ configuration.operations, (∃ result, session.rest = .done result) ∧
          session.trace.any isRefusal = true ∧ session.trace.any isMark = false := by
  have hnext := Process.runs_alone (world_answering revokes) listing (runs_listed revokes)
  refine ⟨_, hnext, ?_, _, List.mem_cons_self, ⟨_, rfl⟩, ?_, ?_⟩
  · show (listed revokes (listed revokes (.new false)).1).1.refused = false
    decide +kernel
  · show (listed revokes (listed revokes (.new false)).1).2.1.any isRefusal = true
    decide +kernel
  · show (listed revokes (listed revokes (.new false)).1).2.1.any isMark = false
    decide +kernel

end Registry
end SaasFabric
