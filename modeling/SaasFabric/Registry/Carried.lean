import SaasFabric.Registry.Exchanging

/-!
# Where a credential goes

Whatever registries and realms answer: the credential is attached only to a request whose scope
presents it, toward a realm its rule allows or, where `Basic` is honoured and was asked for, to the
registry itself; and a token request names the scope that is read, and nothing its realm's URL
named.
-/

namespace SaasFabric
namespace Registry

open Library
open Platform (RegistryError)

variable {ι : Type} [DecidableEq ι]

/-- A realm that a followed rule allows has the origin that was recorded. -/
theorem RealmAllows.origin {registry : OciRegistry} {recorded : Option Url} {url : Url}
    (hrealm : registry.realm = .follow) (h : RealmAllows registry recorded url) :
    url.origin = recorded.bind Url.origin ∧ url.origin.isSome = true := by
  unfold RealmAllows at h
  rw [hrealm] at h
  obtain ⟨first, rfl, hsame, -⟩ := h
  simp only [Url.same, Bool.and_eq_true, decide_eq_true_eq] at hsame
  rw [Option.bind_some, ← hsame.2]
  exact ⟨rfl, hsame.1⟩

/-- No answer decides which origin a credential goes to.  Every request of every exchange is a
call's own, a token request that names the scope that is read and no scope or service of its
realm's URL, or one of these redirected within its origin; one that carries a username and secret
is of a scope that presents the credential they are of, and it, or the one it was redirected from,
is a token request its rule, transport and address policy allow, or goes to the registry itself
where `Basic` is honoured and was asked for or held.  A client that follows its challenge asks
tokens of one origin in its whole life. -/
theorem credential_goes_where_its_rule_allows (formats : Formats) (clients : ι → OciRegistry)
    (refused : Bool)
    {configuration : Interleaved.Configuration (Shared ι) (Process.Session (Shared ι) (Asked ι)
      (Effect.Answer (ι := ι)) (Except RegistryError Exchange))}
    (hruns : (exchanges formats clients).Runs ⟨.new refused, []⟩ configuration) :
    (∀ session ∈ configuration.operations, ∀ before client request answer after,
      session.trace = before ++ ⟨.send client request, answer⟩ :: after →
        client = session.call.client ∧
          Sent formats (clients client) session.call configuration.shared before request) ∧
    ∀ client, (clients client).realm = .follow → ∃ origin : Option Origin,
      ∀ session ∈ configuration.operations, ∀ request answer url,
        (⟨.send client request, answer⟩ : Event ι) ∈ session.trace →
          (request.target = .token url → url.origin = origin ∧ origin.isSome = true) ∧
          (request.target = .hop url → ∃ first : Request,
            request = { first with target := .hop url } ∧
              ∀ start, first.target = .token start →
                start.origin = origin ∧ sameOrigin formats.toUrlFormat start url = true) := by
  have hsent : ∀ session ∈ configuration.operations, ∀ before client request answer after,
      session.trace = before ++ ⟨.send client request, answer⟩ :: after →
        client = session.call.client ∧
          Sent formats (clients client) session.call configuration.shared before request := by
    intro session hmem before client request answer after hsplit
    obtain ⟨began, -, hseen⟩ := (meets_spec formats clients).seen (consistent_new clients refused)
      hruns hmem hsplit
    obtain ⟨hclient, -, hsent⟩ := hseen
    rw [hclient]
    exact ⟨rfl, hsent⟩
  refine ⟨hsent, fun client hrealm =>
    ⟨(configuration.shared.first client).bind Url.origin, ?_⟩⟩
  intro session hmem
  have htoken : ∀ request answer url, (⟨.send client request, answer⟩ : Event ι) ∈ session.trace →
      request.target = .token url →
        url.origin = (configuration.shared.first client).bind Url.origin ∧
          ((configuration.shared.first client).bind Url.origin).isSome = true := by
    intro request answer url hevent htarget
    obtain ⟨before, after, hsplit⟩ := List.append_of_mem hevent
    obtain ⟨rfl, hrequest⟩ := hsent session hmem before client request answer after hsplit
    obtain ⟨horigin, hsome⟩ := (hrequest.token url htarget).realm.origin hrealm
    rw [← horigin]
    exact ⟨rfl, hsome⟩
  refine fun request answer url hevent => ⟨htoken request answer url hevent, fun htarget => ?_⟩
  obtain ⟨before, after, hsplit⟩ := List.append_of_mem hevent
  obtain ⟨rfl, hrequest⟩ := hsent session hmem before client request answer after hsplit
  obtain ⟨first, hfirst⟩ := hrequest.hop url htarget
  obtain ⟨earlier, hearlier⟩ := hfirst.sent
  refine ⟨first, hfirst.request, fun start hstart => ?_⟩
  obtain ⟨origin, horigin, hsame⟩ := hfirst.origin
  rw [hstart] at horigin
  cases horigin
  refine ⟨(htoken first earlier start ?_ hstart).1, hsame⟩
  rw [hsplit]
  exact List.mem_append_left _ hearlier

/-! ## The deployment's registry -/

/-- A realm that names a scope of its own. -/
def pushing : Url :=
  { scheme := "https", username := "", password := none,
    host := some { text := "auth.example.com", literal := none },
    origin := some { scheme := "https", host := "auth.example.com", port := 443 },
    path := "/token", query := some "scope=repository:*:push", fragment := none }

/-- The tags of the repository, at the registry. -/
def tagsUrl : Url :=
  { scheme := "https", username := "", password := none,
    host := some { text := "registry.example.com", literal := none },
    origin := some { scheme := "https", host := "registry.example.com", port := 443 },
    path := "/v2/team/app/tags/list", query := none, fragment := none }

def readsPushing : Formats :=
  { parse := fun text =>
      if text = "https://auth.example.com/token?scope=repository:*:push" then some pushing
      else if text = "https://registry.example.com/v2/team/app/tags/list" then some tagsUrl
      else none
    join := fun _ target =>
      if target = "/token?scope=repository:*:push" then some pushing else none
    text := fun url => Origin.text url.origin ++ url.path
    portOrKnownDefault := fun url => url.origin.map Origin.port
    pullToken := fun _ => some { token := some "minted", accessToken := none } }

/-- The deployment's registry, with a credential for one repository. -/
def deployment : OciRegistry :=
  { transport := .https, address := { policy := .any }, registryHost := "registry.example.com",
    realm := .follow, honoursBasic := false,
    credential := some (.new
      { username := "robot", secret := "hunter2", repositories := ["team/app"] }
      "registry.example.com") }

/-- Reading the repository's tags. -/
def readingTags : Asked Unit :=
  { client := (), scope := .repository (deployment.path "registry.example.com/team/app"),
    call :=
      { method := .get, via := .api, operation := "listing tags",
        url := "https://registry.example.com/v2/team/app/tags/list",
        accept := "application/json" } }

/-- A registry that asks for a token of that realm, and the realm, which sends a token request on to
that scope after all. -/
def asksPushing (_ : List (Event Unit)) (request : Request) : Except SendFailure Answered :=
  .ok
    { status := if request.authorization.isNone then 401
        else match request.target with
          | .token _ => 307
          | _ => 200
      authenticate :=
        [some "Bearer realm=\"https://auth.example.com/token?scope=repository:*:push\""]
      rateLimitRemaining := none, contentLength := none, chunks := [], interrupted := none
      location := some "/token?scope=repository:*:push" }

/-- The tags read alone. -/
def tagsRead : Shared Unit × List (Event Unit) × Except RegistryError Exchange :=
  Process.alone (answering asksPushing) (.new false) []
    (exchange readsPushing readingTags.client deployment readingTags.call readingTags.scope).run

theorem runs_tagsRead : (exchanges readsPushing fun _ : Unit => deployment).Runs ⟨.new false, []⟩
    ⟨tagsRead.1, [⟨readingTags, some (.new false), tagsRead.2.1, .done tagsRead.2.2⟩]⟩ :=
  Process.runs_alone (world_answering asksPushing) readingTags Relation.ReflTransGen.refl

/-- What the realm is asked. -/
def pullAsked : Url := { pushing with query := some "scope=repository%3Ateam%2Fapp%3Apull" }

/-- That request, sent on to where the realm redirects it. -/
def pushAsked : Request :=
  { tokenRequest deployment pullAsked true with target := .hop pushing }

theorem pushAsked_mem : ∃ answer, (⟨.send () pushAsked, answer⟩ : Event Unit) ∈ tagsRead.2.1 := by
  have hasked : (tagsRead.2.1.any fun event => event.1 = .send () pushAsked) = true := by
    decide +kernel
  obtain ⟨⟨effect, answer⟩, hmem, heffect⟩ := List.any_eq_true.mp hasked
  rw [decide_eq_true_eq] at heffect
  dsimp only at heffect
  subst heffect
  exact ⟨answer, hmem⟩

/-- The realm is asked to pull from the repository, with the credential, whatever it named; and
where it redirects that request, it is sent on within its origin. -/
theorem realm_is_asked_to_pull :
    (tagsRead.2.1.any fun event => event.1 = .send () (tokenRequest deployment pullAsked true)) ∧
      RealmAllows deployment (tagsRead.1.first ()) pullAsked ∧
        (pullAsked.queryPairs.filter fun pair => pair.1 = "scope") =
          [("scope", "repository:team/app:pull")] ∧
        ∃ first before, Redirected readsPushing deployment readingTags before first pushAsked
          pushing := by
  have hasked : (tagsRead.2.1.any fun event =>
      event.1 = .send () (tokenRequest deployment pullAsked true)) = true := by decide +kernel
  obtain ⟨hsent, -⟩ := credential_goes_where_its_rule_allows readsPushing
    (fun _ : Unit => deployment) false runs_tagsRead
  obtain ⟨⟨effect, answer⟩, hmem, heffect⟩ := List.any_eq_true.mp hasked
  rw [decide_eq_true_eq] at heffect
  dsimp only at heffect
  subst heffect
  obtain ⟨before, after, hsplit⟩ := List.append_of_mem hmem
  obtain ⟨-, hrequest⟩ := hsent _ List.mem_cons_self before () _ answer after hsplit
  have htoken := hrequest.token pullAsked rfl
  refine ⟨hasked, htoken.realm, htoken.scope, ?_⟩
  obtain ⟨again, hagain⟩ := pushAsked_mem
  obtain ⟨before, after, hsplit⟩ := List.append_of_mem hagain
  obtain ⟨-, hrequest⟩ := hsent _ List.mem_cons_self before () _ again after hsplit
  obtain ⟨first, hfirst⟩ := hrequest.hop pushing rfl
  exact ⟨first, before, hfirst⟩

/-- A request with the credential goes neither to the call's own URL nor anywhere for the scope
that is read: its realm redirected it to a scope of its own. -/
theorem realm_redirects_to_push :
    ¬∀ configuration, (exchanges readsPushing fun _ : Unit => deployment).Runs ⟨.new false, []⟩
        configuration → ∀ session ∈ configuration.operations, ∀ request answer,
          (⟨.send () request, answer⟩ : Event Unit) ∈ session.trace →
            request.carriesCredential = true →
              request.target = .call session.call.call.url ∨
                ∃ url, request.target.url readsPushing = some url ∧
                  (url.queryPairs.filter fun pair => pair.1 = "scope") =
                    scopeNamed session.call.scope := by
  intro hclaim
  obtain ⟨answer, hmem⟩ := pushAsked_mem
  rcases hclaim _ runs_tagsRead _ List.mem_cons_self pushAsked answer hmem (by decide +kernel) with
    hcall | ⟨url, hurl, hscope⟩
  · cases hcall
  · cases hurl
    exact absurd hscope (by decide +kernel)

end Registry
end SaasFabric
