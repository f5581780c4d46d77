import SaasFabric.Library.Fallible
import SaasFabric.Registry.Exchange

/-!
# What every exchange keeps

Whatever the far ends answer and however exchanges interleave: `Basic` is held only where the
client honours it and presents its credential, the realm a client follows is recorded once and is
one it may ask, and a mark stays.  Each request of an exchange, each mark and each end is
described beside what the exchange was answered before.
-/

namespace SaasFabric
namespace Registry

open Library
open Platform (RegistryError)

variable {ι : Type}

/-- An effect of an exchange, and its answer. -/
abbrev Event (ι : Type) := Process.Event (Effect.Answer (ι := ι))

/-! ## What is read off a trace -/

/-- The request carries the credential itself. -/
def Request.carriesCredential (request : Request) : Bool :=
  match request.authorization with
  | some (.basic _ _) => true
  | _ => false

/-- A request that carried the credential was answered `401`. -/
def isRefusal : Event ι → Bool
  | ⟨.send _ request, .ok response⟩ => request.carriesCredential && response.status = 401
  | _ => false

/-- The credential was marked refused. -/
def isMark : Event ι → Bool
  | ⟨.storeRefused, _⟩ => true
  | _ => false

/-- Something was contacted. -/
def isRequest : Event ι → Bool
  | ⟨.send _ _, _⟩ => true
  | _ => false

/-- The mark was looked at. -/
def isLook : Event ι → Bool
  | ⟨.loadRefused, _⟩ => true
  | _ => false

/-- `Basic` was found held. -/
def findsBasic : Event ι → Bool
  | ⟨.held .., some .basic⟩ => true
  | _ => false

/-- A request was answered with a redirect. -/
def isRedirect : Event ι → Bool
  | ⟨.send _ _, .ok answered⟩ => isRedirectStatus answered.status
  | _ => false

/-- Of what came after `Basic` was found held, the request sent with it, from where it was
redirected to, and what came later: where that request was answered `401`, so was a later one that
carried the credential. -/
def answeredAgain : List (Event ι) → Bool
  | [] => true
  | event :: rest =>
      if findsBasic event then
        match rest.dropWhile isRedirect with
        | [] => true
        | first :: later => !isRefusal first || later.any isRefusal
      else answeredAgain rest

/-! ## Where a request may go -/

/-- The origin a realm rule lets a token request go to: the fixed realm itself, the recorded
origin, or, where a client follows its challenge, the one origin it has recorded. -/
def RealmAllows (registry : OciRegistry) (recorded : Option Url) (url : Url) : Prop :=
  match registry.realm with
  | .fixed realm _ => { url with query := realm.query } = realm
  | .recorded origin => ∃ allowed, origin = some allowed ∧ allowed.same url = true
  | .follow => ∃ first, recorded = some first ∧ first.same url = true ∧
      permits registry.transport [] first = .ok () ∧
        registry.address.refusesLiteral first = false

/-- The service comes from the rule, or from a challenge the exchange was answered with. -/
def ServiceNamed (registry : OciRegistry) (before : List (Event ι)) (service : String) : Prop :=
  (∃ realm, registry.realm = .fixed realm service) ∨
    ∃ (client : ι) (request : Request) (answered : Answered) (challenge : Challenge),
      (⟨.send client request, .ok answered⟩ : Event ι) ∈ before ∧
        challenge ∈ challenges answered.authenticate ∧
          challenge.parameter "service" = some service

/-- The scope a token request names: pulling from the repository that is read, or none. -/
def scopeNamed : Scope → List (String × String)
  | .registry => []
  | .repository path => [("scope", "repository:" ++ path ++ ":pull")]

/-- A token request of an exchange. -/
structure TokenAsked (registry : OciRegistry) (asked : Asked ι) (now : Shared ι)
    (before : List (Event ι)) (url : Url) : Prop where
  realm : RealmAllows registry (now.first asked.client) url
  transport : permits registry.transport [] url = .ok ()
  address : registry.address.refusesLiteral url = false
  scope : (url.queryPairs.filter fun pair => pair.1 = "scope") = scopeNamed asked.scope
  service : ∀ service, ("service", service) ∈ url.queryPairs → ServiceNamed registry before service

/-- The exchange was answered with a `Basic` challenge, or `Basic` is held for its repository. -/
def BasicAsked (asked : Asked ι) (before : List (Event ι)) : Prop :=
  (∃ path, asked.scope = .repository path ∧
      (⟨.held asked.client path true, some .basic⟩ : Event ι) ∈ before) ∨
    ∃ (request : Request) (answered : Answered),
      (⟨.send asked.client request, .ok answered⟩ : Event ι) ∈ before ∧ answered.status = 401 ∧
        answered.asksBasic = true

/-- A request that is sent on from another, to where the one before it was redirected: it stays on
the origin of the other, where the client's own rules let it go, and carries all that one did. -/
structure Redirected (formats : Formats) (registry : OciRegistry) (asked : Asked ι)
    (before : List (Event ι)) (first request : Request) (url : Url) : Prop where
  request : request = { first with target := .hop url }
  direct : ∀ other, first.target ≠ .hop other
  sent : ∃ answer, (⟨.send asked.client first, answer⟩ : Event ι) ∈ before
  origin : ∃ start, first.target.url formats = some start ∧
    sameOrigin formats.toUrlFormat start url = true
  transport : permits registry.transport [] url = .ok ()
  address : registry.address.refusesLiteral url = false
  named : ∃ (earlier : List (Event ι)) (previous : Request) (answered : Answered) (current : Url),
    before = earlier ++ [⟨.send asked.client previous, .ok answered⟩] ∧
      previous.target.url formats = some current ∧ answered.next formats current = some url

/-- A credential goes with a token request, or with the call where `Basic` was asked for. -/
def Presented.GoesWith (registry : OciRegistry) (asked : Asked ι) (before : List (Event ι))
    (target : Target) : Prop :=
  (∃ url, target = .token url) ∨
    registry.honoursBasic = true ∧ target = .call asked.call.url ∧ BasicAsked asked before

/-- A request of an exchange, beside what came before it. -/
structure Sent (formats : Formats) (registry : OciRegistry) (asked : Asked ι) (now : Shared ι)
    (before : List (Event ι)) (request : Request) : Prop where
  call : ∀ url, request.target = .call url → url = asked.call.url
  token : ∀ url, request.target = .token url → TokenAsked registry asked now before url
  hop : ∀ url, request.target = .hop url →
    ∃ first, Redirected formats registry asked before first request url
  credential : ∀ username secret, request.authorization = some (.basic username secret) →
    registry.presents asked.scope = true ∧
      (∃ presented, registry.credential = some presented ∧ presented.username = username ∧
        presented.secret = secret) ∧
      (Presented.GoesWith registry asked before request.target ∨
        ∃ first url, Redirected formats registry asked before first request url ∧
          Presented.GoesWith registry asked before first.target)

/-- A mark of an exchange: a request with the credential was just answered with its refusal. -/
def Marked (asked : Asked ι) (before : List (Event ι)) : Prop :=
  ∃ (earlier : List (Event ι)) (request : Request) (answered : Answered),
    before = earlier ++ [⟨.send asked.client request, .ok answered⟩] ∧
      request.carriesCredential = true ∧
        (answered.status = 401 ∨ asked.scope = .registry ∧ answered.status = 403)

theorem isSome_credential_of_presents {registry : OciRegistry} {scope : Scope}
    (h : registry.presents scope = true) : registry.credential.isSome = true := by
  unfold OciRegistry.presents at h
  split at h
  · exact h
  · cases hcredential : registry.credential with
    | none => simp [hcredential] at h
    | some presented => rfl

/-- A token request carries the credential exactly where its scope presents it. -/
theorem carriesCredential_tokenRequest (registry : OciRegistry) (url : Url) (scope : Scope) :
    (tokenRequest registry url (registry.presents scope)).carriesCredential =
      registry.presents scope := by
  unfold Request.carriesCredential
  rw [authorization_tokenRequest]
  cases hpresents : registry.presents scope with
  | false => rfl
  | true =>
      obtain ⟨presented, hcredential⟩ :=
        Option.isSome_iff_exists.mp (isSome_credential_of_presents hpresents)
      rw [hcredential]
      rfl

theorem carriesCredential_attemptRequest {registry : OciRegistry} {call : Call}
    {held : Option Held} : (attemptRequest registry call held).carriesCredential = true ↔
      held = some .basic ∧ registry.credential.isSome = true := by
  unfold Request.carriesCredential
  change (match authorize registry held with | some (.basic _ _) => true | _ => false) = true ↔ _
  cases held with
  | none => simp [authorize]
  | some held =>
      cases held with
      | bearer token => simp [authorize]
      | basic =>
          rw [authorize_basic]
          cases registry.credential <;> simp

/-! ## The contract -/

section Contract

variable (formats : Formats) (clients : ι → OciRegistry)

structure Consistent (shared : Shared ι) : Prop where
  tokens : ∀ client path presents, shared.tokens client path presents = some .basic →
    presents = true ∧ (clients client).honoursBasic = true
  first : ∀ client first, shared.first client = some first →
    permits (clients client).transport [] first = .ok () ∧
      (clients client).address.refusesLiteral first = false

structure Outlasts (before after : Shared ι) : Prop where
  refused : before.refused = true → after.refused = true
  first : ∀ client first, before.first client = some first → after.first client = some first

def contract : Process.Contract (Shared ι) where
  Inv := Consistent clients
  Rely := Outlasts
  refl _ := ⟨id, fun _ _ => id⟩
  trans h h' := ⟨h'.refused ∘ h.refused, fun client first => h'.first client first ∘ h.first client first⟩

/-- What an exchange does, effect by effect. -/
def Seen (asked : Asked ι) (began now : Shared ι) (before : List (Event ι)) : Event ι → Prop
  | ⟨.loadRefused, _⟩ => (clients asked.client).presents asked.scope = true
  | ⟨.storeRefused, _⟩ => (clients asked.client).presents asked.scope = true ∧
      now.refused = true ∧ Marked asked before
  | ⟨.send client request, _⟩ => client = asked.client ∧
      ((clients asked.client).presents asked.scope = true → began.refused = false) ∧
        Sent formats (clients asked.client) asked now before request
  | _ => True

/-- What a finished exchange has done: it marked its credential where a request with it was
refused, exactly where what it found held was answered again. -/
def Ended (trace : List (Event ι)) : Prop :=
  (trace.any isRefusal = true → trace.any isMark = true) ↔ answeredAgain trace = true

theorem consistent_new (refused : Bool) : Consistent clients (.new refused) := ⟨nofun, nofun⟩

theorem RealmAllows.stable {registry : OciRegistry} {client : ι} {now next : Shared ι} {url : Url}
    (hrely : Outlasts now next) (h : RealmAllows registry (now.first client) url) :
    RealmAllows registry (next.first client) url := by
  unfold RealmAllows at h ⊢
  split
  · simpa only [*] using h
  · simpa only [*] using h
  · rename_i hrealm
    rw [hrealm] at h
    obtain ⟨first, hfirst, hrest⟩ := h
    exact ⟨first, hrely.first client first hfirst, hrest⟩

theorem Sent.stable {formats : Formats} {registry : OciRegistry} {asked : Asked ι}
    {now next : Shared ι} {before : List (Event ι)} {request : Request} (hrely : Outlasts now next)
    (h : Sent formats registry asked now before request) :
    Sent formats registry asked next before request where
  call := h.call
  token url hurl := { h.token url hurl with realm := (h.token url hurl).realm.stable hrely }
  hop := h.hop
  credential := h.credential

/-- The specification of an exchange. -/
def spec : Process.Spec (Shared ι) (Asked ι) (Effect.Answer (ι := ι))
    (Except RegistryError Exchange) where
  contract := contract clients
  Seen := Seen formats clients
  Ends _ _ _ trace _ := Ended trace
  seen_stable := by
    intro asked began now next before event hrely hseen
    obtain ⟨effect, answer⟩ := event
    cases effect with
    | send client request => exact ⟨hseen.1, hseen.2.1, hseen.2.2.stable hrely⟩
    | storeRefused => exact ⟨hseen.1, hrely.refused hseen.2.1, hseen.2.2⟩
    | _ => exact hseen
  ends_stable _ h := h

end Contract

/-! ## What follows a request -/

/-- Nothing was refused, marked or found held. -/
def Quiet (more : List (Event ι)) : Prop :=
  ∀ event ∈ more, isRefusal event = false ∧ isMark event = false ∧ findsBasic event = false

/-- Nothing was found held, and a mark goes with a refusal; without one, only where the realm
refused the credential for no repository. -/
structure Told (asked : Asked ι) (more : List (Event ι)) : Prop where
  findsBasic : ∀ event ∈ more, findsBasic event = false
  marks : more.any isRefusal = true → more.any isMark = true
  refused : more.any isMark = true → more.any isRefusal = true ∨ asked.scope = .registry

theorem Quiet.nil : Quiet ([] : List (Event ι)) := fun _ h => absurd h List.not_mem_nil

theorem Quiet.any {more : List (Event ι)} (h : Quiet more) :
    more.any isRefusal = false ∧ more.any isMark = false := by
  constructor
  · exact List.any_eq_false.mpr fun event hmem => by simp [(h event hmem).1]
  · exact List.any_eq_false.mpr fun event hmem => by simp [(h event hmem).2.1]

theorem Quiet.append {more later : List (Event ι)} (h : Quiet more) (h' : Quiet later) :
    Quiet (more ++ later) := by
  intro event hmem
  rcases List.mem_append.mp hmem with hmore | hlater
  · exact h event hmore
  · exact h' event hlater

theorem Quiet.told {asked : Asked ι} {more later : List (Event ι)} (h : Quiet more)
    (h' : Told asked later) : Told asked (more ++ later) where
  findsBasic event hmem := by
    rcases List.mem_append.mp hmem with hmore | hlater
    · exact (h event hmore).2.2
    · exact h'.findsBasic event hlater
  marks := by
    rw [List.any_append, List.any_append, h.any.1, h.any.2]
    exact h'.marks
  refused := by
    rw [List.any_append, List.any_append, h.any.1, h.any.2]
    exact h'.refused

theorem Told.nil {asked : Asked ι} : Told asked ([] : List (Event ι)) :=
  ⟨fun _ h => absurd h List.not_mem_nil, nofun, nofun⟩

theorem Quiet.toTold {asked : Asked ι} {more : List (Event ι)} (h : Quiet more) :
    Told asked more := by
  have htold : Told asked (more ++ []) := h.told Told.nil
  rwa [List.append_nil] at htold

/-- A mark right after the answer it is made for. -/
theorem told_of_mark {asked : Asked ι} {event : Event ι}
    (hevent : asked.scope ≠ .registry → isRefusal event = true)
    (hheld : findsBasic event = false) :
    Told asked ([event] ++ [⟨.storeRefused, ()⟩]) where
  findsBasic other hmem := by
    rcases List.mem_append.mp hmem with hfirst | hmark
    · rw [List.mem_singleton.mp hfirst, hheld]
    · rw [List.mem_singleton.mp hmark]
      rfl
  marks _ := by simp [isMark]
  refused _ := by
    by_cases hscope : asked.scope = .registry
    · exact Or.inr hscope
    · simp [hevent hscope]

/-- A realm the rule lets the client ask, and the service it is asked for. -/
structure Granted (registry : OciRegistry) (client : ι) (now : Shared ι)
    (before : List (Event ι)) (allowed : Allowed) : Prop where
  realm : RealmAllows registry (now.first client) allowed.realm
  service : ∀ service, allowed.service = some service → ServiceNamed registry before service

theorem Granted.extend {registry : OciRegistry} {client : ι} {now next : Shared ι}
    {before : List (Event ι)} {allowed : Allowed} (hrely : Outlasts now next)
    (more : List (Event ι)) (h : Granted registry client now before allowed) :
    Granted registry client next (before ++ more) allowed where
  realm := h.realm.stable hrely
  service service hservice := by
    rcases h.service service hservice with hrule | ⟨client, request, response, challenge, hmem, hrest⟩
    · exact Or.inl hrule
    · exact Or.inr ⟨client, request, response, challenge, List.mem_append_left _ hmem, hrest⟩

/-- A token request goes where its realm is. -/
theorem RealmAllows.tokenUrl {registry : OciRegistry} {recorded : Option Url} {allowed : Allowed}
    (h : RealmAllows registry recorded allowed.realm) (scope : Scope) :
    RealmAllows registry recorded (tokenUrl allowed scope) := by
  unfold RealmAllows at h ⊢
  split
  · rename_i hrealm
    rw [hrealm] at h
    exact h
  · rename_i hrealm
    rw [hrealm] at h
    exact h
  · rename_i hrealm
    rw [hrealm] at h
    exact h

theorem ServiceNamed.tokenUrl {registry : OciRegistry} {before : List (Event ι)}
    {allowed : Allowed} (h : ∀ service, allowed.service = some service →
      ServiceNamed registry before service) (scope : Scope) (service : String)
    (hmem : ("service", service) ∈ (tokenUrl allowed scope).queryPairs) :
    ServiceNamed registry before service := by
  have hfilter : ("service", service) ∈
      (Registry.tokenUrl allowed scope).queryPairs.filter fun pair => pair.1 = "service" := by
    rw [List.mem_filter]
    exact ⟨hmem, by simp⟩
  rw [(named_tokenUrl allowed scope).2, List.mem_map] at hfilter
  obtain ⟨value, hvalue, heq⟩ := hfilter
  cases heq
  exact h _ (Option.mem_toList.mp hvalue)

/-- What the requests of a call leave, sent on as often as they are redirected, and what they come
to: the last of them is answered, and none before it is refused, or nothing is. -/
inductive Tried (client : ι) (request : Request) :
    Except SendFailure Response → List (Event ι) → Prop where
  | failed {failure : SendFailure} {more : List (Event ι)} (quiet : Quiet more) :
      Tried client request (.error failure) more
  | answered {hops : List (Event ι)} {last : Request} {answered : Answered}
      (redirects : ∀ event ∈ hops, isRedirect event = true)
      (same : last.authorization = request.authorization) :
      Tried client request (.ok answered.toResponse) (hops ++ [⟨.send client last, .ok answered⟩])

theorem not_refusal_of_redirect {event : Event ι} (h : isRedirect event = true) :
    isRefusal event = false ∧ isMark event = false ∧ findsBasic event = false := by
  unfold isRedirect at h
  split at h
  · next request answered =>
      refine ⟨?_, rfl, rfl⟩
      unfold isRefusal
      by_contra hrefusal
      rw [Bool.not_eq_false, Bool.and_eq_true, decide_eq_true_eq] at hrefusal
      rw [hrefusal.2] at h
      exact absurd h (by decide)
  · cases h

theorem quiet_of_redirects {hops : List (Event ι)} (h : ∀ event ∈ hops, isRedirect event = true) :
    Quiet hops := fun event hmem => not_refusal_of_redirect (h event hmem)

theorem carriesCredential_congr {request other : Request}
    (h : request.authorization = other.authorization) :
    request.carriesCredential = other.carriesCredential := by
  unfold Request.carriesCredential
  rw [h]

/-- An answer that is not `401`, or that is to a request without the credential, refuses nothing. -/
theorem quiet_send {client : ι} {request : Request} {answer : Except SendFailure Answered}
    (h : request.carriesCredential = true → ∀ answered, answer = .ok answered →
      answered.status ≠ 401) :
    Quiet [(⟨.send client request, answer⟩ : Event ι)] := by
  intro event hmem
  rw [List.mem_singleton.mp hmem]
  refine ⟨?_, rfl, rfl⟩
  cases answer with
  | error failure => rfl
  | ok answered =>
      by_contra hrefusal
      rw [isRefusal, Bool.not_eq_false, Bool.and_eq_true, decide_eq_true_eq] at hrefusal
      exact h hrefusal.1 answered rfl hrefusal.2

/-- What is not refused, or carries no credential, leaves nothing that could be. -/
theorem Tried.quiet {client : ι} {request : Request} {result : Except SendFailure Response}
    {more : List (Event ι)} (h : Tried client request result more)
    (hnot : request.carriesCredential = true → ∀ response, result = .ok response →
      response.status ≠ 401) : Quiet more := by
  cases h with
  | failed hquiet => exact hquiet
  | answered hredirects hsame =>
      refine (quiet_of_redirects hredirects).append (quiet_send fun hcarries answered heq => ?_)
      cases heq
      exact hnot (carriesCredential_congr hsame ▸ hcarries) _ rfl

theorem BasicAsked.append {asked : Asked ι} {before : List (Event ι)} (h : BasicAsked asked before)
    (more : List (Event ι)) : BasicAsked asked (before ++ more) := by
  rcases h with ⟨path, hscope, hmem⟩ | ⟨request, answered, hmem, hasks⟩
  · exact Or.inl ⟨path, hscope, List.mem_append_left _ hmem⟩
  · exact Or.inr ⟨request, answered, List.mem_append_left _ hmem, hasks⟩

theorem Presented.GoesWith.append {registry : OciRegistry} {asked : Asked ι}
    {before : List (Event ι)} {target : Target}
    (h : Presented.GoesWith registry asked before target)
    (more : List (Event ι)) : Presented.GoesWith registry asked (before ++ more) target :=
  h.imp_right fun hbasic => ⟨hbasic.1, hbasic.2.1, hbasic.2.2.append more⟩

/-- What a request that was redirected leaves, before what the one it was sent on as does. -/
theorem Tried.hop {client : ι} {request : Request} {target : Target} {answered : Answered}
    {result : Except SendFailure Response} {more : List (Event ι)}
    (hredirect : isRedirectStatus answered.status = true)
    (h : Tried client { request with target } result more) :
    Tried client request result (⟨.send client request, .ok answered⟩ :: more) := by
  have hevent : isRedirect (⟨.send client request, .ok answered⟩ : Event ι) = true := hredirect
  cases h with
  | failed hquiet =>
      refine .failed fun event hmem => ?_
      rcases List.mem_cons.mp hmem with rfl | hmore
      · exact not_refusal_of_redirect hevent
      · exact hquiet event hmore
  | answered hredirects hsame =>
      rw [← List.cons_append]
      refine .answered (fun event hmem => ?_) hsame
      rcases List.mem_cons.mp hmem with rfl | hhop
      · exact hevent
      · exact hredirects event hhop

theorem Answered.next_eq_some {formats : Formats} {answered : Answered} {url next : Url}
    (h : answered.next formats url = some next) : isRedirectStatus answered.status = true := by
  unfold Answered.next at h
  split at h
  · assumption
  · cases h

/-- Where the policy lets a request be sent on to, it stays as its first was. -/
theorem redirected_of_policy {formats : Formats} {registry : OciRegistry} {asked : Asked ι}
    {trace : List (Event ι)} {first request : Request} {answered : Answered}
    {previous : List Url} {start current next : Url} (hdirect : ∀ url, first.target ≠ .hop url)
    (hstart : first.target.url formats = some start)
    (hprevious : (previous ++ [current]).head? = some start)
    (hrequest : { request with target := .hop next } = { first with target := .hop next })
    (hcurrent : request.target.url formats = some current)
    (hsent : ∃ answer, (⟨.send asked.client first, answer⟩ : Event ι) ∈
      trace ++ [⟨.send asked.client request, .ok answered⟩])
    (hnext : answered.next formats current = some next)
    (hpolicy : apiPolicy formats.toUrlFormat registry.transport registry.address
      (previous ++ [current]) next = .ok ()) :
    Redirected formats registry asked
      (trace ++ [⟨.send asked.client request, .ok answered⟩]) first
      { request with target := .hop next } next := by
  obtain ⟨hpermits, hliteral, _, hhead, hsame⟩ := apiPolicy_eq_ok hpolicy
  rw [hprevious, Option.mem_some_iff] at hhead
  exact ⟨hrequest, hdirect, hsent, ⟨start, hstart, hhead ▸ hsame⟩, permits_nil hpermits, hliteral,
    trace, request, answered, current, rfl, hcurrent, hnext⟩

/-- What a request carries the credential for. -/
abbrev CredentialGoes (registry : OciRegistry) (asked : Asked ι) (trace : List (Event ι))
    (request : Request) : Prop :=
  ∀ username secret, request.authorization = some (.basic username secret) →
    registry.presents asked.scope = true ∧
      (∃ presented, registry.credential = some presented ∧
        presented.username = username ∧ presented.secret = secret) ∧
      Presented.GoesWith registry asked trace request.target

theorem CredentialGoes.append {registry : OciRegistry} {asked : Asked ι} {trace : List (Event ι)}
    {request : Request}
    (h : CredentialGoes registry asked trace request) (more : List (Event ι)) :
    CredentialGoes registry asked (trace ++ more) request := by
  intro username secret hauthorization
  obtain ⟨hpresents, hcredential, hgoes⟩ := h username secret hauthorization
  exact ⟨hpresents, hcredential, hgoes.append more⟩

/-- A request that was redirected carries what its first did. -/
theorem sent_of_redirected {formats : Formats} {registry : OciRegistry} {asked : Asked ι}
    {trace : List (Event ι)} {first request : Request} {url : Url} {now : Shared ι}
    (hredirected : Redirected formats registry asked trace first request url)
    (hcredential : CredentialGoes registry asked trace first) :
    Sent formats registry asked now trace request := by
  have htarget : request.target = .hop url := by rw [hredirected.request]
  have hcarried : request.authorization = first.authorization := by rw [hredirected.request]
  refine ⟨fun other hother => ?_, fun other hother => ?_, fun other hother => ?_,
    fun username secret hauthorization => ?_⟩
  · rw [htarget] at hother
    cases hother
  · rw [htarget] at hother
    cases hother
  · rw [htarget] at hother
    cases hother
    exact ⟨first, hredirected⟩
  · obtain ⟨hpresents, hpresented, hgoes⟩ :=
      hcredential username secret (hcarried ▸ hauthorization)
    exact ⟨hpresents, hpresented, Or.inr ⟨first, url, hredirected, hgoes⟩⟩

/-- A request of a call carries the credential only where `Basic` is held. -/
theorem carriesCredential_of_not_basic {registry : OciRegistry} {call : Call} {held : Option Held}
    (h : held ≠ some .basic) : (attemptRequest registry call held).carriesCredential = false := by
  rw [← Bool.not_eq_true, carriesCredential_attemptRequest]
  exact fun hboth => h hboth.1

/-! ## The end of an exchange -/

theorem answeredAgain_cons {event : Event ι} {rest : List (Event ι)}
    (h : findsBasic event = false) : answeredAgain (event :: rest) = answeredAgain rest := by
  rw [answeredAgain.eq_def]
  simp [h]

theorem answeredAgain_found {found first : Event ι} {hops later : List (Event ι)}
    (h : findsBasic found = true) (hhops : ∀ event ∈ hops, isRedirect event = true)
    (hfirst : isRedirect first = false) :
    answeredAgain (found :: (hops ++ first :: later)) =
      (!isRefusal first || later.any isRefusal) := by
  have hdrop : (hops ++ first :: later).dropWhile isRedirect = first :: later := by
    rw [List.dropWhile_append_of_pos hhops, List.dropWhile_cons_of_neg (by simp [hfirst])]
  rw [answeredAgain.eq_def]
  simp [h, hdrop]

/-- Where nothing is refused, what was refused was answered again. -/
theorem answeredAgain_of_none {trace : List (Event ι)} (h : trace.any isRefusal = false) :
    answeredAgain trace = true := by
  induction trace with
  | nil => rfl
  | cons event rest ih =>
      rw [List.any_cons, Bool.or_eq_false_iff] at h
      rw [answeredAgain.eq_def]
      dsimp only
      split
      · split
        · rfl
        · next first later hdrop =>
            have hmem : first ∈ rest := by
              refine (List.dropWhile_suffix isRedirect).subset ?_
              rw [hdrop]
              exact List.mem_cons_self
            rw [List.any_eq_false] at h
            simp [h.2 first hmem]
      · exact ih h.2

theorem answeredAgain_append {before rest : List (Event ι)}
    (h : ∀ event ∈ before, findsBasic event = false) :
    answeredAgain (before ++ rest) = answeredAgain rest := by
  induction before with
  | nil => rfl
  | cons event before ih =>
      rw [List.cons_append, answeredAgain_cons (h event List.mem_cons_self),
        ih fun other hother => h other (List.mem_cons_of_mem _ hother)]

theorem answeredAgain_of_forall {trace : List (Event ι)}
    (h : ∀ event ∈ trace, findsBasic event = false) : answeredAgain trace = true := by
  have happend : answeredAgain (trace ++ []) = answeredAgain [] := answeredAgain_append h
  rwa [List.append_nil] at happend

/-- Where `Basic` was not found held, every refusal is marked. -/
theorem ended_of_told {asked : Asked ι} {before more : List (Event ι)} (hbefore : Quiet before)
    (htold : Told asked more) : Ended (before ++ more) := by
  have hall := hbefore.told htold
  unfold Ended
  rw [answeredAgain_of_forall hall.findsBasic]
  exact ⟨fun _ => rfl, fun _ => hall.marks⟩

/-- Where nothing is refused, nothing has to be marked. -/
theorem ended_of_none {trace : List (Event ι)} (h : trace.any isRefusal = false) :
    Ended trace := by
  unfold Ended
  rw [answeredAgain_of_none h, h]
  exact ⟨fun _ => rfl, fun _ => nofun⟩

/-- Where `Basic` was found held, a refusal of the request sent with it is marked exactly where a
later one is. -/
theorem ended_of_held {asked : Asked ι} {before hops more : List (Event ι)} {found first : Event ι}
    (hbefore : Quiet before) (hfound : findsBasic found = true)
    (hhops : ∀ event ∈ hops, isRedirect event = true) (hlast : isRedirect first = false)
    (hfirst : isMark first = false) (hscope : asked.scope ≠ .registry) (htold : Told asked more) :
    Ended (before ++ found :: (hops ++ first :: more)) := by
  have hnone : isRefusal found = false ∧ isMark found = false := by
    unfold findsBasic at hfound
    split at hfound
    · exact ⟨rfl, rfl⟩
    · cases hfound
  have hmarks : more.any isMark = true ↔ more.any isRefusal = true :=
    ⟨fun h => (htold.refused h).resolve_right hscope, htold.marks⟩
  unfold Ended
  have hquiet := (quiet_of_redirects hhops).any
  rw [answeredAgain_append fun event hmem => (hbefore event hmem).2.2,
    answeredAgain_found hfound hhops hlast]
  simp only [List.any_append, List.any_cons, hbefore.any.1, hbefore.any.2, hquiet.1, hquiet.2,
    hnone.1, hnone.2, hfirst, Bool.false_or]
  rw [hmarks]
  cases isRefusal first <;> simp

end Registry
end SaasFabric
