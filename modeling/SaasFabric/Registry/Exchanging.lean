import SaasFabric.Registry.Presenting

/-!
# What an exchange does

Step by step, and redirect by redirect: every request of an exchange is one its client may send,
and every exchange marks its credential as it should.
-/

namespace SaasFabric
namespace Registry

open Library
open Platform (RegistryError)

variable {ι : Type} [DecidableEq ι] {formats : Formats} {clients : ι → OciRegistry}
  {asked : Asked ι} {began shared : Shared ι}
  {trace : List (Event ι)} {α β : Type}
  {Ends : Shared ι → List (Event ι) → Except RegistryError α → Prop}

/-- What a part of an exchange does from where it is. -/
def Does (formats : Formats) (clients : ι → OciRegistry) (asked : Asked ι) (began : Shared ι)
    (Ends : Shared ι → List (Event ι) → Except RegistryError α → Prop) (shared : Shared ι)
    (trace : List (Event ι)) (program : Fallible ι α) : Prop :=
  Process.Follows world (contract clients) (Seen formats clients asked began) Ends shared trace
    program.run

theorem Does.pure {value : α} (h : Ends shared trace (.ok value)) :
    Does formats clients asked began Ends shared trace (Pure.pure value) := h

theorem Does.throw {error : RegistryError} (h : Ends shared trace (.error error)) :
    Does formats clients asked began Ends shared trace (MonadExcept.throw error) := h

theorem Does.ofExcept {result : Except RegistryError α} (h : Ends shared trace result) :
    Does formats clients asked began Ends shared trace (MonadExcept.ofExcept result) := by
  cases result with
  | ok value => exact h
  | error error => exact h

theorem Does.bind {first : Fallible ι β} {rest : β → Fallible ι α}
    (h : Does formats clients asked began (fun now events result => match result with
      | .ok value => Does formats clients asked began Ends now events (rest value)
      | .error error => Ends now events (.error error)) shared trace first) :
    Does formats clients asked began Ends shared trace (first >>= rest) := by
  apply Process.Follows.bindExcept
  apply Process.Follows.mono h
  intro now events result hresult
  cases result with
  | ok value => exact hresult
  | error error => exact hresult

/-- What an effect needs for the contract to be kept. -/
def Keeps (clients : ι → OciRegistry) : Effect ι → Prop
  | .hold client _ presents .basic => presents = true ∧ (clients client).honoursBasic = true
  | .firstRealm client named => permits (clients client).transport [] named = .ok () ∧
      (clients client).address.refusesLiteral named = false
  | _ => True

theorem world_keeps {effect : Effect ι} {before after : Shared ι} {answer : effect.Answer}
    (hkeeps : Keeps clients effect) (hbefore : Consistent clients before)
    (h : world before effect after answer) : Consistent clients after ∧ Outlasts before after := by
  -- Only `hold` and `firstRealm` write what `Consistent` speaks of.
  cases effect with
  | loadRefused =>
      obtain ⟨rfl, -⟩ := h
      exact ⟨hbefore, (contract clients).refl _⟩
  | storeRefused =>
      have hafter : after = { before with refused := true } := h
      subst hafter
      exact ⟨⟨hbefore.tokens, hbefore.first⟩, ⟨fun _ => rfl, fun _ _ => id⟩⟩
  | held client path presents =>
      obtain ⟨rfl, -⟩ := h
      exact ⟨hbefore, (contract clients).refl _⟩
  | hold client path presents held =>
      have hafter : after = before.insert client path presents held := h
      subst hafter
      refine ⟨⟨fun other repository presenting hheld => ?_, hbefore.first⟩, ⟨id, fun _ _ => id⟩⟩
      unfold Shared.insert at hheld
      dsimp only at hheld
      split at hheld
      · rename_i heq
        cases hheld
        obtain ⟨rfl, -, rfl⟩ := heq
        exact hkeeps
      · exact hbefore.tokens _ _ _ hheld
  | firstRealm client named =>
      obtain ⟨rfl, -⟩ := h
      refine ⟨⟨hbefore.tokens, fun other first hfirst => ?_⟩, ⟨id, fun other first hfirst => ?_⟩⟩
      · unfold Shared.follow at hfirst
        dsimp only at hfirst
        split at hfirst
        · rename_i heq
          subst heq
          cases hheld : before.first other with
          | none =>
              rw [hheld] at hfirst
              cases hfirst
              exact hkeeps
          | some held =>
              rw [hheld] at hfirst
              cases hfirst
              exact hbefore.first _ _ hheld
        · exact hbefore.first _ _ hfirst
      · unfold Shared.follow
        dsimp only
        split
        · rename_i heq
          subst heq
          rw [hfirst]
          rfl
        · exact hfirst
  | send client request =>
      have hafter : after = before := h
      subst hafter
      exact ⟨hbefore, (contract clients).refl _⟩

/-- One effect: it keeps the contract, is as the specification says, and is answered. -/
theorem Does.ask {effect : Effect ι}
    {Ends : Shared ι → List (Event ι) → Except RegistryError effect.Answer → Prop}
    (hkeeps : Keeps clients effect)
    (h : ∀ before now answer, Outlasts shared before → Consistent clients before →
      Outlasts shared now → Consistent clients now → world before effect now answer →
        Seen formats clients asked began now trace ⟨effect, answer⟩ ∧
          Ends now (trace ++ [⟨effect, answer⟩]) (.ok answer)) :
    Does formats clients asked began Ends shared trace (ask effect) := by
  intro before hrely hbefore now answer hanswer
  obtain ⟨hnow, hkept⟩ := world_keeps hkeeps hbefore hanswer
  obtain ⟨hseen, hends⟩ :=
    h before now answer hrely hbefore ((contract clients).trans hrely hkept) hnow hanswer
  exact ⟨hnow, hkept, hseen, hends⟩

/-! ## The steps of an exchange -/

/-- One request, and what goes on from where it is redirected. -/
theorem does_sendOnce {goOn : Url → Fallible ι (Except SendFailure Response)}
    {previous : List Url} {url : Url} {request : Request}
    {Ends : Shared ι → List (Event ι) →
      Except RegistryError (Except SendFailure Response) → Prop}
    (hseen : ∀ now answer, Outlasts shared now →
      Seen formats clients asked began now trace ⟨.send asked.client request, answer⟩)
    (hends : ∀ now more result, Outlasts shared now → Tried asked.client request result more →
      Ends now (trace ++ more) (.ok result))
    (hgoOn : ∀ now answered next, Outlasts shared now → answered.next formats url = some next →
      apiPolicy formats.toUrlFormat (clients asked.client).transport (clients asked.client).address
        (previous ++ [url]) next = .ok () →
      (∀ later more result, Outlasts now later →
        Tried asked.client { request with target := .hop next } result more →
          Ends later (trace ++ [⟨.send asked.client request, .ok answered⟩] ++ more) (.ok result)) →
      Does formats clients asked began Ends now
        (trace ++ [⟨.send asked.client request, .ok answered⟩]) (goOn next)) :
    Does formats clients asked began Ends shared trace
      (sendOnce formats asked.client (clients asked.client) goOn previous url request) := by
  unfold sendOnce
  apply Does.bind
  apply Does.ask
  · trivial
  · intro before now answer _ _ hrely _ _
    refine ⟨hseen now answer hrely, ?_⟩
    -- The redirects end where a request fails, or when its answer is no redirect.
    cases answer with
    | error failure =>
        apply Does.pure
        exact hends now _ _ hrely (.failed (quiet_send fun _ _ => nofun))
    | ok answered =>
        have hlast : Tried asked.client request (.ok answered.toResponse)
            ([] ++ [⟨.send asked.client request, .ok answered⟩]) :=
          .answered (fun event hmem => absurd hmem List.not_mem_nil) rfl
        dsimp only
        split
        · next next _ hnext =>
            have hredirect := Answered.next_eq_some hnext
            split
            · apply Does.pure
              refine hends now _ _ hrely (.failed (quiet_of_redirects fun event hmem => ?_))
              rw [List.mem_singleton.mp hmem]
              exact hredirect
            · next hpolicy =>
                refine hgoOn now answered next hrely hnext hpolicy fun later more result hlater
                  htried => ?_
                rw [List.append_assoc, List.singleton_append]
                exact hends later _ _ ((contract clients).trans hrely hlater)
                  (htried.hop hredirect)
        · apply Does.pure
          exact hends now _ _ hrely hlast

/-- A request that was redirected, and all it is sent on to. -/
theorem does_hops {first : Request} {start : Url}
    (hbegan : (clients asked.client).presents asked.scope = true → began.refused = false)
    (hstart : first.target.url formats = some start) (left : Nat) {previous : List Url} {url : Url}
    {request : Request}
    {Ends : Shared ι → List (Event ι) →
      Except RegistryError (Except SendFailure Response) → Prop}
    (hprevious : previous.head? = some start)
    (hredirected : Redirected formats (clients asked.client) asked trace first request url)
    (hcredential : CredentialGoes (clients asked.client) asked trace first)
    (hends : ∀ now more result, Outlasts shared now → Tried asked.client request result more →
      Ends now (trace ++ more) (.ok result)) :
    Does formats clients asked began Ends shared trace
      (send formats asked.client (clients asked.client) left previous url request) := by
  -- On how many redirects are left: the invariant is that the list of URLs begins at `start`.
  induction left generalizing shared trace previous url request with
  | zero =>
      refine does_sendOnce (fun now answer _ =>
        ⟨rfl, hbegan, sent_of_redirected hredirected hcredential⟩) hends
        fun now answered next hnow hnext _ hlater => Does.pure ?_
      have hfailed : Tried asked.client { request with target := .hop next }
          (.error (.redirect (some Refusal.tooManyRedirects.text))) [] := .failed Quiet.nil
      have hdone := hlater now _ _ ((contract clients).refl now) hfailed
      rwa [List.append_nil] at hdone
  | succ left ih =>
      refine does_sendOnce (fun now answer _ =>
        ⟨rfl, hbegan, sent_of_redirected hredirected hcredential⟩) hends
        fun now answered next hnow hnext hpolicy hlater => ?_
      have hhead : (previous ++ [url]).head? = some start := by
        rw [List.head?_append, hprevious]
        rfl
      have hcurrent : request.target.url formats = some url := by
        rw [hredirected.request]
        rfl
      have hrequest : { request with target := .hop next } =
          { first with target := .hop next } := by
        rw [hredirected.request]
      obtain ⟨answer, hsent⟩ := hredirected.sent
      -- The policy compares the next URL with the first one, so the origin never drifts.
      have hagain := redirected_of_policy hredirected.direct hstart hhead hrequest hcurrent
        ⟨answer, List.mem_append_left _ hsent⟩ hnext hpolicy
      exact ih hhead hagain (hcredential.append _) hlater

/-- A request of the exchange's own, and all it is sent on to. -/
theorem does_send {request : Request} {start : Url}
    {Ends : Shared ι → List (Event ι) →
      Except RegistryError (Except SendFailure Response) → Prop}
    (hbegan : (clients asked.client).presents asked.scope = true → began.refused = false)
    (hstart : request.target.url formats = some start) (hdirect : ∀ url, request.target ≠ .hop url)
    (hsent : ∀ now, Outlasts shared now →
      Sent formats (clients asked.client) asked now trace request)
    (hcredential : CredentialGoes (clients asked.client) asked trace request)
    (hends : ∀ now more result, Outlasts shared now → Tried asked.client request result more →
      Ends now (trace ++ more) (.ok result)) :
    Does formats clients asked began Ends shared trace
      (send formats asked.client (clients asked.client) MAX_REDIRECTS [] start request) := by
  have hseen : ∀ now answer, Outlasts shared now →
      Seen formats clients asked began now trace ⟨.send asked.client request, answer⟩ :=
    fun now answer hnow => ⟨rfl, hbegan, hsent now hnow⟩
  refine does_sendOnce hseen hends fun now answered next hnow hnext hpolicy hlater => ?_
  refine does_hops hbegan hstart _ rfl ?_ (hcredential.append _) hlater
  exact redirected_of_policy hdirect hstart rfl rfl hstart
    ⟨_, List.mem_append_right _ (List.mem_singleton.mpr rfl)⟩ hnext hpolicy

/-- The call's request, sent with what is held. -/
theorem does_attempt {held : Option Held}
    {Ends : Shared ι → List (Event ι) → Except RegistryError Response → Prop}
    (hbegan : (clients asked.client).presents asked.scope = true → began.refused = false)
    (hheld : held = some .basic → (clients asked.client).presents asked.scope = true ∧
      (clients asked.client).honoursBasic = true ∧ BasicAsked asked trace)
    (hends : ∀ now more result, Outlasts shared now →
      Tried asked.client (attemptRequest (clients asked.client) asked.call held) result more →
        Ends now (trace ++ more) (result.mapError (sendFailure asked.call.operation))) :
    Does formats clients asked began Ends shared trace
      (attempt formats asked.client (clients asked.client) asked.call held) := by
  have hcredential : CredentialGoes (clients asked.client) asked trace
      (attemptRequest (clients asked.client) asked.call held) := by
    intro username secret hauthorization
    change authorize (clients asked.client) held = some (.basic username secret) at hauthorization
    -- Of what may be held, only `Basic` puts the credential on the request.
    cases held with
    | none => cases hauthorization
    | some held =>
        cases held with
        | bearer token => cases hauthorization
        | basic =>
            obtain ⟨hpresents, hhonours, hasked⟩ := hheld rfl
            rw [authorize_basic] at hauthorization
            obtain ⟨presented, hcredential, heq⟩ := Option.map_eq_some_iff.mp hauthorization
            cases heq
            exact ⟨hpresents, ⟨presented, hcredential, rfl, rfl⟩, Or.inr ⟨hhonours, rfl, hasked⟩⟩
  unfold attempt
  cases hparse : formats.parse asked.call.url with
  | none =>
      have hdone := hends shared [] (.error .other) ((contract clients).refl shared)
        (.failed Quiet.nil)
      rw [List.append_nil] at hdone
      exact Does.throw hdone
  | some url =>
      apply Does.bind
      have hstart : (attemptRequest (clients asked.client) asked.call held).target.url formats =
          some url := hparse
      have hdirect : ∀ url, (attemptRequest (clients asked.client) asked.call held).target ≠
          .hop url := fun url heq => by cases heq
      refine does_send hbegan hstart hdirect (fun now _ => ?_) hcredential
        fun now more result hrely htried => ?_
      · refine ⟨fun url hurl => ?_, nofun, nofun, fun username secret hauthorization => ?_⟩
        · cases hurl
          rfl
        · obtain ⟨hpresents, hpresented, hgoes⟩ := hcredential username secret hauthorization
          exact ⟨hpresents, hpresented, Or.inl hgoes⟩
      · have hdone := hends now more result hrely htried
        cases result with
        | ok response => exact Does.pure hdone
        | error failure => exact Does.throw hdone

/-- The mark, and the error that says so. -/
theorem does_refuse {operation : String}
    {Ends : Shared ι → List (Event ι) → Except RegistryError RegistryError → Prop}
    (hpresents : (clients asked.client).presents asked.scope = true) (hmarked : Marked asked trace)
    (hends : ∀ now error, Outlasts shared now →
      Ends now (trace ++ [⟨.storeRefused, ()⟩]) (.ok error)) :
    Does formats clients asked began Ends shared trace
      (refuse (clients asked.client) operation) := by
  unfold refuse
  rw [isSome_credential_of_presents hpresents]
  apply Does.bind
  apply Does.ask
  · trivial
  · intro before now answer _ _ hrely _ hanswer
    have hafter : now = { before with refused := true } := hanswer
    refine ⟨⟨hpresents, by rw [hafter], hmarked⟩, ?_⟩
    exact hends now _ hrely

theorem allowRecorded_eq_ok {operation : String} {named : Url} {service : Option String}
    {recorded : Option Url} {allowed : Allowed}
    (h : allowRecorded operation named service recorded = .ok allowed) :
    ∃ origin, recorded = some origin ∧ origin.same named = true ∧
      allowed = { realm := named, service } := by
  unfold allowRecorded at h
  split at h
  · rename_i origin
    split at h
    · rename_i hsame
      cases h
      exact ⟨origin, rfl, hsame, rfl⟩
    · cases h
  · cases h

/-- What a realm rule allows, the realm's URL having passed the client's own rules. -/
theorem does_allow {operation named : String} {service : Option String}
    {Ends : Shared ι → List (Event ι) → Except RegistryError Allowed → Prop}
    (hchecked : ∀ url, formats.parse named = some url →
      permits (clients asked.client).transport [] url = .ok () ∧
        (clients asked.client).address.refusesLiteral url = false)
    (hservice : ∀ value, service = some value →
      ServiceNamed (clients asked.client) trace value)
    (hsome : ∀ now more allowed, Outlasts shared now → Quiet more →
      Granted (clients asked.client) asked.client now trace allowed →
        Ends now (trace ++ more) (.ok allowed))
    (herror : ∀ now more error, Outlasts shared now → Quiet more →
      Ends now (trace ++ more) (.error error)) :
    Does formats clients asked began Ends shared trace
      (allow formats asked.client (clients asked.client) operation named service) := by
  have hrefl := (contract clients).refl shared
  have hfails : ∀ error, Ends shared trace (.error error) := by
    intro error
    have hends := herror shared [] error hrefl Quiet.nil
    rwa [List.append_nil] at hends
  unfold allow
  cases hparse : formats.parse named with
  | none => exact Does.throw (hfails _)
  | some url =>
      obtain ⟨hpermits, hliteral⟩ := hchecked url hparse
      dsimp only
      split
      · exact Does.throw (hfails _)
      · split
        -- A fixed realm: the URL the challenge names is compared and then left for the rule's own.
        · rename_i realm fixedService hrealm
          split
          · apply Does.pure
            have hends := hsome shared [] { realm, service := some fixedService } hrefl Quiet.nil
            rw [List.append_nil] at hends
            apply hends
            constructor
            · unfold RealmAllows
              rw [hrealm]
            · intro value hvalue
              cases hvalue
              exact Or.inl ⟨realm, hrealm⟩
          · exact Does.throw (hfails _)
        -- A recorded origin, which the challenge has to name.
        · rename_i recorded hrealm
          apply Does.ofExcept
          cases hresult : allowRecorded operation { url with fragment := none } service recorded with
          | error error => exact hfails _
          | ok allowed =>
              obtain ⟨origin, hrecorded, hsame, rfl⟩ := allowRecorded_eq_ok hresult
              have hends := hsome shared [] { realm := { url with fragment := none }, service }
                hrefl Quiet.nil
              rw [List.append_nil] at hends
              apply hends
              constructor
              · unfold RealmAllows
                rw [hrealm]
                exact ⟨origin, hrecorded, hsame⟩
              · exact hservice
        -- A following rule: the first realm any exchange of the client names is the one for good.
        · rename_i hrealm
          apply Does.bind
          apply Does.ask
          · exact ⟨hpermits, hliteral⟩
          · intro before now answer hbefore hbeforeConsistent hrely hnow hanswer
            obtain ⟨hafter, hfirst⟩ := hanswer
            refine ⟨trivial, ?_⟩
            have hquiet : Quiet [(⟨.firstRealm asked.client { url with fragment := none }, answer⟩ :
                Event ι)] := by
              intro event hmem
              rw [List.mem_singleton.mp hmem]
              exact ⟨rfl, rfl, rfl⟩
            apply Does.ofExcept
            cases hresult : allowRecorded operation { url with fragment := none } service
                (some answer) with
            | error error => exact herror now _ _ hrely hquiet
            | ok allowed =>
                obtain ⟨origin, hrecorded, hsame, rfl⟩ := allowRecorded_eq_ok hresult
                cases hrecorded
                apply hsome now _ _ hrely hquiet
                have hheld : now.first asked.client = some answer := by
                  rw [hafter, Shared.follow]
                  simp [hfirst]
                constructor
                · unfold RealmAllows
                  rw [hrealm]
                  exact ⟨answer, hheld, hsame, hnow.first _ _ hheld⟩
                · exact hservice

/-- The realm a challenge names, where the rules allow it. -/
theorem does_bearerRealm {operation : String} {answered : Answered}
    {request : Request}
    {Ends : Shared ι → List (Event ι) → Except RegistryError (Option Allowed) → Prop}
    (hresponse : (⟨.send asked.client request, .ok answered⟩ : Event ι) ∈ trace)
    (hnone : Ends shared trace (.ok none))
    (hsome : ∀ now more allowed, Outlasts shared now → Quiet more →
      Granted (clients asked.client) asked.client now trace allowed →
        Ends now (trace ++ more) (.ok (some allowed)))
    (herror : ∀ now more error, Outlasts shared now → Quiet more →
      Ends now (trace ++ more) (.error error)) :
    Does formats clients asked began Ends shared trace
      (bearerRealm formats asked.client (clients asked.client) operation answered.toResponse) := by
  unfold bearerRealm
  split
  · exact Does.pure hnone
  · rename_i bearer hbearer
    have hmem := List.mem_of_find?_eq_some hbearer
    split
    · exact Does.pure hnone
    · rename_i named hnamed
      apply Does.bind
      apply Does.ofExcept
      cases hchecked : checkRealm formats (clients asked.client) operation named with
      | error error =>
          have hends := herror shared [] error ((contract clients).refl shared) Quiet.nil
          rwa [List.append_nil] at hends
      | ok =>
          apply Does.bind
          apply does_allow
          · intro url hparse
            unfold checkRealm at hchecked
            rw [hparse] at hchecked
            obtain ⟨haddress, hpermits⟩ := check_bind_eq_ok.mp hchecked
            constructor
            · split at hpermits
              · assumption
              · cases hpermits
            · exact Address.refusesLiteral_of_check haddress
          · intro value hvalue
            exact Or.inr ⟨asked.client, request, answered, bearer, hresponse, hmem, hvalue⟩
          · intro now more allowed hrely hquiet hgranted
            exact hsome now more allowed hrely hquiet hgranted
          · exact herror

/-- The credential of a token request goes to a token endpoint, where the scope presents it. -/
theorem credentialGoes_tokenRequest {allowed : Allowed} :
    CredentialGoes (clients asked.client) asked trace
      (tokenRequest (clients asked.client) (tokenUrl allowed asked.scope)
        ((clients asked.client).presents asked.scope)) := by
  intro username secret hauthorization
  rw [authorization_tokenRequest] at hauthorization
  split at hauthorization
  · rename_i hpresents
    obtain ⟨presented, hcredential, heq⟩ := Option.map_eq_some_iff.mp hauthorization
    cases heq
    exact ⟨hpresents, ⟨presented, hcredential, rfl, rfl⟩, Or.inl ⟨_, rfl⟩⟩
  · cases hauthorization

/-- A token request goes to the realm that was granted, and names the scope and nothing else. -/
theorem sent_tokenRequest {allowed : Allowed} {now : Shared ι}
    (hgranted : Granted (clients asked.client) asked.client shared trace allowed)
    (hpermits : permits (clients asked.client).transport [] (tokenUrl allowed asked.scope) = .ok ())
    (hliteral :
      (clients asked.client).address.refusesLiteral (tokenUrl allowed asked.scope) = false)
    (hrely : Outlasts shared now) :
    Sent formats (clients asked.client) asked now trace
      (tokenRequest (clients asked.client) (tokenUrl allowed asked.scope)
        ((clients asked.client).presents asked.scope)) := by
  refine ⟨fun url hurl => ?_, fun url hurl => ?_, fun url hurl => ?_,
    fun username secret hauthorization => ?_⟩
  · cases hurl
  · cases hurl
    exact ⟨(hgranted.realm.stable hrely).tokenUrl _, hpermits, hliteral,
      (named_tokenUrl allowed asked.scope).1, ServiceNamed.tokenUrl hgranted.service _⟩
  · cases hurl
  · obtain ⟨hpresents, hpresented, hgoes⟩ :=
      credentialGoes_tokenRequest username secret hauthorization
    exact ⟨hpresents, hpresented, Or.inl hgoes⟩

/-- A realm is asked with the credential where the request presents it, for the scope that is read
and nothing else. -/
theorem does_token {operation : String} {allowed : Allowed}
    {Ends : Shared ι → List (Event ι) → Except RegistryError Minted → Prop}
    (hbegan : (clients asked.client).presents asked.scope = true → began.refused = false)
    (hgranted : Granted (clients asked.client) asked.client shared trace allowed)
    (hok : ∀ now more minted, Outlasts shared now → Quiet more →
      Ends now (trace ++ more) (.ok minted))
    (herror : ∀ now more error, Outlasts shared now → Told asked more →
      Ends now (trace ++ more) (.error error)) :
    Does formats clients asked began Ends shared trace
      (token formats asked.client (clients asked.client) operation allowed asked.scope
        ((clients asked.client).presents asked.scope)) := by
  have hfails : ∀ error, Ends shared trace (.error error) := by
    intro error
    have hends := herror shared [] error ((contract clients).refl shared) Told.nil
    rwa [List.append_nil] at hends
  unfold token
  dsimp only
  split
  · exact Does.throw (hfails _)
  · rename_i hpermits
    rw [ne_eq, not_not] at hpermits
    apply Does.bind
    apply Does.ofExcept
    cases hcheck : (clients asked.client).address.check (tokenUrl allowed asked.scope) with
    | error error => exact hfails _
    | ok =>
        apply Does.bind
        refine does_send hbegan rfl (fun url heq => by cases heq)
          (fun now hrely => sent_tokenRequest hgranted hpermits
            (Address.refusesLiteral_of_check hcheck) hrely)
          credentialGoes_tokenRequest fun now more result hrely htried => ?_
        · cases htried with
          | failed hquiet => exact Does.throw (herror now _ _ hrely hquiet.toTold)
          | @answered hops last response hredirects hsame =>
              have hlast : last.carriesCredential = (clients asked.client).presents asked.scope :=
                (carriesCredential_congr hsame).trans (carriesCredential_tokenRequest _ _ _)
              dsimp only
              split
              -- A realm refuses the credential with 401, and with 403 where no scope is asked.
              · rename_i hrefused
                rw [Bool.and_eq_true] at hrefused
                obtain ⟨hpresents, hstatus⟩ := hrefused
                rw [hpresents] at hlast
                have hread : response.status = 401 ∨
                    asked.scope = .registry ∧ response.status = 403 := by
                  simp only [Bool.or_eq_true, Bool.and_eq_true, decide_eq_true_eq] at hstatus
                  rcases hstatus with hstatus | ⟨⟨hstatus, -⟩, hscope⟩
                  · exact Or.inl hstatus
                  · exact Or.inr ⟨hscope, hstatus⟩
                apply Does.bind
                apply does_refuse hpresents
                · refine ⟨trace ++ hops, last, response, ?_, hlast, hread⟩
                  rw [List.append_assoc]
                · intro later error hlater
                  apply Does.throw
                  rw [List.append_assoc, List.append_assoc]
                  apply herror later _ _ ((contract clients).trans hrely hlater)
                  refine (quiet_of_redirects hredirects).told (told_of_mark (fun hother => ?_) rfl)
                  rcases hread with hunauthorized | ⟨hscope, -⟩
                  · simp [isRefusal, hlast, hunauthorized]
                  · exact absurd hscope hother
              · rename_i hrefused
                have hquiet : Quiet (hops ++ [(⟨.send asked.client last, .ok response⟩ :
                    Event ι)]) := by
                  refine (quiet_of_redirects hredirects).append
                    (quiet_send fun hcarried answered heq hstatus => hrefused ?_)
                  cases heq
                  rw [hcarried] at hlast
                  rw [← hlast, hstatus]
                  rfl
                split
                · exact Does.pure (hok now _ _ hrely hquiet)
                · apply Does.ofExcept
                  cases readMinted formats operation response.toResponse with
                  | ok minted => exact hok now _ _ hrely hquiet
                  | error error => exact herror now _ _ hrely hquiet.toTold

/-- What is obtained is held for the repository that is read. -/
theorem does_hold {obtained : Held}
    {Ends : Shared ι → List (Event ι) → Except RegistryError Unit → Prop}
    (hbasic : obtained = .basic → (clients asked.client).presents asked.scope = true ∧
      (clients asked.client).honoursBasic = true)
    (hends : ∀ now more, Outlasts shared now → Quiet more → Ends now (trace ++ more) (.ok ())) :
    Does formats clients asked began Ends shared trace
      (hold asked.client asked.scope ((clients asked.client).presents asked.scope) obtained) := by
  unfold hold
  split
  · apply Does.pure
    have hdone := hends shared [] ((contract clients).refl shared) Quiet.nil
    rwa [List.append_nil] at hdone
  · apply Does.ask
    · cases obtained with
      | bearer token => trivial
      | basic => exact hbasic rfl
    · intro before now answer _ _ hrely _ _
      refine ⟨trivial, hends now _ hrely fun event hmem => ?_⟩
      rw [List.mem_singleton.mp hmem]
      exact ⟨rfl, rfl, rfl⟩

/-- A challenge is answered with a token, or with `Basic` where the client honours it and presents
its credential. -/
theorem does_answer {operation : String} {answered : Answered}
    {request : Request}
    {Ends : Shared ι → List (Event ι) → Except RegistryError (Option (Held × Option String)) → Prop}
    (hbegan : (clients asked.client).presents asked.scope = true → began.refused = false)
    (hresponse : (⟨.send asked.client request, .ok answered⟩ : Event ι) ∈ trace)
    (hok : ∀ now more result, Outlasts shared now → Quiet more →
      (∀ realm, result = some (.basic, realm) →
        (clients asked.client).presents asked.scope = true ∧
          (clients asked.client).honoursBasic = true ∧ answered.asksBasic = true) →
        Ends now (trace ++ more) (.ok result))
    (herror : ∀ now more error, Outlasts shared now → Told asked more →
      Ends now (trace ++ more) (.error error)) :
    Does formats clients asked began Ends shared trace
      (answer formats asked.client (clients asked.client) operation asked.scope
        ((clients asked.client).presents asked.scope) answered.toResponse) := by
  unfold answer
  apply Does.bind
  apply does_bearerRealm hresponse
  · dsimp only
    split
    -- No bearer realm, and the client honours `Basic` where it presents its credential.
    · rename_i hbasic
      simp only [Bool.and_eq_true] at hbasic
      apply Does.bind
      apply does_hold
      · exact fun _ => ⟨hbasic.1.2, hbasic.2⟩
      · intro now more hrely hquiet
        apply Does.pure
        exact hok now more _ hrely hquiet fun _ _ => ⟨hbasic.1.2, hbasic.2, hbasic.1.1⟩
    · apply Does.pure
      have hends := hok shared [] none ((contract clients).refl shared) Quiet.nil nofun
      rwa [List.append_nil] at hends
  · intro now more allowed hrely hquiet hgranted
    dsimp only
    apply Does.bind
    apply does_token hbegan (hgranted.extend ((contract clients).refl now) more)
    · intro later others minted hlater hothers
      have hall := (contract clients).trans hrely hlater
      cases minted with
      | declined =>
          apply Does.pure
          rw [List.append_assoc]
          exact hok later _ none hall (hquiet.append hothers) nofun
      | token token =>
          apply Does.bind
          apply does_hold
          · nofun
          · intro last held hlast hheld
            apply Does.pure
            rw [List.append_assoc, List.append_assoc]
            exact hok last _ _ ((contract clients).trans hall hlast)
              (hquiet.append (hothers.append hheld)) nofun
    · intro later others error hlater hothers
      rw [List.append_assoc]
      exact herror later _ _ ((contract clients).trans hrely hlater) (hquiet.told hothers)
  · intro now more error hrely hquiet
    exact herror now more error hrely hquiet.toTold

/-- From the answer to its first request an exchange marks its credential exactly where a request
with it is refused, or where the realm refuses it for no repository. -/
theorem does_exchangeAnswered {answered : Answered} {request : Request}
    {Ends : Shared ι → List (Event ι) → Except RegistryError Exchange → Prop}
    (hbegan : (clients asked.client).presents asked.scope = true → began.refused = false)
    (hresponse : (⟨.send asked.client request, .ok answered⟩ : Event ι) ∈ trace)
    (hends : ∀ now more result, Outlasts shared now → Told asked more →
      Ends now (trace ++ more) result) :
    Does formats clients asked began Ends shared trace
      (exchangeAnswered formats asked.client (clients asked.client) asked.call asked.scope
        ((clients asked.client).presents asked.scope) answered.toResponse) := by
  have hstays : ∀ result, Ends shared trace result := by
    intro result
    have hdone := hends shared [] result ((contract clients).refl shared) Told.nil
    rwa [List.append_nil] at hdone
  unfold exchangeAnswered
  split
  · exact Does.pure (hstays _)
  · rename_i hstatus
    rw [ne_eq, not_not] at hstatus
    apply Does.bind
    apply does_answer hbegan hresponse
    · intro now more result hrely hquiet hbasic
      cases result with
      | none => exact Does.pure (hends now more _ hrely hquiet.toTold)
      | some obtained =>
          obtain ⟨obtained, realm⟩ := obtained
          dsimp only
          apply Does.bind
          apply does_attempt hbegan
          · intro heq
            cases heq
            obtain ⟨hpresents, hhonours, hasks⟩ := hbasic realm rfl
            exact ⟨hpresents, hhonours, Or.inr ⟨request, answered,
              List.mem_append_left _ hresponse, hstatus, hasks⟩⟩
          · intro later tried result hlater htried
            have hall := (contract clients).trans hrely hlater
            have hcarries : (attemptRequest (clients asked.client) asked.call
                (some obtained)).carriesCredential = true ↔ obtained = .basic ∧
                  (clients asked.client).credential.isSome = true := by
              rw [carriesCredential_attemptRequest, Option.some.injEq]
            cases htried with
            | failed hfailed =>
                rw [List.append_assoc]
                exact hends later _ _ hall (hquiet.append hfailed).toTold
            | @answered hops last response hredirects hsame =>
                rw [← carriesCredential_congr hsame] at hcarries
                -- A second 401 is a refusal only to `Basic`: to a token it says nothing of the
                -- credential.
                show Does formats clients asked began Ends later _
                  (if obtained = .basic && response.status = 401 then _ else _)
                split
                · rename_i hrefused
                  simp only [Bool.and_eq_true, decide_eq_true_eq] at hrefused
                  obtain ⟨rfl, hunauthorized⟩ := hrefused
                  have hpresents := (hbasic realm rfl).1
                  have hcarried : last.carriesCredential = true :=
                    hcarries.mpr ⟨rfl, isSome_credential_of_presents hpresents⟩
                  apply Does.bind
                  apply does_refuse hpresents
                  · refine ⟨trace ++ more ++ hops, last, response, ?_, hcarried,
                      Or.inl hunauthorized⟩
                    rw [List.append_assoc (trace ++ more)]
                  · intro final error hfinal
                    apply Does.throw
                    rw [List.append_assoc, List.append_assoc, List.append_assoc]
                    apply hends final _ _ ((contract clients).trans hall hfinal)
                    refine hquiet.told ((quiet_of_redirects hredirects).told ?_)
                    exact told_of_mark (fun _ => by simp [isRefusal, hcarried, hunauthorized]) rfl
                · rename_i hrefused
                  apply Does.pure
                  rw [List.append_assoc]
                  apply hends later _ _ hall
                  refine (hquiet.append ((quiet_of_redirects hredirects).append
                    (quiet_send fun hcarried other heq hunauthorized => hrefused ?_))).toTold
                  cases heq
                  rw [(hcarries.mp hcarried).1, hunauthorized]
                  rfl
    · intro now more error
      exact hends now more _

/-- What is held for the repository, `Basic` only where the client presents and honours it. -/
theorem does_held {Ends : Shared ι → List (Event ι) → Except RegistryError (Option Held) → Prop}
    (hregistry : asked.scope = .registry → Ends shared trace (.ok none))
    (hrepository : ∀ now path answer, Outlasts shared now → asked.scope = .repository path →
      (answer = some .basic → (clients asked.client).presents asked.scope = true ∧
        (clients asked.client).honoursBasic = true) →
      Ends now (trace ++ [⟨.held asked.client path ((clients asked.client).presents asked.scope),
        answer⟩]) (.ok answer)) :
    Does formats clients asked began Ends shared trace
      (held asked.client asked.scope ((clients asked.client).presents asked.scope)) := by
  unfold held
  split
  · rename_i hscope
    exact Does.pure (hregistry hscope)
  · rename_i path hscope
    apply Does.ask
    · trivial
    · intro before now answer _ hconsistent hrely _ hanswer
      refine ⟨trivial, hrepository now path answer hrely hscope fun hbasic => ?_⟩
      rw [hanswer.2] at hbasic
      exact hconsistent.tokens _ _ _ hbasic

/-- The first request of an exchange, with what is held, and what comes of it: it is over, or the
request was answered `401`. -/
theorem does_first {held : Option Held}
    {Ends : Shared ι → List (Event ι) → Except RegistryError Exchange → Prop}
    (hbegan : (clients asked.client).presents asked.scope = true → began.refused = false)
    (hheld : held = some .basic → (clients asked.client).presents asked.scope = true ∧
      (clients asked.client).honoursBasic = true ∧ BasicAsked asked trace)
    (hdone : ∀ now more result, Quiet more → Ends now (trace ++ more) result)
    (hchallenged : ∀ now hops last answered more result,
      (∀ event ∈ hops, isRedirect event = true) → answered.status = 401 →
        last.carriesCredential =
          (attemptRequest (clients asked.client) asked.call held).carriesCredential →
        Told asked more →
          Ends now (trace ++ (hops ++ ⟨.send asked.client last, .ok answered⟩ :: more)) result) :
    Does formats clients asked began Ends shared trace
      (attempt formats asked.client (clients asked.client) asked.call held >>= fun response =>
        exchangeAnswered formats asked.client (clients asked.client) asked.call asked.scope
          ((clients asked.client).presents asked.scope) response) := by
  apply Does.bind
  apply does_attempt hbegan hheld
  intro now more result _ htried
  cases htried with
  | failed hquiet => exact hdone now _ _ hquiet
  | @answered hops last answered hredirects hsame =>
      by_cases hstatus : answered.status = 401
      · apply does_exchangeAnswered hbegan (List.mem_append_right _
          (List.mem_append_right _ (List.mem_singleton.mpr rfl)))
        intro later more result _ htold
        rw [List.append_assoc, List.append_assoc, List.singleton_append]
        exact hchallenged later hops last answered more result hredirects hstatus
          (carriesCredential_congr hsame) htold
      · show Does formats clients asked began Ends now _ (exchangeAnswered _ _ _ _ _ _ _)
        unfold exchangeAnswered
        rw [if_pos hstatus]
        apply Does.pure
        refine hdone now _ _ ((quiet_of_redirects hredirects).append (quiet_send ?_))
        intro _ other heq
        cases heq
        exact hstatus

/-- Once its credential is known not to be refused, or is not presented, an exchange ends as it
should. -/
theorem does_opened {opening : List (Event ι)} (hopening : Quiet opening)
    (hbegan : (clients asked.client).presents asked.scope = true → began.refused = false) :
    Does formats clients asked began (fun _ trace _ => Ended trace) shared opening
      (held asked.client asked.scope ((clients asked.client).presents asked.scope) >>= fun held =>
        attempt formats asked.client (clients asked.client) asked.call held >>= fun response =>
          exchangeAnswered formats asked.client (clients asked.client) asked.call asked.scope
            ((clients asked.client).presents asked.scope) response) := by
  -- Without `Basic` nothing that was sent could be refused.
  have hquiet : ∀ {held : Option Held} {hops : List (Event ι)} {last : Request}
      {answered : Answered}, held ≠ some .basic → (∀ event ∈ hops, isRedirect event = true) →
      last.carriesCredential =
        (attemptRequest (clients asked.client) asked.call held).carriesCredential →
      Quiet (hops ++ [(⟨.send asked.client last, .ok answered⟩ : Event ι)]) := by
    intro held hops last answered hbasic hredirects hsame
    rw [carriesCredential_of_not_basic hbasic] at hsame
    exact (quiet_of_redirects hredirects).append
      (quiet_send fun hcarries => absurd (hsame.symm.trans hcarries) Bool.false_ne_true)
  apply Does.bind
  apply does_held
  · intro _
    have hnothing : (none : Option Held) ≠ some .basic := nofun
    apply does_first hbegan
    · nofun
    · intro now more result hmore
      exact ended_of_none (hopening.append hmore).any.1
    · intro now hops last answered more result hredirects _ hsame htold
      rw [List.append_cons hops]
      exact ended_of_told hopening ((hquiet hnothing hredirects hsame).told htold)
  · intro now path found _ hscope hbasic
    apply does_first hbegan
    · intro hfound
      obtain ⟨hpresents, hhonours⟩ := hbasic hfound
      refine ⟨hpresents, hhonours, Or.inl ⟨path, hscope, ?_⟩⟩
      rw [hpresents, hfound]
      exact List.mem_append_right _ (List.mem_singleton.mpr rfl)
    · intro later more result hmore
      apply ended_of_none
      rw [List.any_append, List.any_append, hopening.any.1, hmore.any.1]
      rfl
    · intro later hops last answered more result hredirects hstatus hsame htold
      -- `Basic` may be held from an exchange before, and a 401 to it needs no challenge.
      by_cases hfound : found = some .basic
      · subst hfound
        have hlast : isRedirect (⟨.send asked.client last, .ok answered⟩ : Event ι) = false := by
          show isRedirectStatus answered.status = false
          rw [hstatus]
          rfl
        rw [List.append_assoc]
        exact ended_of_held hopening rfl hredirects hlast rfl (by rw [hscope]; nofun) htold
      · have hheld : Quiet [(⟨.held asked.client path
            ((clients asked.client).presents asked.scope), found⟩ : Event ι)] := by
          intro event hmem
          rw [List.mem_singleton.mp hmem]
          refine ⟨rfl, rfl, ?_⟩
          cases found with
          | none => rfl
          | some found =>
              cases found with
              | bearer token => rfl
              | basic => exact absurd rfl hfound
        rw [List.append_cons hops]
        exact ended_of_told (hopening.append hheld)
          ((hquiet hfound hredirects hsame).told htold)

/-- Every exchange meets its specification. -/
theorem meets_spec (formats : Formats) (clients : ι → OciRegistry) :
    (spec formats clients).Meets world fun asked =>
      (exchange formats asked.client (clients asked.client) asked.call asked.scope).run := by
  intro asked began hbegan
  show Does formats clients asked began (fun _ trace _ => Ended trace) began []
    (exchange formats asked.client (clients asked.client) asked.call asked.scope)
  unfold exchange
  dsimp only
  apply Does.bind
  -- The mark is read only where the credential would be presented.
  split
  · rename_i hpresents
    apply Does.bind
    apply Does.ask
    · trivial
    · intro before now answer hbefore _ _ _ hanswer
      obtain ⟨rfl, hlook⟩ := hanswer
      refine ⟨hpresents, ?_⟩
      have hquiet : Quiet [(⟨.loadRefused, answer⟩ : Event ι)] := by
        intro event hmem
        rw [List.mem_singleton.mp hmem]
        exact ⟨rfl, rfl, rfl⟩
      dsimp only
      cases hanswer : answer with
      | true =>
          apply Does.throw
          rw [hanswer] at hquiet
          have hended := ended_of_told hquiet (Told.nil : Told asked [])
          rwa [List.append_nil] at hended
      | false =>
          rw [hanswer] at hquiet hlook
          apply Does.pure
          apply does_opened hquiet
          intro _
          cases hrefused : began.refused with
          | false => rfl
          | true => exact absurd (hbefore.refused hrefused) (by simp [← hlook])
  · rename_i hpresents
    apply Does.pure
    exact does_opened Quiet.nil fun h => absurd h hpresents

end Registry
end SaasFabric
