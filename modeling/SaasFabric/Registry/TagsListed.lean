import SaasFabric.Registry.LinkSyntax
import SaasFabric.Registry.Tags

/-!
# What a tag listing asks and finds

A registry's pages are chained by their `Link` lines as the grammar reads them.  A listing asks
within its origin and never for more than its bound of pages; what it lists is everything along
that chain, as long as the lines are read as they are written.
-/

namespace SaasFabric
namespace Registry
namespace Tags

open Library
open Platform (RegistryError)

/-! ## The chain of pages -/

/-- The lines of a page are grammatical, as they are taken to be written. -/
structure PageWritten (written : List (Option String) → List LinksSyntax)
    (links : List (Option String)) : Prop where
  text : links = (written links).map fun line => some (String.ofList line.text)
  grammatical : ∀ line ∈ written links, line.Grammatical

/-- Of several lines the first names the next page if any does, and is read as it is written. -/
structure LinesRead (lines : List LinksSyntax) : Prop where
  first : ∀ line ∈ lines.head?, ReadAsWritten line.links
  only : (∀ line ∈ lines.head?, nextOf line.links = none) →
    nextOf (lines.flatMap LinksSyntax.links) = none

/-- The target a page's lines name next. -/
def nextOfPage (written : List (Option String) → List LinksSyntax) (page : Page) :
    Option (List Char) :=
  nextOf ((written page.links).flatMap LinksSyntax.links)

/-- The tags on a page, which are read of a success only. -/
def pageTags (registry : Served) (page : Page) : Option (List String) :=
  if page.response.isSuccess then
    match page.response.boundedBody TAG_PAGE OPERATION with
    | .error _ => none
    | .ok body => (registry.tagList body).map fun tags => tags.getD []
  else none

/-- From what happened so far, the tags of a page and of every page after it, down to one that
names none. -/
inductive Complete (far : Far) (registry : Served)
    (written : List (Option String) → List LinksSyntax) :
    List Event → String → List String → Prop where
  | last {before after : List Event} {url : String} {page : Page} {tags : List String}
      (got : (getPage far registry url).runFrom before = (.ok page, after))
      (named : nextOfPage written page = none) (read : pageTags registry page = some tags) :
      Complete far registry written before url tags
  | more {before after : List Event} {url : String} {page : Page} {tags later : List String}
      {target : List Char} {next : Url}
      (got : (getPage far registry url).runFrom before = (.ok page, after))
      (named : nextOfPage written page = some target)
      (joined : registry.format.join page.url (String.ofList target) = some next)
      (read : pageTags registry page = some tags)
      (rest : Complete far registry written after
        (registry.format.text { next with fragment := none }) later) :
      Complete far registry written before url (tags ++ later)

/-- There is one such list of tags. -/
theorem Complete.unique {far : Far} {registry : Served}
    {written : List (Option String) → List LinksSyntax} {before : List Event} {url : String}
    {tags other : List String} (h : Complete far registry written before url tags)
    (h' : Complete far registry written before url other) : other = tags := by
  induction h generalizing other with
  | last got named read =>
      cases h' with
      | last got' named' read' =>
          cases got.symm.trans got'
          exact Option.some.inj (read'.symm.trans read)
      | more got' named' joined' read' rest' =>
          cases got.symm.trans got'
          exact absurd (named.symm.trans named') nofun
  | more got named joined read rest ih =>
      cases h' with
      | last got' named' read' =>
          cases got.symm.trans got'
          exact absurd (named'.symm.trans named) nofun
      | more got' named' joined' read' rest' =>
          cases got.symm.trans got'
          cases named.symm.trans named'
          cases joined.symm.trans joined'
          cases read.symm.trans read'
          rw [ih rest']

theorem nextOf_append (links others : List LinkSyntax) :
    nextOf (links ++ others) = (nextOf links).or (nextOf others) := by
  unfold nextOf
  rw [List.find?_append]
  cases links.find? LinkSyntax.namesNext <;> rfl

/-- Where its lines are read as they are written, a page's next one is the one they name. -/
theorem nextPage_eq {written : List (Option String) → List LinksSyntax} {page : Page}
    (hwritten : PageWritten written page.links) (hread : LinesRead (written page.links))
    (format : UrlFormat) (origin : Url) :
    nextPage format origin OPERATION page =
      match nextOfPage written page with
      | none => .ok none
      | some target => (follow format origin OPERATION page (String.ofList target)).map some := by
  have htext := hwritten.text
  have hgrammatical := hwritten.grammatical
  unfold nextOfPage nextPage
  generalize written page.links = lines at hread htext hgrammatical
  rw [htext]
  cases lines with
  | nil => rfl
  | cons line lines =>
      have htarget := nextTarget_text (hgrammatical line List.mem_cons_self)
      rw [findSome_read (hread.first line rfl)] at htarget
      rw [List.map_cons]
      dsimp only
      rw [htarget]
      cases hnext : nextOf line.links with
      | none =>
          have hnone := hread.only fun first hfirst => by
            cases hfirst
            exact hnext
          rw [hnone]
          rfl
      | some target =>
          rw [List.flatMap_cons, nextOf_append, hnext]
          rfl

theorem nextOfPage_of_none {written : List (Option String) → List LinksSyntax} {page : Page}
    (hwritten : PageWritten written page.links) (hread : LinesRead (written page.links))
    {format : UrlFormat} {origin : Url} (h : nextPage format origin OPERATION page = .ok none) :
    nextOfPage written page = none := by
  rw [nextPage_eq hwritten hread] at h
  cases hnamed : nextOfPage written page with
  | none => rfl
  | some target =>
      rw [hnamed] at h
      cases hfollow : follow format origin OPERATION page (String.ofList target) <;>
        simp [hfollow, Except.map] at h

theorem nextOfPage_of_some {written : List (Option String) → List LinksSyntax} {page : Page}
    (hwritten : PageWritten written page.links) (hread : LinesRead (written page.links))
    {format : UrlFormat} {origin : Url} {next : String}
    (h : nextPage format origin OPERATION page = .ok (some next)) :
    ∃ target url, nextOfPage written page = some target ∧
      format.join page.url (String.ofList target) = some url ∧
        next = format.text { url with fragment := none } := by
  rw [nextPage_eq hwritten hread] at h
  cases hnamed : nextOfPage written page with
  | none => simp [hnamed] at h
  | some target =>
      rw [hnamed] at h
      cases hfollow : follow format origin OPERATION page (String.ofList target) with
      | error error => simp [hfollow, Except.map] at h
      | ok followed =>
          simp only [hfollow, Except.map, Except.ok.injEq, Option.some.injEq] at h
          obtain ⟨url, hjoin, -, -, -, hnext⟩ := follow_eq_ok _ _ _ hfollow
          exact ⟨target, url, rfl, hjoin, h ▸ hnext⟩

/-! ## What is asked -/

/-- What the `url` crate promises: a text that goes on after the base with a slash stays on the
origin, a URL is read back from its text, and a fragment has no part in an origin. -/
structure Lawful (registry : Served) : Prop where
  staysOnOrigin : ∀ rest url, registry.format.parse (registry.baseUrl ++ "/" ++ rest) = some url →
    sameOrigin registry.format url registry.origin = true
  roundTrips : ∀ base target url, registry.format.join base target = some url →
    registry.format.parse (registry.format.text { url with fragment := none }) =
      some { url with fragment := none }
  fragmentFree : ∀ url : Url, registry.format.portOrKnownDefault { url with fragment := none } =
    registry.format.portOrKnownDefault url

theorem Lawful.sameOrigin_fragment {registry : Served} (h : Lawful registry) {url other : Url}
    (hsame : sameOrigin registry.format url other = true) :
    sameOrigin registry.format { url with fragment := none } other = true := by
  rw [sameOrigin_iff] at hsame ⊢
  exact ⟨hsame.1, hsame.2.1, (h.fragmentFree url).trans hsame.2.2⟩

/-- Whether a page was asked for. -/
def Event.isPage : Event → Bool
  | .page _ => true
  | .request _ _ => false

/-- A page is the first one, or one a link may name: on the origin and without a credential.  A
request goes to the origin. -/
def Event.OnOrigin (registry : Served) (first : String) : Event → Prop
  | .page url => url = first ∨ ∃ next : Url,
      url = registry.format.text { next with fragment := none } ∧
        sameOrigin registry.format next registry.origin = true ∧
        next.username = "" ∧ next.password = none
  | .request url _ => sameOrigin registry.format url registry.origin = true

/-- Only requests, and all of them to the origin. -/
def Requests (registry : Served) (events : List Event) : Prop :=
  ∀ event ∈ events, ∃ url reply, event = .request url reply ∧
    sameOrigin registry.format url registry.origin = true

section Specs

variable {far : Far} {registry : Served} {before : List Event}

theorem Requests.append {first second : List Event} (hfirst : Requests registry first)
    (hsecond : Requests registry second) : Requests registry (first ++ second) := by
  intro event hevent
  rcases List.mem_append.mp hevent with h | h
  · exact hfirst event h
  · exact hsecond event h

/-- What happened goes on with requests to the origin, one of which brought the page. -/
def Brought (registry : Served) (before : List Event) (page : Page) (after : List Event) : Prop :=
  ∃ events, after = before ++ events ∧ Requests registry events ∧
    Event.request page.url (.response page.response page.links) ∈ events

/-- What happened goes on with requests to the origin. -/
def Requested (registry : Served) (before after : List Event) : Prop :=
  ∃ events, after = before ++ events ∧ Requests registry events

theorem Requested.trans {middle after : List Event} (h : Requested registry before middle)
    (h' : Requested registry middle after) : Requested registry before after := by
  obtain ⟨events, rfl, hevents⟩ := h
  obtain ⟨others, rfl, hothers⟩ := h'
  exact ⟨events ++ others, List.append_assoc _ _ _, hevents.append hothers⟩

theorem Requested.brought {middle after : List Event} {page : Page}
    (h : Requested registry before middle) (h' : Brought registry middle page after) :
    Brought registry before page after := by
  obtain ⟨events, rfl, hevents⟩ := h
  obtain ⟨others, rfl, hothers, hmem⟩ := h'
  exact ⟨events ++ others, List.append_assoc _ _ _, hevents.append hothers,
    List.mem_append_right _ hmem⟩

theorem Brought.requested {after : List Event} {page : Page}
    (h : Brought registry before page after) : Requested registry before after := by
  obtain ⟨events, hafter, hevents, -⟩ := h
  exact ⟨events, hafter, hevents⟩

theorem ends_request {url : Url} : Ends (request far url) before
    (fun reply after => after = before ++ [.request url reply])
    (fun _ _ => False) := rfl

theorem requested_single {url : Url} {reply : Reply}
    (h : sameOrigin registry.format url registry.origin = true) :
    Requested registry before (before ++ [.request url reply]) := by
  refine ⟨_, rfl, fun event hevent => ?_⟩
  rw [List.mem_singleton] at hevent
  exact ⟨url, reply, hevent, h⟩

theorem ends_sendOnce {goOn : Url → Asking Page} {previous : List Url} {url : Url}
    (hfirst : ∀ first ∈ (previous ++ [url]).head?,
      sameOrigin registry.format first registry.origin = true)
    (hurl : sameOrigin registry.format url registry.origin = true)
    (hgoOn : ∀ next middle, sameOrigin registry.format next registry.origin = true →
      Ends (goOn next) middle (fun page after => Brought registry middle page after)
        (fun _ after => Requested registry middle after)) :
    Ends (sendOnce far registry goOn previous url) before
      (fun page after => Brought registry before page after)
      (fun _ after => Requested registry before after) := by
  unfold sendOnce
  refine (ends_request.mono ?_ fun _ _ => False.elim).bind
  rintro reply after rfl
  have hrequested : Requested registry before (before ++ [.request url reply]) :=
    requested_single hurl
  cases reply with
  | failed failure => exact hrequested
  | response response links =>
      obtain ⟨events, hafter, hevents⟩ := hrequested
      cases List.append_cancel_left hafter
      exact ⟨_, rfl, hevents, List.mem_singleton_self _⟩
  | redirect next =>
      dsimp only
      split
      · exact hrequested
      · next hpolicy =>
          obtain ⟨-, -, first, hmem, hsame⟩ := apiPolicy_eq_ok hpolicy
          have hnext := sameOrigin.trans (sameOrigin.symm hsame) (hfirst first hmem)
          exact (hgoOn next _ hnext).mono (fun _ _ => hrequested.brought)
            fun _ _ => hrequested.trans

/-- A request that begins on the origin stays there through all its redirects. -/
theorem ends_send {left : Nat} {previous : List Url} {url : Url}
    (hfirst : ∀ first ∈ (previous ++ [url]).head?,
      sameOrigin registry.format first registry.origin = true)
    (hurl : sameOrigin registry.format url registry.origin = true) :
    Ends (send far registry left previous url) before
      (fun page after => Brought registry before page after)
      (fun _ after => Requested registry before after) := by
  have hnone : ∀ events : List Event, Requested registry events events := fun events =>
    ⟨[], (List.append_nil _).symm, fun _ h => absurd h List.not_mem_nil⟩
  induction left generalizing previous url before with
  | zero => exact ends_sendOnce hfirst hurl fun _ _ _ => hnone _
  | succ left ih =>
      refine ends_sendOnce hfirst hurl fun next middle hnext => ih (fun first hmem => ?_) hnext
      rw [List.append_assoc, List.head?_append] at hmem
      refine hfirst first ?_
      rw [List.head?_append]
      cases hprevious : previous.head? <;> rw [hprevious] at hmem <;> exact hmem

/-- A page is asked for within the origin where its text names a URL there. -/
def Stays (registry : Served) (url : String) : Prop :=
  ∀ parsed, registry.format.parse url = some parsed →
    sameOrigin registry.format parsed registry.origin = true

theorem ends_attempt {url : String} (h : Stays registry url) :
    Ends (attempt far registry url) before
      (fun page after => Brought registry before page after)
      (fun _ after => Requested registry before after) := by
  unfold attempt
  split
  · exact ⟨[], (List.append_nil _).symm, fun _ h => absurd h List.not_mem_nil⟩
  · next parsed hparsed =>
      refine ends_send (fun first hmem => ?_) (h parsed hparsed)
      cases hmem
      exact h parsed hparsed

/-- A page is asked for once, and all its requests go to the origin. -/
theorem ends_getPage {url : String} (h : Stays registry url) :
    Ends (getPage far registry url) before
      (fun page after => Brought registry (before ++ [.page url]) page after)
      (fun _ after => Requested registry (before ++ [.page url]) after) := by
  have hnone : Requested registry (before ++ [.page url]) (before ++ [.page url]) :=
    ⟨[], (List.append_nil _).symm, fun _ h => absurd h List.not_mem_nil⟩
  unfold getPage
  refine Ends.bind (Ends.modify ?_)
  refine Ends.bind (Ends.get ?_)
  refine Ends.bind (Ends.liftExcept (fun _ _ => ?_) fun _ _ => hnone)
  refine Ends.bind ((ends_attempt h).mono (fun page middle hbrought => ?_) fun _ _ h => h)
  split
  · exact hbrought
  · refine Ends.bind (Ends.get ?_)
    refine Ends.bind (Ends.liftExcept (fun held _ => ?_) fun _ _ => hbrought.requested)
    cases held with
    | none => exact hbrought
    | some held =>
        refine Ends.bind ((ends_attempt h).mono (fun again after hagain => ?_) fun _ _ hlast =>
          hbrought.requested.trans hlast)
        split
        · exact hbrought.requested.trans hagain.requested
        · exact hbrought.requested.brought hagain

theorem readPage_eq_ok {page : Page} {next : Option String} {tags : List String}
    (h : readPage registry page = .ok (next, tags)) :
    page.response.isSuccess = true ∧
      nextPage registry.format registry.origin OPERATION page = .ok next ∧
        pageTags registry page = some tags := by
  unfold readPage at h
  split at h
  · cases h
  · next hsuccess =>
      rw [Bool.not_eq_true', Bool.not_eq_false] at hsuccess
      split at h
      · cases h
      · next named hnext =>
          split at h
          · cases h
          · next body hbody =>
              split at h
              · cases h
              · next listed htags =>
                  cases h
                  refine ⟨hsuccess, hnext, ?_⟩
                  have hread : pageTags registry page =
                      (registry.tagList body).map fun tags => tags.getD [] := by
                    unfold pageTags
                    rw [if_pos hsuccess, hbody]
                  rw [hread, htags]
                  rfl

/-! ## What is listed -/

/-- What is asked goes on from `before`: no more than so many pages, each of them and all of its
requests as they should be. -/
structure Asked (registry : Served) (start : String) (most : Nat) (events : List Event) : Prop where
  pages : (events.filter Event.isPage).length ≤ most
  onOrigin : ∀ event ∈ events, event.OnOrigin registry start

/-- The lines of every page that was read are as they are taken to be written, and they are read
so. -/
def ReadRight (written : List (Option String) → List LinksSyntax) (events : List Event) : Prop :=
  ∀ url response links, Event.request url (.response response links) ∈ events →
    response.isSuccess = true → PageWritten written links ∧ LinesRead (written links)

theorem Requests.asked {start : String} {events : List Event} (h : Requests registry events) :
    (events.filter Event.isPage).length = 0 ∧
      ∀ event ∈ events, event.OnOrigin registry start := by
  constructor
  · rw [List.length_eq_zero_iff, List.filter_eq_nil_iff]
    intro event hevent
    obtain ⟨url, reply, rfl, -⟩ := h event hevent
    exact Bool.false_ne_true
  · intro event hevent
    obtain ⟨url, reply, rfl, hurl⟩ := h event hevent
    exact hurl

theorem asked_nil {start : String} {most : Nat} : Asked registry start most [] :=
  ⟨Nat.zero_le _, fun _ h => absurd h List.not_mem_nil⟩

/-- A page is asked for, and then what comes after it. -/
theorem asked_page {start url : String} {most : Nat} {events later : List Event}
    (hurl : (Event.page url).OnOrigin registry start) (hevents : Requests registry events)
    (hlater : Asked registry start most later) :
    Asked registry start (most + 1) (.page url :: (events ++ later)) := by
  have honOrigin : ∀ event ∈ events, event.OnOrigin registry start := hevents.asked.2
  have hcount := (@Requests.asked registry start events hevents).1
  constructor
  · have hpages := hlater.pages
    rw [List.filter_cons_of_pos rfl, List.length_cons, List.filter_append, List.length_append]
    omega
  · intro event hevent
    rcases List.mem_cons.mp hevent with rfl | hevent
    · exact hurl
    · rcases List.mem_append.mp hevent with hevent | hevent
      · exact honOrigin event hevent
      · exact hlater.onOrigin event hevent

/-- What a listing's loop asks and lists, from any page on. -/
theorem ends_listPages (hlawful : Lawful registry)
    (written : List (Option String) → List LinksSyntax) {start : String} {left : Nat} {first : Bool}
    {url : String} {found : List String} (hurl : (Event.page url).OnOrigin registry start)
    (hstays : Stays registry url) :
    Ends (listPages far registry left first url found) before
      (fun listing after => ∃ events, after = before ++ events ∧
        Asked registry start left events ∧
          ∀ list, listing = .tags list → ReadRight written events →
            ∃ tags, list = found ++ tags ∧ Complete far registry written before url tags)
      (fun _ after => ∃ events, after = before ++ events ∧ Asked registry start left events) := by
  -- On how many pages may still be asked for; each one is on the origin of the first.
  induction left generalizing first url found before with
  | zero => exact ⟨[], (List.append_nil _).symm, asked_nil⟩
  | succ left ih =>
      unfold listPages
      refine (((Ends.runs _ before).and (ends_getPage hstays)).mono (fun page middle h => ?_)
        fun error after h => ?_).bind
      · obtain ⟨hgot, events, hmiddle, hevents, hbrought⟩ := h
        have hasked : Asked registry start (left + 1) (.page url :: events) := by
          rw [← List.append_nil events]
          exact asked_page hurl hevents asked_nil
        have hafter : middle = before ++ .page url :: events := by
          rw [hmiddle, List.append_assoc]
          rfl
        split
        · exact ⟨_, hafter, hasked, nofun⟩
        · split
          · exact ⟨_, hafter, hasked, nofun⟩
          · refine Ends.bind (Ends.liftExcept (fun named hread => ?_) fun _ _ =>
              ⟨_, hafter, hasked⟩)
            obtain ⟨next, tags⟩ := named
            obtain ⟨hsuccess, hnext, htags⟩ := readPage_eq_ok hread
            -- The list is whole at a page that names none after it.
            cases next with
            | none =>
                refine ⟨_, hafter, hasked, fun list hlist hright => ?_⟩
                cases hlist
                obtain ⟨hwritten, hlines⟩ := hright _ _ _ (List.mem_cons_of_mem _ hbrought) hsuccess
                exact ⟨tags, rfl, .last hgot (nextOfPage_of_none hwritten hlines hnext) htags⟩
            | some next =>
                obtain ⟨_, _, _, -, -, hfollow⟩ := nextPage_eq_some _ _ _ hnext
                obtain ⟨parsed, hjoin, horigin, husername, hpassword, hnamed⟩ :=
                  follow_eq_ok _ _ _ hfollow
                have hstaysNext : Stays registry next := by
                  intro read hread
                  rw [hnamed, hlawful.roundTrips _ _ _ hjoin] at hread
                  cases hread
                  exact hlawful.sameOrigin_fragment horigin
                refine (ih (Or.inr ⟨parsed, hnamed, horigin, husername, hpassword⟩)
                  hstaysNext).mono (fun listing after hlisted => ?_) fun error after hfailed => ?_
                · obtain ⟨later, rfl, hlater, hcomplete⟩ := hlisted
                  refine ⟨.page url :: (events ++ later), ?_, asked_page hurl hevents hlater,
                    fun list hlist hright => ?_⟩
                  · rw [hafter, List.append_assoc]
                    rfl
                  · obtain ⟨hwritten, hlines⟩ := hright _ _ _
                      (List.mem_cons_of_mem _ (List.mem_append_left _ hbrought)) hsuccess
                    obtain ⟨rest, rfl, hrest⟩ := hcomplete list hlist fun url response links hmem =>
                      hright url response links
                        (List.mem_cons_of_mem _ (List.mem_append_right _ hmem))
                    obtain ⟨target, joined, htarget, hjoined, hnext⟩ :=
                      nextOfPage_of_some hwritten hlines hnext
                    rw [hnext] at hrest
                    exact ⟨tags ++ rest, List.append_assoc _ _ _,
                      .more hgot htarget hjoined htags hrest⟩
                · obtain ⟨later, rfl, hlater⟩ := hfailed
                  refine ⟨.page url :: (events ++ later), ?_, asked_page hurl hevents hlater⟩
                  rw [hafter, List.append_assoc]
                  rfl
      · obtain ⟨-, events, hafter, hevents⟩ := h
        refine ⟨.page url :: events, ?_, ?_⟩
        · rw [hafter, List.append_assoc]
          rfl
        · rw [← List.append_nil events]
          exact asked_page hurl hevents asked_nil

end Specs

/-- A listing asks for at most fifty pages, each request of it goes to the origin, and a page that
a link named carries no credential.  Where the lines of the pages are read as they are written it
lists the tags of the whole chain, and a line names the target it means exactly where it is read
so, unless the target's text stands in it elsewhere. -/
theorem listing_follows_what_it_reads (far : Far) (registry : Served) (hlawful : Lawful registry)
    (written : List (Option String) → List LinksSyntax) (repository : String) :
    let start := registry.url repository ("tags/list?n=" ++ toString PAGE_SIZE)
    let run := (listing far registry repository).runFrom []
    Asked registry start MAX_PAGES run.2 ∧
      (ReadRight written run.2 → ∀ tags, run.1 = .ok (.tags tags) →
        Complete far registry written [] start tags ∧
          ∀ other, Complete far registry written [] start other → other = tags) ∧
      ∀ line : LinksSyntax, line.Grammatical →
        (ReadAsWritten line.links → nextTarget (String.ofList line.text) =
          (nextOf line.links).map String.ofList) ∧
        (NamedOnce line.links → nextTarget (String.ofList line.text) =
          (nextOf line.links).map String.ofList → ReadAsWritten line.links) := by
  intro start run
  have hstays : Stays registry start := by
    intro parsed hparsed
    refine hlawful.staysOnOrigin ("v2/" ++ withoutPrefix (registry.registryHost ++ "/") repository ++
      "/" ++ ("tags/list?n=" ++ toString PAGE_SIZE)) parsed ?_
    rw [← hparsed]
    congr 1
    show _ = registry.baseUrl ++ ("/" ++ "v2/") ++ _ ++ "/" ++ _
    simp only [String.append_assoc]
  have hends : Ends (listing far registry repository) [] _ _ :=
    ends_listPages hlawful written (Or.inl rfl) hstays
  refine ⟨?_, fun hright tags htags => ?_, fun line hline => ⟨fun hread => ?_, fun honce h => ?_⟩⟩
  · unfold Ends at hends
    change Asked registry start MAX_PAGES ((listing far registry repository).runFrom []).2
    split at hends
    · next heq =>
        obtain ⟨events, hafter, hasked, -⟩ := hends
        rw [heq, hafter]
        exact hasked
    · next heq =>
        obtain ⟨events, hafter, hasked⟩ := hends
        rw [heq, hafter]
        exact hasked
  · unfold Ends at hends
    have hrun : (listing far registry repository).runFrom [] = (.ok (.tags tags), run.2) :=
      Prod.ext htags rfl
    rw [hrun] at hends
    obtain ⟨events, hafter, -, hlist⟩ := hends
    rw [List.nil_append] at hafter
    obtain ⟨all, rfl, hcomplete⟩ := hlist tags rfl (hafter ▸ hright)
    exact ⟨hcomplete, fun other hother => hcomplete.unique hother⟩
  · rw [nextTarget_text hline, findSome_read hread]
  · rw [nextTarget_text hline] at h
    have hinj : Function.Injective (Option.map String.ofList) :=
      Option.map_injective fun _ _ => String.ofList_injective
    exact readAsWritten_of_findSome honce (hinj h)

/-! ## Two pages -/

section TwoPages

/-- A page of tags at a registry, by its query. -/
def tagsPage (query : String) : Url where
  scheme := "https"
  username := ""
  password := none
  host := some ⟨"r.example", none⟩
  origin := some ⟨"https", "r.example", 443⟩
  path := "/v2/a/tags/list"
  query := some query
  fragment := none

/-- The body of a page with one tag. -/
def tagsBody (tag : String) : List UInt8 :=
  ("\x7b\"tags\":[\"" ++ tag ++ "\"]\x7d").toUTF8.data.toList

/-- A registry of two pages, the second of them at a query of its own. -/
def twoPages (query : String) : Served where
  format :=
    { parse := fun text =>
        if text = "https://r.example/v2/a/tags/list?n=100" then some (tagsPage "n=100")
        else if text = "https://r.example/v2/a/tags/list?" ++ query then some (tagsPage query)
        else none
      join := fun _ target =>
        if target = "/v2/a/tags/list?" ++ query then some (tagsPage query) else none
      text := fun url => "https://r.example" ++ url.path ++ "?" ++ url.query.getD ""
      portOrKnownDefault := fun url => url.origin.map Origin.port }
  tagList := fun body =>
    if body = tagsBody "a" then some (some ["a"])
    else if body = tagsBody "b" then some (some ["b"])
    else none
  transport := .https
  address := ⟨.any⟩
  baseUrl := "https://r.example"
  origin := { tagsPage "" with path := "/", query := none }
  registryHost := "r.example"

/-- A line that names the second page next. -/
def nextLine (query : String) : LinksSyntax where
  links := [⟨[], ("/v2/a/tags/list?" ++ query).toList,
    [⟨[], [' '], "rel".toList, some ⟨[], [], .quoted ("next".toList.map Piece.plain)⟩⟩]⟩]
  trailing := []

theorem lawful_twoPages (query : String) : Lawful (twoPages query) := by
  have hhost : ∀ query other : String, sameOrigin (twoPages query).format (tagsPage other)
      (twoPages query).origin = true := by
    intro query other
    simp [sameOrigin, twoPages, tagsPage]
  constructor
  · intro rest url h
    change (if _ then _ else if _ then _ else _) = _ at h
    split at h
    · cases h
      exact hhost query _
    · split at h
      · cases h
        exact hhost query _
      · cases h
  · intro base target url h
    change (if _ then _ else _) = _ at h
    split at h
    · cases h
      have htext : (twoPages query).format.text { tagsPage query with fragment := none } =
          "https://r.example/v2/a/tags/list?" ++ query := rfl
      rw [htext]
      change (if _ then _ else if _ then _ else _) = _
      rw [if_pos rfl]
      split
      · next hfirst =>
          have hquery : query = "n=100" := by
            have hchars := congrArg String.toList hfirst
            rw [String.toList_append] at hchars
            exact String.ext_iff.mpr
              (@List.append_cancel_left _ "https://r.example/v2/a/tags/list?".toList _ _ hchars)
          rw [hquery]
          rfl
      · rfl
    · cases h
  · intro url
    rfl

/-- The first page has the tag `a` and the line; the second has the tag `b`. -/
def servesTwoPages (query : String) : Far where
  ready := fun _ => .ok ()
  challenge := fun _ _ => .ok none
  reply := fun _ url =>
    if url = tagsPage "n=100" then
      .response ⟨200, [], none, none, [tagsBody "a"], none⟩
        [some (String.ofList (nextLine query).text)]
    else .response ⟨200, [], none, none, [tagsBody "b"], none⟩ []

/-- What the listing of such a registry comes to. -/
def listedTwoPages (query : String) : Except RegistryError Listing × List Event :=
  (listing (servesTwoPages query) (twoPages query) "r.example/a").runFrom []

/-- What happens for the first of the pages. -/
def firstEvents (query : String) : List Event :=
  [.page "https://r.example/v2/a/tags/list?n=100",
    .request (tagsPage "n=100") (.response ⟨200, [], none, none, [tagsBody "a"], none⟩
      [some (String.ofList (nextLine query).text)])]

/-- What happens for the second. -/
def secondEvents (query : String) : List Event :=
  [.page ("https://r.example/v2/a/tags/list?" ++ query),
    .request (tagsPage query) (.response ⟨200, [], none, none, [tagsBody "b"], none⟩ [])]

/-- The lines of these pages, as they are written. -/
def linesOf (query : String) (links : List (Option String)) : List LinksSyntax :=
  if links = [] then [] else [nextLine query]

theorem nextLine_grammatical {query : String} (h : ∀ c ∈ query.toList, c ≠ '<' ∧ c ≠ '>') :
    (nextLine query).Grammatical where
  separated := nofun
  trailing := nofun
  links := by
    intro link hlink
    obtain rfl := List.mem_singleton.mp hlink
    refine ⟨nofun, fun c hc => ?_, fun parameter hparameter => ?_⟩
    · rw [String.toList_append] at hc
      rcases List.mem_append.mp hc with hc | hc
      · have hpath : ∀ c ∈ "/v2/a/tags/list?".toList, c ≠ '<' ∧ c ≠ '>' := by
          decide +kernel
        exact hpath c hc
      · exact h c hc
    · obtain rfl := List.mem_singleton.mp hparameter
      refine ⟨nofun, by decide +kernel, by decide +kernel, fun value hvalue => ?_⟩
      cases hvalue
      refine ⟨nofun, nofun, fun piece hpiece => ?_⟩
      revert piece
      decide

/-- Both pages of a registry are listed, and asked for where they are. -/
theorem both_pages_are_listed :
    (listedTwoPages "last=b").1 = .ok (.tags ["a", "b"]) ∧
      Asked (twoPages "last=b") "https://r.example/v2/a/tags/list?n=100" MAX_PAGES
        (listedTwoPages "last=b").2 ∧
      Complete (servesTwoPages "last=b") (twoPages "last=b") (linesOf "last=b") []
        "https://r.example/v2/a/tags/list?n=100" ["a", "b"] ∧
      nextTarget (String.ofList (nextLine "last=b").text) = some "/v2/a/tags/list?last=b" := by
  obtain ⟨hasked, hcomplete, hline⟩ := listing_follows_what_it_reads (servesTwoPages "last=b")
    (twoPages "last=b") (lawful_twoPages "last=b") (linesOf "last=b") "r.example/a"
  have hlisted : (listedTwoPages "last=b").1 = .ok (.tags ["a", "b"]) := by decide +kernel
  have hgrammatical : (nextLine "last=b").Grammatical := nextLine_grammatical (by decide +kernel)
  have hread : ReadAsWritten (nextLine "last=b").links := by decide +kernel
  refine ⟨hlisted, hasked, (hcomplete ?_ _ hlisted).1, (hline _ hgrammatical).1 hread⟩
  intro url response links hmem hsuccess
  have hevents : (listedTwoPages "last=b").2 = firstEvents "last=b" ++ secondEvents "last=b" := by
    decide +kernel
  have hlinks : links = [some (String.ofList (nextLine "last=b").text)] ∨ links = [] := by
    change _ ∈ (listedTwoPages "last=b").2 at hmem
    rw [hevents] at hmem
    simp only [firstEvents, secondEvents, List.cons_append, List.nil_append, List.mem_cons, List.not_mem_nil, or_false, reduceCtorEq, false_or,
      Event.request.injEq, Reply.response.injEq] at hmem
    exact hmem.imp (fun h => h.2.2) fun h => h.2.2
  rcases hlinks with rfl | rfl
  · exact ⟨⟨rfl, fun line hline => by
      obtain rfl := List.mem_singleton.mp hline
      exact hgrammatical⟩, fun line hline => by
        cases hline
        exact hread, fun hnone => absurd (hnone _ rfl) (by decide +kernel)⟩
  · exact ⟨⟨rfl, nofun⟩, nofun, fun _ => rfl⟩

/-- A comma in the target of the link: the first page is listed as if it were all. -/
theorem comma_in_a_target_ends_the_listing :
    Lawful (twoPages "last=b,c") ∧ (nextLine "last=b,c").Grammatical ∧
      (listedTwoPages "last=b,c").1 = .ok (.tags ["a"]) ∧
      Complete (servesTwoPages "last=b,c") (twoPages "last=b,c") (linesOf "last=b,c") []
        "https://r.example/v2/a/tags/list?n=100" ["a", "b"] := by
  refine ⟨lawful_twoPages _, nextLine_grammatical (by decide +kernel), by decide +kernel, ?_⟩
  have hfirst : (getPage (servesTwoPages "last=b,c") (twoPages "last=b,c")
      "https://r.example/v2/a/tags/list?n=100").runFrom [] =
        (.ok ⟨⟨200, [], none, none, [tagsBody "a"], none⟩, tagsPage "n=100",
          [some (String.ofList (nextLine "last=b,c").text)]⟩, firstEvents "last=b,c") := by
    decide +kernel
  have hsecond : (getPage (servesTwoPages "last=b,c") (twoPages "last=b,c")
      "https://r.example/v2/a/tags/list?last=b,c").runFrom (firstEvents "last=b,c") =
        (.ok ⟨⟨200, [], none, none, [tagsBody "b"], none⟩, tagsPage "last=b,c", []⟩,
          firstEvents "last=b,c" ++ secondEvents "last=b,c") := by
    decide +kernel
  have hnamed : nextOfPage (linesOf "last=b,c") ⟨⟨200, [], none, none, [tagsBody "a"], none⟩,
      tagsPage "n=100", [some (String.ofList (nextLine "last=b,c").text)]⟩ =
        some "/v2/a/tags/list?last=b,c".toList := by
    decide +kernel
  have hjoined : (twoPages "last=b,c").format.join (tagsPage "n=100")
      (String.ofList "/v2/a/tags/list?last=b,c".toList) = some (tagsPage "last=b,c") := by
    decide +kernel
  have hnext : (twoPages "last=b,c").format.text { tagsPage "last=b,c" with fragment := none } =
      "https://r.example/v2/a/tags/list?last=b,c" := by
    decide +kernel
  have hrest : Complete (servesTwoPages "last=b,c") (twoPages "last=b,c") (linesOf "last=b,c")
      (firstEvents "last=b,c")
      ((twoPages "last=b,c").format.text { tagsPage "last=b,c" with fragment := none }) ["b"] := by
    rw [hnext]
    exact .last hsecond (by decide +kernel) (by decide +kernel)
  have hread : pageTags (twoPages "last=b,c") ⟨⟨200, [], none, none, [tagsBody "a"], none⟩,
      tagsPage "n=100", [some (String.ofList (nextLine "last=b,c").text)]⟩ = some ["a"] := by
    decide +kernel
  exact .more hfirst hnamed hjoined hread hrest

end TwoPages

end Tags
end Registry
end SaasFabric
