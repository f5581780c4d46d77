import SaasFabric.Kubernetes.Succession

/-!
# Publishers that overlap

Any number of publishers read, confirm and write the objects of one namespace, each request when
it comes.  Whatever their order, a version that is written follows the one it replaces, and a
publisher that writes has read every document it leaves unchanged a second time, unless it
changes nothing but the registry.
-/

namespace SaasFabric
namespace Kubernetes

open Library
open Publication

/-- What a publisher is asked to publish, and where. -/
structure Call where
  namespaceName : String
  snapshot : RuntimeSnapshot

/-- Publishers over the objects of a namespace. -/
def publishers (codecs : Codecs) : Interleaved Cluster
    (Process.Session Cluster Call Effect.Answer (Except PublicationError PublicationReport)) :=
  Process.sessions world fun call => (publish codecs call.namespaceName call.snapshot).run

/-! ## What is read off a trace -/

def isGet : Exchanged → Bool
  | ⟨.get _, _⟩ => true
  | _ => false

def isWrite : Exchanged → Bool
  | ⟨.write .., _⟩ => true
  | _ => false

variable (codecs : Codecs)

/-- The three reads a publication is planned from. -/
def Planning (reads : Reads) (trace : List Exchanged) : Prop :=
  ∃ tenants dataSources catalog,
    trace = [⟨.get .tenants, .ok tenants⟩, ⟨.get .dataSources, .ok dataSources⟩,
      ⟨.get .catalog, .ok catalog⟩] ∧
    readFound codecs tenants .tenants = .ok reads.tenants ∧
    readFound codecs dataSources .dataSources = .ok reads.dataSources ∧
    readFound codecs catalog .catalog = .ok reads.catalog

/-- A document was read, at the version it was planned from. -/
def ReadAgain (reads : Reads) (document : DocumentKind) (trace : List Exchanged) : Prop :=
  ∃ found read, (⟨.get document, .ok found⟩ : Exchanged) ∈ trace ∧
    readFound codecs found document = .ok read ∧
      read.resourceVersion = (reads.of document).resourceVersion

/-- Every document that a plan leaves unchanged was read at the version it was planned from. -/
def Confirmed (plan : PublicationPlan) (reads : Reads) (trace : List Exchanged) : Prop :=
  ∀ document, (plan.document document).outcome = .unchanged → ReadAgain codecs reads document trace

/-- The plan changes the registry, and nothing else. -/
def RegistryOnly (plan : PublicationPlan) : Prop :=
  LeavesDocuments plan ∧ registryWritten plan = true

/-- What came before a write: the reads that were planned from, those that confirmed it, and
writes. -/
structure WritesAfter (call : Call) (before : List Exchanged) (document : DocumentKind)
    (reads : Reads) (plan : PublicationPlan) (planning confirming writing : List Exchanged) :
    Prop where
  split : before = planning ++ (confirming ++ writing)
  fetched : Planning codecs reads planning
  planned : planPublication codecs call.snapshot reads.held = .ok plan
  written : (objectOf plan reads document).plan.outcome = .written
  gets : ∀ event ∈ confirming, isGet event = true
  writes : ∀ event ∈ writing, isWrite event = true
  confirmed : if LeavesDocuments plan then confirming = [] else
    Confirmed codecs plan reads confirming

/-! ## The contract -/

/-- A version is named once, and follows the one before it. -/
structure Kept (cluster : Cluster) : Prop where
  versions : ∀ document, ((cluster document).versions.map Stored.resourceVersion).Nodup
  chained : ∀ document,
    Chained codecs document (cluster document).first (cluster document).written

/-- No version is lost. -/
structure Grows (before after : Cluster) : Prop where
  first : ∀ document, (after document).first = (before document).first
  written : ∀ document, (before document).written <+: (after document).written

def contract : Process.Contract Cluster where
  Inv := Kept codecs
  Rely := Grows
  refl _ := ⟨fun _ => rfl, fun _ => List.prefix_rfl⟩
  trans h h' := ⟨fun document => (h'.first document).trans (h.first document),
    fun document => (h.written document).trans (h'.written document)⟩

/-- What a publisher does, request by request. -/
def Seen (call : Call) (before : List Exchanged) : Exchanged → Prop
  | ⟨.write document _, _⟩ => ∃ reads plan planning confirming writing,
      WritesAfter codecs call before document reads plan planning confirming writing
  | _ => True

/-- The specification of a publisher. -/
def spec : Process.Spec Cluster Call Effect.Answer
    (Except PublicationError PublicationReport) where
  contract := contract codecs
  Seen call _ _ before event := Seen codecs call before event
  Ends _ _ _ _ _ := True
  seen_stable _ h := h
  ends_stable _ h := h

variable {codecs}

theorem Grows.mem_versions {before after : Cluster} (h : Grows before after)
    {document : DocumentKind} {stored : Stored} (hmem : stored ∈ (before document).versions) :
    stored ∈ (after document).versions := by
  unfold History.versions at hmem ⊢
  rw [h.first document]
  rcases List.mem_append.mp hmem with hfirst | hwritten
  · exact List.mem_append_left _ hfirst
  · exact List.mem_append_right _ ((h.written document).subset hwritten)

theorem current_mem_versions {history : History} {stored : Stored}
    (h : history.current = some stored) : stored ∈ history.versions := by
  unfold History.current at h
  unfold History.versions
  cases hlast : history.written.getLast? with
  | none =>
      rw [hlast, Option.none_or] at h
      rw [h]
      exact List.mem_append_left _ (List.mem_singleton_self _)
  | some last =>
      rw [hlast] at h
      cases h
      exact List.mem_append_right _ (List.mem_of_getLast? hlast)

/-- Of an object that has the version that was read, nothing else was read. -/
theorem Kept.eq_current {cluster : Cluster} (h : Kept codecs cluster) {document : DocumentKind}
    {known : Option Stored} (hknown : ∀ stored, known = some stored →
      stored ∈ (cluster document).versions)
    (hversion : (cluster document).current.map Stored.resourceVersion =
      known.map Stored.resourceVersion) : (cluster document).current = known := by
  cases hcurrent : (cluster document).current with
  | none =>
      rw [hcurrent] at hversion
      exact (Option.map_eq_none_iff.mp hversion.symm).symm
  | some current =>
      rw [hcurrent] at hversion
      obtain ⟨stored, rfl, hsame⟩ := Option.map_eq_some_iff.mp hversion.symm
      rw [List.inj_on_of_nodup_map (h.versions document) (hknown stored rfl)
        (current_mem_versions hcurrent) hsame]

/-- A version of its own, that follows the one an object is at, is kept. -/
theorem Kept.append {cluster : Cluster} (h : Kept codecs cluster) {document : DocumentKind}
    {stored : Stored}
    (hfresh : stored.resourceVersion ∉ (cluster document).versions.map Stored.resourceVersion)
    (hreplaces : Replaces codecs document (cluster document).current stored) :
    Kept codecs (cluster.append document stored) ∧ Grows cluster (cluster.append document stored) := by
  have hsame : ∀ other, other ≠ document → cluster.append document stored other = cluster other :=
    fun other hne => if_neg hne
  have hown : cluster.append document stored document = (cluster document).append stored :=
    if_pos rfl
  refine ⟨⟨fun other => ?_, fun other => ?_⟩, ⟨fun other => ?_, fun other => ?_⟩⟩
  · by_cases hother : other = document
    · subst hother
      rw [hown]
      show (((cluster other).first.toList ++ ((cluster other).written ++ [stored])).map _).Nodup
      rw [← List.append_assoc, List.map_append, List.nodup_append]
      refine ⟨h.versions other, List.nodup_singleton _, ?_⟩
      intro version hversion last hlast
      rw [List.mem_singleton.mp hlast]
      rintro rfl
      exact hfresh hversion
    · rw [hsame other hother]
      exact h.versions other
  · by_cases hother : other = document
    · subst hother
      rw [hown]
      exact chained_append_singleton.mpr ⟨h.chained other, hreplaces⟩
    · rw [hsame other hother]
      exact h.chained other
  · by_cases hother : other = document
    · subst hother
      rw [hown]
      rfl
    · rw [hsame other hother]
  · by_cases hother : other = document
    · subst hother
      rw [hown]
      exact List.prefix_append _ _
    · rw [hsame other hother]

/-! ## What a publisher comes to -/

section Publisher

variable {call : Call} {shared : Cluster} {trace : List Exchanged} {α β : Type}

/-- Wherever a publisher gets without an error is as it should be. -/
def Reaches (codecs : Codecs) (call : Call) (Then : Cluster → List Exchanged → α → Prop)
    (shared : Cluster) (trace : List Exchanged) (pass : Pass α) : Prop :=
  Process.Follows world (contract codecs) (fun _ => Seen codecs call)
    (fun shared trace result => ∀ value, result = .ok value → Then shared trace value)
    shared trace pass.run

theorem Reaches.bind {Then : Cluster → List Exchanged → β → Prop} {pass : Pass α}
    {rest : α → Pass β}
    (h : Reaches codecs call (fun shared trace value =>
      Reaches codecs call Then shared trace (rest value)) shared trace pass) :
    Reaches codecs call Then shared trace (pass >>= rest) := by
  apply Process.Follows.bindExcept
  apply h.mono
  intro shared trace result hresult
  cases result with
  | ok value => exact hresult value rfl
  | error error => exact fun value hvalue => nomatch hvalue

theorem Reaches.pure {Then : Cluster → List Exchanged → α → Prop} {value : α}
    (h : Then shared trace value) : Reaches codecs call Then shared trace (pure value) := by
  intro other hother
  cases hother
  exact h

theorem Reaches.settle {Then : Cluster → List Exchanged → α → Prop}
    {result : Except PublicationError α} (h : ∀ value, result = .ok value → Then shared trace value) :
    Reaches codecs call Then shared trace (Kubernetes.settle result) := h

theorem Reaches.throw {Then : Cluster → List Exchanged → α → Prop} {error : PublicationError} :
    Reaches codecs call Then shared trace (throw error) :=
  fun _ hvalue => nomatch hvalue

theorem Reaches.forM {κ : Type} {body : κ → Pass Unit} {Then : Cluster → List Exchanged → Unit → Prop}
    {Holds : List κ → Cluster → List Exchanged → Prop}
    (hstep : ∀ item rest shared trace, Holds (item :: rest) shared trace →
      Reaches codecs call (fun shared trace _ => Holds rest shared trace) shared trace (body item))
    (hdone : ∀ shared trace, Holds [] shared trace → Then shared trace ()) {items : List κ}
    (hstart : Holds items shared trace) :
    Reaches codecs call Then shared trace (items.forM body) := by
  refine Process.Follows.forM ?_ ?_ items shared trace hstart
  · intro item rest shared trace hholds
    apply (hstep item rest shared trace hholds).mono
    intro shared trace result hresult
    cases result with
    | ok value => exact hresult value rfl
    | error error => exact fun value hvalue => nomatch hvalue
  · intro shared trace hholds value hvalue
    cases hvalue
    exact hdone shared trace hholds

/-- A read finds what the object is at, or nothing is reached. -/
theorem reaches_readOne {document : DocumentKind} {Then : Cluster → List Exchanged → Read → Prop}
    (h : ∀ next found read, Grows shared next →
      readStored codecs document (next document).current = .ok read →
        readFound codecs found document = .ok read →
          Then next (trace ++ [⟨.get document, .ok found⟩]) read) :
    Reaches codecs call Then shared trace (readOne codecs document) := by
  apply Reaches.bind
  intro before hrely hinv after answer hanswer
  obtain ⟨rfl, hanswer⟩ := hanswer
  refine ⟨hinv, (contract codecs).refl _, trivial, ?_⟩
  rcases hanswer with ⟨error, rfl⟩ | ⟨found, rfl, hfinds⟩
  · exact fun value hvalue => nomatch hvalue
  · intro value hvalue
    cases hvalue
    apply Reaches.settle
    intro read hread
    exact h after found read hrely ((readFound_of_finds hfinds).symm.trans hread) hread

/-- What was read of a document is what one of its versions is read as, or that it was absent. -/
def Known (codecs : Codecs) (cluster : Cluster) (document : DocumentKind) (read : Read) : Prop :=
  ∃ known, readStored codecs document known = .ok read ∧
    ∀ stored, known = some stored → stored ∈ (cluster document).versions

theorem Known.grows {before after : Cluster} {document : DocumentKind} {read : Read}
    (hgrows : Grows before after) (h : Known codecs before document read) :
    Known codecs after document read := by
  obtain ⟨known, hread, hmem⟩ := h
  exact ⟨known, hread, fun stored hstored => hgrows.mem_versions (hmem stored hstored)⟩

theorem known_current {cluster : Cluster} {document : DocumentKind} {read : Read}
    (h : readStored codecs document (cluster document).current = .ok read) :
    Known codecs cluster document read :=
  ⟨(cluster document).current, h, fun _ hstored => current_mem_versions hstored⟩

/-- Everything that was read is known. -/
def KnownAll (codecs : Codecs) (cluster : Cluster) (reads : Reads) : Prop :=
  ∀ document, Known codecs cluster document (reads.of document)

theorem KnownAll.grows {before after : Cluster} {reads : Reads} (hgrows : Grows before after)
    (h : KnownAll codecs before reads) : KnownAll codecs after reads :=
  fun document => (h document).grows hgrows

/-- A publication is planned from three reads of what is there. -/
theorem reaches_fetch {Then : Cluster → List Exchanged → Reads → Prop}
    (h : ∀ next planning reads, KnownAll codecs next reads → Planning codecs reads planning →
      Then next planning reads) :
    Reaches codecs call Then shared [] (fetch codecs) := by
  apply Reaches.bind
  apply reaches_readOne
  intro first tenants readTenants _ htenants hfoundTenants
  apply Reaches.bind
  apply reaches_readOne
  intro second dataSources readDataSources hsecond hdataSources hfoundDataSources
  apply Reaches.bind
  apply reaches_readOne
  intro third catalog readCatalog hthird hcatalog hfoundCatalog
  apply Reaches.pure
  apply h
  · intro document
    cases document with
    | tenants => exact ((known_current htenants).grows hsecond).grows hthird
    | dataSources => exact (known_current hdataSources).grows hthird
    | catalog => exact known_current hcatalog
  · exact ⟨tenants, dataSources, catalog, rfl, hfoundTenants, hfoundDataSources, hfoundCatalog⟩

section Planned

variable {plan : PublicationPlan} {reads : Reads}

theorem ReadAgain.append {document : DocumentKind} {confirming later : List Exchanged}
    (h : ReadAgain codecs reads document confirming) :
    ReadAgain codecs reads document (confirming ++ later) := by
  obtain ⟨found, read, hmem, hread, hversion⟩ := h
  exact ⟨found, read, List.mem_append_left _ hmem, hread, hversion⟩

theorem mem_reliedOn {entry : DocumentKind × DocumentOutcome × Read} :
    entry ∈ reliedOn plan reads ↔
      entry = (entry.1, (plan.document entry.1).outcome, reads.of entry.1) := by
  obtain ⟨document, outcome, read⟩ := entry
  unfold reliedOn
  cases document <;>
    simp [PublicationPlan.document, Reads.of]

/-- A document that has not moved was read again. -/
theorem reaches_confirmUnmoved {document : DocumentKind}
    {Then : Cluster → List Exchanged → Unit → Prop}
    (h : ∀ next found, Grows shared next →
      ReadAgain codecs reads document [⟨.get document, .ok found⟩] →
        Then next (trace ++ [⟨.get document, .ok found⟩]) ()) :
    Reaches codecs call Then shared trace
      (confirmUnmoved codecs document (reads.of document)) := by
  apply Reaches.bind
  apply reaches_readOne
  intro next found now hgrows _ hfound
  split
  · rename_i hversion
    apply Reaches.pure
    exact h next found hgrows ⟨found, now, List.mem_singleton_self _, hfound, hversion⟩
  · exact Reaches.throw

/-- Unless nothing but the registry is written, every document that stays is read again. -/
theorem reaches_confirm (hknown : KnownAll codecs shared reads)
    {Then : Cluster → List Exchanged → Unit → Prop}
    (h : ∀ next confirming, KnownAll codecs next reads → (∀ event ∈ confirming, isGet event = true) →
      (if LeavesDocuments plan then confirming = [] else Confirmed codecs plan reads confirming) →
        Then next (trace ++ confirming) ()) :
    Reaches codecs call Then shared trace (confirmReadOnlyUnmoved codecs plan reads) := by
  unfold confirmReadOnlyUnmoved
  split
  · rename_i hleaves
    apply Reaches.pure
    have hnothing := h shared [] hknown (fun event hmem => absurd hmem List.not_mem_nil)
      (by rw [if_pos hleaves])
    rwa [List.append_nil] at hnothing
  · rename_i hleaves
    -- The invariant of the loop: what was gone through and stays has been read again.
    let Holds (rest : List (DocumentKind × DocumentOutcome × Read)) (next : Cluster)
        (now : List Exchanged) : Prop :=
      KnownAll codecs next reads ∧ ∃ confirming, now = trace ++ confirming ∧
        (∀ event ∈ confirming, isGet event = true) ∧
          ∃ done, reliedOn plan reads = done ++ rest ∧ ∀ entry ∈ done,
            entry.2.1 = .unchanged → ReadAgain codecs reads entry.1 confirming
    have hstart : Holds (reliedOn plan reads) shared trace :=
      ⟨hknown, [], (List.append_nil _).symm, fun event hmem => absurd hmem List.not_mem_nil, [],
        rfl, fun entry hmem => absurd hmem List.not_mem_nil⟩
    refine Reaches.forM (fun entry rest next now hholds => ?_) (fun next now hholds => ?_) hstart
    · obtain ⟨hknown, confirming, rfl, hgets, done, hdone, hread⟩ := hholds
      obtain ⟨document, outcome, read⟩ := entry
      have hentry := mem_reliedOn.mp (show (document, outcome, read) ∈ reliedOn plan reads by
        rw [hdone]
        exact List.mem_append_right _ List.mem_cons_self)
      have hsplit : reliedOn plan reads = (done ++ [(document, outcome, read)]) ++ rest := by
        rw [hdone, List.append_assoc]
        rfl
      dsimp only
      split
      · rename_i hunchanged
        simp only [Prod.mk.injEq, true_and] at hentry
        obtain ⟨rfl, rfl⟩ := hentry
        apply reaches_confirmUnmoved
        intro next found hgrows hagain
        refine ⟨hknown.grows hgrows, confirming ++ [⟨.get document, .ok found⟩],
          List.append_assoc _ _ _, fun event hmem => ?_, _, hsplit, fun entry hmem hstays => ?_⟩
        · rcases List.mem_append.mp hmem with hearlier | hlast
          · exact hgets event hearlier
          · rw [List.mem_singleton.mp hlast]
            rfl
        · rcases List.mem_append.mp hmem with hearlier | hlast
          · exact (hread entry hearlier hstays).append
          · rw [List.mem_singleton.mp hlast]
            obtain ⟨other, now, hother, hrest⟩ := hagain
            exact ⟨other, now, List.mem_append_right _ hother, hrest⟩
      · rename_i hwritten
        apply Reaches.pure
        refine ⟨hknown, confirming, rfl, hgets, _, hsplit, fun entry hmem hstays => ?_⟩
        rcases List.mem_append.mp hmem with hearlier | hlast
        · exact hread entry hearlier hstays
        · rw [List.mem_singleton.mp hlast] at hstays
          exact absurd hstays hwritten
    · obtain ⟨hknown, confirming, rfl, hgets, done, hdone, hread⟩ := hholds
      rw [List.append_nil] at hdone
      refine h next confirming hknown hgets ?_
      rw [if_neg hleaves]
      intro document hunchanged
      refine hread (document, (plan.document document).outcome, reads.of document) ?_ hunchanged
      rw [← hdone]
      exact mem_reliedOn.mpr rfl

/-- An object that is written is at the version it was read at, and what is written follows it. -/
theorem reaches_writeObject {document : DocumentKind} (hknown : KnownAll codecs shared reads)
    (hplan : planPublication codecs call.snapshot reads.held = .ok plan)
    (hseen : (objectOf plan reads document).plan.outcome = .written →
      ∃ planning confirming writing,
        WritesAfter codecs call trace document reads plan planning confirming writing)
    {Then : Cluster → List Exchanged → Unit → Prop}
    (hskipped : Then shared trace ())
    (hwritten : ∀ next event, KnownAll codecs next reads → isWrite event = true →
      Then next (trace ++ [event]) ()) :
    Reaches codecs call Then shared trace
      (writeObject codecs call.namespaceName (objectOf plan reads document)) := by
  unfold writeObject
  split
  · apply Reaches.pure
    exact hskipped
  · rename_i houtcome
    have hwrites : (objectOf plan reads document).plan.outcome = .written := by
      cases hcase : (objectOf plan reads document).plan.outcome with
      | written => rfl
      | unchanged => exact absurd hcase houtcome
    apply Reaches.bind
    apply Reaches.settle
    intro made hmade
    obtain ⟨manifest, -, hversion, -⟩ := configMap_eq_ok hmade
    rw [document_objectOf]
    intro before hrely hinv after answer hanswer
    have hbefore := hknown.grows hrely
    have hseen : Seen codecs call trace ⟨.write document made, answer⟩ :=
      ⟨reads, plan, hseen hwrites⟩
    rcases hanswer with ⟨rfl, -⟩ | ⟨hadmits, version, hfresh, rfl⟩
    · exact ⟨hinv, (contract codecs).refl _, hseen, fun value _ => hwritten after _ hbefore rfl⟩
    · -- What is there is what was read, and the plan was made of that.
      obtain ⟨known, hread, hmem⟩ := hbefore document
      have hcurrent : (before document).current = known := by
        refine hinv.eq_current hmem ?_
        rw [show (before document).current.map Stored.resourceVersion = made.metadata.resourceVersion
          from hadmits, hversion, read_objectOf]
        exact version_of_readStored hread
      have hreplaces : Replaces codecs document (before document).current ⟨version, made.data⟩ := by
        rw [hcurrent]
        exact ⟨call.snapshot, reads, plan, hread, hplan, hwrites, _, _, made, hmade, rfl⟩
      obtain ⟨hkept, hgrows⟩ := hinv.append hfresh hreplaces
      exact ⟨hkept, hgrows, hseen, fun value _ => hwritten _ _ (hbefore.grows hgrows) rfl⟩

/-- The objects of a plan are checked, confirmed and written. -/
theorem reaches_carryOut {planning : List Exchanged} (hknown : KnownAll codecs shared reads)
    (hplanning : Planning codecs reads planning)
    (hplan : planPublication codecs call.snapshot reads.held = .ok plan) :
    Reaches codecs call (fun _ _ _ => True) shared planning
      (carryOut codecs call.namespaceName plan reads) := by
  unfold carryOut
  dsimp only
  rw [objects_eq]
  apply Reaches.bind
  let Checked (_ : List Object) (next : Cluster) (now : List Exchanged) : Prop :=
    next = shared ∧ now = planning
  have hchecked : Checked [objectOf plan reads .dataSources, objectOf plan reads .catalog,
      objectOf plan reads .tenants] shared planning := ⟨rfl, rfl⟩
  refine Reaches.forM (fun object rest next now hholds => ?_) (fun next now hholds => ?_) hchecked
  · unfold checkObject
    apply Reaches.bind
    apply Reaches.settle
    intro made _
    apply Reaches.pure
    exact hholds
  · obtain ⟨rfl, rfl⟩ := hholds
    apply Reaches.bind
    apply reaches_confirm hknown
    intro confirmed confirming hknown hgets hconfirmed
    apply Reaches.bind
    let Holds (rest : List Object) (next : Cluster) (trace : List Exchanged) : Prop :=
      KnownAll codecs next reads ∧ (∀ object ∈ rest, ∃ document,
        object = objectOf plan reads document) ∧ ∃ writing, trace = now ++ (confirming ++ writing) ∧
          ∀ event ∈ writing, isWrite event = true
    have hstart : Holds [objectOf plan reads .dataSources, objectOf plan reads .catalog,
        objectOf plan reads .tenants] confirmed (now ++ confirming) := by
      refine ⟨hknown, fun object hmem => ?_, [], by rw [List.append_nil],
        fun event hmem => absurd hmem List.not_mem_nil⟩
      simp only [List.mem_cons, List.not_mem_nil, or_false] at hmem
      rcases hmem with rfl | rfl | rfl <;> exact ⟨_, rfl⟩
    refine Reaches.forM (fun object rest next trace hholds => ?_) (fun next trace _ => ?_) hstart
    · obtain ⟨hknown, hobjects, writing, rfl, hwrites⟩ := hholds
      obtain ⟨document, rfl⟩ := hobjects object List.mem_cons_self
      have hrest : ∀ object ∈ rest, ∃ document, object = objectOf plan reads document :=
        fun object hmem => hobjects object (List.mem_cons_of_mem _ hmem)
      refine reaches_writeObject hknown hplan (fun hwritten => ?_) ?_ ?_
      · exact ⟨now, confirming, writing, rfl, hplanning, hplan, hwritten, hgets, hwrites, hconfirmed⟩
      · exact ⟨hknown, hrest, writing, rfl, hwrites⟩
      · intro next event hknown hevent
        refine ⟨hknown, hrest, writing ++ [event], by simp only [List.append_assoc], ?_⟩
        intro other hmem
        rcases List.mem_append.mp hmem with hearlier | hlast
        · exact hwrites other hearlier
        · rw [List.mem_singleton.mp hlast]
          exact hevent
    · apply Reaches.pure
      trivial

end Planned

/-- Every publisher meets its specification. -/
theorem meets_spec : (spec codecs).Meets world fun call =>
    (publish codecs call.namespaceName call.snapshot).run := by
  intro call began hbegan
  suffices hreaches : Reaches codecs call (fun _ _ _ => True) began []
      (publish codecs call.namespaceName call.snapshot) from
    hreaches.mono fun _ _ _ _ => trivial
  unfold publish
  apply Reaches.bind
  apply reaches_fetch
  intro next planning reads hknown hplanning
  apply Reaches.bind
  apply Reaches.settle
  intro plan hplan
  exact reaches_carryOut hknown hplanning hplan

end Publisher

end Kubernetes
end SaasFabric
