import SaasFabric.Publication.Attempts
import SaasFabric.Publication.Replan
import SaasFabric.Publication.Sampled

/-!
# What a revision names

Over a run of attempts each list of resources is a lane: what was committed, what is held
beside it, and the history the last record carries.  A step of the publisher is a step of
the lane, so a resource's revision names one content in everything that is ever committed.
-/

namespace SaasFabric
namespace Publication

open Library (AtLeast atLeast_raiseBy)

variable {codecs : Codecs}

/-- The record of the last commit. -/
def lastRecord (log : List Commit) : Option PublicationRecord := log.getLast?.map Commit.record

@[simp] theorem lastRecord_append (log : List Commit) (commit : Commit) :
    lastRecord (log ++ [commit]) = some commit.record := by
  unfold lastRecord
  rw [List.getLast?_append]
  rfl

/-! ## A lane -/

section Tracked

variable {T : Type} {kind : IdentifierKind} (key : T → Identifier kind)
  (revision : T → BindingRevision) (docs : Commit → List T)
  (history : ResourceHistory → BTreeMap (Identifier kind) BindingRevision)

/-- The lane of one list of resources. -/
def laneOf (log : List Commit) (held : List T) : Library.Lane T (Identifier kind) BindingRevision :=
  ⟨log.map docs, held, history (recordedResources (lastRecord log))⟩

/-- What a run keeps of one list of resources: a revision names one content, and every
record carries what was committed up to it. -/
structure Tracked (log : List Commit) (held : List T) : Prop where
  identifies : (laneOf docs history log held).Identifies key revision
  carried : ∀ (first last : Nat) (earlier later : Commit), first ≤ last → log[first]? = some earlier →
    log[last]? = some later → ∀ resource ∈ docs earlier,
      AtLeast (history later.record.resources)[key resource]? (revision resource)

variable {key revision docs history} {log : List Commit} {held now offered : List T}

theorem tracked_nil : Tracked key revision docs history [] [] := by
  refine ⟨⟨?_, ?_, ?_⟩, ?_⟩
  · exact fun committed hcommitted => absurd hcommitted List.not_mem_nil
  · exact fun first committed hcommitted => nomatch hcommitted
  · exact fun first last committed others _ hcommitted => nomatch hcommitted
  · exact fun first last earlier later _ hearlier => nomatch hearlier

/-- What is offered, where the floors of the lane admit it. -/
def AdmittedBy (key : T → Identifier kind) (revision : T → BindingRevision)
    (lane : Library.Lane T (Identifier kind) BindingRevision) (offered : List T) : Prop :=
  ∀ resource ∈ offered, Library.Admitted key revision
    (Library.raiseBy key revision lane.floors lane.held)
    (heldCopy key revision (Library.raiseBy key revision lane.floors lane.held) lane.held
      resource) resource

theorem AdmittedBy.admits {lane : Library.Lane T (Identifier kind) BindingRevision}
    (h : AdmittedBy key revision lane offered) : lane.Admits key revision offered :=
  fun resource hresource =>
    ⟨_, fun _ hcopy => mem_of_heldCopy hcopy, h resource hresource⟩

/-- An offer that is written and not committed keeps the lane. -/
theorem Tracked.stage (h : Tracked key revision docs history log held)
    (hadmitted : AdmittedBy key revision (laneOf docs history log held) offered)
    (hnow : now = held ∨ ∀ resource ∈ now, resource ∈ offered) :
    Tracked key revision docs history log now := by
  rcases hnow with rfl | hnow
  · exact h
  · exact ⟨h.identifies.step (.stage offered hadmitted.admits hnow rfl rfl), h.carried⟩

/-- An offer that is committed keeps the lane. -/
theorem Tracked.commit (h : Tracked key revision docs history log held) {commit : Commit}
    (hadmitted : AdmittedBy key revision (laneOf docs history log held) (docs commit))
    (hhistory : ∀ other bound,
      AtLeast (history commit.record.resources)[other]? bound ↔
        AtLeast (Library.raiseBy key revision (laneOf docs history log held).floors held)[other]?
            bound ∨
          ∃ resource ∈ docs commit, key resource = other ∧ bound ≤ revision resource) :
    Tracked key revision docs history (log ++ [commit]) (docs commit) := by
  have hfloors : (laneOf docs history (log ++ [commit]) (docs commit)).floors =
      history commit.record.resources := by
    unfold laneOf
    rw [lastRecord_append]
    rfl
  have hcommitted : (laneOf docs history (log ++ [commit]) (docs commit)).committed =
      (laneOf docs history log held).committed ++ [docs commit] := by
    simp [laneOf]
  have hidentifies : (laneOf docs history (log ++ [commit]) (docs commit)).Identifies key
      revision := by
    refine h.identifies.step (.commit (docs commit) hadmitted.admits (fun _ hmem => hmem)
      hcommitted ?_)
    rw [hfloors]
    exact hhistory
  refine ⟨hidentifies, fun first last earlier later hle hearlier hlater resource hresource => ?_⟩
  by_cases hlast : last < log.length
  · rw [List.getElem?_append_left hlast] at hlater
    rw [List.getElem?_append_left (hle.trans_lt hlast)] at hearlier
    exact h.carried first last earlier later hle hearlier hlater resource hresource
  · -- The last record is the one just written, and it covers everything committed.
    have hindex : last = log.length := by
      have hbound := (List.getElem?_eq_some_iff.mp hlater).1
      rw [List.length_append, List.length_singleton] at hbound
      omega
    subst hindex
    rw [List.getElem?_append_right le_rfl, Nat.sub_self] at hlater
    cases hlater
    have hcovers := hidentifies.covers (docs earlier)
      (List.mem_map_of_mem (List.mem_of_getElem? hearlier)) resource hresource
    rwa [hfloors] at hcovers

/-- A revision names one content in everything that was committed, and every record carries
what was committed up to it. -/
structure NamesOneContent (key : T → Identifier kind) (revision : T → BindingRevision)
    (docs : Commit → List T)
    (history : ResourceHistory → BTreeMap (Identifier kind) BindingRevision)
    (log : List Commit) : Prop where
  ordered : ∀ (first last : Nat) (earlier later : Commit), first < last →
    log[first]? = some earlier → log[last]? = some later →
      ∀ old ∈ docs earlier, ∀ new ∈ docs later, key old = key new →
        revision old ≤ revision new ∧ (revision old = revision new → new = old ∧
          ∀ index between, first ≤ index → index < last → log[index]? = some between →
            old ∈ docs between)
  carried : ∀ (first last : Nat) (earlier later : Commit), first ≤ last →
    log[first]? = some earlier → log[last]? = some later → ∀ resource ∈ docs earlier,
      AtLeast (history later.record.resources)[key resource]? (revision resource)

/-- What a revision names among two commits. -/
theorem Tracked.continues (h : Tracked key revision docs history log held)
    (hnodup : ∀ commit ∈ log, ((docs commit).map key).Nodup) {first last : Nat}
    {earlier later : Commit} (hlt : first < last) (hearlier : log[first]? = some earlier)
    (hlater : log[last]? = some later) {old new : T} (hold : old ∈ docs earlier)
    (hnew : new ∈ docs later) (hkey : key old = key new) :
    revision old ≤ revision new ∧ (revision old = revision new → new = old ∧
      ∀ index between, first ≤ index → index < last → log[index]? = some between →
        old ∈ docs between) := by
  have hcommitted : ∀ {index : Nat} {commit : Commit}, log[index]? = some commit →
      (laneOf docs history log held).committed[index]? = some (docs commit) := by
    intro index commit hcommit
    show (log.map docs)[index]? = _
    rw [List.getElem?_map, hcommit]
    rfl
  obtain ⟨hle, hsame⟩ := h.identifies.ordered first last _ _ hlt (hcommitted hearlier)
    (hcommitted hlater) (hnodup earlier (List.mem_of_getElem? hearlier)) old hold new hnew hkey
  refine ⟨hle, fun heq => ⟨(hsame heq).1, fun index between hfirst hlast hbetween => ?_⟩⟩
  exact (hsame heq).2 index _ hfirst hlast (hcommitted hbetween)

end Tracked

/-! ## The publisher's lanes -/

/-- What a run of attempts keeps of what is held: the record is the last one committed, and
both lists of resources are tracked. -/
structure Tracks (codecs : Codecs) (held : HeldDocuments) (log : List Commit) : Prop where
  recorded : held.parseRecord codecs = .ok (lastRecord log)
  tenants : ∃ docs, parseHeldDocuments codecs.tenants held.tenants .tenants = .ok docs ∧
    Tracked TenantBindingDocument.tenant TenantBindingDocument.revision Commit.tenants
      ResourceHistory.tenants log docs
  dataSources : ∃ docs,
    parseHeldDocuments codecs.dataSources held.dataSources .dataSources = .ok docs ∧
      Tracked DataSourceDocument.id DataSourceDocument.revision Commit.dataSources
        ResourceHistory.dataSources log docs

theorem tracks_absent : Tracks codecs HeldDocuments.absent [] :=
  ⟨rfl, ⟨[], rfl, tracked_nil⟩, ⟨[], rfl, tracked_nil⟩⟩

section Step

variable {held after : HeldDocuments} {log new : List Commit} {snapshot : RuntimeSnapshot}
  {plan : PublicationPlan} {record : Option PublicationRecord} {published : PublishedResources}

/-- What a plan read is what the run tracks. -/
theorem Tracks.reads (h : Tracks codecs held log)
    (hplanned : Planned codecs snapshot held plan record published) :
    record = lastRecord log ∧
      Tracked TenantBindingDocument.tenant TenantBindingDocument.revision Commit.tenants
        ResourceHistory.tenants log published.tenants ∧
      Tracked DataSourceDocument.id DataSourceDocument.revision Commit.dataSources
        ResourceHistory.dataSources log published.dataSources := by
  obtain ⟨tenants, hparseTenants, htenants⟩ := h.tenants
  obtain ⟨dataSources, hparseDataSources, hdataSources⟩ := h.dataSources
  have hrecord := h.recorded
  rw [hplanned.reads.parsed] at hrecord
  rw [hplanned.reads.tenants] at hparseTenants
  rw [hplanned.reads.dataSources] at hparseDataSources
  cases hrecord
  cases hparseTenants
  cases hparseDataSources
  exact ⟨rfl, htenants, hdataSources⟩

/-- What a plan offers is admitted by the lanes it read. -/
theorem Planned.admitted (hplanned : Planned codecs snapshot held plan (lastRecord log) published) :
    AdmittedBy TenantBindingDocument.tenant TenantBindingDocument.revision
        (laneOf Commit.tenants ResourceHistory.tenants log published.tenants)
        (sortedBy TenantBindingDocument.tenant snapshot.tenants.payload) ∧
      AdmittedBy DataSourceDocument.id DataSourceDocument.revision
        (laneOf Commit.dataSources ResourceHistory.dataSources log published.dataSources)
        (sortedBy DataSourceDocument.id snapshot.dataSources.payload) := by
  constructor
  · intro tenant htenant
    have hadmitted := hplanned.follows.tenants tenant (mem_sortedBy.mp htenant)
    rw [hplanned.reads.history] at hadmitted
    exact hadmitted
  · intro source hsource
    have hadmitted := hplanned.follows.dataSources source (mem_sortedBy.mp hsource)
    rw [hplanned.reads.history] at hadmitted
    exact hadmitted

/-- An attempt keeps what a run tracks. -/
theorem Tracks.attempted (hlawful : codecs.Lawful) (h : Tracks codecs held log)
    (hattempted : Attempted codecs snapshot held after new) :
    Tracks codecs after (log ++ new) := by
  cases hattempted with
  | refused =>
      rw [List.append_nil]
      exact h
  | interrupted hplanned hleft =>
      obtain ⟨rfl, htenants, hdataSources⟩ := h.reads hplanned
      obtain ⟨hadmitsTenants, hadmitsDataSources⟩ := hplanned.admitted
      -- What was left of the tenants is what was held or what was planned, and both are tracked.
      obtain ⟨tenants, hparseTenants, hnowTenants⟩ := parseHeldDocuments_left hlawful.tenants
        (decideDocument_eq_ok.mp hplanned.tenants).1 hplanned.reads.tenants hleft.tenants
      obtain ⟨dataSources, hparseDataSources, hnowDataSources⟩ :=
        parseHeldDocuments_left hlawful.dataSources
          (decideDocument_eq_ok.mp hplanned.dataSources).1 hplanned.reads.dataSources
          hleft.dataSources
      rw [List.append_nil]
      refine ⟨?_, ⟨tenants, hparseTenants, htenants.stage hadmitsTenants ?_⟩,
        ⟨dataSources, hparseDataSources, hdataSources.stage hadmitsDataSources ?_⟩⟩
      · have hparsed := h.recorded
        unfold HeldDocuments.parseRecord at hparsed ⊢
        rw [hleft.record]
        exact hparsed
      · refine hnowTenants.imp_right fun hnow => ?_
        rw [hnow]
        exact fun _ hmem => hmem
      · refine hnowDataSources.imp_right fun hnow => ?_
        rw [hnow]
        exact fun _ hmem => hmem
  | @completed plan _ published hplanned =>
      obtain ⟨rfl, htenants, hdataSources⟩ := h.reads hplanned
      obtain ⟨hadmitsTenants, hadmitsDataSources⟩ := hplanned.admitted
      have hrecord := hplanned.parseRecord_carriedOut hlawful
      have hresources : plan.record.record.resources = published.history.including
          snapshot.tenants.payload snapshot.dataSources.payload := by
        obtain ⟨generation, hnew⟩ := hplanned.records.record
        rw [hnew]
        rfl
      rw [hplanned.reads.history] at hresources
      refine ⟨?_, ⟨_, parseHeldDocuments_carriedOut hlawful.tenants hplanned.tenants,
        htenants.commit hadmitsTenants fun other bound => ?_⟩,
        ⟨_, parseHeldDocuments_carriedOut hlawful.dataSources hplanned.dataSources,
          hdataSources.commit hadmitsDataSources fun other bound => ?_⟩⟩
      · rw [lastRecord_append]
        exact hrecord
      · show AtLeast plan.record.record.resources.tenants[other]? bound ↔ _
        rw [hresources]
        show AtLeast (Library.raiseBy _ _ (Library.raiseBy _ _ _ _) _)[other]? bound ↔ _
        rw [atLeast_raiseBy]
        simp only [PublicationPlan.commit, mem_sortedBy]
        rfl
      · show AtLeast plan.record.record.resources.dataSources[other]? bound ↔ _
        rw [hresources]
        show AtLeast (Library.raiseBy _ _ (Library.raiseBy _ _ _ _) _)[other]? bound ↔ _
        rw [atLeast_raiseBy]
        simp only [PublicationPlan.commit, mem_sortedBy]
        rfl

/-- What an attempt commits names each id once, where what it offers does. -/
theorem Attempted.uniqueIds (hunique : snapshot.UniqueIds)
    (hattempted : Attempted codecs snapshot held after new) : ∀ commit ∈ new,
      (commit.tenants.map TenantBindingDocument.tenant).Nodup ∧
        (commit.dataSources.map DataSourceDocument.id).Nodup := by
  intro commit hcommit
  cases hattempted with
  | refused => exact absurd hcommit List.not_mem_nil
  | interrupted => exact absurd hcommit List.not_mem_nil
  | completed =>
      rw [List.mem_singleton.mp hcommit]
      exact ⟨nodup_map_sortedBy.mpr hunique.tenants, nodup_map_sortedBy.mpr hunique.dataSources⟩

end Step

/-! ## Over a run -/

/-- Every run is tracked, whatever is offered. -/
theorem tracks_run (hlawful : codecs.Lawful) (attempts : List Attempt) :
    ∃ held, readHeld codecs ((publisher codecs).final Target.empty attempts) = .ok held ∧
      Tracks codecs held (commits ((publisher codecs).emitted Target.empty attempts)) := by
  have hmeets : (publisher codecs).Meets (OnHeld codecs fun _ _ => True) Target.empty attempts :=
    (publisher codecs).meets_of_forall (fun _ _ _ _ _ => trivial) _
  exact publisher_invariant hlawful (Tracks codecs)
    (fun _ _ _ _ _ _ htracks hattempted => htracks.attempted hlawful hattempted) tracks_absent
    hmeets

/-- Where every snapshot names each id once, so does everything committed. -/
theorem uniqueIds_run (hlawful : codecs.Lawful) {attempts : List Attempt}
    (hunique : ∀ attempt ∈ attempts, attempt.snapshot.UniqueIds) :
    ∀ commit ∈ commits ((publisher codecs).emitted Target.empty attempts),
      (commit.tenants.map TenantBindingDocument.tenant).Nodup ∧
        (commit.dataSources.map DataSourceDocument.id).Nodup := by
  have hmeets : (publisher codecs).Meets
      (OnHeld codecs fun _ snapshot => snapshot.UniqueIds) Target.empty attempts :=
    (publisher codecs).meets_of_forall (fun _ attempt hattempt _ _ => hunique attempt hattempt) _
  obtain ⟨held, -, hunique⟩ := publisher_invariant hlawful
    (fun _ log => ∀ commit ∈ log, (commit.tenants.map TenantBindingDocument.tenant).Nodup ∧
      (commit.dataSources.map DataSourceDocument.id).Nodup)
    (fun held log snapshot after new hsnapshot hlog hattempted commit hcommit =>
      (List.mem_append.mp hcommit).elim (hlog commit)
        (hattempted.uniqueIds hsnapshot commit))
    (fun commit hcommit => absurd hcommit List.not_mem_nil) hmeets
  exact hunique

/-- In every run of publications of snapshots that name each id once, the revision of a
tenant and of a DataSource names one content in everything that is committed. -/
theorem revision_names_one_content (hlawful : codecs.Lawful) {attempts : List Attempt}
    (hunique : ∀ attempt ∈ attempts, attempt.snapshot.UniqueIds) :
    NamesOneContent TenantBindingDocument.tenant TenantBindingDocument.revision Commit.tenants
        ResourceHistory.tenants (commits ((publisher codecs).emitted Target.empty attempts)) ∧
      NamesOneContent DataSourceDocument.id DataSourceDocument.revision Commit.dataSources
        ResourceHistory.dataSources
        (commits ((publisher codecs).emitted Target.empty attempts)) := by
  obtain ⟨held, -, htracks⟩ := tracks_run hlawful attempts
  obtain ⟨tenants, -, htenants⟩ := htracks.tenants
  obtain ⟨dataSources, -, hdataSources⟩ := htracks.dataSources
  have hcommits := uniqueIds_run hlawful hunique
  constructor
  · refine ⟨fun first last earlier later hlt hearlier hlater old hold new hnew hkey => ?_,
      htenants.carried⟩
    exact htenants.continues (fun commit hcommit => (hcommits commit hcommit).1) hlt hearlier
      hlater hold hnew hkey
  · refine ⟨fun first last earlier later hlt hearlier hlater old hold new hnew hkey => ?_,
      hdataSources.carried⟩
    exact hdataSources.continues (fun commit hcommit => (hcommits commit hcommit).2) hlt
      hearlier hlater hold hnew hkey

/-- One tenant, published twice. -/
theorem acme_revision_names_one_content :
    NamesOneContent TenantBindingDocument.tenant TenantBindingDocument.revision Commit.tenants
      ResourceHistory.tenants (commits ((publisher oneAcmeSamples.codecs).emitted Target.empty
        [⟨acmeSnapshot [acmeTenant], none, 8⟩, ⟨acmeSnapshot [acmeTenant], none, 8⟩])) := by
  have hunique : (acmeSnapshot [acmeTenant]).UniqueIds :=
    ⟨List.nodup_singleton _, List.nodup_singleton _⟩
  refine (revision_names_one_content oneAcmeSamples.lawful fun attempt hattempt => ?_).1
  simp only [List.mem_cons, List.not_mem_nil, or_false, or_self] at hattempt
  rw [hattempt]
  exact hunique

end Publication
end SaasFabric
