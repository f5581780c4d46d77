import SaasFabric.Runtime.Merge

/-!
# Taking a set whole

`refuses_whole` asks before a sync what the report of the sync says after it: whether
every resource offered was taken.  The two are stated apart in the source and agree on
every registry and every list.
-/

namespace SaasFabric
namespace Runtime

open RegistryResource (KIND key revision validate)

variable {T Key Facts : Type} [RegistryResource T Key Facts] {current : ResourceRegistry T}

/-- A snapshot holds exactly what is offered: each resource under its own key, one for a
key, and nothing else. -/
def Holds (snapshot : ResourceSnapshot T) (offered : List T) : Prop :=
  (offered.map (key : T → Key)).Nodup ∧
    ∀ k resource, snapshot.get k = some resource ↔ resource ∈ offered ∧ key resource = k

/-- An entry that is taken as it is offered: valid, the first of its key, and either
newer than what is held, or the same, or not held yet. -/
structure Taken (current : ResourceRegistry T) (seen : List Key) (resource : T) : Prop where
  valid : validate resource = .ok ()
  unseen : key resource ∉ seen
  follows : ∀ old, held current (key resource) = some old →
    revision old ≤ revision resource ∧ (revision resource = revision old → resource = old)

/-- One round of `refuses_whole`. -/
theorem refusesFrom_cons_eq_none {seen : List Key} {resource : T} {rest : List T} :
    refusesFrom current seen (resource :: rest) = none ↔
      Taken current seen resource ∧ refusesFrom current (key resource :: seen) rest = none := by
  rw [refusesFrom]
  cases hvalid : validate resource with
  | error error =>
      simp only [reduceCtorEq, false_iff, not_and]
      intro htaken
      rw [htaken.valid] at hvalid
      cases hvalid
  | ok =>
      dsimp only
      by_cases hseen : key resource ∈ seen
      · rw [if_pos hseen]
        simp only [reduceCtorEq, false_iff, not_and]
        exact fun htaken => absurd hseen htaken.unseen
      · rw [if_neg hseen]
        cases hheld : held current (key resource) with
        | none =>
            refine ⟨fun h => ⟨⟨hvalid, hseen, fun old hold => ?_⟩, h⟩, fun h => h.2⟩
            rw [hheld] at hold
            cases hold
        | some old =>
            dsimp only
            have htaken : Taken current seen resource ↔
                revision old ≤ revision resource ∧
                  (revision resource = revision old → resource = old) := by
              constructor
              · exact fun htaken => htaken.follows old hheld
              · intro h
                refine ⟨hvalid, hseen, fun other hother => ?_⟩
                rw [hheld] at hother
                cases hother
                exact h
            rw [htaken]
            by_cases hlt : revision resource < revision old
            · rw [if_pos hlt]
              simp only [reduceCtorEq, false_iff, not_and]
              exact fun h => absurd h.1 (not_le.mpr hlt)
            · rw [if_neg hlt]
              by_cases hsame : revision resource = revision old ∧ resource ≠ old
              · rw [if_pos hsame]
                simp only [reduceCtorEq, false_iff, not_and]
                exact fun h => absurd (h.2 hsame.1) hsame.2
              · rw [if_neg hsame]
                have hfollows : revision resource = revision old → resource = old :=
                  fun heq => not_not.mp fun hne => hsame ⟨heq, hne⟩
                exact ⟨fun h => ⟨⟨not_lt.mp hlt, hfollows⟩, h⟩, fun h => h.2⟩

/-- A set of valid resources is not refused where no key is in it twice and every one follows
what is held under its key. -/
theorem refusesFrom_eq_none {seen : List Key} {offered : List T}
    (hnodup : (offered.map (key : T → Key)).Nodup)
    (htaken : ∀ resource ∈ offered, Taken current seen resource) :
    refusesFrom current seen offered = none := by
  induction offered generalizing seen with
  | nil => rfl
  | cons first rest ih =>
      rw [List.map_cons, List.nodup_cons] at hnodup
      refine refusesFrom_cons_eq_none.mpr ⟨htaken first List.mem_cons_self, ih hnodup.2 ?_⟩
      intro resource hresource
      have hrest := htaken resource (List.mem_cons_of_mem _ hresource)
      refine ⟨hrest.valid, ?_, hrest.follows⟩
      rw [List.mem_cons, not_or]
      refine ⟨fun hsame => ?_, hrest.unseen⟩
      exact hnodup.1 (List.mem_map.mpr ⟨resource, hresource, hsame⟩)

/-! ## What accepting an entry counts -/

/-- The counters say that every resource was taken. -/
theorem tookEveryResource_iff (report : ApplyReport) :
    report.tookEveryResource = true ↔
      report.staleIgnored = 0 ∧ report.invalidRejected = 0 ∧ report.divergentPayload = 0 ∧
        report.duplicateRejected = 0 := by
  simp [ApplyReport.tookEveryResource, and_assoc]

/-- An entry that is taken is stored as it was offered, and counted as taken. -/
theorem accept_of_taken {merged : MergedSnapshot T} {incoming : T}
    (h : Taken current merged.decided incoming) :
    let accepted := merged.accept incoming (held current (key incoming))
    accepted.decided = key incoming :: merged.decided ∧
      accepted.next = merged.next.insert (key incoming) incoming ∧
      accepted.report.tookEveryResource = merged.report.tookEveryResource := by
  intro accepted
  have haccepted : accepted = { merged with decided := key incoming :: merged.decided }.againstHeld
      incoming (held current (key incoming)) := by
    show merged.accept incoming (held current (key incoming)) = _
    unfold MergedSnapshot.accept
    rw [h.valid]
    exact if_neg h.unseen
  rw [haccepted]
  cases hheld : held current (key incoming) with
  | none => exact ⟨rfl, rfl, rfl⟩
  | some old =>
      obtain ⟨hle, hsame⟩ := h.follows old hheld
      unfold MergedSnapshot.againstHeld
      dsimp only
      split
      · exact ⟨rfl, rfl, rfl⟩
      · rename_i hnot
        have heq : revision incoming = revision old := le_antisymm (not_lt.mp hnot) hle
        rw [if_neg (not_lt.mpr hle), if_pos (hsame heq), ← hsame heq]
        exact ⟨rfl, rfl, rfl⟩

/-- An entry that is not taken is counted against the sync. -/
theorem not_tookEveryResource_accept {merged : MergedSnapshot T} {incoming : T}
    (h : ¬ Taken current merged.decided incoming) :
    (merged.accept incoming (held current (key incoming))).report.tookEveryResource = false := by
  rw [Bool.eq_false_iff, Ne, tookEveryResource_iff]
  unfold MergedSnapshot.accept
  cases hvalid : validate incoming with
  | error error => simp [MergedSnapshot.rejectInvalid]
  | ok =>
      dsimp only
      by_cases hdecided : key incoming ∈ merged.decided
      · rw [if_pos hdecided]
        simp
      · rw [if_neg hdecided]
        cases hheld : held current (key incoming) with
        | none =>
            refine absurd ⟨hvalid, hdecided, fun old hold => ?_⟩ h
            rw [hheld] at hold
            cases hold
        | some old =>
            unfold MergedSnapshot.againstHeld
            dsimp only
            by_cases hnewer : revision old < revision incoming
            · refine absurd ⟨hvalid, hdecided, fun other hother => ?_⟩ h
              rw [hheld] at hother
              cases hother
              exact ⟨hnewer.le, fun heq => absurd heq.symm hnewer.ne⟩
            · rw [if_neg hnewer]
              by_cases hstale : revision incoming < revision old
              · rw [if_pos hstale]
                simp
              · rw [if_neg hstale]
                by_cases hsame : incoming = old
                · refine absurd ⟨hvalid, hdecided, fun other hother => ?_⟩ h
                  rw [hheld] at hother
                  cases hother
                  exact ⟨not_lt.mp hstale, fun _ => hsame⟩
                · rw [if_neg hsame]
                  simp

/-- Accepting never takes a count back. -/
theorem tookEveryResource_of_acceptAll {merged : MergedSnapshot T} {incoming : List T}
    (h : (merged.acceptAll current incoming).report.tookEveryResource = true) :
    merged.report.tookEveryResource = true := by
  induction incoming generalizing merged with
  | nil => exact h
  | cons resource incoming ih =>
      have haccepted :
          (merged.accept resource (held current (key resource))).report.tookEveryResource =
            true :=
        ih h
      by_cases htaken : Taken current merged.decided resource
      · rw [(accept_of_taken htaken).2.2] at haccepted
        exact haccepted
      · rw [not_tookEveryResource_accept htaken] at haccepted
        cases haccepted

/-- The report of a loop over what is incoming says what the question before it says. -/
theorem tookEveryResource_acceptAll {merged : MergedSnapshot T} {incoming : List T} :
    (merged.acceptAll current incoming).report.tookEveryResource = true ↔
      merged.report.tookEveryResource = true ∧
        refusesFrom current merged.decided incoming = none := by
  induction incoming generalizing merged with
  | nil => simp [MergedSnapshot.acceptAll, refusesFrom]
  | cons resource incoming ih =>
      rw [refusesFrom_cons_eq_none]
      by_cases htaken : Taken current merged.decided resource
      · obtain ⟨hdecided, -, hreport⟩ := accept_of_taken htaken
        have hrest := @ih (merged.accept resource (held current (key resource)))
        rw [hdecided, hreport] at hrest
        simp only [htaken, true_and]
        exact hrest
      · simp only [htaken, false_and, and_false, iff_false]
        intro htook
        have haccepted :
            (merged.accept resource (held current (key resource))).report.tookEveryResource =
              true :=
          tookEveryResource_of_acceptAll htook
        rw [not_tookEveryResource_accept htaken] at haccepted
        cases haccepted

/-- A set that is not refused is stored as it is offered, beside what was stored. -/
theorem lookup_acceptAll {merged : MergedSnapshot T} {incoming : List T}
    (h : refusesFrom current merged.decided incoming = none) :
    (incoming.map (key : T → Key)).Nodup ∧ (∀ resource ∈ incoming, key resource ∉ merged.decided) ∧
      ∀ k resource, (merged.acceptAll current incoming).next.lookup k = some resource ↔
        (resource ∈ incoming ∧ key resource = k) ∨
          (merged.next.lookup k = some resource ∧ k ∉ incoming.map key) := by
  induction incoming generalizing merged with
  | nil => simp [MergedSnapshot.acceptAll]
  | cons first incoming ih =>
      obtain ⟨htaken, hrest⟩ := refusesFrom_cons_eq_none.mp h
      obtain ⟨hdecided, hnext, -⟩ := accept_of_taken htaken
      rw [← hdecided] at hrest
      obtain ⟨hnodup, hunseen, hlookup⟩ := ih hrest
      rw [hdecided] at hunseen
      have hfirst : key first ∉ incoming.map key := by
        intro hmem
        obtain ⟨resource, hresource, hkey⟩ := List.mem_map.mp hmem
        exact hunseen resource hresource (hkey ▸ List.mem_cons_self)
      refine ⟨List.nodup_cons.mpr ⟨hfirst, hnodup⟩, fun resource hresource => ?_,
        fun k resource => ?_⟩
      · rcases List.mem_cons.mp hresource with rfl | hresource
        · exact htaken.unseen
        · exact fun hmem => hunseen resource hresource (List.mem_cons_of_mem _ hmem)
      · refine (hlookup k resource).trans ?_
        rw [hnext, List.map_cons]
        by_cases hk : k = key first
        · subst hk
          rw [AList.lookup_insert]
          simp only [Option.some.injEq, hfirst, not_false_eq_true, and_true, List.mem_cons,
            not_true_eq_false, and_false, or_false]
          constructor
          · rintro (⟨hresource, hkey⟩ | rfl)
            · exact ⟨Or.inr hresource, hkey⟩
            · exact ⟨Or.inl rfl, rfl⟩
          · rintro ⟨rfl | hresource, hkey⟩
            · exact Or.inr rfl
            · exact Or.inl ⟨hresource, hkey⟩
        · rw [AList.lookup_insert_ne hk]
          simp only [List.mem_cons, hk, false_or]
          refine or_congr_left (and_congr_left fun hkey => ?_)
          refine (or_iff_right fun heq => ?_).symm
          exact hk (heq ▸ hkey.symm)

/-! ## What the whole sync counts and stores -/

/-- Removals are not counted against a sync. -/
theorem tookEveryResource_foldl_collectRemoval (merged : MergedSnapshot T)
    (entries : List (Sigma fun _ : Key => T)) :
    (entries.foldl MergedSnapshot.collectRemoval merged).report.tookEveryResource =
      merged.report.tookEveryResource := by
  induction entries generalizing merged with
  | nil => rfl
  | cons entry entries ih =>
      refine (ih _).trans ?_
      unfold MergedSnapshot.collectRemoval
      split <;> rfl

theorem tookEveryResource_merge {incoming : List T} {order : IterationOrder Key T} :
    (MergedSnapshot.merge current incoming order).report.tookEveryResource = true ↔
      refusesWhole current incoming = none := by
  have hcollected : (MergedSnapshot.merge current incoming order).report.tookEveryResource =
      ((MergedSnapshot.start current incoming).acceptAll current
        incoming).report.tookEveryResource := by
    unfold MergedSnapshot.merge
    cases current with
    | none => rfl
    | some snapshot => exact tookEveryResource_foldl_collectRemoval _ _
  rw [hcollected, tookEveryResource_acceptAll]
  exact and_iff_right rfl

/-- A set that is not refused is held exactly once it is merged. -/
theorem holds_merge {incoming : List T} (h : refusesWhole current incoming = none)
    (order : IterationOrder Key T) :
    Holds (.new (MergedSnapshot.merge current incoming order).next) incoming := by
  have hstart : refusesFrom current (MergedSnapshot.start current incoming).decided incoming =
      none := h
  obtain ⟨hnodup, -, hlookup⟩ := lookup_acceptAll hstart
  refine ⟨hnodup, fun k resource => ?_⟩
  rw [ResourceSnapshot.get_new, next_merge, hlookup]
  simp [MergedSnapshot.start]

/-! ## A first load -/

theorem published_accept (merged : MergedSnapshot T) (incoming : T) (old : Option T) :
    (merged.accept incoming old).published = merged.published := by
  unfold MergedSnapshot.accept MergedSnapshot.rejectInvalid MergedSnapshot.againstHeld
  repeat' split
  all_goals rfl

theorem published_acceptAll (merged : MergedSnapshot T) (incoming : List T) :
    (merged.acceptAll current incoming).published = merged.published := by
  induction incoming generalizing merged with
  | nil => rfl
  | cons resource incoming ih => exact (ih _).trans (published_accept merged resource _)

theorem published_foldl_collectRemoval (merged : MergedSnapshot T)
    (entries : List (Sigma fun _ : Key => T)) :
    (entries.foldl MergedSnapshot.collectRemoval merged).published = merged.published := by
  induction entries generalizing merged with
  | nil => rfl
  | cons entry entries ih =>
      refine (ih _).trans ?_
      unfold MergedSnapshot.collectRemoval
      split <;> rfl

theorem published_merge (current : ResourceRegistry T) (incoming : List T)
    (order : IterationOrder Key T) :
    (MergedSnapshot.merge current incoming order).published = incoming.length := by
  unfold MergedSnapshot.merge
  cases current with
  | none => exact published_acceptAll _ incoming
  | some snapshot =>
      exact (published_foldl_collectRemoval _ _).trans (published_acceptAll _ incoming)

/-- A set that is not refused is not turned away as a first load either: what it
publishes is stored. -/
theorem refusal_merge {incoming : List T} (h : refusesWhole current incoming = none)
    (order : IterationOrder Key T) :
    (MergedSnapshot.merge current incoming order).refusal = none := by
  unfold MergedSnapshot.refusal
  rw [published_merge]
  cases incoming with
  | nil => simp
  | cons first rest =>
      have hfirst := ((holds_merge h order).2 (key first) first).mpr ⟨List.mem_cons_self, rfl⟩
      have hnonempty : ¬ (MergedSnapshot.merge current (first :: rest)
          order).next.entries.isEmpty := by
        intro hempty
        rw [List.isEmpty_iff] at hempty
        rw [ResourceSnapshot.get_new, AList.lookup, hempty] at hfirst
        cases hfirst
      simp [hnonempty]

/-! ## The answer before and the report after -/

/-- `refuses_whole` lets a set pass exactly when the sync succeeds and its report says
that every resource was taken; what is installed then is exactly the set. -/
theorem refusesWhole_eq_none_iff_took {incoming : List T} (order : IterationOrder Key T) :
    refusesWhole current incoming = none ↔
      ∃ written report, applyAll current incoming order = .ok (written, report) ∧
        report.tookEveryResource = true := by
  constructor
  · intro h
    refine ⟨⟨.new (MergedSnapshot.merge current incoming order).next,
      (MergedSnapshot.merge current incoming order).events⟩,
      (MergedSnapshot.merge current incoming order).report, ?_, tookEveryResource_merge.mpr h⟩
    unfold applyAll
    dsimp only
    rw [refusal_merge h order]
  · rintro ⟨written, report, happlied, htook⟩
    obtain ⟨-, rfl⟩ := applyAll_eq_ok happlied
    exact tookEveryResource_merge.mp htook

/-- What a sync of a set that is not refused installs. -/
theorem exists_applyAll_of_takes {incoming : List T} (h : refusesWhole current incoming = none)
    (order : IterationOrder Key T) :
    ∃ written report, applyAll current incoming order = .ok (written, report) ∧
      Holds written.snapshot incoming := by
  obtain ⟨written, report, happlied, -⟩ :=
    (refusesWhole_eq_none_iff_took order).mp h
  obtain ⟨rfl, -⟩ := applyAll_eq_ok happlied
  exact ⟨_, report, happlied, holds_merge h order⟩

end Runtime
end SaasFabric
