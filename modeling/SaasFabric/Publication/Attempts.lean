import SaasFabric.Publication.Resume

/-!
# Runs of a publisher

What one attempt does to what is held, refused, interrupted or completed; and the rule by
which a fact about what is held and everything committed is carried over a run of attempts.
-/

namespace SaasFabric
namespace Publication

variable {codecs : Codecs}

/-- Nothing is held. -/
def HeldDocuments.absent : HeldDocuments := ⟨.absent, .absent, .absent, none, none⟩

theorem readHeld_empty : readHeld codecs Target.empty = .ok HeldDocuments.absent := rfl

/-- What an attempt does to what is held, and what it commits. -/
inductive Attempted (codecs : Codecs) (snapshot : RuntimeSnapshot) (held : HeldDocuments) :
    HeldDocuments → List Commit → Prop where
  | refused : Attempted codecs snapshot held held []
  | interrupted {plan : PublicationPlan} {record : Option PublicationRecord}
      {published : PublishedResources} {after : HeldDocuments}
      (planned : Planned codecs snapshot held plan record published)
      (left : Left plan held after) : Attempted codecs snapshot held after []
  | completed {plan : PublicationPlan} {record : Option PublicationRecord}
      {published : PublishedResources}
      (planned : Planned codecs snapshot held plan record published) :
      Attempted codecs snapshot held (plan.carriedOut held) [plan.commit snapshot]

theorem commits_append (first second : List Event) :
    commits (first ++ second) = commits first ++ commits second :=
  List.filterMap_append

/-- What is committed among the events of an attempt is what it committed. -/
theorem commits_events (published : Published) :
    commits published.events = published.outcome.commits := by
  unfold Published.events
  rw [commits_append]
  have hwritten : commits (published.written.map .wrote) = [] := by
    unfold commits
    rw [List.filterMap_map]
    exact List.filterMap_eq_nil_iff.mpr fun _ _ => rfl
  have hcommitted : commits (published.outcome.commits.map .committed) =
      published.outcome.commits := by
    unfold commits
    rw [List.filterMap_map]
    exact List.filterMap_some
  rw [hwritten, hcommitted, List.nil_append]

/-- What an attempt that is planned leaves. -/
theorem publish_planned (hlawful : codecs.Lawful) {target : Target} {held : HeldDocuments}
    (h : readHeld codecs target = .ok held) {attempt : Attempt} (hfault : attempt.fault = none)
    {plan : PublicationPlan}
    (hplan : planPublication codecs attempt.snapshot held = .ok plan) :
    readHeld codecs (publish codecs target attempt).target =
        .ok (held.writeAll (plan.writes.take attempt.stop)) ∧
      (publish codecs target attempt).written = plan.writes.take attempt.stop ∧
      (publish codecs target attempt).outcome =
        if plan.writes.length ≤ attempt.stop then
          .completed plan.report (plan.commit attempt.snapshot)
        else .interrupted := by
  have hread : (readHeld codecs target >>= planPublication codecs attempt.snapshot) =
      .ok plan := by
    rw [h]
    exact hplan
  obtain ⟨hheld, hwritten, hprogress⟩ := readHeld_perform hlawful plan.writes attempt.stop h
  unfold publish
  rw [hfault]
  dsimp only
  rw [hread]
  refine ⟨hheld, hwritten, ?_⟩
  dsimp only
  rcases hprogress with ⟨hfinished, hall⟩ | ⟨hstopped, hlt⟩
  · rw [hfinished, if_pos hall]
  · rw [hstopped, if_neg (not_le.mpr hlt)]

/-- No plan has more writes than two for each document, and one for the registry and for the
record. -/
theorem PublicationPlan.length_writes_le (plan : PublicationPlan) : plan.writes.length ≤ 8 := by
  have hdocument (document : DocumentPlan) (kind : DocumentKind) :
      (document.writes kind).length ≤ 2 := by
    unfold DocumentPlan.writes
    split <;> simp
  have hregistry : ((plan.registry.map RegistryPlan.writes).getD []).length ≤ 1 := by
    cases plan.registry with
    | none => exact Nat.zero_le 1
    | some registry =>
        show registry.writes.length ≤ 1
        unfold RegistryPlan.writes
        split <;> simp
  have hrecord : plan.record.writes.length ≤ 1 := by
    unfold RecordPlan.writes
    split <;> simp
  have hdataSources := hdocument plan.dataSources .dataSources
  have hcatalog := hdocument plan.catalog .catalog
  have htenants := hdocument plan.tenants .tenants
  unfold PublicationPlan.writes
  simp only [List.length_append]
  omega

/-- An attempt that is planned and has the time for every write is carried out. -/
theorem publish_whole (hlawful : codecs.Lawful) {target : Target} {held : HeldDocuments}
    (h : readHeld codecs target = .ok held) {snapshot : RuntimeSnapshot} {plan : PublicationPlan}
    (hplan : planPublication codecs snapshot held = .ok plan) :
    readHeld codecs (publish codecs target ⟨snapshot, none, 8⟩).target =
        .ok (plan.carriedOut held) ∧
      (publish codecs target ⟨snapshot, none, 8⟩).written = plan.writes ∧
      (publish codecs target ⟨snapshot, none, 8⟩).outcome.commits = [plan.commit snapshot] := by
  have hall := plan.length_writes_le
  have hleft := @publish_planned codecs hlawful target held h ⟨snapshot, none, 8⟩ rfl plan hplan
  obtain ⟨hafter, hwritten, houtcome⟩ := hleft
  refine ⟨?_, ?_, ?_⟩
  · rcases writeAll_take_writes plan held 8 with ⟨-, hcarried⟩ | ⟨hlt, -⟩
    · rw [hafter, hcarried]
    · exact absurd hall (not_le.mpr hlt)
  · rw [hwritten, List.take_of_length_le hall]
  · rw [houtcome, if_pos hall]
    rfl

/-- An attempt that is not planned leaves everything as it was. -/
theorem publish_refused {target : Target} {held : HeldDocuments}
    (h : readHeld codecs target = .ok held) {attempt : Attempt} {error : PublicationError}
    (hrefused : attempt.fault = some error ∨
      (attempt.fault = none ∧ planPublication codecs attempt.snapshot held = .error error)) :
    publish codecs target attempt = ⟨target, [], .refused error⟩ := by
  unfold publish
  rcases hrefused with hfault | ⟨hfault, hplan⟩
  · rw [hfault]
  · have hread : (readHeld codecs target >>= planPublication codecs attempt.snapshot) =
        .error error := by
      rw [h]
      exact hplan
    rw [hfault]
    dsimp only
    rw [hread]

/-- What becomes of an attempt: it is refused and nothing is written, it stops after some of
its writes, or it is carried out. -/
theorem publish_cases (hlawful : codecs.Lawful) {target : Target} {held : HeldDocuments}
    (h : readHeld codecs target = .ok held) (attempt : Attempt) :
    (∃ error, publish codecs target attempt = ⟨target, [], .refused error⟩ ∧
      (attempt.fault = some error ∨ planPublication codecs attempt.snapshot held = .error error)) ∨
    ∃ plan record published after, Planned codecs attempt.snapshot held plan record published ∧
      readHeld codecs (publish codecs target attempt).target = .ok after ∧
      (((publish codecs target attempt).outcome = .interrupted ∧ Left plan held after) ∨
        ((publish codecs target attempt).outcome =
            .completed plan.report (plan.commit attempt.snapshot) ∧
          after = plan.carriedOut held)) := by
  cases hfault : attempt.fault with
  | some error => exact Or.inl ⟨error, publish_refused h (Or.inl hfault), Or.inl rfl⟩
  | none =>
      cases hplan : planPublication codecs attempt.snapshot held with
      | error error =>
          exact Or.inl ⟨error, publish_refused h (Or.inr ⟨hfault, hplan⟩), Or.inr rfl⟩
      | ok plan =>
          obtain ⟨record, published, hplanned⟩ := (planPublication_eq_ok hlawful).mp hplan
          obtain ⟨hheld, -, houtcome⟩ := publish_planned hlawful h hfault hplan
          refine Or.inr ⟨plan, record, published, _, hplanned, hheld, ?_⟩
          rw [houtcome]
          rcases writeAll_take_writes plan held attempt.stop with ⟨hall, hcarried⟩ | ⟨hlt, hleft⟩
          · rw [if_pos hall]
            exact Or.inr ⟨rfl, hcarried⟩
          · rw [if_neg (not_le.mpr hlt)]
            exact Or.inl ⟨rfl, hleft⟩

/-- What an attempt leaves is held as its steps say. -/
theorem publish_spec (hlawful : codecs.Lawful) {target : Target} {held : HeldDocuments}
    (h : readHeld codecs target = .ok held) (attempt : Attempt) :
    ∃ after, readHeld codecs (publish codecs target attempt).target = .ok after ∧
      Attempted codecs attempt.snapshot held after
        (publish codecs target attempt).outcome.commits := by
  rcases publish_cases hlawful h attempt with ⟨error, hrefused, -⟩ |
    ⟨plan, record, published, after, hplanned, hafter, ⟨houtcome, hleft⟩ | ⟨houtcome, rfl⟩⟩
  · rw [hrefused]
    exact ⟨held, h, .refused⟩
  · rw [houtcome]
    exact ⟨after, hafter, .interrupted hplanned hleft⟩
  · rw [houtcome]
    exact ⟨_, hafter, .completed hplanned⟩

/-! ## Runs -/

/-- A condition on what is held before an attempt, and on the snapshot that is offered. -/
def OnHeld (codecs : Codecs) (Cond : HeldDocuments → RuntimeSnapshot → Prop) (target : Target)
    (attempt : Attempt) : Prop :=
  ∀ held, readHeld codecs target = .ok held → Cond held attempt.snapshot

/-- What every attempt that meets a condition keeps, every run of such attempts keeps. -/
theorem publisher_invariant (hlawful : codecs.Lawful)
    {Cond : HeldDocuments → RuntimeSnapshot → Prop} (Inv : HeldDocuments → List Commit → Prop)
    (hstep : ∀ held log snapshot after new, Cond held snapshot → Inv held log →
      Attempted codecs snapshot held after new → Inv after (log ++ new))
    (hstart : Inv HeldDocuments.absent []) {attempts : List Attempt}
    (hmeets : (publisher codecs).Meets (OnHeld codecs Cond) Target.empty attempts) :
    ∃ held, readHeld codecs ((publisher codecs).final Target.empty attempts) = .ok held ∧
      Inv held (commits ((publisher codecs).emitted Target.empty attempts)) := by
  let Run (target : Target) (events : List Event) : Prop :=
    ∃ held, readHeld codecs target = .ok held ∧ Inv held (commits events)
  have hempty : Run Target.empty [] := ⟨HeldDocuments.absent, readHeld_empty, hstart⟩
  refine (publisher codecs).trace_invariant_of_meets Run ?_ hempty hmeets
  rintro target events attempt hcond ⟨held, hheld, hinv⟩
  obtain ⟨after, hafter, hattempted⟩ := publish_spec hlawful hheld attempt
  refine ⟨after, hafter, ?_⟩
  have hnew : commits ((publisher codecs).step target attempt).2 =
      (publish codecs target attempt).outcome.commits := commits_events _
  rw [commits_append, hnew]
  exact hstep held _ _ after _ (hcond held hheld) hinv hattempted

end Publication
end SaasFabric
