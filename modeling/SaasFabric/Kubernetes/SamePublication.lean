import SaasFabric.Kubernetes.WhatGoesBack
import SaasFabric.Kubernetes.Sampled

/-!
# Two targets alike

A publication of the same snapshot over the same bytes, held in a namespace and in files: both
answer alike, refuse for the same reason and report the same, and they leave the same bytes
unless the tenants object is rewritten over something that does not go back as it is held.
-/

namespace SaasFabric
namespace Kubernetes

open Library
open Publication

variable {codecs : Codecs} {cluster : Cluster} {server : ApiServer}
  {namespaceName : String} {reads : Reads} {plan : PublicationPlan} {snapshot : RuntimeSnapshot}

/-! ## Both targets -/

/-- What the files are left with, when a publication of a snapshot may make so many writes. -/
def inFiles (codecs : Codecs) (snapshot : RuntimeSnapshot) (cluster : Cluster) (stop : Nat) :
    Published :=
  Publication.publish codecs (filesOf cluster) ⟨snapshot, none, stop⟩

/-- More than a publication can write. -/
def ALL_WRITES : Nat := 8

/-- What both report, or are refused for; an object that is too large is refused in the cluster
alone. -/
def SameOutcome : Except PublicationError PublicationReport → Outcome → Prop
  | .ok report, .completed other _ => report = other
  | .error error, .refused other => withoutCause error = withoutCause other
  | .error error, .completed _ _ => IsOverCap error
  | _, _ => False

/-- A namespace and the files that hold the same are one publication: they are read alike, and a
publication reports or is refused alike, writes nothing where it is refused, leaves the same bytes
where it is not, and wherever it stops leaves what the files are left with after some writes. -/
structure SamePublication (codecs : Codecs) (server : ApiServer)
    (namespaceName : String) (snapshot : RuntimeSnapshot) (cluster : Cluster) : Prop where
  current : SameAnswer (outcomeOf server cluster [] (current codecs)).2.2
    (currentOf codecs (filesOf cluster))
  resources : SameAnswer (outcomeOf server cluster [] (publishedResources codecs)).2.2
    (publishedResourcesOf codecs (filesOf cluster))
  report : SameOutcome (outcomeOf server cluster [] (publish codecs namespaceName snapshot)).2.2
    (inFiles codecs snapshot cluster ALL_WRITES).outcome
  bytes : ∀ report,
    (outcomeOf server cluster [] (publish codecs namespaceName snapshot)).2.2 = .ok report →
      filesOf (outcomeOf server cluster [] (publish codecs namespaceName snapshot)).1 =
        (inFiles codecs snapshot cluster ALL_WRITES).target
  refused : ∀ error,
    (outcomeOf server cluster [] (publish codecs namespaceName snapshot)).2.2 = .error error →
      ∀ state ∈ statesOf server cluster [] (publish codecs namespaceName snapshot), state = cluster
  refusedFiles : ∀ error, (inFiles codecs snapshot cluster ALL_WRITES).outcome = .refused error →
    (inFiles codecs snapshot cluster ALL_WRITES).written = []
  interrupted : ∀ state ∈ statesOf server cluster [] (publish codecs namespaceName snapshot),
    ∃ stop, filesOf state = (inFiles codecs snapshot cluster stop).target

/-! ## Alike -/

/-- What is held is read of the files as it is of the objects. -/
theorem readHeld_filesOf (h : readAll codecs server cluster = .ok reads) :
    readHeld codecs (filesOf cluster) = .ok reads.held := by
  have hsame : SameAnswer (readAll codecs server cluster >>= fun reads => .ok reads.held)
      (readHeld codecs (filesOf cluster) >>= .ok) :=
    sameAnswer_held (answerable_of_readAll h) fun reads _ => .refl _
  rw [h, ok_bind] at hsame
  rcases hsame.cases with ⟨value, hvalue, hfiles⟩ | ⟨_, _, herror, -⟩
  · cases hvalue
    obtain ⟨held, hheld, hsame⟩ := bind_eq_ok.mp hfiles
    cases hsame
    exact hheld
  · cases herror

/-- What is current is answered alike exactly where both can be read. -/
theorem sameAnswer_current_iff :
    SameAnswer (outcomeOf server cluster [] (current codecs)).2.2
      (currentOf codecs (filesOf cluster)) ↔ Answerable codecs server cluster := by
  have hanswers : Answers server cluster (current codecs)
      (readAll codecs server cluster >>= fun reads => .ok (reads.held.revisions codecs)) :=
    answers_fetch.andThen fun reads _ => answers_pure (reads.held.revisions codecs)
  rw [hanswers.answer.2]
  constructor
  · exact answerable_of_sameAnswer
  · exact fun h => sameAnswer_held h fun reads _ => .refl _

theorem sameAnswer_publishedResources (h : Answerable codecs server cluster) :
    SameAnswer (outcomeOf server cluster [] (publishedResources codecs)).2.2
      (publishedResourcesOf codecs (filesOf cluster)) := by
  have hanswers : Answers server cluster (publishedResources codecs)
      (readAll codecs server cluster >>= fun reads => reads.held.resources codecs) :=
    answers_fetch.andThen fun reads _ => answers_settle (reads.held.resources codecs)
  rw [hanswers.answer.2]
  exact sameAnswer_held h fun reads _ => .refl _

/-- A publication makes no more than so many writes. -/
theorem length_writes_le (plan : PublicationPlan) : plan.writes.length ≤ ALL_WRITES := by
  have hdocument : ∀ (part : DocumentPlan) document, (part.writes document).length ≤ 2 := by
    intro part document
    unfold DocumentPlan.writes
    cases part.outcome <;> simp
  have hregistry : ((plan.registry.map RegistryPlan.writes).getD []).length ≤ 1 := by
    cases plan.registry with
    | none => exact Nat.zero_le 1
    | some registry =>
        show registry.writes.length ≤ 1
        unfold RegistryPlan.writes
        cases registry.outcome <;> simp
  have hrecord : plan.record.writes.length ≤ 1 := by
    unfold RecordPlan.writes
    cases plan.record.outcome <;> simp
  have hdataSources := hdocument plan.dataSources .dataSources
  have hcatalog := hdocument plan.catalog .catalog
  have htenants := hdocument plan.tenants .tenants
  unfold PublicationPlan.writes ALL_WRITES
  simp only [List.length_append]
  omega

/-- The files take every write of a plan. -/
theorem inFiles_eq (hlawful : codecs.Lawful) (hreads : readAll codecs server cluster = .ok reads)
    (hplan : planPublication codecs snapshot reads.held = .ok plan) :
    inFiles codecs snapshot cluster ALL_WRITES =
      ⟨plan.writes.foldl (wrote codecs) (filesOf cluster), plan.writes,
        .completed plan.report (plan.commit snapshot)⟩ := by
  unfold inFiles
  rw [publish_files hlawful (readHeld_filesOf hreads) hplan,
    List.take_of_length_le (length_writes_le plan), if_pos (length_writes_le plan)]

/-- What is refused before anything is planned is refused by the files for the same reason. -/
theorem inFiles_refused {error : PublicationError} (hanswered : Answerable codecs server cluster)
    (h : (readAll codecs server cluster >>= fun reads =>
      planPublication codecs snapshot reads.held) = .error error) :
    ∃ other, inFiles codecs snapshot cluster ALL_WRITES =
        ⟨filesOf cluster, [], .refused other⟩ ∧ withoutCause error = withoutCause other := by
  have hsame : SameAnswer
      (readAll codecs server cluster >>= fun reads => planPublication codecs snapshot reads.held)
      (readHeld codecs (filesOf cluster) >>= planPublication codecs snapshot) :=
    sameAnswer_held hanswered fun reads _ => .refl _
  rw [h] at hsame
  rcases hsame.cases with ⟨_, hvalue, -⟩ | ⟨_, other, herror, hfiles, hcause⟩
  · cases hvalue
  · cases herror
    refine ⟨other, ?_, hcause⟩
    unfold inFiles Publication.publish
    dsimp only
    rw [hfiles]

/-- What is refused leaves everything as it is in both. -/
theorem samePublication_of_refused (hlawful : codecs.Lawful) (hutf8 : WritesUtf8 codecs)
    (hanswered : Answerable codecs server cluster) {error : PublicationError}
    (h : accepted codecs server namespaceName snapshot cluster = .error error) :
    SamePublication codecs server namespaceName snapshot cluster := by
  have hanswers : Answers server cluster (publish codecs namespaceName snapshot) (.error error) :=
    answers_publish h
  have hstays : (inFiles codecs snapshot cluster 0).target = filesOf cluster := by
    unfold inFiles Publication.publish
    dsimp only
    cases readHeld codecs (filesOf cluster) >>= planPublication codecs snapshot with
    | error _ => rfl
    | ok plan =>
        dsimp only
        rw [perform_eq hlawful]
        rfl
  have hreport : SameOutcome (.error error) (inFiles codecs snapshot cluster ALL_WRITES).outcome ∧
      ∀ other, (inFiles codecs snapshot cluster ALL_WRITES).outcome = .refused other →
        (inFiles codecs snapshot cluster ALL_WRITES).written = [] := by
    -- Refused for its reads or its plan, as the files are; or for the size cap, which files have
    -- not.
    cases hplanned : readAll codecs server cluster >>= fun reads =>
        planPublication codecs snapshot reads.held with
    | error refused =>
        have hcause : refused = error := by
          unfold accepted at h
          cases hreads : readAll codecs server cluster with
          | error _ =>
              rw [hreads] at h hplanned
              cases h
              cases hplanned
              rfl
          | ok reads =>
              rw [hreads, ok_bind] at h hplanned
              rw [hplanned] at h
              cases h
              rfl
        obtain ⟨other, hfiles, hsame⟩ := inFiles_refused hanswered hplanned
        rw [hfiles]
        exact ⟨hcause ▸ hsame, fun _ _ => rfl⟩
    | ok plan =>
        obtain ⟨reads, hreads, hplan⟩ := bind_eq_ok.mp hplanned
        have hchecked : checkAll codecs namespaceName
            (objects plan (tenantsObjectPlan plan) reads) = .error error := by
          unfold accepted at h
          rw [hreads, ok_bind, hplan, ok_bind] at h
          cases hcheck : checkAll codecs namespaceName
              (objects plan (tenantsObjectPlan plan) reads) with
          | ok _ =>
              rw [hcheck] at h
              cases h
          | error _ =>
              rw [hcheck] at h
              cases h
              rfl
        rw [inFiles_eq hlawful hreads hplan]
        exact ⟨failsWith_checkAll hlawful hutf8 hplan error hchecked, fun _ h => absurd h nofun⟩
  refine ⟨sameAnswer_current_iff.mpr hanswered, sameAnswer_publishedResources hanswered, ?_, ?_,
    ?_, hreport.2, ?_⟩
  · rw [hanswers.answer.2]
    exact hreport.1
  · intro report hok
    rw [hanswers.answer.2] at hok
    cases hok
  · exact fun _ _ => hanswers.states []
  · intro state hstate
    rw [hanswers.states [] state hstate]
    exact ⟨0, hstays.symm⟩

/-- What a tenants object carries is in that object. -/
theorem carriesBack_congr {other : Cluster} (h : cluster .tenants = other .tenants) :
    CarriesBack codecs (filesOf cluster) snapshot plan ↔
      CarriesBack codecs (filesOf other) snapshot plan := by
  have htenants : (filesOf cluster).tenants = (filesOf other).tenants := by
    show filesAt cluster .tenants = filesAt other .tenants
    unfold filesAt
    rw [h]
  have hrecord : (filesOf cluster).record = (filesOf other).record := by
    unfold filesOf
    rw [h]
  have hregistry : (filesOf cluster).registry = (filesOf other).registry := by
    unfold filesOf
    rw [h]
  constructor
  · exact fun hback => ⟨htenants ▸ hback.manifest, hrecord ▸ hback.record,
      hregistry ▸ hback.registry⟩
  · exact fun hback => ⟨htenants ▸ hback.manifest, hrecord ▸ hback.record,
      hregistry ▸ hback.registry⟩

section Accepted

variable (hlawful : codecs.Lawful)
  (haccepted : accepted codecs server namespaceName snapshot cluster = .ok (reads, plan))

include haccepted

/-- After the DataSources, and after the catalogue, both hold the same. -/
theorem filesOf_published (server : ApiServer) :
    filesOf (published codecs server namespaceName reads plan 1 cluster) =
        (plan.dataSources.writes .dataSources).foldl (wrote codecs) (filesOf cluster) ∧
      filesOf (published codecs server namespaceName reads plan 2 cluster) =
        (plan.dataSources.writes .dataSources ++ plan.catalog.writes .catalog).foldl
          (wrote codecs) (filesOf cluster) := by
  have hfirst : filesOf (published codecs server namespaceName reads plan 1 cluster) =
      (plan.dataSources.writes .dataSources).foldl (wrote codecs) (filesOf cluster) :=
    filesOf_afterWrite (by decide : DocumentKind.dataSources ≠ .tenants) (exists_sent haccepted _)
  refine ⟨hfirst, ?_⟩
  have hsecond : filesOf (published codecs server namespaceName reads plan 2 cluster) =
      (plan.catalog.writes .catalog).foldl (wrote codecs)
        (filesOf (published codecs server namespaceName reads plan 1 cluster)) :=
    filesOf_afterWrite (by decide : DocumentKind.catalog ≠ .tenants) (exists_sent haccepted _)
  rw [hsecond, hfirst, List.foldl_append]

include hlawful

/-- After the tenants, they do exactly where what that object carries goes back. -/
theorem filesOf_published_tenants (server : ApiServer) :
    filesOf (published codecs server namespaceName reads plan 3 cluster) =
        plan.writes.foldl (wrote codecs) (filesOf cluster) ↔
      ((tenantsObjectPlan plan).outcome = .written →
        CarriesBack codecs (filesOf cluster) snapshot plan) := by
  obtain ⟨hreads, hplan, -⟩ := accepted_eq_ok.mp haccepted
  obtain ⟨record, resources, hplanned⟩ := (planPublication_eq_ok hlawful).mp hplan
  have hkept : published codecs server namespaceName reads plan 2 cluster .tenants =
      cluster .tenants := published_tenants
  have hread : readStored codecs .tenants
      (published codecs server namespaceName reads plan 2 cluster .tenants).current =
        .ok reads.tenants := by
    rw [hkept]
    exact (readServed_eq_ok.mp (readAll_eq_ok.mp hreads .tenants)).2
  have hlast : filesOf (published codecs server namespaceName reads plan 3 cluster) =
        (plan.tenants.writes .tenants ++ ((plan.registry.map RegistryPlan.writes).getD [] ++
          plan.record.writes)).foldl (wrote codecs)
            (filesOf (published codecs server namespaceName reads plan 2 cluster)) ↔
      ((tenantsObjectPlan plan).outcome = .written → CarriesBack codecs
        (filesOf (published codecs server namespaceName reads plan 2 cluster)) snapshot plan) :=
    filesOf_afterWrite_tenants hlawful hread hplanned (exists_sent haccepted .tenants)
  rw [carriesBack_congr hkept, (filesOf_published haccepted server).2, ← List.foldl_append,
    List.append_assoc] at hlast
  exact hlast

/-- Every state of a pass but the last is one of the files after some writes. -/
theorem interrupted_published {count : Nat}
    (hlast : filesOf (published codecs server namespaceName reads plan 3 cluster) =
      plan.writes.foldl (wrote codecs) (filesOf cluster)) :
    ∃ stop, filesOf (published codecs server namespaceName reads plan count cluster) =
      (inFiles codecs snapshot cluster stop).target := by
  obtain ⟨hreads, hplan, -⟩ := accepted_eq_ok.mp haccepted
  obtain ⟨hfirst, hsecond⟩ := filesOf_published haccepted server
  have htarget : ∀ stop, (inFiles codecs snapshot cluster stop).target =
      (plan.writes.take stop).foldl (wrote codecs) (filesOf cluster) := by
    intro stop
    unfold inFiles
    rw [publish_files hlawful (readHeld_filesOf hreads) hplan]
  -- The writes of the objects that were made are the first writes of the plan.
  have hbefore : ∀ writes, writes <+: plan.writes → ∃ stop,
      writes.foldl (wrote codecs) (filesOf cluster) =
        (inFiles codecs snapshot cluster stop).target := by
    intro writes hwrites
    refine ⟨writes.length, ?_⟩
    rw [htarget, ← List.prefix_iff_eq_take.mp hwrites]
  have hobjects : ∀ count, 3 ≤ count →
      published codecs server namespaceName reads plan count cluster =
        published codecs server namespaceName reads plan 3 cluster := by
    intro count hcount
    unfold published
    rw [List.take_of_length_le hcount]
    rfl
  match count with
  | 0 => exact hbefore [] List.nil_prefix
  | 1 =>
      rw [hfirst]
      exact hbefore _ (List.prefix_append _ _)
  | 2 =>
      rw [hsecond]
      refine hbefore _ ?_
      unfold PublicationPlan.writes
      rw [← List.append_assoc]
      exact List.prefix_append _ _
  | count + 3 =>
      rw [hobjects (count + 3) (Nat.le_add_left 3 count), hlast]
      exact hbefore _ (List.prefix_refl _)

/-- What is accepted is the same in both exactly where what the tenants object carries goes
back. -/
theorem samePublication_of_accepted :
    SamePublication codecs server namespaceName snapshot cluster ↔
      ((tenantsObjectPlan plan).outcome = .written →
        CarriesBack codecs (filesOf cluster) snapshot plan) := by
  obtain ⟨hreads, hplan, -⟩ := accepted_eq_ok.mp haccepted
  have hleads := leads_publish server haccepted
  obtain ⟨hleft, hresult⟩ := hleads.answer
  have hfiles := inFiles_eq hlawful hreads hplan
  rw [← filesOf_published_tenants hlawful haccepted server]
  constructor
  · intro h
    have hbytes := h.bytes plan.report hresult
    rw [hleft, hfiles] at hbytes
    exact hbytes
  · intro hlast
    have hanswered : Answerable codecs server cluster := answerable_of_readAll hreads
    refine ⟨sameAnswer_current_iff.mpr hanswered, sameAnswer_publishedResources hanswered, ?_, ?_,
      ?_, ?_, ?_⟩
    · rw [hresult, hfiles]
      exact rfl
    · intro report _
      rw [hleft, hfiles]
      exact hlast
    · intro error herror
      rw [hresult] at herror
      cases herror
    · intro error herror
      rw [hfiles] at herror
      cases herror
    · intro state hstate
      obtain ⟨count, rfl⟩ := hleads.states [] state hstate
      exact interrupted_published hlawful haccepted hlast

end Accepted

/-- A publication is the same in a namespace and in the files that hold the same exactly where no
object that the files are read of is answered in too many bytes, and a tenants object that is
rewritten carries what goes back as it is held. -/
theorem samePublication_iff (hlawful : codecs.Lawful) (hutf8 : WritesUtf8 codecs) :
    SamePublication codecs server namespaceName snapshot cluster ↔
      Answerable codecs server cluster ∧
        ∀ reads plan, accepted codecs server namespaceName snapshot cluster = .ok (reads, plan) →
          (tenantsObjectPlan plan).outcome = .written →
            CarriesBack codecs (filesOf cluster) snapshot plan := by
  cases haccepted : accepted codecs server namespaceName snapshot cluster with
  | error error =>
      constructor
      · exact fun h => ⟨sameAnswer_current_iff.mp h.current, fun _ _ hok => absurd hok nofun⟩
      · exact fun h => samePublication_of_refused hlawful hutf8 h.1 haccepted
  | ok made =>
      obtain ⟨reads, plan⟩ := made
      have hanswered : Answerable codecs server cluster :=
        answerable_of_readAll (accepted_eq_ok.mp haccepted).1
      rw [samePublication_of_accepted hlawful haccepted]
      constructor
      · intro h
        refine ⟨hanswered, fun _ _ heq => ?_⟩
        cases heq
        exact h
      · exact fun h => h.2 reads plan rfl

/-! ## A manifest that does not go back -/

/-- What the orders were published as, but for the newline the tenants' manifest ends in. -/
def trimmedCluster : Cluster :=
  bareCluster (manifestText "tenants" "1") (bareRecordText "1" "1" ordersDigest ++ "\n")

theorem writesUtf8_bareSamples : WritesUtf8 bareSamples.codecs := by
  have htexts : ∀ {T : Type} [DecidableEq T] [Countable T] (sample : Sample T),
      (∀ entry ∈ sample.entries, ∃ text : String, entry.2 = text.toUTF8) →
        sample.codec.WritesUtf8 := by
    intro T _ _ sample h
    refine Codec.writesUtf8_sampled fun entry hentry => ?_
    obtain ⟨text, htext⟩ := h entry hentry
    rw [htext]
    exact text.isValidUTF8
  constructor
  · exact htexts _ fun entry h => ⟨_, congrArg Prod.snd (List.mem_singleton.mp h)⟩
  · exact htexts _ fun entry h => ⟨_, congrArg Prod.snd (List.mem_singleton.mp h)⟩
  · refine htexts catalogues fun entry h => ?_
    simp only [catalogues, List.mem_cons, List.not_mem_nil, or_false] at h
    rcases h with rfl | rfl <;> exact ⟨_, rfl⟩
  · refine htexts firstManifests fun entry h => ?_
    simp only [firstManifests, List.mem_cons, List.not_mem_nil, or_false] at h
    rcases h with rfl | rfl | rfl | rfl <;> exact ⟨_, rfl⟩
  · refine htexts bareRecords fun entry h => ?_
    simp only [bareRecords, List.mem_cons, List.not_mem_nil, or_false] at h
    rcases h with rfl | rfl | rfl <;> exact ⟨_, rfl⟩
  · exact htexts Sample.none fun entry h => absurd h List.not_mem_nil

theorem accepted_trimmedCluster :
    accepted bareSamples.codecs (smallAnswers fun _ _ => "2") "saas-fabric"
      (bareSnapshot readOnlyCatalog 2) trimmedCluster =
      .ok (bareReads (lineOf (bareRecordText "1" "1" ordersDigest)), readOnlyPlan) :=
  accepted_readOnly (bareSamples.lawful.manifest.roundTrips.read_eq_ok
    (Sample.write_of_mem List.mem_cons_self))

/-- The tenants' manifest is not left as the files leave it. -/
theorem manifest_not_carried_back : ¬SamePublication bareSamples.codecs
    (smallAnswers fun _ _ => "2") "saas-fabric" (bareSnapshot readOnlyCatalog 2)
      trimmedCluster := by
  rw [samePublication_of_accepted bareSamples.lawful accepted_trimmedCluster]
  intro h
  have hrewritten : (tenantsObjectPlan readOnlyPlan).outcome = .written :=
    outcome_tenantsObjectPlan.mpr (Or.inr (Or.inl rfl))
  obtain ⟨bytes, hbytes, value, hline⟩ := (h hrewritten).manifest rfl
  have hheld : (filesOf trimmedCluster).tenants.manifest =
      some (manifestText "tenants" "1").toUTF8 := by
    have hkeys : ((ownTexts .tenants ("[]" ++ "\n") (manifestText "tenants" "1") ++
        [(PUBLICATION_RECORD_FILE, bareRecordText "1" "1" ordersDigest ++ "\n")]).map
          Prod.fst).Nodup := by
      show ["tenants.json", "tenants.manifest.json", "publication.json"].Nodup
      decide
    exact (lists_collect hkeys _ _).mpr (List.mem_cons_of_mem _ List.mem_cons_self)
  rw [hheld] at hbytes
  cases hbytes
  -- A line ends in a newline, which these bytes do not.
  obtain ⟨written, -, hpush⟩ := map_eq_ok.mp hline
  have hlast : (written.push 10).data.toList.getLast? =
      (manifestText "tenants" "1").toUTF8.data.toList.getLast? := by rw [hpush]
  have hnewline : (written.push 10).data.toList.getLast? = some 10 := by
    show (written.data.push 10).toList.getLast? = some 10
    simp
  rw [hnewline] at hlast
  exact absurd hlast (by decide +kernel)

/-- A catalogue that is published over nothing is published alike. -/
theorem samePublication_first : SamePublication bareSamples.codecs
    (smallAnswers fun _ _ => "1") "saas-fabric" (bareSnapshot ordersCatalog 1)
      (Cluster.holding fun _ => none) := by
  refine (samePublication_iff bareSamples.lawful writesUtf8_bareSamples).mpr
    ⟨fun document hover => absurd hover (smallAnswers_not_exceeds _ document), ?_⟩
  intro reads plan haccepted _
  obtain ⟨hreads, hplan, -⟩ := accepted_eq_ok.mp haccepted
  cases hreads
  have hplanned : planPublication bareSamples.codecs (bareSnapshot ordersCatalog 1)
    HeldDocuments.absent = .ok plan := hplan
  rw [ordersSnapshot_planned] at hplanned
  cases hplanned
  exact ⟨nofun, nofun, fun _ => rfl⟩

end Kubernetes
end SaasFabric
