import SaasFabric.PlatformGit.Requests

/-!
# One desired-state change, as one commit

`update_files_atomically`: blobs, a tree and a commit on a base, and a ref update that applies
only where the base is still the head.  Where it is not, the paths being written are read at the
new head and the change is rebuilt on it, or refused as a conflict.

A change lands whole: the branch gains one commit of this call's, made on a commit at which
every written path had the revision its caller expected, and its tree differs from that one's
in the written paths.  Otherwise the branch is left to others.
-/

namespace SaasFabric
namespace PlatformGit

open Library

/-- `ATTEMPTS`: how many times a write is rebuilt on a moved head before giving up. -/
def ATTEMPTS : Nat := 4

namespace Host

variable (host : Host)

/-- `refuse_if_a_written_path_moved`. -/
def refuseIfAWrittenPathMoved (changes : List FileChange) (commit : CommitRevision) :
    Program Session PlatformGitError PUnit :=
  changes.forM fun change => do
    let revision ← host.revisionAt change.path commit
    if revision ≠ change.expected then throw (.conflict change.path) else pure ⟨⟩

/-- The attempts that are left, each on the head the one before it lost to. -/
def attemptFrom (changes : List FileChange) (entries : List (String × String))
    (message : String) : Nat → CommitRevision → Program Session PlatformGitError CommitRevision
  | 0, _ => throw .contended
  | attempts + 1, base => do
      let baseTree ← host.treeOf base
      let tree ← host.createTree baseTree entries
      let commit ← host.createCommit message tree base
      let moved ← host.updateRef commit
      if moved = .applied then
        pure commit
      else do
        let head ← host.readHead
        host.refuseIfAWrittenPathMoved changes head
        attemptFrom changes entries message attempts head

/-- `update_files_atomically`. -/
def updateFilesAtomically (base : CommitRevision) (changes : List FileChange)
    (message : String) : Program Session PlatformGitError CommitRevision :=
  if changes.isEmpty then
    throw (.rejected "a desired-state change with no files")
  else do
    let entries ← changes.mapM fun change => do
      let sha ← host.createBlob change.text
      pure (change.path, sha)
    host.attemptFrom changes entries message ATTEMPTS base

/-! ## What landing is -/

/-- Every written path has, at a commit, the revision its caller expected. -/
def Reads (changes : List FileChange) (commit : Commit) : Prop :=
  ∀ change ∈ changes, host.revisionIn commit change.path = change.expected

/-- The text a list of changes writes to a path. -/
def writtenText (changes : List FileChange) (path : String) : Option String :=
  (changes.reverse.find? fun change => decide (change.path = path)).map FileChange.text

/-- The branch gained one commit of this call's, its last: on a parent that had every written
path as it was read, with that parent's tree and exactly those paths replaced. -/
structure Lands (changes : List FileChange) (message : String) (start final : Session)
    (commit : Commit) : Prop where
  head : final.head = commit
  gained : ∃ others : List Commit,
    final.moves = start.moves ++ (others.map fun other => (Party.others, other)) ++
        [(Party.us, commit)] ∧
      final.head.history = commit :: (others.reverse ++ start.head.history)
  onto : ∃ parent, commit = .on parent message commit.tree ∧ host.Reads changes parent ∧
    ∀ path, commit.tree[path]? =
      ((writtenText changes path).map fun text => ⟨host.hash text⟩).or parent.tree[path]?

/-- A call that did not give a commit: a conflict is some written path's at a later head, and
the branch was left to others, unless the answer to the ref update was lost after it applied. -/
structure Refuses (changes : List FileChange) (message : String) (start final : Session)
    (error : PlatformGitError) : Prop where
  conflict : ∀ path, error = .conflict path → ∃ head, ∃ change ∈ changes, change.path = path ∧
    host.revisionIn head path ≠ change.expected ∧ start.head ∈ head.history ∧
      head ∈ final.head.history
  unchanged : (∀ detail, error ≠ .unavailable detail) → Session.After start final
  whole : Session.After start final ∨ ∃ commit, host.Lands changes message start final commit

variable {host} {changes : List FileChange} {message : String}

theorem Lands.after {start next final : Session} {commit : Commit}
    (h : Session.After start next) (hlands : host.Lands changes message next final commit) :
    host.Lands changes message start final commit := by
  obtain ⟨first, hfirst⟩ := h
  obtain ⟨others, hmoves, hhistory⟩ := hlands.gained
  refine ⟨hlands.head, ⟨first ++ others, ?_, ?_⟩, hlands.onto⟩
  · rw [hmoves, hfirst.moves]
    simp
  · rw [hhistory, hfirst.history]
    simp

theorem Refuses.after {start next final : Session} {error : PlatformGitError}
    (h : Session.After start next) (hrefuses : host.Refuses changes message next final error) :
    host.Refuses changes message start final error := by
  refine ⟨fun path herror => ?_, fun hkind => h.trans (hrefuses.unchanged hkind), ?_⟩
  · obtain ⟨head, change, hmem, hpath, hmoved, hlater, hstays⟩ := hrefuses.conflict path herror
    exact ⟨head, change, hmem, hpath, hmoved, Commit.mem_history_trans h.mem_history hlater, hstays⟩
  · rcases hrefuses.whole with hafter | ⟨commit, hlands⟩
    · exact Or.inl (h.trans hafter)
    · exact Or.inr ⟨commit, hlands.after h⟩

/-- A host's own failure says nothing of the written paths. -/
theorem FailsOf.refuses {start final : Session} {error : PlatformGitError}
    (h : FailsOf start error final) : host.Refuses changes message start final error :=
  ⟨fun path herror => absurd herror (h.2.2 path), fun _ => h.1.1, Or.inl h.1.1⟩

theorem layered_getElem? {entries : List (String × String)} (baseTree : Tree)
    (hentries : entries = changes.map fun change => (change.path, host.hash change.text))
    (path : String) : (layered baseTree entries)[path]? =
      ((writtenText changes path).map fun text => ⟨host.hash text⟩).or baseTree[path]? := by
  subst hentries
  rw [layered, getElem?_collectInto_eq, List.map_map, ← List.map_reverse, List.find?_map,
    writtenText, Option.map_map, Option.map_map]
  rfl

/-- What a ref update that applied lands. -/
theorem Moved.lands {next final : Session} {base : Commit} {entries : List (String × String)}
    (hentries : entries = changes.map fun change => (change.path, host.hash change.text))
    (hmoved : Moved next final (.on base message (layered base.tree entries)))
    (hreads : host.Reads changes base) :
    host.Lands changes message next final (.on base message (layered base.tree entries)) := by
  have hhead : base = next.head := Option.some.inj hmoved.parent
  refine ⟨hmoved.head, ⟨[], by simpa using hmoved.moves, ?_⟩, base, rfl, hreads,
    layered_getElem? _ hentries⟩
  rw [hmoved.head, hhead]
  rfl

/-- Where each path is changed once, what is written to it is its change's text. -/
theorem writtenText_of_mem (hdistinct : (changes.map FileChange.path).Nodup) {change : FileChange}
    (hchange : change ∈ changes) : writtenText changes change.path = some change.text := by
  unfold writtenText
  cases hfound : changes.reverse.find? fun other => decide (other.path = change.path) with
  | none =>
      have hnot := List.find?_eq_none.mp hfound change (List.mem_reverse.mpr hchange)
      exact absurd (decide_eq_true rfl) hnot
  | some other =>
      have hother := List.mem_reverse.mp (List.mem_of_find?_eq_some hfound)
      have hpath : other.path = change.path := of_decide_eq_true (List.find?_some hfound :)
      rw [List.inj_on_of_nodup_map hdistinct hother hchange hpath]
      rfl

/-! ## What a run of attempts ends in -/

theorem refuseIfAWrittenPathMoved_ends (commit : CommitRevision) (start : Session) :
    Ends (host.refuseIfAWrittenPathMoved changes commit) start
      (fun _ final => Session.Waits start final ∧ host.Reads changes commit)
      (fun error final => Session.Waits start final ∧ (error.OfHost ∨ ∃ change ∈ changes,
        error = .conflict change.path ∧ host.revisionIn commit change.path ≠ change.expected)) := by
  apply (Ends.forM (fun done state => Session.Waits start state ∧ host.Reads done commit)
    ⟨Session.Waits.refl start, fun _ h => by simp at h⟩ ?_).mono (fun _ _ h => h) fun _ _ h => h
  intro done change rest hchanges state hstate
  apply Ends.bind
  apply (host.revisionAt_ends change.path commit).mono
  · intro revision next hnext
    apply Ends.ite
    · intro hmoved
      refine Ends.throw ⟨hstate.1.trans hnext.2, Or.inr ⟨change, ?_, rfl, ?_⟩⟩
      · rw [hchanges]
        exact List.mem_append_right _ List.mem_cons_self
      · rw [← hnext.1]
        exact hmoved
    · intro hstays
      refine Ends.pure ⟨hstate.1.trans hnext.2, fun other hother => ?_⟩
      rcases List.mem_append.mp hother with hdone | hlast
      · exact hstate.2 other hdone
      · rw [List.mem_singleton.mp hlast, ← hnext.1]
        exact not_not.mp hstays
  · exact fun error next hfails => ⟨hstate.1.trans hfails.1, Or.inl hfails.2⟩

/-- Each attempt is made on a base that has the written paths as they were read, or that the
branch has left and does not come back to. -/
theorem attemptFrom_ends {entries : List (String × String)}
    (hentries : entries = changes.map fun change => (change.path, host.hash change.text))
    (attempts : Nat) (base : CommitRevision) (start : Session)
    (hbase : host.Reads changes base ∨ base.history.length < start.head.history.length) :
    Ends (host.attemptFrom changes entries message attempts base) start
      (fun commit final => host.Lands changes message start final commit ∧
        final.updates ≤ start.updates + attempts)
      (fun error final => host.Refuses changes message start final error ∧
        final.updates ≤ start.updates + attempts) := by
  induction attempts generalizing base start with
  | zero =>
      exact Ends.throw ⟨⟨nofun, fun _ => Session.After.refl start,
        Or.inl (Session.After.refl start)⟩, le_refl _⟩
  | succ attempts ih =>
      -- Building the commit asks for no ref update, and a failure there is the host's own.
      have hbuilding : ∀ {next : Session}, Session.Waits start next →
          ∀ error final, FailsOf next error final →
            host.Refuses changes message start final error ∧
              final.updates ≤ start.updates + (attempts + 1) := by
        intro next hnext error final hfails
        refine ⟨hfails.refuses.after hnext.1, ?_⟩
        rw [hfails.1.2, hnext.2]
        omega
      apply Ends.bind
      apply (host.treeOf_ends base).mono _ (hbuilding (Session.Waits.refl start))
      rintro baseTree first ⟨rfl, hfirst⟩
      apply Ends.bind
      apply (host.createTree_ends base.tree entries).mono _ (hbuilding hfirst)
      rintro tree second ⟨⟨rfl, -⟩, hsecond⟩
      have hsecond := hfirst.trans hsecond
      apply Ends.bind
      apply (host.createCommit_ends message _ base).mono _ (hbuilding hsecond)
      rintro commit third ⟨rfl, hthird⟩
      have hthird := hsecond.trans hthird
      -- Where the update applies the base is the head, so it is one the branch has not left.
      have hreads : ∀ {next : Session}, Session.After third next →
          Commit.parent? (.on base message (layered base.tree entries)) = some next.head →
            host.Reads changes base := by
        intro next hnext hparent
        rcases hbase with hreads | hleft
        · exact hreads
        · have hhead : base = next.head := Option.some.inj hparent
          have hle := (hthird.1.trans hnext).length_le
          rw [← hhead] at hle
          omega
      apply Ends.bind
      apply (host.updateRef_ends _).mono
      · rintro moved fourth ⟨next, hnext, hupdates, ⟨rfl, hmoved⟩ | ⟨rfl, hparent, hfourth⟩⟩
        · apply Ends.ite
          · intro _
            refine Ends.pure ⟨?_, by rw [hupdates, hthird.2]; omega⟩
            exact (Moved.lands hentries hmoved (hreads hnext hmoved.parent)).after
              (hthird.1.trans hnext)
          · exact fun h => absurd rfl h
        · apply Ends.ite
          · exact nofun
          · intro _
            have hlost := (hthird.1.trans hnext).trans hfourth
            have hbound : fourth.updates = start.updates + 1 := by rw [hupdates, hthird.2]
            apply Ends.bind
            apply host.readHead_ends.mono
            · rintro head fifth ⟨rfl, hfifth⟩
              have hfive := hlost.trans hfifth.1
              apply Ends.bind
              apply (refuseIfAWrittenPathMoved_ends fifth.head fifth).mono
              · intro _ sixth hsixth
                have hsix := hfive.trans hsixth.1.1
                have hupdates : sixth.updates = start.updates + 1 := by
                  rw [hsixth.1.2, hfifth.2, hbound]
                apply (ih fifth.head sixth (Or.inl hsixth.2)).mono
                · intro commit final hfinal
                  exact ⟨hfinal.1.after hsix, by omega⟩
                · intro error final hfinal
                  exact ⟨hfinal.1.after hsix, by omega⟩
              · rintro error sixth ⟨hsixth, hkind⟩
                have hupdates : sixth.updates ≤ start.updates + (attempts + 1) := by
                  rw [hsixth.2, hfifth.2, hbound]
                  omega
                have hsix := hfive.trans hsixth.1
                refine ⟨⟨fun path herror => ?_, fun _ => hsix, Or.inl hsix⟩, hupdates⟩
                rcases hkind with hhost | ⟨change, hchange, hconflict, hmoved⟩
                · exact absurd herror (hhost.2 path)
                · rw [hconflict] at herror
                  cases herror
                  exact ⟨fifth.head, change, hchange, rfl, hmoved, hfive.mem_history,
                    hsixth.1.mem_history⟩
            · intro error fifth hfails
              refine ⟨hfails.refuses.after hlost, ?_⟩
              rw [hfails.1.2, hbound]
              omega
      · rintro error fourth ⟨hkind, hupdates, hbranch⟩
        refine ⟨?_, by rw [hupdates, hthird.2]; omega⟩
        rcases hbranch with hafter | ⟨⟨detail, rfl⟩, next, hnext, hmoved⟩
        · have hfour := hthird.1.trans hafter
          exact ⟨fun path herror => absurd herror (hkind.2 path), fun _ => hfour, Or.inl hfour⟩
        · have hlands := (Moved.lands hentries hmoved (hreads hnext hmoved.parent)).after
            (hthird.1.trans hnext)
          exact ⟨nofun, fun hkind => absurd rfl (hkind detail), Or.inr ⟨_, hlands⟩⟩

/-- The blobs are created once, one for each change. -/
theorem createBlobs_ends (start : Session) :
    Ends (changes.mapM fun change => do
        let sha ← host.createBlob change.text
        pure (change.path, sha)) start
      (fun entries next =>
        entries = changes.map (fun change => (change.path, host.hash change.text)) ∧
          Session.Waits start next) (FailsOf start) := by
  have hmapM : Ends (changes.mapM fun change => do
        let sha ← host.createBlob change.text
        pure (change.path, sha)) start
      (fun entries next => List.Forall₂
        (fun change entry => entry = (change.path, host.hash change.text)) changes entries ∧
          Session.Waits start next) (FailsOf start) := by
    apply Ends.mapM (Session.Waits.refl start)
    intro change _ state hstate
    apply Ends.bind
    apply (host.createBlob_ends change.text).mono
    · exact fun sha next hnext => Ends.pure ⟨by rw [hnext.1], hstate.trans hnext.2⟩
    · exact fun error next hfails => ⟨hstate.trans hfails.1, hfails.2⟩
  apply hmapM.mono _ fun _ _ h => h
  rintro entries next ⟨hentries, hnext⟩
  refine ⟨?_, hnext⟩
  clear hmapM
  induction hentries with
  | nil => rfl
  | cons hentry _ ih => rw [hentry, ih, List.map_cons]

/-- One desired-state change lands whole on what its caller read, or not at all. -/
theorem updateFilesAtomically_ends (base : CommitRevision) (start : Session)
    (hbase : host.Reads changes base ∨ base.history.length < start.head.history.length) :
    Ends (host.updateFilesAtomically base changes message) start
      (fun commit final => host.Lands changes message start final commit ∧
        final.updates ≤ start.updates + ATTEMPTS)
      (fun error final => host.Refuses changes message start final error ∧
        final.updates ≤ start.updates + ATTEMPTS) := by
  apply Ends.ite
  · intro _
    exact Ends.throw ⟨⟨nofun, fun _ => Session.After.refl start,
      Or.inl (Session.After.refl start)⟩, Nat.le_add_right _ _⟩
  · intro _
    apply Ends.bind
    apply (createBlobs_ends start).mono
    · rintro entries next ⟨hentries, hnext⟩
      have hlength := hnext.1.length_le
      apply (attemptFrom_ends hentries ATTEMPTS base next (hbase.imp id (by omega))).mono
      · intro commit final hfinal
        exact ⟨hfinal.1.after hnext.1, by rw [← hnext.2]; exact hfinal.2⟩
      · intro error final hfinal
        exact ⟨hfinal.1.after hnext.1, by rw [← hnext.2]; exact hfinal.2⟩
    · intro error next hfails
      refine ⟨hfails.refuses, ?_⟩
      rw [hfails.1.2]
      exact Nat.le_add_right _ _

end Host

end PlatformGit
end SaasFabric
