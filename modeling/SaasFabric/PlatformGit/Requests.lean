import SaasFabric.PlatformGit.Host

/-!
# What each request leaves of the branch

Between two points of a call the branch gains commits and loses none: other parties' while a
request waits its turn, and this call's own by a ref update that applied.  Each request's
specification says which, and a host's own failure is never a conflict.
-/

namespace SaasFabric
namespace PlatformGit

open Library

namespace Commit

theorem mem_history_trans {first second third : Commit} (h : first ∈ second.history)
    (h' : second ∈ third.history) : first ∈ third.history := by
  induction third with
  | initial tree =>
      rw [history, List.mem_singleton] at h'
      subst h'
      exact h
  | on parent message tree ih =>
      rw [history, List.mem_cons] at h'
      rcases h' with rfl | hearlier
      · exact h
      · rw [history]
        exact List.mem_cons_of_mem _ (ih hearlier)

end Commit

/-! ## What the branch gained -/

/-- From one point of a call to a later one other parties put `gained` on the branch, in this
order, and nothing else happened to it. -/
structure Session.Gains (start next : Session) (gained : List Commit) : Prop where
  moves : next.moves = start.moves ++ gained.map fun commit => (Party.others, commit)
  history : next.head.history = gained.reverse ++ start.head.history

/-- From one point of a call to a later one only other parties moved the branch. -/
def Session.After (start next : Session) : Prop :=
  ∃ gained, Session.Gains start next gained

namespace Session

variable {start next final : Session}

theorem Gains.refl (session : Session) : Gains session session [] :=
  ⟨by simp, by simp⟩

theorem Gains.trans {first second : List Commit} (h : Gains start next first)
    (h' : Gains next final second) : Gains start final (first ++ second) := by
  constructor
  · rw [h'.moves, h.moves, List.map_append, List.append_assoc]
  · rw [h'.history, h.history, List.reverse_append, List.append_assoc]

theorem After.refl (session : Session) : After session session :=
  ⟨[], Gains.refl session⟩

theorem After.trans (h : After start next) (h' : After next final) : After start final := by
  obtain ⟨first, hfirst⟩ := h
  obtain ⟨second, hsecond⟩ := h'
  exact ⟨first ++ second, hfirst.trans hsecond⟩

/-- What the branch was at stays in what it comes to. -/
theorem After.mem_history (h : After start next) : start.head ∈ next.head.history := by
  obtain ⟨gained, hgained⟩ := h
  rw [hgained.history]
  exact List.mem_append_right _ start.head.self_mem_history

/-- The branch does not come back to a commit it has left. -/
theorem After.length_le (h : After start next) :
    start.head.history.length ≤ next.head.history.length := by
  obtain ⟨gained, hgained⟩ := h
  rw [hgained.history, List.length_append]
  omega

/-- Counting requests and ref updates leaves the branch as it is. -/
theorem After.of_eq (hmoves : next.moves = start.moves) (hhead : next.head = start.head) :
    After start next :=
  ⟨[], by simp [hmoves], by simp [hhead]⟩

theorem afterOthers_gains (session : Session) (commits : List (String × Tree)) :
    After session (session.afterOthers commits) := by
  induction commits generalizing session with
  | nil => exact After.refl session
  | cons commit commits ih =>
      obtain ⟨message, tree⟩ := commit
      have hpush : After session (session.push .others (.on session.head message tree)) :=
        ⟨[.on session.head message tree], rfl, rfl⟩
      exact hpush.trans (ih _)

@[simp] theorem afterOthers_updates (session : Session) (commits : List (String × Tree)) :
    (session.afterOthers commits).updates = session.updates := by
  induction commits generalizing session with
  | nil => rfl
  | cons commit commits ih => exact ih _

end Session

/-! ## What each request does -/

/-- What a host's own failure is called: neither a conflict nor contention. -/
def PlatformGitError.OfHost (error : PlatformGitError) : Prop :=
  error ≠ .contended ∧ ∀ path, error ≠ .conflict path

theorem Trouble.ofHost_toError (trouble : Trouble) : trouble.toError.OfHost := by
  cases trouble <;> exact ⟨nofun, nofun⟩

/-- While a request waits, the branch is moved by others only, and no ref update is asked for. -/
def Session.Waits (start next : Session) : Prop :=
  Session.After start next ∧ next.updates = start.updates

theorem Session.Waits.refl (session : Session) : Session.Waits session session :=
  ⟨Session.After.refl session, rfl⟩

theorem Session.Waits.trans {start next final : Session} (h : Session.Waits start next)
    (h' : Session.Waits next final) : Session.Waits start final :=
  ⟨h.1.trans h'.1, h'.2.trans h.2⟩

namespace Host

variable (host : Host) {start : Session}

theorem takeUp_ends : Ends host.takeUp start (fun _ next => Session.Waits start next)
    (fun _ _ => False) := by
  apply Ends.bind
  apply Ends.get
  apply Ends.bind
  apply Ends.set
  apply Ends.pure
  have hothers := Session.afterOthers_gains start (host.turns start.asked).others
  exact ⟨hothers.trans (Session.After.of_eq rfl rfl), Session.afterOthers_updates _ _⟩

/-- A request that came to nothing: the branch was left to others. -/
def FailsOf (start : Session) (error : PlatformGitError) (next : Session) : Prop :=
  Session.Waits start next ∧ error.OfHost

theorem request_ends : Ends host.request start (fun _ next => Session.Waits start next)
    (fun error next => FailsOf start error next ∧ ∀ what, error ≠ .notFound what) := by
  apply Ends.bind
  apply host.takeUp_ends.mono _ (fun _ _ h => h.elim)
  intro trouble next hnext
  cases trouble with
  | none => exact hnext
  | some trouble =>
      exact ⟨⟨hnext, trouble.ofHost_toError⟩, by cases trouble <;> exact nofun⟩

/-- A request whose answer is decided by what was asked. -/
theorem request_bind_ends {α : Type} {rest : Program Session PlatformGitError α}
    {Gives : α → Session → Prop} {Fails : PlatformGitError → Session → Prop}
    (hrest : ∀ next, Session.Waits start next → Ends rest next Gives Fails)
    (hfails : ∀ error next, FailsOf start error next → (∀ what, error ≠ .notFound what) →
      Fails error next) :
    Ends (host.request >>= fun _ => rest) start Gives Fails := by
  apply Ends.bind
  apply host.request_ends.mono
  · exact fun _ next hnext => hrest next hnext
  · exact fun error next hnext => hfails error next hnext.1 hnext.2

theorem createBlob_ends (text : String) : Ends (host.createBlob text) start
    (fun sha next => sha = host.hash text ∧ Session.Waits start next) (FailsOf start) :=
  host.request_bind_ends (fun _ hnext => Ends.pure ⟨rfl, hnext⟩) fun _ _ h _ => h

theorem treeOf_ends (commit : CommitRevision) : Ends (host.treeOf commit) start
    (fun tree next => tree = commit.tree ∧ Session.Waits start next) (FailsOf start) :=
  host.request_bind_ends (fun _ hnext => Ends.pure ⟨rfl, hnext⟩) fun _ _ h _ => h

/-- The tree an entry list makes of another, where the host accepts the entries' paths. -/
def layered (baseTree : Tree) (entries : List (String × String)) : Tree :=
  collectInto baseTree (entries.map fun entry => (entry.1, ⟨entry.2⟩))

theorem createTree_ends (baseTree : Tree) (entries : List (String × String)) :
    Ends (host.createTree baseTree entries) start
      (fun tree next => (tree = layered baseTree entries ∧
        ∀ entry ∈ entries, host.locate entry.1 = entry.1) ∧ Session.Waits start next)
      (FailsOf start) := by
  apply host.request_bind_ends _ fun _ _ h _ => h
  intro next hnext
  apply Ends.ite
  · intro hall
    refine Ends.pure ⟨⟨rfl, fun entry hentry => ?_⟩, hnext⟩
    exact host.locate_of_takes _ (List.all_eq_true.mp hall entry hentry)
  · exact fun _ => Ends.throw ⟨hnext, nofun, nofun⟩

theorem createCommit_ends (message : String) (tree : Tree) (parent : CommitRevision) :
    Ends (host.createCommit message tree parent) start
      (fun commit next => commit = .on parent message tree ∧ Session.Waits start next)
      (FailsOf start) :=
  host.request_bind_ends (fun _ hnext => Ends.pure ⟨rfl, hnext⟩) fun _ _ h _ => h

theorem readHead_ends : Ends host.readHead start
    (fun commit next => commit = next.head ∧ Session.Waits start next) (FailsOf start) := by
  apply host.request_bind_ends _ fun _ _ h _ => h
  intro next hnext
  apply Ends.bind
  apply Ends.get
  exact Ends.pure ⟨rfl, hnext⟩

/-- A file as it stands at a commit, or that there is none. -/
theorem read_ends (path : String) (commit : CommitRevision) :
    Ends (host.read path commit) start
      (fun file next => (file.path = path ∧ file.text = host.stored file.revision.value ∧
        host.revisionIn commit path = some file.revision) ∧ Session.Waits start next)
      (fun error next => FailsOf start error next ∧
        ∀ what, error = .notFound what → host.revisionIn commit path = none) := by
  apply host.request_bind_ends
  · intro next hnext
    cases hrevision : host.revisionIn commit path with
    | none => exact Ends.throw ⟨⟨hnext, nofun, nofun⟩, fun _ _ => rfl⟩
    | some revision => exact Ends.pure ⟨⟨rfl, rfl, rfl⟩, hnext⟩
  · exact fun error _ hfails hfound => ⟨hfails, fun what herror => absurd herror (hfound what)⟩

theorem orAbsent_ends {α : Type} {absent : α} {program : Program Session PlatformGitError α}
    {Gives : α → Session → Prop} {Fails : PlatformGitError → Session → Prop}
    (h : Ends program start Gives fun error next =>
      (∀ what, error = .notFound what → Gives absent next) ∧
        ((∀ what, error ≠ .notFound what) → Fails error next)) :
    Ends (orAbsent absent program) start Gives Fails := by
  apply Ends.tryCatch
  apply h.mono (fun _ _ hgives => hgives)
  intro error next hnext
  cases error with
  | notFound what => exact Ends.pure (hnext.1 what rfl)
  | _ => exact Ends.throw (hnext.2 nofun)

theorem revisionAt_ends (path : String) (commit : CommitRevision) :
    Ends (host.revisionAt path commit) start
      (fun revision next => revision = host.revisionIn commit path ∧ Session.Waits start next)
      (FailsOf start) := by
  apply orAbsent_ends
  apply Ends.bind
  apply (host.read_ends path commit).mono
  · exact fun file next hfile => Ends.pure ⟨hfile.1.2.2.symm, hfile.2⟩
  · intro error next hfails
    exact ⟨fun what herror => ⟨(hfails.2 what herror).symm, hfails.1.1⟩, fun _ => hfails.1⟩

/-- The branch moved to a commit made on its head, and by this call. -/
structure Moved (start final : Session) (commit : Commit) : Prop where
  parent : commit.parent? = some start.head
  head : final.head = commit
  moves : final.moves = start.moves ++ [(Party.us, commit)]

/-- The branch moves to a commit exactly where its parent is the head.  Where the host's answer
was lost it may have moved as well. -/
theorem updateRef_ends (commit : CommitRevision) :
    Ends (host.updateRef commit) start
      (fun moved final => ∃ next, Session.After start next ∧ final.updates = start.updates + 1 ∧
        ((moved = .applied ∧ Moved next final commit) ∨
          (moved = .notFastForward ∧ commit.parent? ≠ some next.head ∧
            Session.After next final)))
      (fun error final => error.OfHost ∧ final.updates = start.updates + 1 ∧
        (Session.After start final ∨
          (∃ detail, error = .unavailable detail) ∧
            ∃ next, Session.After start next ∧ Moved next final commit)) := by
  apply Ends.bind
  apply host.takeUp_ends.mono _ (fun _ _ h => h.elim)
  intro trouble next hnext
  apply Ends.bind
  apply Ends.modify
  apply Ends.bind
  apply Ends.get
  have hupdates : next.updates + 1 = start.updates + 1 := by rw [hnext.2]
  cases trouble with
  | none =>
      -- The host moves the branch only forward from its head.
      by_cases hparent : commit.parent? = some next.head
      · apply Ends.bind
        apply Ends.set
        rw [fastForward, if_pos hparent]
        exact Ends.pure ⟨next, hnext.1, hupdates, Or.inl ⟨rfl, hparent, rfl, rfl⟩⟩
      · apply Ends.bind
        apply Ends.set
        rw [fastForward, if_neg hparent]
        exact Ends.pure ⟨next, hnext.1, hupdates,
          Or.inr ⟨rfl, hparent, Session.After.of_eq rfl rfl⟩⟩
  | some trouble =>
      cases trouble with
      | lost detail acted =>
          apply Ends.bind
          apply Ends.set
          refine Ends.throw ⟨⟨nofun, nofun⟩, ?_⟩
          by_cases hacted : acted = true ∧ commit.parent? = some next.head
          · rw [fastForward, if_pos hacted.1, if_pos hacted.2]
            exact ⟨hupdates, Or.inr ⟨⟨detail, rfl⟩, next, hnext.1, hacted.2, rfl, rfl⟩⟩
          · -- The host did not act, or refused to.
            have hstays : (if acted then (fastForward
                { next with updates := next.updates + 1 } commit).1
                else { next with updates := next.updates + 1 }) =
                  { next with updates := next.updates + 1 } := by
              cases acted with
              | false => rfl
              | true =>
                  have hparent : commit.parent? ≠ some next.head := fun h => hacted ⟨rfl, h⟩
                  rw [if_pos rfl, fastForward, if_neg hparent]
            rw [hstays]
            exact ⟨hupdates, Or.inl (hnext.1.trans (Session.After.of_eq rfl rfl))⟩
      | notPermitted =>
          exact Ends.throw ⟨⟨nofun, nofun⟩, hupdates,
            Or.inl (hnext.1.trans (Session.After.of_eq rfl rfl))⟩
      | rejected detail =>
          exact Ends.throw ⟨⟨nofun, nofun⟩, hupdates,
            Or.inl (hnext.1.trans (Session.After.of_eq rfl rfl))⟩

end Host

end PlatformGit
end SaasFabric
