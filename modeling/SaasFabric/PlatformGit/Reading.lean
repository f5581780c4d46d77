import SaasFabric.PlatformGit.Desired
import SaasFabric.PlatformGit.EnvironmentFiles
import SaasFabric.Library.Fallible

/-!
# What a write reads before it writes

The manifest or a document as it stands at one commit the branch was at, and the pinned files
at the same commit, each with the text its pins make of it.  Nothing that is read or computed on
the way fails as a conflict does.
-/

namespace SaasFabric
namespace PlatformGit

open Library
open Platform (DesiredRevision)

/-! ## What the pure steps fail with -/

theorem ofHost_rejected (detail : String) : PlatformGitError.OfHost (.rejected detail) :=
  ⟨nofun, nofun⟩

theorem ofHost_unavailable (detail : String) : PlatformGitError.OfHost (.unavailable detail) :=
  ⟨nofun, nofun⟩

theorem Document.parse_fails (yaml : Yaml Manifest) (text : String) :
    FailsWith PlatformGitError.OfHost (Document.parse yaml text) := by
  unfold Document.parse
  dsimp only
  split
  · exact FailsWith.error (ofHost_rejected _)
  · apply FailsWith.ite
    · exact fun _ h => by cases h; exact ofHost_rejected _
    · split
      · exact FailsWith.error (ofHost_rejected _)
      · apply FailsWith.map
        apply FailsWith.forM
        rintro ⟨name, component⟩ _
        dsimp only
        split
        · exact FailsWith.ok _
        · exact FailsWith.ok _
        · split
          · exact FailsWith.error (ofHost_rejected _)
          · split
            · exact FailsWith.ok _
            · exact FailsWith.error (ofHost_rejected _)

theorem Document.render_fails (yaml : Yaml Manifest) (document : Document) :
    FailsWith PlatformGitError.OfHost (document.render yaml) := by
  unfold Document.render
  split
  · exact FailsWith.error (ofHost_unavailable _)
  · exact FailsWith.ok _

theorem checkWritable_fails (path : String) (roots : List String) :
    FailsWith PlatformGitError.OfHost (checkWritable path roots) := by
  unfold checkWritable
  dsimp only
  split
  · exact FailsWith.error (ofHost_rejected _)
  · split
    · exact FailsWith.error (ofHost_rejected _)
    · split
      · exact FailsWith.error (ofHost_rejected _)
      · split
        · exact FailsWith.ok _
        · exact FailsWith.error (ofHost_rejected _)

theorem checkRelease_fails (component : String) (entry : Component) (wanted : WantedVersion) :
    FailsWith PlatformGitError.OfHost (checkRelease component entry wanted) := by
  have himages : ∀ images unit, FailsWith PlatformGitError.OfHost
      (checkImages component images unit) := by
    intro images unit
    unfold checkImages
    dsimp only
    apply FailsWith.ite
    · exact FailsWith.error (ofHost_rejected _)
    · apply FailsWith.forM
      intro pair _
      apply FailsWith.ite
      · exact FailsWith.error (ofHost_rejected _)
      · exact FailsWith.ok _
  unfold checkRelease
  split
  · exact himages _ _
  · exact FailsWith.ite (FailsWith.ok _) (FailsWith.error (ofHost_rejected _))
  · apply FailsWith.bind (himages _ _)
    exact fun _ => FailsWith.ite (FailsWith.ok _) (FailsWith.error (ofHost_rejected _))
  · exact FailsWith.error (ofHost_rejected _)

theorem repin_fails (text repository version digest : String) :
    FailsWith PlatformGitError.OfHost (repin text repository version digest) := by
  unfold repin
  dsimp only
  exact FailsWith.ite (FailsWith.error (ofHost_rejected _)) (FailsWith.ok _)

theorem retarget_fails (text repository chart version : String) :
    FailsWith PlatformGitError.OfHost (retarget text repository chart version) :=
  FailsWith.mapError fun _ => ofHost_rejected _

theorem render_fails (text path component : String) (entry : Component) (pin : Pin)
    (wanted : WantedVersion) :
    FailsWith PlatformGitError.OfHost (render text path component entry pin wanted) := by
  have himages : ∀ images unit, FailsWith PlatformGitError.OfHost
      (renderImages text path component entry images unit pin) := by
    intro images unit
    unfold renderImages
    split
    · unfold repinRole
      split
      · exact FailsWith.error (ofHost_rejected _)
      · split
        · exact FailsWith.ok _
        · exact FailsWith.map (repin_fails _ _ _ _)
    · exact FailsWith.error (ofHost_rejected _)
  unfold render
  split
  · exact himages _ _
  · exact himages _ _
  · unfold renderChart
    split
    · apply FailsWith.ite
      · exact FailsWith.error (ofHost_rejected _)
      · exact FailsWith.map (retarget_fails _ _ _ _)
    · exact FailsWith.error (ofHost_rejected _)
  · exact FailsWith.error (ofHost_rejected _)

theorem movedEntry_fails (component : String) (entry : Component) (wanted : WantedVersion)
    (hold : HoldChange) :
    FailsWith PlatformGitError.OfHost (Host.movedEntry component entry wanted hold) := by
  apply FailsWith.map
  unfold apply
  split
  · exact FailsWith.ok _
  · exact FailsWith.ok _
  · exact FailsWith.ok _
  · exact FailsWith.error (ofHost_rejected _)

namespace Host

variable {host : Host} {start : Session}

/-- A failure of a pure step leaves the branch to others. -/
theorem ofExcept_ends {α : Type} {result : Except PlatformGitError α} {origin : Session}
    (hwaits : Session.Waits origin start) (hfails : FailsWith PlatformGitError.OfHost result) :
    Ends (MonadExcept.ofExcept result) start
      (fun value final => result = .ok value ∧ Session.Waits origin final) (FailsOf origin) :=
  Ends.liftExcept (fun _ hok => ⟨hok, hwaits⟩) fun error herror => ⟨hwaits, hfails error herror⟩

/-- A commit the branch was at between two points of a call. -/
structure Between (start final : Session) (commit : Commit) : Prop where
  since : start.head ∈ commit.history
  until_ : commit ∈ final.head.history

theorem Between.waits {next final : Session} {commit : Commit} (h : Between start next commit)
    (hwaits : Session.Waits next final) : Between start final commit :=
  ⟨h.since, Commit.mem_history_trans h.until_ hwaits.1.mem_history⟩

/-- What a manifest that was read is. -/
structure ReadsManifest (host : Host) (yaml : Yaml Manifest) (environment : String) (read : ReadManifest) :
    Prop where
  path : read.stored.path = manifestPath environment
  revision : host.revisionIn read.head (manifestPath environment) = some read.stored.revision
  text : read.stored.text = host.stored read.stored.revision.value
  parse : Document.parse yaml read.stored.text = .ok read.document
  environment : read.document.manifest.environment = environment

theorem readManifest_ends (yaml : Yaml Manifest) (environment : String) :
    Ends (host.readManifest yaml environment) start
      (fun read final => ReadsManifest host yaml environment read ∧
        Between start final read.head ∧ Session.Waits start final)
      (FailsOf start) := by
  apply Ends.bind
  apply host.readHead_ends.mono _ fun _ _ h => h
  rintro head first ⟨rfl, hfirst⟩
  apply Ends.bind
  apply (host.read_ends _ _).mono
  · rintro stored second ⟨⟨hpath, htext, hrevision⟩, hsecond⟩
    apply Ends.bind
    apply (ofExcept_ends hsecond (Document.parse_fails yaml stored.text)).mono
    · rintro document third ⟨hparse, hthird⟩
      apply Ends.ite
      · exact fun _ => Ends.throw ⟨hfirst.trans hthird, ofHost_rejected _⟩
      · intro henvironment
        exact Ends.pure ⟨⟨hpath, hrevision, htext, hparse, not_not.mp henvironment⟩,
          ⟨hfirst.1.mem_history, hthird.1.mem_history⟩, hfirst.trans hthird⟩
    · exact fun error third hfails => ⟨hfirst.trans hfails.1, hfails.2⟩
  · exact fun error second hfails => ⟨hfirst.trans hfails.1.1, hfails.1.2⟩

/-! ### The pinned files -/

/-- What the pins of one file make of its text, one after the other. -/
def rewrittenText (component : String) (entry : Component) (wanted : WantedVersion)
    (pins : List Pin) (path text : String) : Except PlatformGitError String :=
  (pins.filter fun pin => pin.path = path).foldlM
    (fun text pin => (fun rewritten => rewritten.getD text) <$>
      render text pin.path component entry pin wanted) text

/-- The change some pins make to a file, as it stands at a commit. -/
def PinsChange (host : Host) (head : Commit) (component : String) (entry : Component)
    (wanted : WantedVersion) (pins : List Pin) (path : String) (change : FileChange) : Prop :=
  ∃ revision, host.revisionIn head path = some revision ∧ change.path = path ∧
    change.expected = some revision ∧
      rewrittenText component entry wanted pins path (host.stored revision.value) =
        .ok change.text

/-- The files edited for some pins: each of theirs, and no other. -/
def PinsEdited (host : Host) (head : Commit) (component : String) (entry : Component)
    (wanted : WantedVersion) (pins : List Pin) (edited : BTreeMap String FileChange) : Prop :=
  ∀ path, (path ∈ pins.map Pin.path → ∃ change, edited[path]? = some change ∧
      PinsChange host head component entry wanted pins path change) ∧
    (path ∉ pins.map Pin.path → edited[path]? = none)

section Pins

variable {head : Commit} {component : String} {entry : Component} {wanted : WantedVersion}
  {done : List Pin} {pin : Pin}

theorem rewrittenText_append_of_ne {path text : String} (hne : pin.path ≠ path) :
    rewrittenText component entry wanted (done ++ [pin]) path text =
      rewrittenText component entry wanted done path text := by
  simp [rewrittenText, List.filter_append, hne]

theorem rewrittenText_append_self {text rewritten : String} {rendered : Option String}
    (hdone : rewrittenText component entry wanted done pin.path text = .ok rewritten)
    (hrender : render rewritten pin.path component entry pin wanted = .ok rendered) :
    rewrittenText component entry wanted (done ++ [pin]) pin.path text =
      .ok (rendered.getD rewritten) := by
  have hfilter : (done ++ [pin]).filter (fun other => decide (other.path = pin.path)) =
      done.filter (fun other => decide (other.path = pin.path)) ++ [pin] := by
    simp [List.filter_append]
  unfold rewrittenText at hdone ⊢
  rw [hfilter, List.foldlM_append, hdone]
  dsimp only [bind, Except.bind]
  rw [List.foldlM_cons, hrender]
  rfl

/-- Of a file no pin was in, its text is what was read. -/
theorem rewrittenText_of_not_mem {path text : String} (h : path ∉ done.map Pin.path) :
    rewrittenText component entry wanted done path text = .ok text := by
  have hfilter : done.filter (fun other => decide (other.path = path)) = [] := by
    rw [List.filter_eq_nil_iff]
    intro other hother hpath
    exact h (List.mem_map.mpr ⟨other, hother, of_decide_eq_true hpath⟩)
  rw [rewrittenText, hfilter]
  rfl

theorem pinnedFile_ends {edited : BTreeMap String FileChange}
    (hedited : PinsEdited host head component entry wanted done edited) (path : String) :
    Ends (host.pinnedFile head path edited) start
      (fun change final => PinsChange host head component entry wanted done path change ∧
        Session.Waits start final) (FailsOf start) := by
  unfold pinnedFile
  by_cases hmem : path ∈ done.map Pin.path
  · obtain ⟨change, hchange, hpins⟩ := (hedited path).1 hmem
    rw [hchange]
    exact Ends.pure ⟨hpins, Session.Waits.refl start⟩
  · rw [(hedited path).2 hmem]
    apply Ends.bind
    apply (host.read_ends path head).mono
    · rintro stored next ⟨⟨hpath, htext, hrevision⟩, hnext⟩
      refine Ends.pure ⟨⟨stored.revision, hrevision, rfl, rfl, ?_⟩, hnext⟩
      rw [rewrittenText_of_not_mem hmem, htext]
    · exact fun error next hfails => hfails.1

theorem rewritePin_ends {roots : List String} {edited : BTreeMap String FileChange}
    (hedited : PinsEdited host head component entry wanted done edited) :
    Ends (host.rewritePin head component entry wanted roots edited pin) start
      (fun edited final => PinsEdited host head component entry wanted (done ++ [pin]) edited ∧
        Session.Waits start final) (FailsOf start) := by
  apply Ends.bind
  apply (ofExcept_ends (Session.Waits.refl start) (checkWritable_fails _ _)).mono _
    fun _ _ h => h
  rintro _ first ⟨-, hfirst⟩
  apply Ends.bind
  apply (pinnedFile_ends hedited pin.path).mono
  · rintro change second ⟨⟨revision, hrevision, hpath, hexpected, htext⟩, hsecond⟩
    apply Ends.bind
    apply (ofExcept_ends (hfirst.trans hsecond) (render_fails _ _ _ _ _ _)).mono _
      fun _ _ h => h
    rintro rendered third ⟨hrender, hthird⟩
    refine Ends.pure ⟨fun path => ?_, hthird⟩
    by_cases hpin : pin.path = path
    · subst hpin
      refine ⟨fun _ => ⟨_, getElem?_insert_self _ _ _, revision, hrevision, hpath, hexpected, ?_⟩,
        fun hnot => absurd (by simp) hnot⟩
      exact rewrittenText_append_self htext hrender
    · rw [getElem?_insert_ne _ _ hpin]
      have hmem : path ∈ (done ++ [pin]).map Pin.path ↔ path ∈ done.map Pin.path := by
        simp [Ne.symm hpin]
      rw [hmem]
      refine ⟨fun hdone => ?_, (hedited path).2⟩
      obtain ⟨other, hother, otherRevision, hfound, hotherPath, hotherExpected, hotherText⟩ :=
        (hedited path).1 hdone
      refine ⟨other, hother, otherRevision, hfound, hotherPath, hotherExpected, ?_⟩
      rw [rewrittenText_append_of_ne hpin]
      exact hotherText
  · exact fun error second hfails => ⟨hfirst.trans hfails.1, hfails.2⟩

/-- What the changes of all pins are: one for each pinned file. -/
structure PinsChanges (host : Host) (head : Commit) (component : String) (entry : Component)
    (wanted : WantedVersion) (changes : List FileChange) : Prop where
  distinct : (changes.map FileChange.path).Nodup
  pinned : ∀ change ∈ changes, change.path ∈ entry.pinnedIn.map Pin.path ∧
    PinsChange host head component entry wanted entry.pinnedIn change.path change
  complete : ∀ pin ∈ entry.pinnedIn, ∃ change ∈ changes, change.path = pin.path

theorem PinsEdited.changes {edited : BTreeMap String FileChange}
    (h : PinsEdited host head component entry wanted entry.pinnedIn edited) :
    PinsChanges host head component entry wanted (edited.toList.map Prod.snd) := by
  have hentry : ∀ {path change}, (path, change) ∈ edited.toList →
      path ∈ entry.pinnedIn.map Pin.path ∧
        PinsChange host head component entry wanted entry.pinnedIn path change := by
    intro path change hmem
    rw [Std.ExtTreeMap.mem_toList_iff_getElem?_eq_some] at hmem
    by_cases hpinned : path ∈ entry.pinnedIn.map Pin.path
    · obtain ⟨other, hother, hpins⟩ := (h path).1 hpinned
      rw [hother] at hmem
      cases hmem
      exact ⟨hpinned, hpins⟩
    · rw [(h path).2 hpinned] at hmem
      cases hmem
  have hpath : ∀ item ∈ edited.toList, item.2.path = item.1 := by
    intro item hitem
    obtain ⟨_, _, hpath, _⟩ := (hentry hitem).2
    exact hpath
  constructor
  · have hkeys : (edited.toList.map Prod.snd).map FileChange.path =
        edited.toList.map Prod.fst := by
      rw [List.map_map]
      exact List.map_congr_left hpath
    rw [hkeys, Std.ExtTreeMap.map_fst_toList_eq_keys]
    have hdistinct := Std.ExtTreeMap.distinct_keys (t := edited)
    exact hdistinct.imp fun hne heq => hne (by simp [heq])
  · intro change hchange
    obtain ⟨item, hitem, rfl⟩ := List.mem_map.mp hchange
    rw [hpath item hitem]
    exact hentry hitem
  · intro pin hpin
    obtain ⟨change, hchange, hpins⟩ := (h pin.path).1 (List.mem_map_of_mem hpin)
    have hmem := Std.ExtTreeMap.mem_toList_iff_getElem?_eq_some.mpr hchange
    exact ⟨change, List.mem_map.mpr ⟨_, hmem, rfl⟩, hpath _ hmem⟩

theorem rewritePins_ends {roots : List String} :
    Ends (host.rewritePins head component entry wanted roots) start
      (fun changes final => PinsChanges host head component entry wanted changes ∧
        Session.Waits start final) (FailsOf start) := by
  have hfold : Ends
      (entry.pinnedIn.foldlM (host.rewritePin head component entry wanted roots) ∅) start
      (fun edited final => PinsEdited host head component entry wanted entry.pinnedIn edited ∧
        Session.Waits start final) (FailsOf start) := by
    apply Ends.foldlM fun done edited state =>
      PinsEdited host head component entry wanted done edited ∧ Session.Waits start state
    · exact ⟨fun path => ⟨by simp, by simp⟩, Session.Waits.refl start⟩
    · intro done pin rest _ edited state hstate
      apply (rewritePin_ends hstate.1).mono
      · exact fun _ next hnext => ⟨hnext.1, hstate.2.trans hnext.2⟩
      · exact fun error next hfails => ⟨hstate.2.trans hfails.1, hfails.2⟩
  apply Ends.bind
  apply hfold.mono _ fun _ _ h => h
  intro edited final hfinal
  exact Ends.pure ⟨PinsEdited.changes hfinal.1, hfinal.2⟩

end Pins

/-! ### An environment's documents -/

section Documents

variable {α : Type} {kind : DocumentKind α} {yaml : Yaml (Envelope α)} {environment : String}

theorem EnvironmentDocument.parse_fails (text : String) :
    FailsWith PlatformGitError.OfHost (EnvironmentDocument.parse kind yaml text) := by
  unfold EnvironmentDocument.parse
  dsimp only
  split
  · exact FailsWith.error (ofHost_rejected _)
  · apply FailsWith.ite
    · exact FailsWith.error (ofHost_rejected _)
    · split
      · exact FailsWith.error (ofHost_rejected _)
      · exact FailsWith.ok _

end Documents

end Host

end PlatformGit
end SaasFabric
