import SaasFabric.PlatformGit.Retargeted
import SaasFabric.PlatformGit.Writes

/-!
# After a desired-state write the manifest and every pin say one release

What a component is after a write, what its pinned files were rewritten to, and that the commit
the write landed holds both: the manifest with one entry moved, and each pinned file with every
pin of it read back, exactly where no pin of the file stands in another's way.
-/

namespace SaasFabric
namespace PlatformGit

open Library
open Platform (Hold DesiredRevision)

/-! ## The component a write leaves -/

/-- The images of a release, on the repositories the component publishes to. -/
def SameImages (images : BTreeMap String ImagePin) (unit : ComponentVersion)
    (moved : BTreeMap String ImagePin) : Prop :=
  ∀ role : String, (∃ (image : ImagePin) (offered : ImageDigest), images[role]? = some image ∧ unit.images[role]? = some offered ∧
      offered.repository = image.repository ∧
        moved[role]? = some (ImagePin.mk image.repository offered.digest)) ∨
    images[role]? = none ∧ unit.images[role]? = none ∧ moved[role]? = none

/-- An artifact moved to a release of its own kind. -/
inductive MovesTo (wanted : WantedVersion) : Artifact → Artifact → Prop
  | images {before : String} {images moved : BTreeMap String ImagePin} {unit : ComponentVersion}
      (hwanted : wanted = .images unit) (h : SameImages images unit moved) :
      MovesTo wanted (.oci before images) (.oci unit.sourceRevision moved)
  | chart {repository chart version : String} (hwanted : wanted = .chart repository chart version) :
      MovesTo wanted (.helm repository chart) (.helm repository chart)
  | described {primary before : String} {images moved : BTreeMap String ImagePin}
      {unit : ComponentVersion} (hwanted : wanted = .described unit primary)
      (h : SameImages images unit moved) :
      MovesTo wanted (.described primary before images) (.described primary unit.sourceRevision moved)

/-- A component moved to a release: its policy, its channel and its pins are what they were. -/
structure SaysRelease (wanted : WantedVersion) (hold : HoldChange) (entry moved : Component) :
    Prop where
  version : moved.desired.version = wanted.version
  artifact : MovesTo wanted entry.artifact moved.artifact
  channel : moved.channel = entry.channel
  update : moved.update = entry.update
  pinnedIn : moved.pinnedIn = entry.pinnedIn
  held : moved.hold = match hold with
    | .keep => entry.hold
    | .set hold => some hold

theorem exists_mem_zip {K A B : Type} {first : List (K × A)} {second : List (K × B)}
    (hkeys : first.map Prod.fst = second.map Prod.fst) {key : K} {value : A}
    (h : (key, value) ∈ first) : ∃ other, ((key, value), (key, other)) ∈ first.zip second := by
  induction first generalizing second with
  | nil => cases h
  | cons item first ih =>
      cases second with
      | nil => cases hkeys
      | cons item' second =>
          obtain ⟨hkey, hrest⟩ := List.cons.inj hkeys
          rcases List.mem_cons.mp h with rfl | hmem
          · have hkey : key = item'.1 := hkey
            refine ⟨item'.2, ?_⟩
            rw [List.zip_cons_cons, hkey]
            exact List.mem_cons_self
          · obtain ⟨other, hother⟩ := ih hrest hmem
            exact ⟨other, by rw [List.zip_cons_cons]; exact List.mem_cons_of_mem _ hother⟩

/-- An image keeps its repository, and has the digest offered for its role where one is. -/
theorem getElem?_moveDigests (images : BTreeMap String ImagePin) (unit : ComponentVersion)
    (role : String) : (moveDigests images unit)[role]? = images[role]?.map fun image =>
      { image with digest := unit.images[role]?.elim image.digest ImageDigest.digest } := by
  have hmap : (moveDigests images unit)[role]? = images[role]?.map _ :=
    Std.ExtTreeMap.getElem?_map
  rw [hmap]
  cases unit.images[role]? <;> rfl

theorem getElem?_eq_none_of_keys {T U : Type} {first : BTreeMap String T}
    {second : BTreeMap String U} {role : String}
    (hkeys : first.keys = second.keys) (h : first[role]? = none) : second[role]? = none := by
  cases hsecond : second[role]? with
  | none => rfl
  | some image =>
      have hmem : role ∈ second.keys := by
        rw [Std.ExtTreeMap.mem_keys, Std.ExtTreeMap.mem_iff_isSome_getElem?, hsecond]
        rfl
      rw [← hkeys, Std.ExtTreeMap.mem_keys, Std.ExtTreeMap.mem_iff_isSome_getElem?, h] at hmem
      cases hmem

/-- Of a release that is accepted, the images are the component's, by role and repository. -/
theorem sameImages_of_check {component : String} {images : BTreeMap String ImagePin}
    {unit : ComponentVersion} (h : checkImages component images unit = .ok ()) :
    SameImages images unit (moveDigests images unit) := by
  unfold checkImages at h
  dsimp only at h
  split at h
  · cases h
  · next hkeys =>
      have hkeys : images.keys = unit.images.keys := not_not.mp hkeys
      have hpairs := forM_eq_ok.mp h
      have hlists : images.toList.map Prod.fst = unit.images.toList.map Prod.fst := by
        rw [Std.ExtTreeMap.map_fst_toList_eq_keys, Std.ExtTreeMap.map_fst_toList_eq_keys, hkeys]
      intro role
      cases himage : images[role]? with
      | none =>
          refine .inr ⟨rfl, getElem?_eq_none_of_keys hkeys himage, ?_⟩
          rw [getElem?_moveDigests, himage]
          rfl
      | some image =>
          obtain ⟨offered, hzip⟩ := exists_mem_zip hlists
            (Std.ExtTreeMap.mem_toList_iff_getElem?_eq_some.mpr himage)
          have hoffered := Std.ExtTreeMap.mem_toList_iff_getElem?_eq_some.mp
            (List.of_mem_zip hzip).2
          have hrepository : offered.repository = image.repository := by
            by_contra hne
            have hpair := hpairs _ hzip
            rw [if_pos hne] at hpair
            cases hpair
          refine .inl ⟨image, offered, rfl, hoffered, hrepository, ?_⟩
          rw [getElem?_moveDigests, himage, hoffered]
          rfl

/-- What is left of a component whose release was accepted says that release. -/
theorem saysRelease_of_moved {component : String} {entry moved : Component} {wanted : WantedVersion}
    {hold : HoldChange} (hcheck : checkRelease component entry wanted = .ok ())
    (hmoved : Host.movedEntry component entry wanted hold = .ok moved) :
    SaysRelease wanted hold entry moved := by
  have happlied : ∀ {next : Component}, SaysRelease wanted .keep entry next →
      SaysRelease wanted hold entry (hold.applied next) := by
    intro next hnext
    cases hold with
    | keep => exact hnext
    | set hold => exact { hnext with held := rfl }
  obtain ⟨next, hnext, rfl⟩ : ∃ next, apply component entry wanted = .ok next ∧
      hold.applied next = moved := by
    unfold Host.movedEntry at hmoved
    cases hnext : apply component entry wanted with
    | error error =>
        rw [hnext] at hmoved
        cases hmoved
    | ok next =>
        rw [hnext] at hmoved
        exact ⟨next, rfl, Except.ok.inj hmoved⟩
  apply happlied
  unfold apply at hnext
  unfold checkRelease at hcheck
  -- A release of another shape than the artifact's is not applied.
  cases hartifact : entry.artifact with
  | oci before images =>
      rw [hartifact] at hnext hcheck
      cases wanted with
      | images unit =>
          cases hnext
          refine ⟨rfl, ?_, rfl, rfl, rfl, rfl⟩
          rw [hartifact]
          exact .images rfl (sameImages_of_check hcheck)
      | chart repository chart version => cases hnext
      | described unit primary => cases hnext
  | helm repository chart =>
      rw [hartifact] at hnext hcheck
      cases wanted with
      | images unit => cases hnext
      | chart foundRepository foundChart version =>
          cases hnext
          refine ⟨rfl, ?_, rfl, rfl, rfl, rfl⟩
          have hcheck : checkChart component repository chart foundRepository foundChart = .ok () :=
            hcheck
          unfold checkChart at hcheck
          split at hcheck
          · next hsame =>
              rw [hartifact, ← hsame.1, ← hsame.2]
              exact .chart (by rw [hsame.1, hsame.2])
          · cases hcheck
      | described unit primary => cases hnext
  | described primary before images =>
      rw [hartifact] at hnext hcheck
      cases wanted with
      | images unit => cases hnext
      | chart repository chart version => cases hnext
      | described unit found =>
          cases hnext
          refine ⟨rfl, ?_, rfl, rfl, rfl, rfl⟩
          obtain ⟨himages, hprimary⟩ := check_bind_eq_ok.mp hcheck
          unfold checkPrimary at hprimary
          split at hprimary
          · next hsame =>
              rw [hartifact]
              exact .described (by rw [hsame]) (sameImages_of_check himages)
          · cases hprimary

/-! ## The files it leaves -/

/-- The repository and the digest an image pin is written with. -/
def imagePin (images : BTreeMap String ImagePin) (unit : ComponentVersion) :
    Pin → Option (String × String)
  | .kustomizeImage _ role =>
      (images[role]?).bind fun image =>
        (unit.images[role]?).map fun offered => (image.repository, offered.digest)
  | .argoTargetRevision .. => none

/-- What the image pins of one file say, of a file whose lines all end in a line feed and of values
that fit on a line: the release, each of them, exactly where no pin's entry stands in another's way;
and outside their entries every line is what it was. -/
def ImagesSay (images : BTreeMap String ImagePin) (unit : ComponentVersion) (pins : List Pin)
    (before after : String) : Prop :=
  LineFed before → FitsLine unit.version.toList →
    (∀ pin ∈ pins.filterMap (imagePin images unit), FitsLine pin.2.toList) →
      ((∀ pin ∈ pins.filterMap (imagePin images unit),
          readImage pin.1 after = some (unit.version.toList, pin.2.toList)) ↔
        OneDigest (pins.filterMap (imagePin images unit)) ∧
          Clear unit.version before (pins.filterMap (imagePin images unit))) ∧
      linesOutside ((pins.filterMap (imagePin images unit)).map Prod.fst) after =
        linesOutside ((pins.filterMap (imagePin images unit)).map Prod.fst) before

/-- What the pins of a file say of a release. -/
inductive PinsSay (wanted : WantedVersion) (pins : List Pin) (before after : String) :
    Artifact → Prop
  | images {revision : String} {images : BTreeMap String ImagePin} {unit : ComponentVersion}
      (hwanted : wanted = .images unit) (h : ImagesSay images unit pins before after) :
      PinsSay wanted pins before after (.oci revision images)
  | chart {repository chart foundRepository foundChart version : String}
      (hwanted : wanted = .chart foundRepository foundChart version)
      (h : Argo.MovesOneVersion before repository chart version after) :
      PinsSay wanted pins before after (.helm repository chart)
  | described {primary revision found : String} {images : BTreeMap String ImagePin}
      {unit : ComponentVersion} (hwanted : wanted = .described unit found)
      (h : ImagesSay images unit pins before after) :
      PinsSay wanted pins before after (.described primary revision images)

/-- One pin after another. -/
def renderAll (component : String) (entry : Component) (wanted : WantedVersion) (pins : List Pin)
    (text : String) : Except PlatformGitError String :=
  pins.foldlM (fun text pin => (fun rewritten => rewritten.getD text) <$>
    render text pin.path component entry pin wanted) text

/-- The pins of a component published as images, as the repinnings they are. -/
theorem renderAll_images {component : String} {entry : Component} {wanted : WantedVersion}
    {images : BTreeMap String ImagePin} {unit : ComponentVersion}
    (hrender : ∀ text pin, render text pin.path component entry pin wanted =
      renderImages text pin.path component entry images unit pin) {pins : List Pin}
    {before after : String} (h : renderAll component entry wanted pins before = .ok after) :
    repinAll unit.version before (pins.filterMap (imagePin images unit)) = .ok after := by
  induction pins generalizing before with
  | nil => exact h
  | cons pin pins ih =>
      unfold renderAll at h
      rw [List.foldlM_cons, hrender] at h
      obtain ⟨next, hnext, hrest⟩ := bind_eq_ok.mp h
      obtain ⟨rewritten, hpin, rfl⟩ := map_eq_ok.mp hnext
      have hlater := ih hrest
      cases pin with
      | argoTargetRevision path repository chart => cases hpin
      | kustomizeImage path role =>
          have hpin : repinRole before path component images role unit = .ok rewritten := hpin
          have hpinned : imagePin images unit (.kustomizeImage path role) =
              (images[role]?).bind fun image =>
                (unit.images[role]?).map fun offered => (image.repository, offered.digest) := rfl
          unfold repinRole at hpin
          rw [List.filterMap_cons, hpinned]
          cases himage : images[role]? with
          | none =>
              rw [himage] at hpin
              cases hpin
          | some image =>
              rw [himage] at hpin
              dsimp only at hpin
              cases hoffered : unit.images[role]? with
              | none =>
                  rw [hoffered] at hpin
                  cases hpin
                  exact hlater
              | some offered =>
                  rw [hoffered] at hpin
                  obtain ⟨text, hrepin, rfl⟩ := map_eq_ok.mp hpin
                  show (repin before image.repository unit.version offered.digest >>= fun next =>
                    repinAll unit.version next (pins.filterMap (imagePin images unit))) = _
                  rw [hrepin]
                  exact hlater

/-- The pins of a component published as a chart: after the first the others change nothing. -/
theorem renderAll_chart {component repository chart version : String} {entry : Component}
    {wanted : WantedVersion}
    (hrender : ∀ text pin, render text pin.path component entry pin wanted =
      renderChart text pin.path component entry repository chart version pin) {pins : List Pin}
    (hpins : pins ≠ []) {before after : String}
    (h : renderAll component entry wanted pins before = .ok after) :
    retarget before repository chart version = .ok after := by
  have hone : ∀ {text next : String} {pin : Pin},
      (fun rewritten => rewritten.getD text) <$> render text pin.path component entry pin wanted =
        .ok next → retarget text repository chart version = .ok next := by
    intro text next pin hnext
    obtain ⟨rewritten, hpin, rfl⟩ := map_eq_ok.mp hnext
    rw [hrender] at hpin
    cases pin with
    | kustomizeImage path role => cases hpin
    | argoTargetRevision path pinnedRepository pinnedChart =>
        unfold renderChart at hpin
        dsimp only at hpin
        split at hpin
        · cases hpin
        · next hsame =>
            rw [not_or, not_not, not_not] at hsame
            obtain ⟨text, hretarget, rfl⟩ := map_eq_ok.mp hpin
            rw [← hsame.1, ← hsame.2]
            exact hretarget
  -- What the first pin writes is what every later one writes again.
  have hrest : ∀ {pins : List Pin} {text final : String},
      retarget before repository chart version = .ok text →
        renderAll component entry wanted pins text = .ok final → final = text := by
    intro pins
    induction pins with
    | nil =>
        intro text final _ hfinal
        exact (Except.ok.inj hfinal).symm
    | cons pin pins ih =>
        intro text final htext hfinal
        unfold renderAll at hfinal
        rw [List.foldlM_cons] at hfinal
        obtain ⟨next, hnext, hlater⟩ := bind_eq_ok.mp hfinal
        have hsame : retarget text repository chart version = .ok text := by
          rw [(Argo.retarget_moves_one_version htext).forgets version, htext]
        have heq : next = text := by
          have hagain := hone hnext
          rw [hsame] at hagain
          exact (Except.ok.inj hagain).symm
        subst heq
        exact ih htext hlater
  cases pins with
  | nil => exact absurd rfl hpins
  | cons pin pins =>
      unfold renderAll at h
      rw [List.foldlM_cons] at h
      obtain ⟨next, hnext, hlater⟩ := bind_eq_ok.mp h
      rw [hrest (hone hnext) hlater]
      exact hone hnext

theorem imagesSay_of_repinAll {images : BTreeMap String ImagePin} {unit : ComponentVersion}
    {pins : List Pin} {before after : String}
    (h : repinAll unit.version before (pins.filterMap (imagePin images unit)) = .ok after) :
    ImagesSay images unit pins before after := by
  intro hfed hversion hdigests
  refine ⟨repinAll_reads hfed hversion hdigests h, ?_⟩
  exact linesOutside_repinAll (fun pin hpin => List.mem_map_of_mem hpin) hfed hversion hdigests h

/-- What is left of a file whose pins were all rendered says the release that was accepted. -/
theorem pinsSay_of_renderAll {component : String} {entry moved : Component}
    {wanted : WantedVersion} {hold : HoldChange} (hrelease : SaysRelease wanted hold entry moved)
    {pins : List Pin} (hpins : pins ≠ []) {before after : String}
    (h : renderAll component entry wanted pins before = .ok after) :
    PinsSay wanted pins before after entry.artifact := by
  have hartifact := hrelease.artifact
  generalize hbefore : entry.artifact = first at hartifact
  generalize moved.artifact = second at hartifact
  cases hartifact with
  | images hwanted _ =>
      subst hwanted
      refine .images rfl (imagesSay_of_repinAll (renderAll_images (fun text pin => ?_) h))
      unfold render
      rw [hbefore]
  | chart hwanted =>
      subst hwanted
      refine .chart rfl (Argo.retarget_moves_one_version (renderAll_chart (fun text pin => ?_) hpins h))
      unfold render
      rw [hbefore]
  | described hwanted _ =>
      subst hwanted
      refine .described rfl (imagesSay_of_repinAll (renderAll_images (fun text pin => ?_) h))
      unfold render
      rw [hbefore]

/-! ## The commit -/

namespace Host

/-- A commit that says one release: the manifest, read at some earlier commit, with one entry moved
to it, and every pinned file of that commit with all of its pins moved to it. -/
structure OneRelease (host : Host) (yaml : Yaml Manifest) (environment component : String)
    (wanted : WantedVersion) (hold : HoldChange) (read : ReadManifest) (entry moved : Component)
    (commit : Commit) : Prop where
  found : read.document.manifest.components[component]? = some entry
  release : SaysRelease wanted hold entry moved
  manifest : ∃ after body, yaml.write after = .ok body ∧
    commit.tree[manifestPath environment]? = some ⟨host.hash (read.document.header ++ body)⟩ ∧
      after.components[component]? = some moved ∧
        (∀ other, component ≠ other →
          after.components[other]? = read.document.manifest.components[other]?) ∧
          after.schemaVersion = read.document.manifest.schemaVersion ∧
            after.environment = environment ∧
              after.managedRoots = read.document.manifest.managedRoots
  pins : ∀ path ∈ entry.pinnedIn.map Pin.path, path ≠ manifestPath environment →
    ∃ revision after, host.revisionIn read.head path = some revision ∧
      commit.tree[path]? = some ⟨host.hash after⟩ ∧
        PinsSay wanted (entry.pinnedIn.filter fun pin => pin.path = path)
          (host.stored revision.value) after entry.artifact

theorem writtenText_append_of_ne {changes : List FileChange} {change : FileChange} {path : String}
    (hne : change.path ≠ path) :
    writtenText (changes ++ [change]) path = writtenText changes path := by
  simp [writtenText, hne]

theorem writtenText_append_self (changes : List FileChange) (change : FileChange) :
    writtenText (changes ++ [change]) change.path = some change.text := by
  simp [writtenText]

/-- The changes of a write, landed, are the release in every file it is written in. -/
theorem DesiredChanges.oneRelease {host : Host} {yaml : Yaml Manifest}
    {environment component : String} {wanted : WantedVersion} {hold : HoldChange}
    {read : ReadManifest} {entry : Component} {changes : List FileChange} {message : String}
    {start final : Session} {commit : Commit} (hread : ReadsManifest host yaml environment read)
    (hfound : read.document.manifest.components[component]? = some entry)
    (h : DesiredChanges host yaml read component entry wanted hold changes)
    (hlands : host.Lands changes message start final commit) :
    ∃ moved, OneRelease host yaml environment component wanted hold read entry moved commit := by
  obtain ⟨pinned, moved, text, hpinned, hmoved, htext, hmade⟩ := h.made
  obtain ⟨parent, -, -, htree⟩ := hlands.onto
  have hrelease := saysRelease_of_moved h.release hmoved
  rw [hread.path] at hmade
  have hbody : ∃ body, yaml.write (withEntry read.document component moved).manifest = .ok body ∧
      text = read.document.header ++ body := by
    unfold Document.render at htext
    split at htext
    · cases htext
    · next body hwrite => exact ⟨body, hwrite, (Except.ok.inj htext).symm⟩
  obtain ⟨body, hwrite, hbody⟩ := hbody
  refine ⟨moved, hfound, hrelease, ⟨_, body, hwrite, ?_, ?_, ?_, rfl, hread.environment, rfl⟩, ?_⟩
  · have hwritten : writtenText changes (manifestPath environment) = some text := by
      rw [hmade]
      exact writtenText_append_self pinned _
    rw [htree, hwritten, ← hbody]
    rfl
  · exact getElem?_insert_self _ _ _
  · exact fun other hother => getElem?_insert_ne _ _ hother
  · intro path hpath hne
    obtain ⟨pin, hpin, rfl⟩ := List.mem_map.mp hpath
    obtain ⟨change, hchange, hsame⟩ := hpinned.complete pin hpin
    obtain ⟨revision, hrevision, -, -, hrewritten⟩ := (hpinned.pinned change hchange).2
    rw [hsame] at hrevision hrewritten
    refine ⟨revision, change.text, hrevision, ?_, ?_⟩
    · have hwritten : writtenText changes pin.path = some change.text := by
        rw [hmade, writtenText_append_of_ne (Ne.symm hne), ← hsame]
        exact writtenText_of_mem hpinned.distinct hchange
      rw [htree, hwritten]
      rfl
    · refine pinsSay_of_renderAll hrelease ?_ hrewritten
      exact List.ne_nil_of_mem (List.mem_filter.mpr ⟨hpin, by simp⟩)

/-- A desired-state write that is answered with a commit moved the component and all of its pins to
one release, whatever the branch did meanwhile. -/
theorem written_commit_says_one_release (host : Host) (yaml : Yaml Manifest)
    (environment component : String) (wanted : WantedVersion) (hold : HoldChange)
    (revision : DesiredRevision) (message : String) (start : Session) :
    Ends (host.writeDesired yaml environment component wanted hold revision message) start
      (fun commit final => final.head = commit ∧ ∃ read entry moved,
        ReadsManifest host yaml environment read ∧ read.stored.revision.value = revision.value ∧
          OneRelease host yaml environment component wanted hold read entry moved commit)
      (fun error final => (∀ detail, error ≠ .unavailable detail) → Session.After start final) := by
  apply writeDesired_reads.mono
  · rintro commit final ⟨read, entry, changes, hread, -, hsame, hfound, hchanges, hlands, -⟩
    obtain ⟨moved, hmoved⟩ := hchanges.oneRelease hread hfound hlands
    exact ⟨hlands.head, read, entry, moved, hread, hsame, hmoved⟩
  · exact fun error final h => h.1.unchanged

end Host

end PlatformGit
end SaasFabric
