import SaasFabric.Reader.LastKnownGood

/-!
# Published files

`fabric-tenant-runtime`'s `publication/published_files.rs` and the two passes that use
it: read the record and the three documents, choose, install what was chosen, and note
what was installed.  What a pass reads is whatever the files hold at that moment.
-/

namespace SaasFabric
namespace Reader

open SaasFabric.Runtime

/-- What reading one file answers. -/
inductive FileRead where
  | contents (bytes : Bytes)
  | notFound (cause : String)
  | failed (cause : String)

/-- `read_optional`. -/
def FileRead.readOptional (origin : String) : FileRead → Except SourceError (Option Bytes)
  | .contents bytes => .ok (some bytes)
  | .notFound _ => .ok none
  | .failed cause => .error (.unreadable origin cause)

/-- `read`. -/
def FileRead.read (origin : String) : FileRead → Except SourceError Bytes
  | .contents bytes => .ok bytes
  | .notFound cause => .error (.unreadable origin cause)
  | .failed cause => .error (.unreadable origin cause)

/-- What the files answer in one pass; the three documents are read once more where there
is no record. -/
structure Reads where
  record : FileRead
  dataSources : FileRead
  tenants : FileRead
  catalog : FileRead
  dataSourcesAgain : FileRead
  tenantsAgain : FileRead
  catalogAgain : FileRead

/-- The four paths, as they are displayed. -/
structure Paths where
  tenants : String
  dataSources : String
  catalog : String
  record : String

variable {Catalogue : Type} (codecs : Codecs Catalogue) (envelopes : EnvelopeCodec)

/-- `Progress`. -/
structure Progress where
  pending : Option (ParsedGeneration codecs)
  recorded : Option U64

/-- `PublishedFiles`. -/
structure PublishedFiles where
  paths : Paths
  lastKnownGood : Option LastKnownGood
  progress : Progress codecs

namespace PublishedFiles

/-- `PublishedFiles::new`, with a last-known-good store over a file or without one. -/
def new (paths : Paths) (store : Option (String × Option Bytes)) : PublishedFiles codecs where
  paths := paths
  lastKnownGood := store.map fun store => LastKnownGood.new store.1 store.2
  progress := ⟨none, none⟩

variable {codecs}

/-- `PublishedFiles::describe`. -/
def describe (files : PublishedFiles codecs) : String :=
  s!"published files: tenants={files.paths.tenants}, data_sources={files.paths.dataSources}, " ++
    s!"catalog={files.paths.catalog}, record={files.paths.record}"

/-- `PublishedFiles::read`. -/
def read (files : PublishedFiles codecs) (reads : Reads) :
    Except SourceError (Option (CompleteGeneration codecs)) := do
  let origin := files.describe
  match ← reads.record.readOptional origin with
  | none => .ok none
  | some record =>
      let dataSources ← reads.dataSources.read origin
      let tenants ← reads.tenants.read origin
      let catalog ← reads.catalog.read origin
      some <$> CompleteGeneration.verify codecs record dataSources tenants catalog origin

/-- `without_copy`. -/
def withoutCopy (read : Except SourceError (Option (CompleteGeneration codecs)))
    (recorded : Option U64) (origin : String) : Choice codecs :=
  let parsed := do
    match ← read with
    | none => .ok none
    | some complete => some <$> ParsedGeneration.parse complete origin
  Choice.onRefresh parsed recorded origin

/-- `PublishedFiles::unrecorded`: the documents as they are, with no record over them. -/
def unrecorded (files : PublishedFiles codecs) (reads : Reads) :
    Except SourceError (PublishedState Catalogue) := do
  let dataSourcesOrigin := s!"file:{files.paths.dataSources}"
  let bytes ← reads.dataSourcesAgain.read dataSourcesOrigin
  let dataSources ← parse codecs.readDataSources bytes dataSourcesOrigin
  let tenantsOrigin := s!"file:{files.paths.tenants}"
  let bytes ← reads.tenantsAgain.read tenantsOrigin
  let tenants ← parse codecs.readTenants bytes tenantsOrigin
  let bytes ← reads.catalogAgain.read files.describe
  let catalogue ← (codecs.decodeCatalogue bytes).mapError
    (.malformed s!"catalogue: {files.paths.catalog}")
  .ok (.unrecorded dataSources tenants catalogue)

/-- The state a chosen generation is loaded as. -/
def stateOf (generation : ParsedGeneration codecs) (origin : GenerationOrigin) :
    PublishedState Catalogue :=
  .generation generation.generation generation.complete.recordDigest origin
    generation.dataSources generation.tenants generation.catalogue

/-- `PublishedFiles::apply`. -/
def apply (files : PublishedFiles codecs) (reads : Reads) :
    Choice codecs → PublishedFiles codecs × Except SourceError (PublishedState Catalogue)
  | .published generation =>
      ({ files with progress := { files.progress with pending := some generation } },
        .ok (stateOf generation .published))
  | .lastKnownGood generation heldBecause =>
      (files, .ok (stateOf generation (.lastKnownGood heldBecause)))
  | .refused error => (files, .error error)
  | .unrecorded => (files, files.unrecorded reads)

/-- `PublishedFiles::load`. -/
def load (files : PublishedFiles codecs) (reads : Reads) :
    PublishedFiles codecs × Except SourceError (PublishedState Catalogue) :=
  let choice := match files.lastKnownGood with
    | some held => held.onRefresh (files.read reads) files.describe
    | none => withoutCopy (files.read reads) files.progress.recorded files.describe
  files.apply reads choice

/-- What the copy's read makes of the holder, and the first choice. -/
def chooseAtStart (files : PublishedFiles codecs) (copyFault : Option String) (reads : Reads) :
    PublishedFiles codecs × Choice codecs :=
  match files.lastKnownGood with
  | some held =>
      let started := held.atStart envelopes copyFault (files.read reads) files.describe
      ({ files with lastKnownGood := some started.1 }, started.2)
  | none => (files, withoutCopy (files.read reads) none files.describe)

/-- `PublishedFiles::load_at_start`. -/
def loadAtStart (files : PublishedFiles codecs) (copyFault : Option String) (reads : Reads) :
    PublishedFiles codecs × Except SourceError (PublishedState Catalogue) :=
  let chosen := files.chooseAtStart envelopes copyFault reads
  chosen.1.apply reads chosen.2

/-- `PublishedFiles::installed`. -/
def installed (files : PublishedFiles codecs) (generation : U64) (recordSha256 : RecordDigest)
    (answers : AcceptAnswers) : PublishedFiles codecs :=
  let pending := files.progress.pending.filter fun pending =>
    pending.complete.recordDigest == recordSha256
  { files with
    progress := ⟨none, Library.maxFloor files.progress.recorded (some generation)⟩
    lastKnownGood := match files.lastKnownGood, pending with
      | some held, some pending => some (held.accept envelopes pending answers)
      | held, _ => held }

/-! ## The floor and the copy -/

/-- The generation below which nothing recorded is loaded. -/
def floor (files : PublishedFiles codecs) : Option U64 :=
  match files.lastKnownGood with
  | some held => held.floor
  | none => files.progress.recorded

/-- The persisted copy. -/
def copy (files : PublishedFiles codecs) : Option Bytes :=
  files.lastKnownGood.bind (·.file)

/-- No copy is above the floor, unless it was refused. -/
def Guarded (files : PublishedFiles codecs) : Prop :=
  ∀ held, files.lastKnownGood = some held → held.Guarded codecs envelopes

/-- A state that was loaded: a recorded generation that is not below the floor, pending
until it is installed unless it is the copy itself, or an unrecorded state where there is
no floor. -/
def Offers (files : PublishedFiles codecs) : PublishedState Catalogue → Prop
  | .generation number recordSha256 _ _ _ _ =>
      (files.floor = some number ∧ files.progress.pending = none) ∨
        ∃ pending, files.progress.pending = some pending ∧ pending.generation = number ∧
          pending.complete.recordDigest = recordSha256 ∧
          (∀ held, files.floor = some held → held ≤ number) ∧
          (files.lastKnownGood.isSome → pending.Servable)
  | .unrecorded _ _ _ => files.floor = none

end PublishedFiles

/-! ## Loading -/

section Loading

variable {codecs} {envelopes}

open PublishedFiles

/-- Applying a choice that does not go below the floor. -/
theorem PublishedFiles.apply_spec {files after : PublishedFiles codecs} {reads : Reads}
    {choice : Choice codecs} {result : Except SourceError (PublishedState Catalogue)}
    (h : files.apply reads choice = (after, result)) (hrespects : choice.Respects files.floor)
    (hservable : ∀ generation, choice = .published generation →
      files.lastKnownGood.isSome → generation.Servable)
    (hcopy : ∀ generation heldBecause, choice = .lastKnownGood generation heldBecause →
      files.progress.pending = none) :
    after.lastKnownGood = files.lastKnownGood ∧
      after.progress.recorded = files.progress.recorded ∧
      ∀ state, result = .ok state → after.Offers state := by
  cases choice with
  | published generation =>
      cases h
      refine ⟨rfl, rfl, fun state hstate => ?_⟩
      cases hstate
      exact Or.inr ⟨generation, rfl, rfl, rfl, hrespects, hservable generation rfl⟩
  | lastKnownGood generation heldBecause =>
      cases h
      refine ⟨rfl, rfl, fun state hstate => ?_⟩
      cases hstate
      exact Or.inl ⟨hrespects, hcopy generation heldBecause rfl⟩
  | refused error =>
      cases h
      refine ⟨rfl, rfl, fun state hstate => ?_⟩
      cases hstate
  | unrecorded =>
      cases h
      refine ⟨rfl, rfl, fun state hstate => ?_⟩
      unfold PublishedFiles.unrecorded at hstate
      simp only [Library.bind_eq_ok] at hstate
      obtain ⟨_, -, _, -, _, -, _, -, _, -, _, -, hstate⟩ := hstate
      cases hstate
      exact hrespects

/-- Without a copy, the choice does not go below what was recorded, and never falls back. -/
theorem PublishedFiles.withoutCopy_spec
    (read : Except SourceError (Option (CompleteGeneration codecs))) (recorded : Option U64)
    (origin : String) :
    (withoutCopy read recorded origin).Respects recorded ∧
      ∀ generation heldBecause,
        withoutCopy read recorded origin ≠ .lastKnownGood generation heldBecause := by
  refine ⟨Choice.respects_onRefresh _ _ _, fun generation heldBecause h => ?_⟩
  exact absurd h Choice.onRefresh_ne_lastKnownGood

/-- A refresh leaves the floor and the copy as they are, and loads nothing below the
floor. -/
theorem PublishedFiles.load_spec {files after : PublishedFiles codecs} {reads : Reads}
    {result : Except SourceError (PublishedState Catalogue)}
    (h : files.load reads = (after, result)) :
    after.lastKnownGood = files.lastKnownGood ∧
      after.progress.recorded = files.progress.recorded ∧
      ∀ state, result = .ok state → after.Offers state := by
  unfold PublishedFiles.load at h
  cases hheld : files.lastKnownGood with
  | some held =>
      rw [hheld] at h
      have hfloor : files.floor = held.floor := by
        unfold PublishedFiles.floor
        rw [hheld]
      refine hheld ▸ apply_spec h ?_ (fun generation hgeneration _ => ?_)
        (fun generation heldBecause hgeneration => ?_)
      · rw [hfloor]
        exact Choice.respects_onRefresh _ _ _
      · exact LastKnownGood.servable_of_validated (Choice.onRefresh_eq_published hgeneration)
      · exact absurd hgeneration Choice.onRefresh_ne_lastKnownGood
  | none =>
      rw [hheld] at h
      have hfloor : files.floor = files.progress.recorded := by
        unfold PublishedFiles.floor
        rw [hheld]
      obtain ⟨hrespects, hnever⟩ :=
        withoutCopy_spec (files.read reads) files.progress.recorded files.describe
      refine hheld ▸ apply_spec h ?_ (fun generation _ hsome => ?_)
        (fun generation heldBecause hgeneration => absurd hgeneration (hnever _ _))
      · rw [hfloor]
        exact hrespects
      · rw [hheld] at hsome
        cases hsome

/-- At the start the copy is left as it is, and nothing below it is loaded. -/
theorem PublishedFiles.loadAtStart_spec {paths : Paths}
    {store : Option (String × Option Bytes)} {copyFault : Option String} {reads : Reads}
    {after : PublishedFiles codecs} {result : Except SourceError (PublishedState Catalogue)}
    (h : (PublishedFiles.new codecs paths store).loadAtStart envelopes copyFault reads =
      (after, result)) :
    after.copy = store.bind Prod.snd ∧
      after.floor = (if copyFault.isSome then none
        else copyGeneration codecs envelopes (store.bind Prod.snd)) ∧
      after.Guarded envelopes ∧ ∀ state, result = .ok state → after.Offers state := by
  unfold PublishedFiles.loadAtStart PublishedFiles.chooseAtStart at h
  cases store with
  | none =>
      have hnew : (PublishedFiles.new codecs paths none).lastKnownGood = none := rfl
      rw [hnew] at h
      dsimp only at h
      obtain ⟨hrespects, hnever⟩ := withoutCopy_spec
        ((PublishedFiles.new codecs paths none).read reads) none
        (PublishedFiles.new codecs paths none).describe
      obtain ⟨hheld, hrecorded, hoffers⟩ := apply_spec h hrespects
        (fun generation _ hsome => nomatch hsome)
        (fun generation heldBecause hgeneration => absurd hgeneration (hnever _ _))
      rw [hnew] at hheld
      refine ⟨?_, ?_, fun held hsome => ?_, hoffers⟩
      · unfold PublishedFiles.copy
        rw [hheld]
        rfl
      · unfold PublishedFiles.floor
        rw [hheld]
        exact hrecorded.trans (ite_self _).symm
      · rw [hheld] at hsome
        cases hsome
  | some store =>
      obtain ⟨path, file⟩ := store
      have hnew : (PublishedFiles.new codecs paths (some (path, file))).lastKnownGood =
        some (LastKnownGood.new path file) := rfl
      rw [hnew] at h
      dsimp only at h
      generalize hstarted : (LastKnownGood.new path file).atStart envelopes copyFault
        ((PublishedFiles.new codecs paths (some (path, file))).read reads)
        (PublishedFiles.new codecs paths (some (path, file))).describe = started at h
      obtain ⟨held, choice⟩ := started
      obtain ⟨hfile, hguarded, hrespects, hservable⟩ := LastKnownGood.atStart_spec hstarted
      obtain ⟨hheld, -, hoffers⟩ := apply_spec h hrespects
        (fun generation hgeneration _ => hservable generation hgeneration)
        (fun _ _ _ => rfl)
      refine ⟨?_, ?_, fun other hother => ?_, hoffers⟩
      · unfold PublishedFiles.copy
        rw [hheld]
        exact hfile
      · unfold PublishedFiles.floor
        rw [hheld]
        exact LastKnownGood.floor_atStart hstarted
      · rw [hheld] at hother
        cases hother
        exact hguarded

/-- Noting an installed generation: the floor becomes that generation, and the copy is
left or follows. -/
theorem PublishedFiles.installed_spec (hround : envelopes.json.RoundTrips)
    {files : PublishedFiles codecs} (hguarded : files.Guarded envelopes) {number : U64}
    {recordSha256 : RecordDigest} {origin : GenerationOrigin} {dataSources : List DataSource}
    {tenants : List TenantRuntimeBinding} {catalogue : Catalogue}
    (hoffers : files.Offers (.generation number recordSha256 origin dataSources tenants
      catalogue)) (answers : AcceptAnswers) :
    (files.installed envelopes number recordSha256 answers).floor = some number ∧
      (files.installed envelopes number recordSha256 answers).Guarded envelopes ∧
      CopyFollows codecs envelopes files.copy
        (files.installed envelopes number recordSha256 answers).copy := by
  -- What is offered is at the floor or above it.
  have hle : ∀ held, files.floor = some held → held ≤ number := by
    rcases hoffers with ⟨hfloor, -⟩ | ⟨_, -, -, -, hle, -⟩
    · intro held hheld
      rw [hfloor] at hheld
      cases hheld
      exact le_rfl
    · exact hle
  cases hheld : files.lastKnownGood with
  | none =>
      have hfloor : files.floor = files.progress.recorded := by
        unfold PublishedFiles.floor
        rw [hheld]
      have hafter : (files.installed envelopes number recordSha256 answers).lastKnownGood =
          none := by
        unfold PublishedFiles.installed
        rw [hheld]
      refine ⟨?_, fun held hsome => ?_, Or.inl ?_⟩
      · unfold PublishedFiles.floor
        rw [hafter]
        exact Library.maxFloor_some_of_forall_le (hfloor ▸ hle)
      · rw [hafter] at hsome
        cases hsome
      · unfold PublishedFiles.copy
        rw [hafter, hheld]
  | some held =>
      have hfloor : files.floor = held.floor := by
        unfold PublishedFiles.floor
        rw [hheld]
      rcases hoffers with ⟨hkept, hpending⟩ | ⟨pending, hpending, hnumber, hdigest, -, hservable⟩
      · -- The copy itself was served: nothing is pending and nothing is written.
        have hafter : (files.installed envelopes number recordSha256 answers).lastKnownGood =
            some held := by
          unfold PublishedFiles.installed
          rw [hheld, hpending]
          rfl
        refine ⟨?_, fun other hother => ?_, Or.inl ?_⟩
        · unfold PublishedFiles.floor
          rw [hafter]
          exact hfloor.symm.trans hkept
        · rw [hafter] at hother
          cases hother
          exact hguarded held hheld
        · unfold PublishedFiles.copy
          rw [hafter, hheld]
      · have hafter : (files.installed envelopes number recordSha256 answers).lastKnownGood =
            some (held.accept envelopes pending answers) := by
          -- The publication that was read is the one that is accepted, by the digest of its record.
          have hfilter : (some pending).filter (fun pending =>
              pending.complete.recordDigest == recordSha256) = some pending :=
            if_pos (beq_iff_eq.mpr hdigest)
          unfold PublishedFiles.installed
          rw [hheld, hpending, hfilter]
        rw [hfloor, ← hnumber] at hle
        obtain ⟨hraised, haccepted, hfollows⟩ := LastKnownGood.accept_spec hround
          (hguarded held hheld) (hservable (by rw [hheld]; rfl)) hle rfl
        refine ⟨?_, fun other hother => ?_, ?_⟩
        · unfold PublishedFiles.floor
          rw [hafter, ← hnumber]
          exact hraised
        · rw [hafter] at hother
          cases hother
          exact haccepted
        · unfold PublishedFiles.copy
          rw [hafter, hheld]
          exact hfollows

end Loading

end Reader
end SaasFabric
