import SaasFabric.Library.Machine
import SaasFabric.Library.SampledCodec
import SaasFabric.Reader.PublishedFiles

/-!
# The history of a reader

One process of a published reader: `prime_published` once, then `refresh_published` any
number of times, over files that hold anything at all before each read.  The floor is
kept in the holder or in the progress and moves when a generation was installed, not
when it was chosen; the copy is written after that.
-/

namespace SaasFabric
namespace Reader

open SaasFabric.Runtime

variable {Catalogue : Type} (codecs : Codecs Catalogue) (envelopes : EnvelopeCodec)

/-- The process of a reader: its source of published state, and what it serves from. -/
structure Process where
  files : PublishedFiles codecs
  registries : Registries Catalogue

/-- What a pass comes to. -/
abbrev Outcome := Except SourceError Installed

/-- What a pass meets: the files, the order held entries are listed in, and the answers
of the file system where a copy is written. -/
structure Pass where
  reads : Reads
  listed : ListedAs
  answers : AcceptAnswers

variable {codecs}

/-- `settle`. -/
def settle (files : PublishedFiles codecs) (installed : Installed) (answers : AcceptAnswers) :
    PublishedFiles codecs :=
  match installed.recorded with
  | none => files
  | some (generation, recordSha256) =>
      files.installed envelopes generation recordSha256 answers

/-- What is loaded is installed, and what is installed is noted. -/
def finish (loaded : PublishedFiles codecs × Except SourceError (PublishedState Catalogue))
    (registries : Registries Catalogue) (pass : Pass) : Process codecs × Outcome :=
  match loaded with
  | (files, .error error) => (⟨files, registries⟩, .error error)
  | (files, .ok state) =>
      match install state registries files.describe pass.listed with
      | (registries, .error error) => (⟨files, registries⟩, .error error)
      | (registries, .ok installed) =>
          (⟨settle envelopes files installed pass.answers, registries⟩, .ok installed)

/-- `prime_published`. -/
def primePublished (files : PublishedFiles codecs) (registries : Registries Catalogue)
    (copyFault : Option String) (pass : Pass) : Process codecs × Outcome :=
  finish envelopes (files.loadAtStart envelopes copyFault pass.reads) registries pass

/-- `refresh_published`. -/
def refreshPublished (reader : Process codecs) (pass : Pass) : Process codecs × Outcome :=
  finish envelopes (reader.files.load pass.reads) reader.registries pass

/-- A reader that refreshes. -/
def readerMachine (codecs : Codecs Catalogue) (envelopes : EnvelopeCodec) :
    Library.Machine (Process codecs) Pass Outcome where
  step reader pass :=
    ((refreshPublished envelopes reader pass).1, [(refreshPublished envelopes reader pass).2])

/-! ## One pass -/

/-- The recorded generation a pass installed. -/
def installedGeneration (outcome : Outcome) : Option U64 :=
  outcome.toOption.bind fun installed => installed.recorded.map Prod.fst

/-- A pass installed a state without a record. -/
def InstallsUnrecorded (outcome : Outcome) : Prop :=
  ∃ installed, outcome = .ok installed ∧ installed.recorded = none

/-- What was installed was recorded exactly where a generation was loaded. -/
theorem recorded_of_install {state : PublishedState Catalogue}
    {registries after : Registries Catalogue} {origin : String} {listed : ListedAs}
    {installed : Installed} (h : install state registries origin listed = (after, .ok installed)) :
    (∃ number recordSha256 readFrom dataSources tenants catalogue,
      state = .generation number recordSha256 readFrom dataSources tenants catalogue ∧
        installed.recorded = some (number, recordSha256)) ∨
    ((∃ dataSources tenants catalogue, state = .unrecorded dataSources tenants catalogue) ∧
      installed.recorded = none) := by
  cases state with
  | generation number recordSha256 readFrom dataSources tenants catalogue =>
      refine Or.inl ⟨number, recordSha256, readFrom, dataSources, tenants, catalogue, rfl, ?_⟩
      rcases install_generation registries origin listed number recordSha256 readFrom dataSources
        tenants catalogue with ⟨error, hfailed, -⟩ | ⟨hok, -⟩
      · rw [h] at hfailed
        cases hfailed
      · rw [h] at hok
        cases hok
        rfl
  | unrecorded dataSources tenants catalogue =>
      refine Or.inr ⟨⟨dataSources, tenants, catalogue, rfl⟩, ?_⟩
      dsimp only [install] at h
      split at h
      · cases h
      · cases h
        rfl

/-- What a pass keeps: an installed generation is not below the floor and becomes it, an
unrecorded state is installed only where there is no floor, and every other pass leaves
the floor and the copy as they were. -/
structure Keeps (before after : PublishedFiles codecs) (outcome : Outcome) : Prop where
  guarded : before.Guarded envelopes → after.Guarded envelopes
  copy : CopyFollows codecs envelopes before.copy after.copy
  recorded : ∀ number, installedGeneration outcome = some number →
    (∀ held, before.floor = some held → held ≤ number) ∧ after.floor = some number
  other : installedGeneration outcome = none →
    after.floor = before.floor ∧ after.copy = before.copy
  unrecorded : InstallsUnrecorded outcome → before.floor = none

variable {envelopes}

/-- Files that kept their holder and what they recorded kept their floor and copy. -/
theorem Keeps.of_loaded {files loaded after : PublishedFiles codecs} {outcome : Outcome}
    (hheld : loaded.lastKnownGood = files.lastKnownGood)
    (hrecorded : loaded.progress.recorded = files.progress.recorded)
    (h : Keeps envelopes loaded after outcome) : Keeps envelopes files after outcome := by
  have hfloor : loaded.floor = files.floor := by
    unfold PublishedFiles.floor
    rw [hheld, hrecorded]
  have hcopy : loaded.copy = files.copy := by
    unfold PublishedFiles.copy
    rw [hheld]
  have hguarded : files.Guarded envelopes → loaded.Guarded envelopes := fun hfiles held hsome =>
    hfiles held (hheld ▸ hsome)
  obtain ⟨hkept, hfollows, hnumber, hother, hunrecorded⟩ := h
  rw [hfloor] at hnumber hother hunrecorded
  rw [hcopy] at hfollows hother
  exact ⟨hkept ∘ hguarded, hfollows, hnumber, hother, hunrecorded⟩

/-- A pass that installs nothing keeps everything. -/
theorem Keeps.of_error (files : PublishedFiles codecs) (error : SourceError) :
    Keeps envelopes files files (.error error) where
  guarded := id
  copy := Or.inl rfl
  recorded number h := by
    cases h
  other _ := ⟨rfl, rfl⟩
  unrecorded h := by
    obtain ⟨installed, hok, -⟩ := h
    cases hok

/-- What follows the load. -/
theorem finish_spec (hround : envelopes.json.RoundTrips) {files : PublishedFiles codecs}
    {result : Except SourceError (PublishedState Catalogue)}
    (hguarded : files.Guarded envelopes)
    (hoffers : ∀ state, result = .ok state → files.Offers state)
    {registries : Registries Catalogue} {pass : Pass} {reader : Process codecs}
    {outcome : Outcome} (h : finish envelopes (files, result) registries pass = (reader, outcome)) :
    Keeps envelopes files reader.files outcome := by
  cases result with
  | error error =>
      cases h
      exact Keeps.of_error files error
  | ok state =>
      dsimp only [finish] at h
      split at h
      · cases h
        exact Keeps.of_error files _
      · rename_i after installed hinstall
        cases h
        have hstate := hoffers state rfl
        rcases recorded_of_install hinstall with
          ⟨number, recordSha256, readFrom, dataSources, tenants, catalogue, rfl, hrecorded⟩ |
          ⟨⟨dataSources, tenants, catalogue, rfl⟩, hrecorded⟩
        · obtain ⟨hfloor, hkept, hfollows⟩ :=
            PublishedFiles.installed_spec hround hguarded hstate pass.answers
          have hsettled : settle envelopes files installed pass.answers =
              files.installed envelopes number recordSha256 pass.answers := by
            unfold settle
            rw [hrecorded]
          have hnumber : installedGeneration (.ok installed) = some number := by
            unfold installedGeneration
            simp [Except.toOption, hrecorded]
          rw [hsettled]
          refine ⟨fun _ => hkept, hfollows, fun other hother => ?_, fun hnone => ?_,
            fun hunread => ?_⟩
          · rw [hnumber] at hother
            cases hother
            refine ⟨?_, hfloor⟩
            -- An offered generation is the floor itself or not below it.
            rcases hstate with ⟨hheld, -⟩ | ⟨_, -, -, -, hle, -⟩
            · intro held hfound
              rw [hheld] at hfound
              cases hfound
              exact le_rfl
            · exact hle
          · rw [hnumber] at hnone
            cases hnone
          · obtain ⟨other, hok, hnone⟩ := hunread
            cases hok
            rw [hrecorded] at hnone
            cases hnone
        · have hsettled : settle envelopes files installed pass.answers = files := by
            unfold settle
            rw [hrecorded]
          have hnumber : installedGeneration (.ok installed) = none := by
            unfold installedGeneration
            simp [Except.toOption, hrecorded]
          rw [hsettled]
          refine ⟨id, Or.inl rfl, fun number hsome => ?_, fun _ => ⟨rfl, rfl⟩, fun _ => hstate⟩
          rw [hnumber] at hsome
          cases hsome

/-- One refresh. -/
theorem refreshPublished_spec (hround : envelopes.json.RoundTrips) {reader : Process codecs}
    (hguarded : reader.files.Guarded envelopes) (pass : Pass) :
    Keeps envelopes reader.files (refreshPublished envelopes reader pass).1.files
      (refreshPublished envelopes reader pass).2 := by
  unfold refreshPublished
  generalize hloaded : reader.files.load pass.reads = loaded
  obtain ⟨files, result⟩ := loaded
  obtain ⟨hheld, hrecorded, hoffers⟩ := PublishedFiles.load_spec hloaded
  have hfiles : files.Guarded envelopes := fun held hsome => hguarded held (hheld ▸ hsome)
  exact (finish_spec hround hfiles hoffers rfl).of_loaded hheld hrecorded

/-- The start: what it keeps is kept from where reading the copy left off. -/
theorem primePublished_spec (hround : envelopes.json.RoundTrips) (paths : Paths)
    (store : Option (String × Option Bytes)) (registries : Registries Catalogue)
    (copyFault : Option String) (pass : Pass) :
    let files := PublishedFiles.new codecs paths store
    let loaded := (files.loadAtStart envelopes copyFault pass.reads).1
    loaded.copy = store.bind Prod.snd ∧
      loaded.floor = (if copyFault.isSome then none
        else copyGeneration codecs envelopes (store.bind Prod.snd)) ∧
      loaded.Guarded envelopes ∧
      Keeps envelopes loaded (primePublished envelopes files registries copyFault pass).1.files
        (primePublished envelopes files registries copyFault pass).2 := by
  dsimp only
  unfold primePublished
  generalize hloaded : (PublishedFiles.new codecs paths store).loadAtStart envelopes copyFault
    pass.reads = loaded
  obtain ⟨files, result⟩ := loaded
  obtain ⟨hcopy, hfloor, hguarded, hoffers⟩ := PublishedFiles.loadAtStart_spec hloaded
  exact ⟨hcopy, hfloor, hguarded, finish_spec hround hguarded hoffers rfl⟩

/-! ## Every pass -/

/-- An outcome may be followed by another: a recorded generation by none below it, and
by no unrecorded state. -/
def Precedes (earlier later : Outcome) : Prop :=
  ∀ number, installedGeneration earlier = some number →
    (∀ other, installedGeneration later = some other → number ≤ other) ∧
      ¬ InstallsUnrecorded later

/-- What a history comes to: the floor is at or above everything installed. -/
structure History (envelopes : EnvelopeCodec) (files : PublishedFiles codecs)
    (outcomes : List Outcome) : Prop where
  guarded : files.Guarded envelopes
  floor : ∀ outcome ∈ outcomes, ∀ number, installedGeneration outcome = some number →
    ∃ held, files.floor = some held ∧ number ≤ held
  ordered : outcomes.Pairwise Precedes

/-- A pass extends a history. -/
theorem History.append {files after : PublishedFiles codecs} {outcomes : List Outcome}
    {outcome : Outcome} (h : History envelopes files outcomes)
    (hkeeps : Keeps envelopes files after outcome) :
    History envelopes after (outcomes ++ [outcome]) := by
  refine ⟨hkeeps.guarded h.guarded, fun earlier hearlier number hnumber => ?_, ?_⟩
  · cases houtcome : installedGeneration outcome with
    | none =>
        rw [(hkeeps.other houtcome).1]
        rcases List.mem_append.mp hearlier with hearlier | hlast
        · exact h.floor earlier hearlier number hnumber
        · rw [List.mem_singleton.mp hlast, houtcome] at hnumber
          cases hnumber
    | some installed =>
        obtain ⟨hle, hfloor⟩ := hkeeps.recorded installed houtcome
        rcases List.mem_append.mp hearlier with hearlier | hlast
        · obtain ⟨held, hheld, hnumber⟩ := h.floor earlier hearlier number hnumber
          exact ⟨installed, hfloor, hnumber.trans (hle held hheld)⟩
        · rw [List.mem_singleton.mp hlast, houtcome] at hnumber
          cases hnumber
          exact ⟨_, hfloor, le_rfl⟩
  · refine List.pairwise_append.mpr ⟨h.ordered, List.pairwise_singleton _ _, ?_⟩
    intro earlier hearlier later hlater number hnumber
    rw [List.mem_singleton.mp hlater]
    obtain ⟨held, hheld, hle⟩ := h.floor earlier hearlier number hnumber
    constructor
    · intro other hother
      exact hle.trans ((hkeeps.recorded other hother).1 held hheld)
    · intro hunrecorded
      rw [hkeeps.unrecorded hunrecorded] at hheld
      cases hheld

/-- A history, carried over any number of refreshes. -/
theorem History.run (hround : envelopes.json.RoundTrips) {reader : Process codecs}
    {outcomes : List Outcome} (h : History envelopes reader.files outcomes)
    (passes : List Pass) :
    History envelopes ((readerMachine codecs envelopes).final reader passes).files
      (outcomes ++ (readerMachine codecs envelopes).emitted reader passes) :=
  (readerMachine codecs envelopes).trace_invariant
    (fun reader outcomes => History envelopes reader.files outcomes)
    (fun _ _ pass h => h.append (refreshPublished_spec hround h.guarded pass)) h passes

/-- The copy, carried over any number of refreshes. -/
theorem copyFollows_run (hround : envelopes.json.RoundTrips) {reader : Process codecs}
    (hguarded : reader.files.Guarded envelopes) (passes : List Pass) :
    CopyFollows codecs envelopes reader.files.copy
      ((readerMachine codecs envelopes).final reader passes).files.copy := by
  have hrun := (readerMachine codecs envelopes).invariant
    (fun later => later.files.Guarded envelopes ∧
      CopyFollows codecs envelopes reader.files.copy later.files.copy)
    (fun later pass h => by
      have hkeeps := refreshPublished_spec hround h.1 pass
      exact ⟨hkeeps.guarded h.1, h.2.trans hkeeps.copy⟩)
    ⟨hguarded, Or.inl rfl⟩ passes
  exact hrun.2

/-- What a copy carries can be served. -/
theorem exists_validate_of_copyGeneration {file : Option Bytes} {generation : U64}
    (h : copyGeneration codecs envelopes file = some generation) :
    ∃ parsed : ParsedGeneration codecs,
      ParsedGeneration.validate parsed.complete "last-known-good" = .ok parsed ∧
        parsed.generation = generation := by
  obtain ⟨bytes, parsed, -, hverify, hgeneration⟩ := exists_of_copyGeneration h
  exact ⟨parsed, ParsedGeneration.validate_eq_ok.mpr
    ⟨rfl, servable_of_verifyCopy codecs envelopes hverify⟩, hgeneration⟩

/-- A reader never serves an older generation than one it served.  In every run of one
process, with a store or without, over files that hold anything at each read and a copy
that holds anything at the start: the recorded generations installed do not decrease;
once one is installed, no unrecorded state is; a pass that installs nothing leaves the
floor (at the start, the one the copy gives) and the copy as they were; and the
generation of the copy does not decrease, is one that validates, and where the copy was
written it has one. -/
theorem reader_never_goes_back (codecs : Codecs Catalogue) (envelopes : EnvelopeCodec)
    (hround : envelopes.json.RoundTrips) (paths : Paths) (store : Option (String × Option Bytes))
    (registries : Registries Catalogue) (copyFault : Option String) (start : Pass)
    (passes : List Pass) :
    let files := PublishedFiles.new codecs paths store
    let primed := primePublished envelopes files registries copyFault start
    let after := fun passes => (readerMachine codecs envelopes).final primed.1 passes
    let outcomes := primed.2 :: (readerMachine codecs envelopes).emitted primed.1 passes
    (outcomes.filterMap installedGeneration).Pairwise (· ≤ ·) ∧
    outcomes.Pairwise (fun earlier later =>
      (installedGeneration earlier).isSome → ¬ InstallsUnrecorded later) ∧
    (∀ error, primed.2 = .error error →
      primed.1.files.floor = (if copyFault.isSome then none
          else copyGeneration codecs envelopes (store.bind Prod.snd)) ∧
        primed.1.files.copy = store.bind Prod.snd) ∧
    (∀ pass error, (refreshPublished envelopes (after passes) pass).2 = .error error →
      (refreshPublished envelopes (after passes) pass).1.files.floor =
          (after passes).files.floor ∧
        (refreshPublished envelopes (after passes) pass).1.files.copy =
          (after passes).files.copy) ∧
    (∀ generation, copyGeneration codecs envelopes (store.bind Prod.snd) = some generation →
      ∃ later, copyGeneration codecs envelopes (after []).files.copy = some later ∧
        generation ≤ later) ∧
    (∀ generation, copyGeneration codecs envelopes (after passes).files.copy =
        some generation →
      (∃ parsed : ParsedGeneration codecs,
        ParsedGeneration.validate parsed.complete "last-known-good" = .ok parsed ∧
          parsed.generation = generation) ∧
      ∀ between, ∃ later,
        copyGeneration codecs envelopes (after (passes ++ between)).files.copy = some later ∧
          generation ≤ later) ∧
    ((after passes).files.copy = store.bind Prod.snd ∨
      (copyGeneration codecs envelopes (after passes).files.copy).isSome) := by
  intro files primed after outcomes
  obtain ⟨hcopy, hread, hguarded, hprimed⟩ :=
    primePublished_spec hround paths store registries copyFault start
  -- The start is the first entry of the history, and every pass after it keeps the history.
  have hstart : History envelopes primed.1.files [primed.2] :=
    History.append ⟨hguarded, by simp, List.Pairwise.nil⟩ hprimed
  have hhistory := hstart.run hround passes
  have hcopies : ∀ passes between : List Pass, CopyFollows codecs envelopes
      (after passes).files.copy (after (passes ++ between)).files.copy := by
    intro passes between
    show CopyFollows codecs envelopes _
      ((readerMachine codecs envelopes).final primed.1 (passes ++ between)).files.copy
    rw [Library.Machine.final_append]
    exact copyFollows_run hround (hstart.run hround passes).guarded between
  have hfirst : CopyFollows codecs envelopes (store.bind Prod.snd) (after []).files.copy := by
    have hfollows := hprimed.copy
    rw [hcopy] at hfollows
    exact hfollows
  refine ⟨?_, ?_, fun error herror => ?_, fun pass error herror => ?_,
    fun generation hgeneration => hfirst.exists_le hgeneration,
    fun generation hgeneration => ⟨exists_validate_of_copyGeneration hgeneration,
      fun between => (hcopies passes between).exists_le hgeneration⟩, ?_⟩
  · refine List.pairwise_filterMap.mpr (hhistory.ordered.imp ?_)
    intro earlier later hprecedes number hnumber other hother
    exact (hprecedes number hnumber).1 other hother
  · refine hhistory.ordered.imp ?_
    intro earlier later hprecedes hsome
    obtain ⟨number, hnumber⟩ := Option.isSome_iff_exists.mp hsome
    exact (hprecedes number hnumber).2
  · have hnone : installedGeneration primed.2 = none := by
      rw [herror]
      rfl
    obtain ⟨hfloor, hkept⟩ := hprimed.other hnone
    exact ⟨hfloor.trans hread, hkept.trans hcopy⟩
  · have hkeeps := refreshPublished_spec hround hhistory.guarded pass
    have hnone : installedGeneration (refreshPublished envelopes (after passes) pass).2 =
        none := by
      rw [herror]
      rfl
    exact hkeeps.other hnone
  -- A copy that is not the one found at the start was written, and verifies.
  · rcases hfirst.trans (hcopies [] passes) with hsame | ⟨bytes, parsed, hbytes, hverify, -⟩
    · exact Or.inl hsame
    · refine Or.inr ?_
      have hbytes : (after passes).files.copy = some bytes := hbytes
      rw [hbytes, copyGeneration_of_verifyCopy hverify]
      rfl

/-! ## One reader -/

/-- SHA-256 of an empty list, in JSON. -/
def emptyListDigest : RecordDigest :=
  ⟨0x4f53cda18c2baa0c0354bb5f9a3ecbe5ed12ab4d8e11ba873c2f11161202b945⟩

/-- SHA-256 of an empty object, in JSON. -/
def emptyObjectDigest : RecordDigest :=
  ⟨0x44136fa355b3678a1146ad16f7e8649e94fb4fc21fe77e8310c060f61caaff8a⟩

/-- SHA-256 of the record of generation 7. -/
def seventhRecordDigest : RecordDigest :=
  ⟨0xd018c33bf4c54d9ae7bbb0dcc4b02db5ab82da2d3c44c00fa0b5673aebc8888f⟩

/-- The record of generation 7: nobody is a tenant yet. -/
def seventhRecord : ReaderRecord where
  minimumReaderContract := 1
  generation := 7
  documents :=
    { tenants := ⟨toString emptyListDigest⟩
      dataSources := ⟨toString emptyListDigest⟩
      catalog := ⟨toString emptyObjectDigest⟩ }

/-- The record of generation 7, as it is published. -/
def seventhRecordText : String :=
  "\x7b\"minimum_reader_contract\":1,\"generation\":7,\"documents\":\x7b\"tenants\":" ++
  "\x7b\"sha256\":\"4f53cda18c2baa0c0354bb5f9a3ecbe5ed12ab4d8e11ba873c2f11161202b945\"" ++
  "\x7d,\"data-sources\":\x7b\"sha256\":\"4f53cda18c2baa0c0354bb5f9a3ecbe5ed12ab4d8e11b" ++
  "a873c2f11161202b945\"\x7d,\"catalog\":\x7b\"sha256\":\"44136fa355b3678a1146ad16f7e86" ++
  "49e94fb4fc21fe77e8310c060f61caaff8a\"\x7d\x7d\x7d"

/-- What the codecs make of the files of generation 7. -/
def seventhCodecs : Codecs Unit where
  sha256 := Library.tabled [("[]", emptyListDigest), ("\x7b\x7d", emptyObjectDigest),
    (seventhRecordText, seventhRecordDigest)] ⟨0⟩
  readRecord := Library.tabled [(seventhRecordText, .ok seventhRecord)]
    (.error "missing field generation at line 1 column 2")
  readDataSources := Library.tabled [("[]", .ok [])] (.error "invalid type: map")
  readTenants := Library.tabled [("[]", .ok [])] (.error "invalid type: map")
  decodeCatalogue _ := .ok ()

/-- What two envelopes differ in. -/
theorem Envelope.fields_injective : Function.Injective fun envelope : Envelope =>
    (envelope.format, envelope.recordSha256, envelope.record, envelope.dataSources,
      envelope.tenants, envelope.catalog) := by
  rintro ⟨⟩ ⟨⟩ h
  simpa using h

instance : Countable Envelope := Envelope.fields_injective.countable

/-- An envelope codec; no copy is written in what follows. -/
noncomputable def seventhEnvelopes : EnvelopeCodec where
  json := Library.Codec.sampled []
  utf8Error _ := "invalid utf-8 sequence"

/-- The files of generation 7, where no copy can be kept apart from them. -/
def seventhPass : Pass where
  reads :=
    { record := .contents seventhRecordText.toUTF8
      dataSources := .contents "[]".toUTF8
      tenants := .contents "[]".toUTF8
      catalog := .contents "\x7b\x7d".toUTF8
      dataSourcesAgain := .notFound "No such file or directory (os error 2)"
      tenantsAgain := .notFound "No such file or directory (os error 2)"
      catalogAgain := .notFound "No such file or directory (os error 2)" }
  listed := listedAsStored
  answers := ⟨false, .error "the copy is not apart from what is published", .written⟩

/-- The same documents, with their record removed. -/
def recordRemoved : Pass :=
  { seventhPass with
    reads :=
      { seventhPass.reads with
        record := .notFound "No such file or directory (os error 2)"
        dataSourcesAgain := .contents "[]".toUTF8
        tenantsAgain := .contents "[]".toUTF8
        catalogAgain := .contents "\x7b\x7d".toUTF8 } }

/-- The reader that started on generation 7. -/
noncomputable def seventhPrimed : Process seventhCodecs × Outcome :=
  primePublished seventhEnvelopes (PublishedFiles.new seventhCodecs
    ⟨"tenants.json", "data-sources.json", "catalog.json", "publication.json"⟩
    (some ("last-known-good.json", none))) ⟨none, none, none⟩ none seventhPass

/-- Generation 7 is served at the start, and with its record removed it stays. -/
theorem seventh_generation_stays :
    installedGeneration seventhPrimed.2 = some 7 ∧
      seventhPrimed.1.files.floor = some 7 ∧
        ¬ InstallsUnrecorded
          (refreshPublished seventhEnvelopes seventhPrimed.1 recordRemoved).2 := by
  have hround : seventhEnvelopes.json.RoundTrips :=
    @Library.Codec.roundTrips_sampled Envelope _ _ [] (by simp) (by simp)
  have hprimed : installedGeneration seventhPrimed.2 = some 7 := by decide +kernel
  have hhistory := reader_never_goes_back seventhCodecs seventhEnvelopes hround
    ⟨"tenants.json", "data-sources.json", "catalog.json", "publication.json"⟩
    (some ("last-known-good.json", none)) ⟨none, none, none⟩ none seventhPass [recordRemoved]
  have hfirst := (List.pairwise_cons.mp hhistory.2.1).1
    (refreshPublished seventhEnvelopes seventhPrimed.1 recordRemoved).2 (List.mem_singleton_self _)
  exact ⟨hprimed, by decide +kernel, hfirst (Option.isSome_iff_exists.mpr ⟨7, hprimed⟩)⟩

end Reader
end SaasFabric
