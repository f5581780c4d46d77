import SaasFabric.Library.Codec
import SaasFabric.Library.Floor
import SaasFabric.Reader.Generation

/-!
# The last known good generation

`fabric-tenant-runtime`'s `publication/last_known_good/`: a reader may keep a copy of the
generation it serves, in a file of its own.  The copy is read once, when the process
starts; from then on a floor is held in memory, below which nothing is served.
-/

namespace SaasFabric
namespace Reader

open SaasFabric.Runtime

/-! ## The envelope -/

/-- `FORMAT`. -/
def FORMAT : U32 := 1

/-- `Envelope`. -/
structure Envelope where
  format : U32
  recordSha256 : String
  record : String
  dataSources : String
  tenants : String
  catalog : String
deriving DecidableEq

/-- The JSON codec of the envelope, and what `String::from_utf8` says of bytes that are no
text. -/
structure EnvelopeCodec where
  json : Library.Codec Envelope
  utf8Error : Bytes → String

/-- `LastKnownGoodRefusal`. -/
inductive LastKnownGoodRefusal where
  | unreadable (path cause : String)
  | malformed (detail : String)
  | unsupportedFormat (found : U32)
  | digestMismatch (document : String)
  | unusable (document reason : String)
  | unsupportedContract (required supported : U32)
deriving DecidableEq

instance : ToString LastKnownGoodRefusal where
  toString
    | .unreadable path cause => s!"could not read {path}: {cause}"
    | .malformed detail => s!"last-known-good is malformed: {detail}"
    | .unsupportedFormat found =>
        s!"last-known-good format {found} is not one this reader reads"
    | .digestMismatch document => s!"last-known-good {document} does not match its digest"
    | .unusable document reason => s!"last-known-good {document} cannot be served: {reason}"
    | .unsupportedContract required supported =>
        s!"last-known-good requires reader contract {required}; this reader is {supported}"

/-- How a copy that is no complete generation is refused. -/
def completeRefusal : SourceError → LastKnownGoodRefusal
  | .incompleteGeneration _ _ document => .digestMismatch document
  | .unsupportedContract _ required _ => .unsupportedContract required READER_CONTRACT
  | other => .malformed (toString other)

/-- How a copy that cannot be served is refused. -/
def servedRefusal : SourceError → LastKnownGoodRefusal
  | .unusable _ _ document reason => .unusable document reason
  | other => .malformed (toString other)

variable {Catalogue : Type} (codecs : Codecs Catalogue) (envelopes : EnvelopeCodec)

/-- `verify`: the generation a copy's bytes carry. -/
def verifyCopy (bytes : Bytes) : Except LastKnownGoodRefusal (ParsedGeneration codecs) :=
  match envelopes.json.read bytes with
  | .error detail => .error (.malformed detail)
  | .ok envelope =>
      if envelope.format ≠ FORMAT then
        .error (.unsupportedFormat envelope.format)
      else if codecs.sha256Hex envelope.record.toUTF8 ≠ envelope.recordSha256 then
        .error (.digestMismatch "record")
      else do
        let complete ← (CompleteGeneration.verify codecs envelope.record.toUTF8
          envelope.dataSources.toUTF8 envelope.tenants.toUTF8 envelope.catalog.toUTF8
          "last-known-good").mapError completeRefusal
        (ParsedGeneration.validate complete "last-known-good").mapError servedRefusal

/-- Bytes as text. -/
def text (bytes : Bytes) : Except String String :=
  match String.fromUTF8? bytes with
  | some text => .ok text
  | none => .error (envelopes.utf8Error bytes)

theorem toUTF8_of_text {bytes : Bytes} {value : String} (h : text envelopes bytes = .ok value) :
    value.toUTF8 = bytes := by
  unfold text String.fromUTF8? at h
  split at h
  · rename_i found hfound
    split at hfound
    · cases hfound
      cases h
      rfl
    · cases hfound
  · cases h

/-- The envelope of a generation. -/
def envelopeOf (complete : CompleteGeneration codecs) : Except String Envelope := do
  let record ← text envelopes complete.record
  let dataSources ← text envelopes complete.dataSources
  let tenants ← text envelopes complete.tenants
  let catalog ← text envelopes complete.catalog
  .ok { format := FORMAT, recordSha256 := complete.recordSha256
        record, dataSources, tenants, catalog }

/-- What verifies can be served. -/
theorem servable_of_verifyCopy {bytes : Bytes} {parsed : ParsedGeneration codecs}
    (h : verifyCopy codecs envelopes bytes = .ok parsed) : parsed.Servable := by
  unfold verifyCopy at h
  split at h
  · cases h
  · split at h
    · cases h
    · split at h
      · cases h
      · obtain ⟨complete, -, hvalid⟩ := Library.bind_eq_ok.mp h
        exact (ParsedGeneration.validate_eq_ok.mp (Library.mapError_eq_ok.mp hvalid)).2

/-- A copy written of a generation that can be served verifies as that generation. -/
theorem verifyCopy_write (hround : envelopes.json.RoundTrips) {parsed : ParsedGeneration codecs}
    (hservable : parsed.Servable) {envelope : Envelope}
    (h : envelopeOf codecs envelopes parsed.complete = .ok envelope) {bytes : Bytes}
    (hbytes : envelopes.json.write envelope = .ok bytes) :
    verifyCopy codecs envelopes bytes = .ok parsed := by
  unfold envelopeOf at h
  simp only [Library.bind_eq_ok] at h
  obtain ⟨record, hrecord, dataSources, hdataSources, tenants, htenants, catalog, hcatalog, h⟩ := h
  cases h
  unfold verifyCopy
  rw [hround.read_eq_ok hbytes]
  dsimp only
  have hdigest : codecs.sha256Hex parsed.complete.record = parsed.complete.recordSha256 := rfl
  rw [if_neg (not_not.mpr rfl), toUTF8_of_text envelopes hrecord,
    toUTF8_of_text envelopes hdataSources, toUTF8_of_text envelopes htenants,
    toUTF8_of_text envelopes hcatalog, if_neg (not_not.mpr hdigest),
    CompleteGeneration.verify_self]
  exact Library.mapError_eq_ok.mpr (ParsedGeneration.validate_eq_ok.mpr ⟨rfl, hservable⟩)

/-! ## The choice -/

/-- `Choice`. -/
inductive Choice where
  | published (generation : ParsedGeneration codecs)
  | lastKnownGood (generation : ParsedGeneration codecs) (heldBecause : String)
  | unrecorded
  | refused (error : SourceError)

variable {codecs}

/-- `choice::at_start`: an older publication does not replace a newer copy. -/
def Choice.atStart (published : Except SourceError (Option (ParsedGeneration codecs)))
    (copy : Option (ParsedGeneration codecs)) : Choice codecs :=
  match published, copy with
  | .ok (some published), some copy =>
      if published.generation < copy.generation then
        .lastKnownGood copy
          (s!"the published generation {published.generation} is below the " ++
            s!"last-known-good generation {copy.generation}")
      else
        .published published
  | .ok (some published), none => .published published
  | .ok none, some copy =>
      .lastKnownGood copy "the published files carry no publication record"
  | .ok none, none => .unrecorded
  | .error error, some copy => .lastKnownGood copy (toString error)
  | .error error, none => .refused error

/-- `choice::on_refresh`. -/
def Choice.onRefresh (published : Except SourceError (Option (ParsedGeneration codecs)))
    (floor : Option U64) (origin : String) : Choice codecs :=
  match published, floor with
  | .ok (some published), some held =>
      if published.generation < held then
        .refused (.regressed origin held s!"generation {published.generation}")
      else
        .published published
  | .ok (some published), none => .published published
  | .ok none, some held => .refused (.regressed origin held "no publication record")
  | .ok none, none => .unrecorded
  | .error error, _ => .refused error

/-- A choice does not go below a floor. -/
def Choice.Respects (floor : Option U64) : Choice codecs → Prop
  | .published generation => ∀ held, floor = some held → held ≤ generation.generation
  | .lastKnownGood generation _ => floor = some generation.generation
  | .unrecorded => floor = none
  | .refused _ => True

theorem Choice.respects_atStart
    (published : Except SourceError (Option (ParsedGeneration codecs)))
    (copy : Option (ParsedGeneration codecs)) :
    (Choice.atStart published copy).Respects (copy.map (·.generation)) := by
  unfold Choice.atStart
  split
  · split
    · rfl
    · rename_i hnot
      intro held hheld
      cases hheld
      exact not_lt.mp hnot
  · intro held hheld
    cases hheld
  · rfl
  · rfl
  · rfl
  · trivial

theorem Choice.respects_onRefresh
    (published : Except SourceError (Option (ParsedGeneration codecs)))
    (floor : Option U64) (origin : String) :
    (Choice.onRefresh published floor origin).Respects floor := by
  unfold Choice.onRefresh
  split
  · split
    · trivial
    · rename_i hnot
      intro held hheld
      cases hheld
      exact not_lt.mp hnot
  · intro held hheld
    cases hheld
  · trivial
  · rfl
  · trivial

/-- What is chosen as published is what was read. -/
theorem Choice.atStart_eq_published
    {published : Except SourceError (Option (ParsedGeneration codecs))}
    {copy : Option (ParsedGeneration codecs)} {generation : ParsedGeneration codecs}
    (h : Choice.atStart published copy = .published generation) :
    published = .ok (some generation) := by
  unfold Choice.atStart at h
  split at h
  · split at h
    · cases h
    · cases h
      rfl
  · cases h
    rfl
  all_goals cases h

theorem Choice.onRefresh_eq_published
    {published : Except SourceError (Option (ParsedGeneration codecs))} {floor : Option U64}
    {origin : String} {generation : ParsedGeneration codecs}
    (h : Choice.onRefresh published floor origin = .published generation) :
    published = .ok (some generation) := by
  unfold Choice.onRefresh at h
  split at h
  · split at h
    · cases h
    · cases h
      rfl
  · cases h
    rfl
  all_goals cases h

/-- A refresh never falls back on the copy. -/
theorem Choice.onRefresh_ne_lastKnownGood
    {published : Except SourceError (Option (ParsedGeneration codecs))} {floor : Option U64}
    {origin heldBecause : String} {generation : ParsedGeneration codecs} :
    Choice.onRefresh published floor origin ≠ .lastKnownGood generation heldBecause := by
  intro h
  unfold Choice.onRefresh at h
  split at h
  · split at h <;> cases h
  all_goals cases h

/-! ## The holder -/

/-- `LastKnownGoodState`. -/
inductive LastKnownGoodState where
  | disabled
  | absent
  | stored (generation : U64)
  | refused (reason : String)
  | persistFailed (generation : U64) (reason : String)
deriving DecidableEq

/-- `LastKnownGood`: what the holder remembers, and the file of its store. -/
structure LastKnownGood where
  path : String
  state : LastKnownGoodState
  floor : Option U64
  stored : Option String
  file : Option Bytes

/-- How the write of a copy ends: the rename done and synced, not reached, or done before
the directory failed to sync. -/
inductive WriteOutcome where
  | written
  | failedBefore (cause : String)
  | failedAfter (cause : String)

/-- What the file system answers while a copy is accepted. -/
structure AcceptAnswers where
  existsFails : Bool
  separated : Except String Unit
  write : WriteOutcome

namespace LastKnownGood

/-- `LastKnownGood::new`, over what the store's file holds. -/
def new (path : String) (file : Option Bytes) : LastKnownGood where
  path := path
  state := .absent
  floor := none
  stored := none
  file := file

variable (codecs)

/-- `LastKnownGoodStore::load`. -/
def load (held : LastKnownGood) (fault : Option String) :
    Except LastKnownGoodRefusal (Option (ParsedGeneration codecs)) :=
  match fault, held.file with
  | some cause, _ => .error (.unreadable held.path cause)
  | none, none => .ok none
  | none, some bytes => (verifyCopy codecs envelopes bytes).map some

/-- The bytes of a generation's copy. -/
def copyBytes (complete : CompleteGeneration codecs) : Except String Bytes := do
  let envelope ← envelopeOf codecs envelopes complete
  envelopes.json.write envelope

/-- `LastKnownGoodStore::persist`. -/
def persist (held : LastKnownGood) (complete : CompleteGeneration codecs)
    (outcome : WriteOutcome) : Option Bytes × Except String Unit :=
  match copyBytes codecs envelopes complete with
  | .error cause => (held.file, .error cause)
  | .ok bytes =>
      match outcome with
      | .written => (some bytes, .ok ())
      | .failedBefore cause => (held.file, .error cause)
      | .failedAfter cause => (some bytes, .error cause)

variable {codecs}

/-- `LastKnownGood::validated`. -/
def validated (read : Except SourceError (Option (CompleteGeneration codecs)))
    (origin : String) : Except SourceError (Option (ParsedGeneration codecs)) := do
  match ← read with
  | none => .ok none
  | some complete => some <$> ParsedGeneration.validate complete origin

/-- `LastKnownGood::at_start`. -/
def atStart (held : LastKnownGood) (fault : Option String)
    (published : Except SourceError (Option (CompleteGeneration codecs))) (origin : String) :
    LastKnownGood × Choice codecs :=
  match held.load codecs envelopes fault with
  | .error refusal =>
      ({ held with state := .refused (toString refusal) },
        Choice.atStart (validated published origin) none)
  | .ok none => (held, Choice.atStart (validated published origin) none)
  | .ok (some copy) =>
      ({ held with
          state := .stored copy.generation
          floor := some copy.generation
          stored := some copy.complete.recordSha256 },
        Choice.atStart (validated published origin) (some copy))

/-- `LastKnownGood::on_refresh`. -/
def onRefresh (held : LastKnownGood)
    (published : Except SourceError (Option (CompleteGeneration codecs))) (origin : String) :
    Choice codecs :=
  Choice.onRefresh (validated published origin) held.floor origin

/-- The copy is written and what came of it is noted. -/
def replaceCopy (held : LastKnownGood) (generation : ParsedGeneration codecs)
    (answers : AcceptAnswers) : LastKnownGood :=
  let written :=
    match answers.separated with
    | .ok () => held.persist codecs envelopes generation.complete answers.write
    | .error reason => (held.file, .error reason)
  match written with
  | (file, .ok ()) =>
      { held with
        state := .stored generation.generation
        stored := some generation.complete.recordSha256
        file := file }
  | (file, .error reason) =>
      { held with state := .persistFailed generation.generation reason, file := file }

/-- `LastKnownGood::accept`: a refused copy that is still there is not overwritten. -/
def accept (held : LastKnownGood) (generation : ParsedGeneration codecs)
    (answers : AcceptAnswers) : LastKnownGood :=
  let held := { held with floor := Library.maxFloor held.floor (some generation.generation) }
  if held.stored = some generation.complete.recordSha256 then
    held
  else
    match held.state with
    | .refused _ =>
        if answers.existsFails || held.file.isSome then
          held
        else
          replaceCopy envelopes { held with state := .absent } generation answers
    | _ => replaceCopy envelopes held generation answers

end LastKnownGood

/-! ## What the copy keeps -/

section Copy

variable (codecs)

/-- The generation a copy carries, where it verifies. -/
def copyGeneration (file : Option Bytes) : Option U64 :=
  file.bind fun bytes => (verifyCopy codecs envelopes bytes).toOption.map (·.generation)

/-- The copy is not above the floor, unless it was refused. -/
def LastKnownGood.Guarded (held : LastKnownGood) : Prop :=
  (∃ reason, held.state = .refused reason) ∨
    ∀ generation, copyGeneration codecs envelopes held.file = some generation →
      ∃ floor, held.floor = some floor ∧ generation ≤ floor

/-- A copy is followed by another: the same file, or a copy of a generation that can be
served and is not older. -/
def CopyFollows (before after : Option Bytes) : Prop :=
  after = before ∨ ∃ bytes parsed, after = some bytes ∧
    verifyCopy codecs envelopes bytes = .ok parsed ∧
      ∀ generation, copyGeneration codecs envelopes before = some generation →
        generation ≤ parsed.generation

variable {codecs envelopes}

theorem copyGeneration_of_verifyCopy {bytes : Bytes} {parsed : ParsedGeneration codecs}
    (h : verifyCopy codecs envelopes bytes = .ok parsed) :
    copyGeneration codecs envelopes (some bytes) = some parsed.generation := by
  simp [copyGeneration, h, Except.toOption]

theorem exists_of_copyGeneration {file : Option Bytes} {generation : U64}
    (h : copyGeneration codecs envelopes file = some generation) :
    ∃ bytes parsed, file = some bytes ∧ verifyCopy codecs envelopes bytes = .ok parsed ∧
      parsed.generation = generation := by
  unfold copyGeneration at h
  obtain ⟨bytes, rfl, hbytes⟩ := Option.bind_eq_some_iff.mp h
  obtain ⟨parsed, hparsed, rfl⟩ := Option.map_eq_some_iff.mp hbytes
  refine ⟨bytes, parsed, rfl, ?_, rfl⟩
  cases hverify : verifyCopy codecs envelopes bytes with
  | error refusal => simp [hverify, Except.toOption] at hparsed
  | ok found =>
      simp only [hverify, Except.toOption, Option.some.injEq] at hparsed
      rw [hparsed]

/-- A generation is not lost and does not go back. -/
theorem CopyFollows.exists_le {before after : Option Bytes}
    (h : CopyFollows codecs envelopes before after) {generation : U64}
    (hbefore : copyGeneration codecs envelopes before = some generation) :
    ∃ later, copyGeneration codecs envelopes after = some later ∧ generation ≤ later := by
  rcases h with rfl | ⟨bytes, parsed, rfl, hverify, hle⟩
  · exact ⟨generation, hbefore, le_rfl⟩
  · exact ⟨parsed.generation, copyGeneration_of_verifyCopy hverify, hle generation hbefore⟩

theorem CopyFollows.trans {first second third : Option Bytes}
    (h : CopyFollows codecs envelopes first second)
    (h' : CopyFollows codecs envelopes second third) :
    CopyFollows codecs envelopes first third := by
  rcases h' with rfl | ⟨bytes, parsed, rfl, hverify, hle⟩
  · exact h
  · refine Or.inr ⟨bytes, parsed, rfl, hverify, fun generation hgeneration => ?_⟩
    obtain ⟨later, hlater, hle'⟩ := h.exists_le hgeneration
    exact hle'.trans (hle later hlater)

end Copy

/-! ## The holder at the start and on refresh -/

section Holder

variable {envelopes}

/-- What is validated can be served. -/
theorem LastKnownGood.servable_of_validated
    {read : Except SourceError (Option (CompleteGeneration codecs))} {origin : String}
    {generation : ParsedGeneration codecs}
    (h : LastKnownGood.validated read origin = .ok (some generation)) :
    generation.Servable := by
  unfold LastKnownGood.validated at h
  obtain ⟨found, -, h⟩ := Library.bind_eq_ok.mp h
  cases found with
  | none => cases h
  | some complete =>
      obtain ⟨parsed, hparsed, heq⟩ := Library.map_eq_ok.mp h
      cases heq
      exact (ParsedGeneration.validate_eq_ok.mp hparsed).2

/-- Where the process starts: the floor is the generation of a copy that could be read
and verifies, and nothing else. -/
theorem LastKnownGood.floor_atStart {path : String} {file : Option Bytes}
    {fault : Option String}
    {published : Except SourceError (Option (CompleteGeneration codecs))} {origin : String}
    {held : LastKnownGood} {choice : Choice codecs}
    (h : (LastKnownGood.new path file).atStart envelopes fault published origin =
      (held, choice)) :
    held.floor = if fault.isSome then none else copyGeneration codecs envelopes file := by
  unfold atStart load at h
  cases fault with
  | some cause =>
      cases h
      rfl
  | none =>
      cases file with
      | none =>
          cases h
          rfl
      | some bytes =>
          cases hverify : verifyCopy codecs envelopes bytes with
          | error refusal =>
              have hnone : copyGeneration codecs envelopes (some bytes) = none := by
                simp [copyGeneration, hverify, Except.toOption]
              simp only [new, hverify, Except.map] at h
              cases h
              exact hnone.symm
          | ok copy =>
              have hsome := copyGeneration_of_verifyCopy hverify
              simp only [new, hverify, Except.map] at h
              cases h
              exact hsome.symm

/-- The choice at the start does not go below the floor, nor does the copy, unless it
was refused. -/
theorem LastKnownGood.atStart_spec {path : String} {file : Option Bytes}
    {fault : Option String}
    {published : Except SourceError (Option (CompleteGeneration codecs))} {origin : String}
    {held : LastKnownGood} {choice : Choice codecs}
    (h : (LastKnownGood.new path file).atStart envelopes fault published origin =
      (held, choice)) :
    held.file = file ∧ held.Guarded codecs envelopes ∧ choice.Respects held.floor ∧
      ∀ generation, choice = .published generation → generation.Servable := by
  have hfloor := floor_atStart h
  have hservable : ∀ copy generation,
      Choice.atStart (validated published origin) copy = .published generation →
        generation.Servable :=
    fun copy generation h => servable_of_validated (Choice.atStart_eq_published h)
  have hrespects := Choice.respects_atStart (validated published origin)
  -- A copy that was read is at the floor.
  have hguarded : fault = none → held.file = file → held.Guarded codecs envelopes := by
    intro hfault hfile
    refine Or.inr fun generation hgeneration => ⟨generation, ?_, le_rfl⟩
    rw [hfloor, hfault, ← hfile]
    exact hgeneration
  unfold atStart at h
  split at h
  · cases h
    exact ⟨rfl, Or.inl ⟨_, rfl⟩, hrespects none, hservable none⟩
  · rename_i hload
    cases h
    have hfault : fault = none := by
      cases fault with
      | none => rfl
      | some cause => cases hload
    exact ⟨rfl, hguarded hfault rfl, hrespects none, hservable none⟩
  · rename_i copy hload
    cases h
    have hfault : fault = none := by
      cases fault with
      | none => rfl
      | some cause => cases hload
    exact ⟨rfl, hguarded hfault rfl, hrespects (some copy), hservable (some copy)⟩

/-- Whatever comes of the write, the file is the one there was or a copy of this
generation, and the floor is not touched. -/
theorem LastKnownGood.replaceCopy_file (hround : envelopes.json.RoundTrips) (held : LastKnownGood)
    {generation : ParsedGeneration codecs} (hservable : generation.Servable)
    (answers : AcceptAnswers) :
    (held.replaceCopy envelopes generation answers).floor = held.floor ∧
      ((held.replaceCopy envelopes generation answers).file = held.file ∨
        ∃ bytes, (held.replaceCopy envelopes generation answers).file = some bytes ∧
          verifyCopy codecs envelopes bytes = .ok generation) := by
  unfold replaceCopy persist
  cases answers.separated with
  | error reason => exact ⟨rfl, Or.inl rfl⟩
  | ok =>
      dsimp only
      cases hbytes : copyBytes codecs envelopes generation.complete with
      | error cause => exact ⟨rfl, Or.inl rfl⟩
      | ok bytes =>
          obtain ⟨envelope, henvelope, hwrite⟩ := Library.bind_eq_ok.mp hbytes
          have hverify := verifyCopy_write codecs envelopes hround hservable henvelope hwrite
          cases answers.write with
          | written => exact ⟨rfl, Or.inr ⟨_, rfl, hverify⟩⟩
          | failedBefore cause => exact ⟨rfl, Or.inl rfl⟩
          | failedAfter cause => exact ⟨rfl, Or.inr ⟨_, rfl, hverify⟩⟩

/-- Writing a copy of a generation at the floor. -/
theorem LastKnownGood.replaceCopy_spec (hround : envelopes.json.RoundTrips)
    {held replaced : LastKnownGood} {generation : ParsedGeneration codecs}
    {answers : AcceptAnswers} (h : held.replaceCopy envelopes generation answers = replaced)
    (hservable : generation.Servable) (hfloor : held.floor = some generation.generation)
    (hcopy : ∀ number, copyGeneration codecs envelopes held.file = some number →
      number ≤ generation.generation) :
    replaced.floor = some generation.generation ∧ replaced.Guarded codecs envelopes ∧
      CopyFollows codecs envelopes held.file replaced.file := by
  obtain ⟨hkept, hfile⟩ := replaceCopy_file hround held hservable answers
  rw [h] at hkept hfile
  rw [hfloor] at hkept
  rcases hfile with hsame | ⟨bytes, hbytes, hverify⟩
  · refine ⟨hkept, Or.inr fun number hnumber => ⟨_, hkept, ?_⟩, Or.inl hsame⟩
    rw [hsame] at hnumber
    exact hcopy number hnumber
  · refine ⟨hkept, Or.inr fun number hnumber => ⟨_, hkept, ?_⟩,
      Or.inr ⟨bytes, generation, hbytes, hverify, hcopy⟩⟩
    rw [hbytes, copyGeneration_of_verifyCopy hverify] at hnumber
    cases hnumber
    exact le_rfl

/-- Accepting a generation that is not below the floor: the floor becomes that
generation, and the copy is left or follows. -/
theorem LastKnownGood.accept_spec (hround : envelopes.json.RoundTrips) {held : LastKnownGood}
    (hguarded : held.Guarded codecs envelopes) {generation : ParsedGeneration codecs}
    (hservable : generation.Servable)
    (hfloor : ∀ floor, held.floor = some floor → floor ≤ generation.generation)
    {answers : AcceptAnswers} {accepted : LastKnownGood}
    (h : held.accept envelopes generation answers = accepted) :
    accepted.floor = some generation.generation ∧ accepted.Guarded codecs envelopes ∧
      CopyFollows codecs envelopes held.file accepted.file := by
  have hraise := Library.maxFloor_some_of_forall_le hfloor
  have hraised : (∃ reason, held.state = .refused reason) ∨
      ∀ number, copyGeneration codecs envelopes held.file = some number →
        number ≤ generation.generation := by
    refine hguarded.imp_right fun hcopy number hnumber => ?_
    obtain ⟨floor, hheld, hle⟩ := hcopy number hnumber
    exact hle.trans (hfloor floor hheld)
  -- Where nothing is written, the floor alone moves.
  have hkept : ({ held with floor := Library.maxFloor held.floor (some generation.generation) } :
      LastKnownGood).Guarded codecs envelopes :=
    hraised.imp_right fun hcopy number hnumber => ⟨_, hraise, hcopy number hnumber⟩
  unfold accept at h
  dsimp only at h
  split at h
  · cases h
    exact ⟨hraise, hkept, Or.inl rfl⟩
  · split at h
    · split at h
      · cases h
        exact ⟨hraise, hkept, Or.inl rfl⟩
      · rename_i hexists
        -- The refused copy is gone, so there is none to be above the floor.
        have hgone : held.file = none := by
          simp only [Bool.or_eq_true, not_or, Option.isSome_iff_ne_none, not_not] at hexists
          exact hexists.2
        have hreplaced := replaceCopy_spec hround h hservable hraise fun number hnumber => by
          dsimp only at hnumber
          rw [hgone] at hnumber
          cases hnumber
        exact hreplaced
    · rename_i hstate
      have hcopy := hraised.resolve_left fun ⟨reason, hrefused⟩ => hstate reason hrefused
      have hreplaced := replaceCopy_spec hround h hservable hraise hcopy
      exact hreplaced

end Holder

end Reader
end SaasFabric
