import Mathlib.Data.List.Dedup
import SaasFabric.Platform.Environment

/-!
# Coherence of an environment

What `remove` and `place` keep whatever else is under way, and what has to be true of a
`declare` for it to keep it too: over a data source that is placed on, it carries the
discriminator that is declared.
-/

namespace SaasFabric
namespace Platform

open Library (FailsWith Interleaved bind_eq_ok mapError_eq_ok)
open Publication (IsolationModelDocument mem_sortedBy sortedBy)

variable {Revision : Type}

/-! ## What a placement needs of a declaration -/

/-- The discriminator that is declared for a data source, if it is declared. -/
def discriminatorOf (declarations : List DataSourceDeclaration) (id : DataSourceId) :
    Option (Option Discriminator) :=
  (declarationOf declarations id).map DataSourceDeclaration.discriminator

/-- The discriminator a placement needs. -/
def neededDiscriminator : IsolationModelDocument → Option Discriminator
  | .discriminator column _ => some ⟨column⟩
  | _ => none

/-- A valid declaration serves a placement where it declares the discriminator it needs. -/
theorem serves_iff {source : DataSourceDeclaration} {placement : PlacementRecord}
    (hvalid : source.validate = .ok ()) :
    Serves source placement ↔ (∀ name, placement.isolation ≠ .schema name) ∧
      source.discriminator = neededDiscriminator placement.isolation := by
  have hshared := DataSourceDeclaration.shared_iff_of_validate hvalid
  constructor
  · rintro ⟨hisolation, hcolumn⟩
    cases hplaced : placement.isolation with
    | database =>
        rw [hplaced] at hisolation
        refine ⟨nofun, Option.not_isSome_iff_eq_none.mp fun hsome => ?_⟩
        exact absurd (hshared.mpr hsome) (of_decide_eq_true hisolation)
    | schema name =>
        rw [hplaced] at hisolation
        cases hisolation
    | discriminator column value =>
        obtain ⟨declared, hdeclared, rfl⟩ := Option.map_eq_some_iff.mp (hcolumn column value hplaced)
        exact ⟨nofun, hdeclared⟩
  · rintro ⟨hnoSchema, hneeded⟩
    cases hplaced : placement.isolation with
    | database =>
        rw [hplaced] at hneeded
        refine ⟨?_, fun column value hother => ?_⟩
        · rw [hplaced]
          refine decide_eq_true fun h => ?_
          have hsome := hshared.mp h
          rw [hneeded] at hsome
          cases hsome
        · rw [hplaced] at hother
          cases hother
    | schema name => exact absurd hplaced (hnoSchema name)
    | discriminator column value =>
        rw [hplaced] at hneeded
        refine ⟨?_, fun other otherValue hother => ?_⟩
        · rw [hplaced]
          exact decide_eq_true (hshared.mpr (by rw [hneeded]; rfl))
        · rw [hplaced] at hother
          cases hother
          rw [hneeded]
          rfl

section Declarations

variable {time : Rfc3339} {before after : List DataSourceDeclaration}
  {placements : List PlacementRecord}

/-- A placement stands on trusted declarations where they declare the discriminator it needs. -/
theorem stands_iff (hdeclared : checkHeld before = .ok ()) {placement : PlacementRecord} :
    Stands time before placement ↔ (time.parse placement.placedAt).isSome ∧
      (∀ name, placement.isolation ≠ .schema name) ∧
        discriminatorOf before placement.dataSource =
          some (neededDiscriminator placement.isolation) := by
  obtain ⟨hnodup, hvalid⟩ := checkHeld_eq_ok.mp hdeclared
  unfold discriminatorOf
  simp only [Option.map_eq_some_iff]
  constructor
  · rintro ⟨hstamped, source, hsource, hserves⟩
    have hmem := ((declarationOf_eq_some hnodup).mp hsource).1
    obtain ⟨hnoSchema, hneeded⟩ := (serves_iff (hvalid source hmem)).mp hserves
    exact ⟨hstamped, hnoSchema, source, hsource, hneeded⟩
  · rintro ⟨hstamped, hnoSchema, source, hsource, hneeded⟩
    have hmem := ((declarationOf_eq_some hnodup).mp hsource).1
    exact ⟨hstamped, source, hsource, (serves_iff (hvalid source hmem)).mpr ⟨hnoSchema, hneeded⟩⟩

/-- Placements that are coherent with some declarations are so with others exactly where these
declare the same discriminators for what is placed on. -/
theorem coherent_iff_of_coherent (hbefore : checkHeld before = .ok ())
    (hafter : checkHeld after = .ok ()) (h : Coherent time before placements) :
    Coherent time after placements ↔ ∀ placement ∈ placements,
      discriminatorOf after placement.dataSource = discriminatorOf before placement.dataSource := by
  constructor
  · intro hcoherent placement hmem
    obtain ⟨-, -, hold⟩ := (stands_iff hbefore).mp (h.stands placement hmem)
    obtain ⟨-, -, hnew⟩ := (stands_iff hafter).mp (hcoherent.stands placement hmem)
    rw [hold, hnew]
  · intro hsame
    refine ⟨fun placement hmem => ?_, h.apart⟩
    obtain ⟨hstamped, hnoSchema, hold⟩ := (stands_iff hbefore).mp (h.stands placement hmem)
    exact (stands_iff hafter).mpr ⟨hstamped, hnoSchema, (hsame placement hmem).trans hold⟩

/-- A declaration keeps placements coherent exactly where it carries the discriminator that is
declared, if it is placed on. -/
theorem coherent_planDeclaration_iff {incoming : DataSourceDeclaration}
    {published : Option Published} (hbefore : checkHeld before = .ok ())
    (hvalid : incoming.validate = .ok ()) (h : Coherent time before placements)
    (hplan : planDeclaration before incoming published = .write after) :
    Coherent time after placements ↔ ∀ placement ∈ placements,
      placement.dataSource = incoming.id →
        discriminatorOf before incoming.id = some incoming.discriminator := by
  rw [coherent_iff_of_coherent hbefore (checkHeld_of_planDeclaration hbefore hvalid hplan) h]
  obtain ⟨revision, hafter⟩ :=
    declarationOf_planDeclaration (checkHeld_eq_ok.mp hbefore).1 hplan
  refine forall₂_congr fun placement _ => ?_
  unfold discriminatorOf
  rw [hafter]
  by_cases hid : placement.dataSource = incoming.id
  · rw [if_pos hid, hid]
    exact ⟨fun hsame _ => hsame.symm, fun hsame => (hsame rfl).symm⟩
  · rw [if_neg hid]
    exact ⟨fun _ hsame => absurd hsame hid, fun _ => rfl⟩

/-- Removing a data source that nothing is placed on keeps placements coherent. -/
theorem coherent_removed {id : DataSourceId} (hbefore : checkHeld before = .ok ())
    (h : Coherent time before placements)
    (hunused : ∀ placement ∈ placements, placement.dataSource ≠ id) :
    checkHeld (before.filter fun declared => declared.id ≠ id) = .ok () ∧
      Coherent time (before.filter fun declared => declared.id ≠ id) placements := by
  obtain ⟨hnodup, hvalid⟩ := checkHeld_eq_ok.mp hbefore
  have hafter : checkHeld (before.filter fun declared => declared.id ≠ id) = .ok () :=
    checkHeld_eq_ok.mpr ⟨(List.filter_sublist.map _).nodup hnodup,
      fun declared hmem => hvalid declared (List.mem_filter.mp hmem).1⟩
  refine ⟨hafter, (coherent_iff_of_coherent hbefore hafter h).mpr fun placement hmem => ?_⟩
  unfold discriminatorOf
  refine congrArg _ (Option.ext fun source => ?_)
  rw [declarationOf_eq_some (checkHeld_eq_ok.mp hafter).1, declarationOf_eq_some hnodup,
    List.mem_filter, decide_eq_true_eq]
  constructor
  · rintro ⟨⟨hmem, -⟩, hid⟩
    exact ⟨hmem, hid⟩
  · rintro ⟨hsource, hid⟩
    refine ⟨⟨hsource, ?_⟩, hid⟩
    rw [hid]
    exact hunused placement hmem

end Declarations

theorem perm_sortedPlacements (placements : List PlacementRecord) :
    (sortedPlacements placements).Perm placements :=
  List.mergeSort_perm _ _

theorem tenantsOn_isEmpty_iff {id : DataSourceId} {placements : List PlacementRecord} :
    (tenantsOn id placements).isEmpty = true ↔
      ∀ placement ∈ placements, placement.dataSource ≠ id := by
  have hmem : ∀ tenant, tenant ∈ tenantsOn id placements ↔
      ∃ placement ∈ placements, placement.dataSource = id ∧ placement.tenant = tenant := by
    intro tenant
    unfold tenantsOn
    rw [mem_sortedBy, List.mem_dedup, List.mem_map]
    simp only [List.mem_filter, decide_eq_true_eq, and_assoc]
  rw [List.isEmpty_iff, List.eq_nil_iff_forall_not_mem]
  constructor
  · intro hnone placement hplacement hid
    exact hnone placement.tenant ((hmem _).mpr ⟨placement, hplacement, hid, rfl⟩)
  · rintro hunused tenant htenant
    obtain ⟨placement, hplacement, hid, -⟩ := (hmem tenant).mp htenant
    exact hunused placement hplacement hid

/-! ## What each operation knows -/

/-- An error that blames what is held. -/
def PlatformError.BlamesHeld : PlatformError → Prop
  | .invalidHeldDataSources _ => True
  | .invalidHeldPlacements _ => True
  | _ => False

/-- What may fail, but not by what is held. -/
def Trusting {T : Type} (computation : Except PlatformError T) : Prop :=
  FailsWith (fun error => ¬ error.BlamesHeld) computation

section Knowledge

variable (documents : Documents Revision) (time : Rfc3339)

/-- The declarations of an environment are trusted, and so are its placements. -/
structure CoherentDocuments (environment : Environment Revision) : Prop where
  declared : checkHeld (documents.declarationsAt environment.dataSources) = .ok ()
  placed : Coherent time (documents.declarationsAt environment.dataSources)
    (documents.placementsAt environment.placements)

/-- Placements are only added. -/
def Grows (environment next : Environment Revision) : Prop :=
  (documents.placementsAt environment.placements).Subperm (documents.placementsAt next.placements)

/-- What an operation knows, by where it is. -/
def Knows (environment : Environment Revision) : Operation Revision → Prop
  | .declareWrite declaration declarations expected => declaration.validate = .ok () ∧
      ∃ published, planDeclaration (documents.declarationsAt expected) declaration published =
        .write declarations
  | .removePlaced _ expected held => held.declarations = documents.declarationsAt expected ∧
      checkHeld held.declarations = .ok ()
  | .removeWrite declarations expected placed => ∃ id,
      declarations = (documents.declarationsAt expected).filter (fun declared => declared.id ≠ id) ∧
        placed.placements = documents.placementsAt placed.revision ∧
          ∀ placement ∈ placed.placements, placement.dataSource ≠ id
  | .placeDeclared _ _ _ expected held => held.placements = documents.placementsAt expected ∧
      held.placements.Subperm (documents.placementsAt environment.placements)
  | .placeWrite declared records expected =>
      declared.declarations = documents.declarationsAt declared.revision ∧
        (documents.placementsAt expected).Subperm records ∧
          Coherent time declared.declarations records
  | .returned result => Trusting result
  | _ => True

/-- A step that keeps an environment coherent: a declaration that is written carries the
discriminator that is declared of what is placed on, and a removal that reads the placements
has read a declaration, with its discriminator, for each. -/
def Kept (environment : Environment Revision) (operation : Operation Revision)
    (next : Environment Revision) (moved : Operation Revision) : Prop :=
  match operation with
  | .declareWrite declaration _ _ => next ≠ environment →
      ∀ placement ∈ documents.placementsAt environment.placements,
        placement.dataSource = declaration.id →
          discriminatorOf (documents.declarationsAt environment.dataSources) declaration.id =
            some declaration.discriminator
  | .removePlaced _ _ held => (∀ error, moved ≠ .returned (.error (.desiredState error))) →
      ∀ placement ∈ documents.placementsAt environment.placements,
        discriminatorOf held.declarations placement.dataSource =
          discriminatorOf (documents.declarationsAt environment.dataSources) placement.dataSource
  | _ => True

end Knowledge

section Keeping

variable {documents : Documents Revision} {time : Rfc3339}
  {environment next : Environment Revision}

/-- What is written at a revision is what is read there. -/
theorem declarationsAt_some (revision : Revision) :
    documents.declarationsAt (some revision) = documents.declarations revision := rfl

theorem placementsAt_some (revision : Revision) :
    documents.placementsAt (some revision) = documents.placements revision := rfl

/-- What a write is told of it knows nothing new. -/
theorem knows_of_acknowledged {expected operation : Operation Revision}
    (h : Acknowledged expected operation)
    (hknows : Knows documents time environment expected) : Knows documents time environment operation := by
  cases h with
  | written => exact hknows
  | failed error => exact FailsWith.error not_false

/-- Knowledge outlasts what the other operations do. -/
theorem knows_stable {operation : Operation Revision} (hgrows : Grows documents environment next)
    (h : Knows documents time environment operation) : Knows documents time next operation := by
  cases operation with
  | placeDeclared tenant logical intent expected held => exact ⟨h.1, h.2.trans hgrows⟩
  | _ => exact h

/-- An operation that goes on knows what follows from what was decided. -/
theorem knows_andThen {T : Type} {next : T → Operation Revision}
    {decided : Except PlatformError T} (htrusting : Trusting decided)
    (hnext : ∀ value, decided = .ok value → Knows documents time environment (next value)) :
    Knows documents time environment (.andThen next decided) := by
  cases hdecided : decided with
  | error error => exact FailsWith.error (htrusting error hdecided)
  | ok value => exact hnext value hdecided

variable [DecidableEq Revision]

theorem trusting_checkExpected {expected held : Option Revision} :
    Trusting (checkExpected expected held) :=
  FailsWith.ite (FailsWith.error not_false) (FailsWith.ok ())

theorem checkExpected_eq_ok {expected held : Option Revision} :
    checkExpected expected held = .ok () ↔ expected = held := by
  unfold checkExpected
  split
  · rename_i hapart
    exact ⟨nofun, fun h => absurd h hapart⟩
  · rename_i hsame
    exact ⟨fun _ => not_not.mp hsame, fun _ => rfl⟩

/-- A declaration that was read knows what it writes. -/
theorem knows_declareRead {declaration : DataSourceDeclaration} {expected : Option Revision}
    {published : Except Unit (Option Published)}
    (hinv : CoherentDocuments documents time environment) :
    Knows documents time environment
      (declareRead declaration expected (documents.readDataSources environment) published) := by
  have hheld : checkHeld (documents.readDataSources environment).declarations = .ok () :=
    hinv.declared
  refine knows_andThen ?_ fun plan hplan => ?_
  · rw [hheld]
    refine FailsWith.bind (FailsWith.mapError fun _ => not_false) fun _ => ?_
    refine FailsWith.bind (FailsWith.ok ()) fun _ => FailsWith.bind trusting_checkExpected fun _ => ?_
    exact FailsWith.bind (FailsWith.mapError fun _ => not_false) fun _ => FailsWith.ok _
  · obtain ⟨_, hvalid, hplan⟩ := bind_eq_ok.mp hplan
    obtain ⟨_, -, hplan⟩ := bind_eq_ok.mp hplan
    obtain ⟨_, hexpected, hplan⟩ := bind_eq_ok.mp hplan
    obtain ⟨published, -, hplan⟩ := bind_eq_ok.mp hplan
    cases hplan
    cases hplanned : planDeclaration (documents.readDataSources environment).declarations
        declaration published with
    | unchanged => exact FailsWith.ok _
    | write declarations =>
        refine ⟨mapError_eq_ok.mp hvalid, published, ?_⟩
        rw [checkExpected_eq_ok.mp hexpected]
        exact hplanned

/-- A removal that read the declarations knows them. -/
theorem knows_removeRead {id : DataSourceId} {expected : Option Revision}
    (hinv : CoherentDocuments documents time environment) :
    Knows documents time environment
      (removeRead id expected (documents.readDataSources environment)) := by
  have hheld : checkHeld (documents.readDataSources environment).declarations = .ok () :=
    hinv.declared
  refine knows_andThen ?_ fun _ hchecked => ?_
  · rw [hheld]
    exact FailsWith.bind (FailsWith.ok ()) fun _ => trusting_checkExpected
  · obtain ⟨_, -, hexpected⟩ := bind_eq_ok.mp hchecked
    rw [checkExpected_eq_ok.mp hexpected]
    exact ⟨rfl, hheld⟩

omit [DecidableEq Revision] in
/-- A removal that read the placements too knows that none is on what it removes. -/
theorem knows_removeChecked {id : DataSourceId} {expected : Option Revision}
    {held : DataSourcesRead Revision}
    (hheld : held.declarations = documents.declarationsAt expected)
    (hcoherent : Coherent time held.declarations
      (documents.placementsAt environment.placements)) :
    Knows documents time environment
      (removeChecked time id expected held (documents.readPlacements environment)) := by
  have hplaced : checkHeldPlacements time (documents.readPlacements environment).placements
      held.declarations = .ok () := checkHeldPlacements_eq_ok.mpr hcoherent
  refine knows_andThen ?_ fun _ _ => ?_
  · rw [hplaced]
    exact FailsWith.ok ()
  · unfold removeTrusted
    split
    · exact FailsWith.error not_false
    · rename_i hunused
      split
      · exact FailsWith.ok _
      · refine ⟨id, ?_, rfl, tenantsOn_isEmpty_iff.mp (not_not.mp hunused)⟩
        rw [hheld]

/-- A placement that read the placements knows them, and that they are held. -/
theorem knows_placeRead {client : String} {logical : LogicalDataSourceName} {intent : DataIntent}
    {expected : Option Revision} : Knows documents time environment
      (placeRead client logical intent expected (documents.readPlacements environment)) := by
  refine knows_andThen ?_ fun tenant hchecked => ?_
  · refine FailsWith.bind (FailsWith.mapError fun _ => not_false) fun _ => ?_
    exact FailsWith.bind trusting_checkExpected fun _ => FailsWith.ok _
  · obtain ⟨_, -, hchecked⟩ := bind_eq_ok.mp hchecked
    obtain ⟨_, hexpected, -⟩ := bind_eq_ok.mp hchecked
    rw [checkExpected_eq_ok.mp hexpected]
    exact ⟨rfl, List.Subperm.refl _⟩

omit [DecidableEq Revision] in
/-- A placement that read the declarations too knows that what it writes is coherent. -/
theorem knows_placeChecked {tenant : TenantId} {logical : LogicalDataSourceName}
    {intent : DataIntent} {expected : Option Revision} {held : PlacementsRead Revision}
    {nowUnixSeconds : U64} (hinv : CoherentDocuments documents time environment)
    (hheld : held.placements = documents.placementsAt expected)
    (hfewer : held.placements.Subperm (documents.placementsAt environment.placements)) :
    Knows documents time environment
      (placeChecked time tenant logical intent expected held
        (documents.readDataSources environment) nowUnixSeconds) := by
  have hdeclared : checkHeld (documents.readDataSources environment).declarations = .ok () :=
    hinv.declared
  have hcoherent : Coherent time (documents.readDataSources environment).declarations
      held.placements := hinv.placed.subperm hfewer
  refine knows_andThen ?_ fun record hselected => ?_
  · rw [hdeclared, checkHeldPlacements_eq_ok.mpr hcoherent]
    refine FailsWith.bind (FailsWith.ok ()) fun _ => FailsWith.bind (FailsWith.ok ()) fun _ => ?_
    refine FailsWith.bind (FailsWith.mapError fun _ => not_false) fun _ => ?_
    exact FailsWith.mapError fun _ => not_false
  · obtain ⟨_, -, hselected⟩ := bind_eq_ok.mp hselected
    obtain ⟨_, -, hselected⟩ := bind_eq_ok.mp hselected
    obtain ⟨now, hstamp, hselected⟩ := bind_eq_ok.mp hselected
    have hmore := coherent_select hdeclared hcoherent
      (Rfc3339.parse_of_stamp (mapError_eq_ok.mp hstamp)) (mapError_eq_ok.mp hselected)
    have hperm := perm_sortedPlacements (held.placements ++ [record])
    refine ⟨rfl, ?_, hmore.perm hperm.symm⟩
    rw [← hheld]
    exact (List.sublist_append_left _ _).subperm.trans hperm.symm.subperm

/-- The step lemma: a step that keeps the environment coherent, and what the others know. -/
theorem keeps_operations :
    ((operations documents time).restrict (Kept documents)).Keeps
      (CoherentDocuments documents time) (Grows documents) (Knows documents time) where
  begins environment operation _ hbegins := by
    cases operation with
    | declare _ _ => trivial
    | remove _ _ => trivial
    | place _ _ _ _ => trivial
    | _ => exact hbegins.elim
  moves environment operation next moved hinv hknows hmoves := by
    obtain ⟨hmove, hkept⟩ := hmoves
    have hsame : Grows documents environment environment := List.Subperm.refl _
    cases hmove with
    | fails error _ => exact ⟨hinv, hsame, FailsWith.error not_false⟩
    | declareRead published => exact ⟨hinv, hsame, knows_declareRead hinv⟩
    | @declareWrite declaration declarations _ revision holds acknowledged =>
        refine ⟨?_, hsame, knows_of_acknowledged acknowledged trivial⟩
        -- A write that changes nothing needs no condition.
        by_cases hchanged : ({ environment with dataSources := some revision } :
            Environment Revision) = environment
        · rw [hchanged]
          exact hinv
        · obtain ⟨hvalid, published, hplan⟩ := hknows
          have hplaced := (coherent_planDeclaration_iff hinv.declared hvalid hinv.placed
            hplan).mpr (hkept hchanged)
          refine ⟨?_, ?_⟩
          · rw [declarationsAt_some, holds]
            exact checkHeld_of_planDeclaration hinv.declared hvalid hplan
          · rw [declarationsAt_some, holds]
            exact hplaced
    | removeRead => exact ⟨hinv, hsame, knows_removeRead hinv⟩
    | @removeChecked id expected held =>
        refine ⟨hinv, hsame, ?_⟩
        -- A refusal is returned and nothing is known after it.
        by_cases hfailed : ∃ error, (removeChecked time id expected held
            (documents.readPlacements environment) : Operation Revision) =
              .returned (.error (.desiredState error))
        · obtain ⟨error, herror⟩ := hfailed
          rw [herror]
          exact FailsWith.error not_false
        · have hdiscriminators := hkept fun error herror => hfailed ⟨error, herror⟩
          exact knows_removeChecked hknows.1
            ((coherent_iff_of_coherent hinv.declared hknows.2 hinv.placed).mpr hdiscriminators)
    | @removeWrite declarations placed _ current dataSources placements holds holdsPlaced
        acknowledged =>
        -- What was checked is what is held: the placements are written over only at the revision
        -- they were read at.
        obtain ⟨id, rfl, hread, hunused⟩ := hknows
        have hplacements : placed.placements = documents.placementsAt environment.placements := by
          rw [hread, current]
        rw [hplacements] at hunused holdsPlaced
        obtain ⟨hdeclared, hplaced⟩ := coherent_removed hinv.declared hinv.placed hunused
        refine ⟨⟨?_, ?_⟩, ?_, knows_of_acknowledged acknowledged trivial⟩
        · rw [declarationsAt_some, holds]
          exact hdeclared
        · rw [declarationsAt_some, holds, placementsAt_some, holdsPlaced]
          exact hplaced
        · unfold Grows
          rw [placementsAt_some, holdsPlaced]
    | placeRead => exact ⟨hinv, hsame, knows_placeRead⟩
    | placeChecked nowUnixSeconds =>
        exact ⟨hinv, hsame, knows_placeChecked hinv hknows.1 hknows.2⟩
    | @placeWrite declared records _ current dataSources placements holds holdsPlaced
        acknowledged =>
        -- The declarations are written back as they were read, at the revision they were read at.
        obtain ⟨hread, hgrows, hcoherent⟩ := hknows
        have hdeclarations : declared.declarations =
            documents.declarationsAt environment.dataSources := by
          rw [hread, current]
        refine ⟨⟨?_, ?_⟩, ?_, knows_of_acknowledged acknowledged trivial⟩
        · rw [declarationsAt_some, holds, hdeclarations]
          exact hinv.declared
        · rw [declarationsAt_some, holds, placementsAt_some, holdsPlaced]
          exact hcoherent
        · unfold Grows
          rw [placementsAt_some, holdsPlaced]
          exact hgrows
    | rereadDataSources => exact ⟨hinv, hsame, FailsWith.ok _⟩
    | rereadPlacements => exact ⟨hinv, hsame, FailsWith.ok _⟩
  stable _ _ _ hgrows hknows := knows_stable hgrows hknows

end Keeping

/-! ## Wherever a run comes to -/

/-- An environment is coherent, and no operation was refused for what it held: the
declarations pass `check_held`, the placements pass `check_held_placements` against them, and
each placement names a declared data source of a class that serves it, with its column. -/
structure CoherentPlatform (documents : Documents Revision) (time : Rfc3339)
    (configuration : Interleaved.Configuration (Environment Revision) (Operation Revision)) :
    Prop where
  declared : checkHeld (documents.declarationsAt configuration.shared.dataSources) = .ok ()
  placed : checkHeldPlacements time (documents.placementsAt configuration.shared.placements)
    (documents.declarationsAt configuration.shared.dataSources) = .ok ()
  served : ∀ placement ∈ documents.placementsAt configuration.shared.placements,
    ∃ source ∈ documents.declarationsAt configuration.shared.dataSources,
      source.id = placement.dataSource ∧
        isolationMatchesClass source.placement placement.isolation = true ∧
          ∀ column value, placement.isolation = .discriminator column value →
            source.discriminator = some ⟨column⟩
  trusted : ∀ error, .returned (.error error) ∈ configuration.operations → ¬ error.BlamesHeld

theorem coherentPlatform_of_holds {documents : Documents Revision} {time : Rfc3339}
    {configuration : Interleaved.Configuration (Environment Revision) (Operation Revision)}
    (h : Interleaved.Holds (CoherentDocuments documents time) (Knows documents time)
      configuration) : CoherentPlatform documents time configuration := by
  obtain ⟨hinv, hknows⟩ := h
  obtain ⟨hnodup, hvalid⟩ := checkHeld_eq_ok.mp hinv.declared
  refine ⟨hinv.declared, checkHeldPlacements_eq_ok.mpr hinv.placed, fun placement hplacement => ?_,
    fun error hmem => hknows _ hmem error rfl⟩
  obtain ⟨-, source, hsource, hserves⟩ := hinv.placed.stands placement hplacement
  obtain ⟨hmem, hid⟩ := (declarationOf_eq_some hnodup).mp hsource
  refine ⟨source, hmem, hid, hserves.isolation, fun column value hisolation => ?_⟩
  obtain ⟨-, hneeded⟩ := (serves_iff (hvalid source hmem)).mp hserves
  rw [hneeded, hisolation]
  rfl

/-- Every run whose steps are kept leaves the platform coherent. -/
theorem platform_coherent [DecidableEq Revision] (documents : Documents Revision)
    (time : Rfc3339)
    {configuration : Interleaved.Configuration (Environment Revision) (Operation Revision)}
    (hruns : ((operations documents time).restrict (Kept documents)).Runs
      ⟨Environment.empty, []⟩ configuration) :
    CoherentPlatform documents time configuration :=
  coherentPlatform_of_holds (keeps_operations.runs_of_idle ⟨rfl, Coherent.nil⟩ hruns)

/-! ## A database of one tenant that is declared shared -/

/-- A database for one tenant. -/
def ordersDatabase : DataSourceDeclaration where
  id := ⟨"orders-db", by decide⟩
  revision := 1
  connector := ⟨"postgres", by decide⟩
  connection := .named ⟨"orders", by decide⟩
  placement := .dedicated
  residency := ⟨"nz", none⟩
  pool := ⟨20, 300, 5⟩
  capabilities := ⟨true, true⟩
  discriminator := none
  labels := ∅

theorem tenantIdField_accepted : (IdentifierKind.fieldName.parse "tenant_id").isOk = true := by
  decide

/-- The same database, for any number of tenants. -/
def sharedDatabase : DataSourceDeclaration :=
  { ordersDatabase with
    placement := .shared
    discriminator := some ⟨⟨"tenant_id", tenantIdField_accepted⟩⟩ }

/-- The midnight the clock starts at. -/
def midnightText : String := "1970-01-01T00:00:00Z"

/-- RFC 3339 of that moment alone. -/
def midnight : Rfc3339 where
  OffsetDateTime := Int
  parse text := if text = midnightText then some 0 else none
  fromUnixTimestamp seconds := some seconds
  format moment := if moment = 0 then some midnightText else none
  parse_format moment text h := by
    split at h
    · cases h
      rfl
    · cases h

/-- A tenant's placement on that database. -/
def acmePlacement : PlacementRecord where
  tenant := ⟨"acme", acme_accepted⟩
  logical := ⟨"primary", by decide⟩
  revision := FIRST_REVISION
  dataSource := ordersDatabase.id
  isolation := .database
  placedAt := midnightText

/-- What is asked of the placement. -/
def ordersIntent : DataIntent := ⟨.dedicated, none, none⟩

/-- The database as it is first declared, and as it is declared again; the placement. -/
def ordersDocuments : Documents Nat where
  declarations
    | 0 => [ordersDatabase]
    | _ => [{ sharedDatabase with revision := 2 }]
  placements _ := [acmePlacement]

/-- Once the database is declared and the tenant is placed. -/
def placedConfiguration :
    Interleaved.Configuration (Environment Nat) (Operation Nat) where
  shared := ⟨some 0, some 0⟩
  operations := [.rereadPlacements, .rereadDataSources]

theorem ordersDatabase_read : declareRead ordersDatabase none
    (ordersDocuments.readDataSources Environment.empty) (.ok none) =
      .declareWrite ordersDatabase [ordersDatabase] none := by
  have hplan : planDeclaration [] ordersDatabase none = .write [ordersDatabase] :=
    congrArg DeclarationPlan.write (List.mergeSort_singleton _)
  show Operation.andThen (declarePlanned _ _ _) (.ok (planDeclaration [] ordersDatabase none)) = _
  rw [hplan]
  rfl

theorem sharedDatabase_read : declareRead sharedDatabase (some 0)
    (ordersDocuments.readDataSources placedConfiguration.shared) (.ok none) =
      .declareWrite sharedDatabase [{ sharedDatabase with revision := 2 }] (some 0) := by
  have hplan : planDeclaration [ordersDatabase] sharedDatabase none =
      .write [{ sharedDatabase with revision := 2 }] :=
    congrArg DeclarationPlan.write (List.mergeSort_singleton _)
  show Operation.andThen (declarePlanned _ _ _)
    (.ok (planDeclaration [ordersDatabase] sharedDatabase none)) = _
  rw [hplan]
  rfl

theorem ordersIntent_read : placeRead "acme" acmePlacement.logical ordersIntent none
    (ordersDocuments.readPlacements ⟨some 0, none⟩) =
      .placeDeclared acmePlacement.tenant acmePlacement.logical ordersIntent none ⟨none, []⟩ := by
  rfl

theorem ordersIntent_checked : placeChecked midnight acmePlacement.tenant acmePlacement.logical
    ordersIntent none ⟨none, []⟩ (ordersDocuments.readDataSources ⟨some 0, none⟩) 0 =
      .placeWrite ⟨some 0, [ordersDatabase]⟩ [acmePlacement] none := by
  have hselect : select ordersIntent acmePlacement.tenant acmePlacement.logical [ordersDatabase]
      [] midnightText = .ok acmePlacement :=
    pickExclusive_of_free _ _ _ midnightText rfl
  show Operation.andThen _ ((select ordersIntent acmePlacement.tenant acmePlacement.logical
    [ordersDatabase] [] midnightText).mapError .placementRefused) = _
  rw [hselect]
  exact congrArg (Operation.placeWrite _ · _) (List.mergeSort_singleton _)

/-- A run to there, every step of which is kept. -/
theorem runs_placedConfiguration :
    ((operations ordersDocuments midnight).restrict (Kept ordersDocuments)).Runs
      ⟨Environment.empty, []⟩ placedConfiguration := by
  have hdeclare : ((operations ordersDocuments midnight).restrict (Kept ordersDocuments)).Runs
      ⟨Environment.empty, []⟩ ⟨Environment.empty, [.declare ordersDatabase none]⟩ :=
    Interleaved.Runs.begun Relation.ReflTransGen.refl _ trivial
  have hread := hdeclare.moved ⟨Moves.declareRead (.ok none), trivial⟩
  rw [ordersDatabase_read] at hread
  have hdeclared := hread.moved
    ⟨Moves.declareWrite 0 rfl .written, fun _ placement hmem => absurd hmem List.not_mem_nil⟩
  have hplace : ((operations ordersDocuments midnight).restrict (Kept ordersDocuments)).Runs
      ⟨Environment.empty, []⟩ ⟨⟨some 0, none⟩,
        [.place "acme" acmePlacement.logical ordersIntent none, .rereadDataSources]⟩ :=
    hdeclared.begun _ trivial
  have hplacements := hplace.moved ⟨Moves.placeRead, trivial⟩
  rw [ordersIntent_read] at hplacements
  have hchecked := hplacements.moved ⟨Moves.placeChecked 0, trivial⟩
  rw [ordersIntent_checked] at hchecked
  exact hchecked.moved ⟨Moves.placeWrite rfl 0 0 rfl rfl .written, trivial⟩

/-- There the platform is coherent. -/
theorem placedConfiguration_coherent :
    CoherentPlatform ordersDocuments midnight placedConfiguration :=
  platform_coherent ordersDocuments midnight runs_placedConfiguration

/-- Declaring the database shared under the placement leaves the platform incoherent. -/
theorem not_platform_coherent : ¬ ∀ configuration,
    (operations ordersDocuments midnight).Runs ⟨Environment.empty, []⟩ configuration →
      CoherentPlatform ordersDocuments midnight configuration := by
  intro h
  have hplaced := runs_placedConfiguration.of_restrict
  have hdeclare := hplaced.begun (.declare sharedDatabase (some 0)) trivial
  have hread := hdeclare.moved (Moves.declareRead (.ok none))
  rw [sharedDatabase_read] at hread
  have hdeclared := hread.moved (Moves.declareWrite 1 rfl .written)
  have hchecked := (h _ hdeclared).placed
  have hwrong : checkHeldPlacements midnight [acmePlacement]
      [{ sharedDatabase with revision := 2 }] ≠ .ok () := by decide
  exact hwrong hchecked

end Platform
end SaasFabric
