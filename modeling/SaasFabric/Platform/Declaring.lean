import SaasFabric.Platform.Coherence
import SaasFabric.Publication.Sampled

/-!
# What a declaration leaves

`DataSources::declare` beside the publisher that is asked to take what it leaves: two rules in
two crates, one keeping or raising a revision (`data_sources/plan.rs`), the other refusing a
resource that was not advanced (`resource_revisions.rs`).
-/

namespace SaasFabric
namespace Platform

open Library (Admitted AtLeast bind_eq_ok mapError_eq_ok)
open Publication (Codecs DataSourceDocument PublicationError PublishedResources heldCopy
  identityBy refuseUnadvanced sortedBy)

variable {Revision : Type}

/-! ## What was published -/

/-- The highest revision an id was published at, and whether it still is. -/
def publishedIn (resources : PublishedResources) (id : DataSourceId) : Option Published :=
  (resources.history.dataSource id).map fun revision =>
    ⟨revision, resources.dataSources.any fun published => published.id == id⟩

/-- `published_revision`: without a target nothing is known to be published. -/
def publishedRevision (target : Option (Except PublicationError PublishedResources))
    (id : DataSourceId) : Except Unit (Option Published) :=
  match target with
  | none => .ok none
  | some (.error _) => .error ()
  | some (.ok resources) => .ok (publishedIn resources id)

/-! ## Declaring -/

/-- The declarations that are held once an operation that decided has succeeded. -/
def Operation.leaves : Operation Revision → Option (List DataSourceDeclaration)
  | .returned (.ok (.declared (.unchanged read))) => some read.declarations
  | .declareWrite _ declarations _ => some declarations
  | _ => none

/-- The operation is about to write. -/
def Operation.Writes : Operation Revision → Prop
  | .declareWrite _ _ _ => True
  | _ => False

section Deciding

variable [DecidableEq Revision]

/-- `DataSources::declare` up to its write. -/
def declare (declaration : DataSourceDeclaration) (expected : Option Revision)
    (held : DataSourcesRead Revision)
    (target : Option (Except PublicationError PublishedResources)) : Operation Revision :=
  declareRead declaration expected held (publishedRevision target declaration.id)

/-- A declaration that is valid, over trusted ones that were read where they still are, does
what its plan says. -/
theorem declare_of_trusted {declaration : DataSourceDeclaration}
    {held : DataSourcesRead Revision} {published : PublishedResources}
    (hvalid : declaration.validate = .ok ()) (hheld : checkHeld held.declarations = .ok ()) :
    declare declaration held.revision held (some (.ok published)) =
      declarePlanned declaration held.revision held (planDeclaration held.declarations
        declaration (publishedIn published declaration.id)) := by
  have hexpected : checkExpected held.revision held.revision = .ok () :=
    checkExpected_eq_ok.mpr rfl
  unfold declare declareRead
  rw [hvalid, hheld, hexpected]
  rfl

/-- A declaration that leaves anything is such a one. -/
theorem trusted_of_leaves {declaration : DataSourceDeclaration} {expected : Option Revision}
    {held : DataSourcesRead Revision}
    {target : Option (Except PublicationError PublishedResources)}
    {after : List DataSourceDeclaration}
    (h : (declare declaration expected held target).leaves = some after) :
    declaration.validate = .ok () ∧ checkHeld held.declarations = .ok () ∧
      expected = held.revision := by
  unfold declare declareRead at h
  cases hdecided : (do
      declaration.validate.mapError PlatformError.invalidDataSource
      checkHeld held.declarations
      checkExpected expected held.revision
      let published ← (publishedRevision target declaration.id).mapError
        fun _ => PlatformError.publishedStateUnreadable
      Except.ok (planDeclaration held.declarations declaration published)) with
  | error error =>
      rw [hdecided] at h
      cases h
  | ok plan =>
      obtain ⟨_, hvalid, hdecided⟩ := bind_eq_ok.mp hdecided
      obtain ⟨_, hheld, hdecided⟩ := bind_eq_ok.mp hdecided
      obtain ⟨_, hexpected, -⟩ := bind_eq_ok.mp hdecided
      exact ⟨mapError_eq_ok.mp hvalid, hheld, checkExpected_eq_ok.mp hexpected⟩

end Deciding

/-! ## What a plan keeps, and what it raises -/

section Planning

variable {held written : List DataSourceDeclaration} {incoming : DataSourceDeclaration}
  {published : Option Published}

/-- The revision a declaration is written at. -/
def raisedRevision (held : List DataSourceDeclaration) (id : DataSourceId)
    (published : Option Published) : BindingRevision :=
  (max (((declarationOf held id).map DataSourceDeclaration.revision).getD 0)
    ((published.map Published.revision).getD 0)).saturatingSucc

/-- A declaration as it is written. -/
def raised (held : List DataSourceDeclaration) (incoming : DataSourceDeclaration)
    (published : Option Published) : DataSourceDeclaration :=
  { incoming with revision := raisedRevision held incoming.id published }

/-- A declaration is left as it is where it is held word for word, high enough. -/
theorem planDeclaration_eq_unchanged :
    planDeclaration held incoming published = .unchanged ↔
      ∃ existing, declarationOf held incoming.id = some existing ∧
        { incoming with revision := existing.revision } = existing ∧
          keepsRevision published ≤ existing.revision := by
  unfold planDeclaration
  dsimp only
  cases hexisting : declarationOf held incoming.id with
  | none => simp
  | some existing =>
      dsimp only
      split
      · rename_i hkeeps
        exact ⟨fun _ => ⟨existing, rfl, hkeeps.1, hkeeps.2⟩, fun _ => rfl⟩
      · rename_i hraises
        refine ⟨nofun, ?_⟩
        rintro ⟨_, hsame, hkeeps⟩
        cases hsame
        exact absurd hkeeps hraises

/-- Everything else is written above what is held and what was published. -/
theorem eq_of_planDeclaration (h : planDeclaration held incoming published = .write written) :
    written = sortedBy DataSourceDeclaration.id
      (held.filter (fun declared => declared.id != incoming.id) ++
        [raised held incoming published]) := by
  unfold planDeclaration at h
  unfold raised raisedRevision
  dsimp only at h
  cases hexisting : declarationOf held incoming.id with
  | none =>
      rw [hexisting] at h
      cases h
      have hothers : held.filter (fun declared => declared.id != incoming.id) = held := by
        refine List.filter_eq_self.mpr fun declared hmem => bne_iff_ne.mpr fun hid => ?_
        exact absurd (beq_iff_eq.mpr hid) (List.find?_eq_none.mp hexisting _ hmem)
      have hzero : max (0 : BindingRevision) ((published.map Published.revision).getD 0) =
          (published.map Published.revision).getD 0 := max_eq_right (Fin.zero_le _)
      rw [hothers, Option.map_none, Option.getD_none, hzero]
  | some existing =>
      rw [hexisting] at h
      dsimp only at h
      split at h
      · cases h
      · cases h
        rfl

/-- A revision that was raised is above the one that is held and the one that was published. -/
theorem lt_raisedRevision {id : DataSourceId}
    (hheld : ∀ declared ∈ held, declared.revision < Fin.last _)
    (hpublished : ∀ answer, published = some answer → answer.revision < Fin.last _) :
    ∀ answer, published = some answer → answer.revision < raisedRevision held id published := by
  intro answer hanswer
  subst hanswer
  unfold raisedRevision
  refine U64.lt_saturatingSucc (le_max_right _ _) (max_lt ?_ (hpublished answer rfl))
  cases hexisting : declarationOf held id with
  | none => exact Fin.lt_def.mpr (by decide)
  | some existing => exact hheld existing (List.mem_of_find?_eq_some hexisting)

/-- What is written is high enough to be left as it is. -/
theorem keepsRevision_le_raisedRevision {id : DataSourceId} :
    keepsRevision published ≤ raisedRevision held id published := by
  cases published with
  | none => exact Fin.zero_le _
  | some answer =>
      have hle : answer.revision ≤ max (((declarationOf held id).map
          DataSourceDeclaration.revision).getD 0) answer.revision := le_max_right _ _
      show (if answer.current then answer.revision else answer.revision.saturatingSucc) ≤
        (max _ answer.revision).saturatingSucc
      split
      · exact hle.trans (U64.le_saturatingSucc _)
      · exact U64.saturatingSucc_mono hle

end Planning

/-! ## What the publisher takes -/

section Taken

variable {codecs : Codecs} {published : PublishedResources}

/-- `refuse_unadvanced` takes a data source as it is declared. -/
def Takes (codecs : Codecs) (published : PublishedResources)
    (declared : DataSourceDeclaration) : Prop :=
  refuseUnadvanced .dataSources codecs.dataSourceValue published.dataSources
    [declared.intoDocument] (fun source =>
      (toString source.id, source.revision, published.history.dataSource source.id)) = .ok ()

/-- The copy that is published of a declared data source. -/
def publishedCopy (published : PublishedResources) (declared : DataSourceDeclaration) :
    Option DataSourceDocument :=
  heldCopy DataSourceDocument.id DataSourceDocument.revision published.history.dataSources
    published.dataSources declared.intoDocument

theorem takes_iff (hlawful : codecs.Lawful) (hcovered : published.Covered)
    {declared : DataSourceDeclaration} :
    Takes codecs published declared ↔
      (∀ floor, published.history.dataSource declared.id = some floor →
        floor < declared.revision ∨
          (floor = declared.revision ∧
            publishedCopy published declared = some declared.intoDocument)) := by
  have hchecks := @Publication.refuseUnadvanced_eq_ok DataSourceDocument codecs.JsonValue _
    .dataSourceId DataSourceDocument.id DataSourceDocument.revision
    published.history.dataSources published.dataSources .dataSources codecs.dataSourceValue
    hlawful.dataSourceValue [declared.intoDocument] hcovered.dataSources
  refine hchecks.trans ?_
  rw [List.forall_mem_singleton]
  unfold Admitted
  show ((∀ bound, AtLeast (published.history.dataSource declared.id) bound →
      bound < declared.revision) ∨ publishedCopy published declared = some declared.intoDocument ∧
        ∀ bound, AtLeast (published.history.dataSource declared.id) bound →
          bound ≤ declared.revision) ↔ _
  cases hfloor : published.history.dataSource declared.id with
  | none => simp
  | some floor =>
      simp only [Library.atLeast_some, Option.some.injEq, forall_eq']
      constructor
      · rintro (habove | ⟨hcopy, hle⟩)
        · exact Or.inl (habove floor le_rfl)
        · exact (hle floor le_rfl).lt_or_eq.imp_right fun heq => ⟨heq, hcopy⟩
      · rintro (hlt | ⟨rfl, hcopy⟩)
        · exact Or.inl fun bound hbound => hbound.trans_lt hlt
        · exact Or.inr ⟨hcopy, fun bound hbound => hbound⟩

/-- What was raised is taken whatever is published. -/
theorem takes_of_lt (hlawful : codecs.Lawful) (hcovered : published.Covered)
    {declared : DataSourceDeclaration}
    (h : ∀ answer, publishedIn published declared.id = some answer →
      answer.revision < declared.revision) : Takes codecs published declared := by
  refine (takes_iff hlawful hcovered).mpr fun floor hfloor => Or.inl ?_
  have hanswer : publishedIn published declared.id = some
      ⟨floor, published.dataSources.any fun held => held.id == declared.id⟩ := by
    unfold publishedIn
    rw [hfloor]
    rfl
  exact h _ hanswer

end Taken

/-! ## What is left -/

section Left

variable (codecs : Codecs) (published : PublishedResources) (incoming : DataSourceDeclaration)

/-- A data source is declared once, as it came in, at a revision the publisher takes; every
other one is as it was; a list that is written is in order; and nothing is left to declare. -/
structure Settles [DecidableEq Revision] (held : DataSourcesRead Revision)
    (operation : Operation Revision) (after : List DataSourceDeclaration) : Prop where
  declared : ∃ revision, after.filter (fun declared => declared.id = incoming.id) =
      [{ incoming with revision := revision }] ∧
        Takes codecs published { incoming with revision := revision }
  others : (after.filter fun declared => declared.id ≠ incoming.id).Perm
    (held.declarations.filter fun declared => declared.id ≠ incoming.id)
  sorted : operation.Writes → after.Pairwise fun left right => compare left.id right.id = .lt
  again : ∀ revision : Option Revision, declare incoming revision ⟨revision, after⟩ (some (.ok published)) =
    .returned (.ok (.declared (.unchanged ⟨revision, after⟩)))

/-- A data source is held as it came in, at the very revision its id is published at, while
what is published there is something else. -/
def Overlooked (held : List DataSourceDeclaration) : Prop :=
  ∃ existing, declarationOf held incoming.id = some existing ∧
    { incoming with revision := existing.revision } = existing ∧
      publishedIn published incoming.id = some ⟨existing.revision, true⟩ ∧
        publishedCopy published existing ≠ some existing.intoDocument

variable {codecs published incoming} {held after : List DataSourceDeclaration}

/-- What is overlooked is left as it is. -/
theorem Overlooked.unchanged (h : Overlooked published incoming held) :
    planDeclaration held incoming (publishedIn published incoming.id) = .unchanged := by
  obtain ⟨existing, hexisting, hsame, hpublished, -⟩ := h
  refine planDeclaration_eq_unchanged.mpr ⟨existing, hexisting, hsame, ?_⟩
  rw [hpublished]
  exact le_rfl

/-- What is left as it is, is taken unless it was overlooked. -/
theorem takes_existing_iff (hlawful : codecs.Lawful) (hcovered : published.Covered)
    (hroom : ∀ floor, published.history.dataSource incoming.id = some floor → floor < Fin.last _)
    {existing : DataSourceDeclaration} (hexisting : declarationOf held incoming.id = some existing)
    (hsame : { incoming with revision := existing.revision } = existing)
    (hkeeps : keepsRevision (publishedIn published incoming.id) ≤ existing.revision) :
    Takes codecs published existing ↔ ¬ Overlooked published incoming held := by
  have hid : existing.id = incoming.id := by rw [← hsame]
  have hoverlooked : Overlooked published incoming held ↔
      publishedIn published incoming.id = some ⟨existing.revision, true⟩ ∧
        publishedCopy published existing ≠ some existing.intoDocument := by
    constructor
    · rintro ⟨_, hother, -, hpublished, hcopy⟩
      cases hexisting.symm.trans hother
      exact ⟨hpublished, hcopy⟩
    · exact fun h => ⟨existing, hexisting, hsame, h⟩
  rw [takes_iff hlawful hcovered, hoverlooked, hid]
  unfold publishedIn at hkeeps ⊢
  cases hfloor : published.history.dataSource incoming.id with
  | none => simp
  | some floor =>
      rw [hfloor] at hkeeps
      have hlt : floor < floor.saturatingSucc := U64.lt_saturatingSucc le_rfl (hroom floor hfloor)
      simp only [Option.map_some, Option.some.injEq, forall_eq', Published.mk.injEq, not_and,
        not_not]
      change (if published.dataSources.any (fun held => held.id == incoming.id) then floor
        else floor.saturatingSucc) ≤ existing.revision at hkeeps
      split at hkeeps
      · -- The id is published: at its own revision the contents have to be one.
        rename_i hcurrent
        constructor
        · rintro (habove | ⟨-, hcopy⟩) heq
          · exact absurd heq.1 habove.ne
          · exact hcopy
        · intro hcopy
          exact hkeeps.lt_or_eq.imp_right fun heq => ⟨heq, hcopy ⟨heq, hcurrent⟩⟩
      · rename_i hcurrent
        exact ⟨fun _ heq => absurd heq.2 hcurrent, fun _ => Or.inl (hlt.trans_le hkeeps)⟩

/-- Among trusted declarations, the one of an id is all that is declared of it. -/
theorem filter_id_eq {declared : DataSourceDeclaration}
    (hnodup : (held.map DataSourceDeclaration.id).Nodup) (hmem : declared ∈ held) :
    held.filter (fun other => other.id = declared.id) = [declared] := by
  have hunique : ∀ other ∈ held, other.id = declared.id ↔ other = declared := fun other hother =>
    ⟨fun hid => List.inj_on_of_nodup_map hnodup hother hmem hid, fun heq => by rw [heq]⟩
  have hsame : held.filter (fun other => other.id = declared.id) =
      held.filter (fun other => other = declared) :=
    List.filter_congr fun other hother => by rw [decide_eq_decide.mpr (hunique other hother)]
  have hcount : held.count declared = 1 := List.count_eq_one_of_mem (hnodup.of_map _) hmem
  rw [hsame, List.filter_eq, hcount]
  rfl

variable [DecidableEq Revision] {read : DataSourcesRead Revision}

/-- The one declaration of an id that is left is taken. -/
theorem Settles.takes {operation : Operation Revision}
    {existing : DataSourceDeclaration}
    (h : Settles codecs published incoming read operation after)
    (hone : after.filter (fun declared => declared.id = incoming.id) = [existing]) :
    Takes codecs published existing := by
  obtain ⟨revision, hdeclared, htakes⟩ := h.declared
  rw [← List.singleton_inj.mp (hone.symm.trans hdeclared)] at htakes
  exact htakes

/-- What is declared again where a declaration was left as it is, is left as it is. -/
theorem declare_again (hvalid : incoming.validate = .ok ()) (hafter : checkHeld after = .ok ())
    (hplan : planDeclaration after incoming (publishedIn published incoming.id) = .unchanged)
    (revision : Option Revision) :
    declare incoming revision ⟨revision, after⟩ (some (.ok published)) =
      .returned (.ok (.declared (.unchanged ⟨revision, after⟩))) := by
  have hheld : checkHeld (⟨revision, after⟩ : DataSourcesRead Revision).declarations = .ok () :=
    hafter
  rw [declare_of_trusted hvalid hheld, hplan]
  rfl

/-- A declaration that is written settles. -/
theorem settles_write (hlawful : codecs.Lawful) (hcovered : published.Covered)
    (hheld : ∀ declared ∈ read.declarations, declared.revision < Fin.last _)
    (hroom : ∀ floor, published.history.dataSource incoming.id = some floor → floor < Fin.last _)
    (hvalid : incoming.validate = .ok ()) (htrusted : checkHeld read.declarations = .ok ())
    (hplan : planDeclaration read.declarations incoming (publishedIn published incoming.id) =
      .write after) (operation : Operation Revision) :
    Settles codecs published incoming read operation after := by
  have hanswer : ∀ answer, publishedIn published incoming.id = some answer →
      answer.revision < Fin.last _ := by
    intro answer hanswer
    obtain ⟨floor, hfloor, rfl⟩ := Option.map_eq_some_iff.mp hanswer
    exact hroom floor hfloor
  have hnodup := (checkHeld_eq_ok.mp htrusted).1
  have hafter := checkHeld_of_planDeclaration htrusted hvalid hplan
  have hnodupAfter := (checkHeld_eq_ok.mp hafter).1
  have hwritten := eq_of_planDeclaration hplan
  have hmem : raised read.declarations incoming (publishedIn published incoming.id) ∈ after := by
    rw [hwritten]
    exact Publication.mem_sortedBy.mpr (List.mem_append_right _ (List.mem_singleton.mpr rfl))
  have hperm := List.mergeSort_perm (read.declarations.filter
      (fun declared => declared.id != incoming.id) ++
        [raised read.declarations incoming (publishedIn published incoming.id)])
    fun left right => (compare left.id right.id).isLE
  have hothers : (read.declarations.filter (fun declared => declared.id != incoming.id) ++
        [raised read.declarations incoming (publishedIn published incoming.id)]).filter
          (fun declared => declared.id ≠ incoming.id) =
      read.declarations.filter fun declared => declared.id ≠ incoming.id := by
    rw [List.filter_append, List.filter_filter, List.filter_singleton]
    have hlast : decide ((raised read.declarations incoming
        (publishedIn published incoming.id)).id ≠ incoming.id) = false :=
      decide_eq_false (not_not.mpr rfl)
    rw [hlast, cond_false, List.append_nil]
    refine List.filter_congr fun declared _ => ?_
    by_cases hid : declared.id = incoming.id
    · simp [hid]
    · simp [hid]
  refine ⟨⟨raisedRevision read.declarations incoming.id (publishedIn published incoming.id),
    filter_id_eq hnodupAfter hmem, takes_of_lt hlawful hcovered
      (lt_raisedRevision hheld hanswer)⟩, ?_, fun _ => ?_, ?_⟩
  · rw [hwritten, ← hothers]
    exact hperm.filter _
  · rw [hwritten]
    refine Library.pairwise_lt_sorted ?_
    rw [← Publication.nodup_map_sortedBy, ← hwritten]
    exact hnodupAfter
  · refine declare_again hvalid hafter (planDeclaration_eq_unchanged.mpr ⟨_,
      (declarationOf_eq_some hnodupAfter).mpr ⟨hmem, rfl⟩, rfl, ?_⟩)
    exact keepsRevision_le_raisedRevision

/-- A declaration that succeeds settles, unless it was overlooked. -/
theorem settles_iff (hlawful : codecs.Lawful) (hcovered : published.Covered)
    (hheld : ∀ declared ∈ read.declarations, declared.revision < Fin.last _)
    (hroom : ∀ floor, published.history.dataSource incoming.id = some floor → floor < Fin.last _)
    {expected : Option Revision}
    (h : (declare incoming expected read (some (.ok published))).leaves = some after) :
    Settles codecs published incoming read
        (declare incoming expected read (some (.ok published))) after ↔
      ¬ Overlooked published incoming read.declarations := by
  obtain ⟨hvalid, htrusted, rfl⟩ := trusted_of_leaves h
  rw [declare_of_trusted hvalid htrusted] at h ⊢
  cases hplan : planDeclaration read.declarations incoming
      (publishedIn published incoming.id) with
  | write written =>
      rw [hplan] at h
      cases h
      refine ⟨fun _ hoverlooked => ?_, fun _ =>
        settles_write hlawful hcovered hheld hroom hvalid htrusted hplan _⟩
      cases hplan.symm.trans hoverlooked.unchanged
  | unchanged =>
      rw [hplan] at h
      cases h
      obtain ⟨existing, hexisting, hsame, hkeeps⟩ := planDeclaration_eq_unchanged.mp hplan
      have hnodup := (checkHeld_eq_ok.mp htrusted).1
      obtain ⟨hmem, hid⟩ := (declarationOf_eq_some hnodup).mp hexisting
      have hone : read.declarations.filter (fun declared => declared.id = incoming.id) =
          [existing] := by
        rw [← hid]
        exact filter_id_eq hnodup hmem
      rw [← takes_existing_iff hlawful hcovered hroom hexisting hsame hkeeps]
      constructor
      · exact fun hsettles => hsettles.takes hone
      · intro htakes
        refine ⟨⟨existing.revision, ?_, ?_⟩, List.Perm.refl _, nofun,
          declare_again hvalid htrusted hplan⟩
        · rw [hsame]
          exact hone
        · rw [hsame]
          exact htakes

end Left

/-! ## A hand edit at the published revision -/

/-- The state after the database was published. -/
def ordersPublished : PublishedResources where
  tenants := []
  dataSources := [ordersDatabase.intoDocument]
  catalog := none
  history := Publication.ResourceHistory.empty.including [] [ordersDatabase.intoDocument]

/-- The database with its connection edited by hand, at the revision it was published at. -/
def editedDatabase : DataSourceDeclaration :=
  { ordersDatabase with connection := .named ⟨"ledger", by decide⟩ }

theorem ordersPublished_covered : ordersPublished.Covered := by
  refine ⟨by simp [ordersPublished], fun dataSource hmem => ?_⟩
  exact Library.atLeast_raiseBy.mpr (Or.inr ⟨dataSource, hmem, rfl, le_rfl⟩)

theorem ordersPublished_dataSource :
    ordersPublished.history.dataSource ordersDatabase.id = some 1 := by
  decide +kernel

theorem ordersPublished_room (floor : BindingRevision)
    (h : ordersPublished.history.dataSource ordersDatabase.id = some floor) :
    floor < Fin.last _ := by
  cases ordersPublished_dataSource.symm.trans h
  decide

theorem ordersPublished_publishedIn :
    publishedIn ordersPublished ordersDatabase.id = some ⟨1, true⟩ := by
  unfold publishedIn
  rw [ordersPublished_dataSource]
  rfl

/-- The copy that is published is the one of the database's id. -/
theorem publishedCopy_ordersPublished {declared : DataSourceDeclaration}
    (hid : declared.id = ordersDatabase.id) :
    publishedCopy ordersPublished declared = some ordersDatabase.intoDocument := by
  have hown : publishedCopy ordersPublished ordersDatabase = some ordersDatabase.intoDocument :=
    Publication.heldCopy_of_mem (List.nodup_singleton _) (List.mem_singleton.mpr rfl)
  have hkey : declared.intoDocument.id = ordersDatabase.intoDocument.id := hid
  rw [← hown]
  unfold publishedCopy heldCopy
  rw [hkey]

/-- Another database, held beside that one. -/
def invoicesDatabase : DataSourceDeclaration :=
  { ordersDatabase with id := ⟨"invoices-db", by decide⟩ }

/-- Both, once the edited one is declared. -/
def editedDatabases : List DataSourceDeclaration :=
  [invoicesDatabase, { editedDatabase with revision := 2 }]

theorem editedDatabases_leaves :
    (declare editedDatabase (some 0) ⟨some 0, [invoicesDatabase, ordersDatabase]⟩
      (some (.ok ordersPublished))).leaves = some editedDatabases := by
  have hvalid : editedDatabase.validate = .ok () := by decide +kernel
  have hheld : checkHeld [invoicesDatabase, ordersDatabase] = .ok () := by decide +kernel
  have hpublished : publishedIn ordersPublished editedDatabase.id = some ⟨1, true⟩ :=
    ordersPublished_publishedIn
  have hsorted : sortedBy DataSourceDeclaration.id editedDatabases = editedDatabases :=
    List.mergeSort_of_pairwise (by decide +kernel)
  have hplan : planDeclaration [invoicesDatabase, ordersDatabase] editedDatabase
      (publishedIn ordersPublished editedDatabase.id) = .write editedDatabases := by
    rw [hpublished, ← hsorted]
    rfl
  have hdeclare := @declare_of_trusted Nat _ editedDatabase
    ⟨some 0, [invoicesDatabase, ordersDatabase]⟩ ordersPublished hvalid hheld
  rw [hdeclare, hplan]
  rfl

/-- The database is declared as it is held, and nothing is written; and it is declared with another
connection, beside a database that stays as it is. -/
theorem ordersDatabase_settles :
    Settles Publication.bareSamples.codecs ordersPublished ordersDatabase
      ⟨some 0, [ordersDatabase]⟩
      (declare ordersDatabase (some 0) ⟨some 0, [ordersDatabase]⟩ (some (.ok ordersPublished)))
      [ordersDatabase] ∧
    Settles Publication.bareSamples.codecs ordersPublished editedDatabase
      ⟨some 0, [invoicesDatabase, ordersDatabase]⟩
      (declare editedDatabase (some 0) ⟨some 0, [invoicesDatabase, ordersDatabase]⟩
        (some (.ok ordersPublished))) editedDatabases := by
  constructor
  · have hleaves : (declare ordersDatabase (some 0) ⟨some 0, [ordersDatabase]⟩
        (some (.ok ordersPublished))).leaves = some [ordersDatabase] := by
      decide +kernel
    refine (settles_iff Publication.bareSamples.lawful ordersPublished_covered ?_
      ordersPublished_room hleaves).mpr ?_
    · intro declared hmem
      rw [List.mem_singleton.mp hmem]
      decide
    · rintro ⟨existing, hexisting, -, -, hcopy⟩
      cases hexisting
      exact hcopy (publishedCopy_ordersPublished rfl)
  · have hroom : ∀ floor, ordersPublished.history.dataSource editedDatabase.id = some floor →
        floor < Fin.last _ := ordersPublished_room
    refine (settles_iff Publication.bareSamples.lawful ordersPublished_covered ?_ hroom
      editedDatabases_leaves).mpr ?_
    · intro declared hmem
      simp only [List.mem_cons, List.not_mem_nil, or_false] at hmem
      rcases hmem with rfl | rfl <;> decide
    · rintro ⟨existing, hexisting, hsame, -, -⟩
      cases hexisting
      exact absurd hsame (by decide)

/-- The edited database is declared as it is held: that succeeds, and leaves it at a revision the
publisher refuses. -/
theorem editedDatabase_refused :
    (declare editedDatabase (some 0) ⟨some 0, [editedDatabase]⟩
      (some (.ok ordersPublished))).leaves = some [editedDatabase] ∧
    ¬ Settles Publication.bareSamples.codecs ordersPublished editedDatabase
      ⟨some 0, [editedDatabase]⟩ (declare editedDatabase (some 0) ⟨some 0, [editedDatabase]⟩
        (some (.ok ordersPublished))) [editedDatabase] := by
  have hcopy : publishedCopy ordersPublished editedDatabase = some ordersDatabase.intoDocument :=
    publishedCopy_ordersPublished rfl
  have hpublished : publishedIn ordersPublished editedDatabase.id = some ⟨1, true⟩ :=
    ordersPublished_publishedIn
  have hroom : ∀ floor, ordersPublished.history.dataSource editedDatabase.id = some floor →
      floor < Fin.last _ := ordersPublished_room
  have hoverlooked : Overlooked ordersPublished editedDatabase [editedDatabase] := by
    refine ⟨editedDatabase, rfl, rfl, hpublished, ?_⟩
    rw [hcopy]
    decide
  have hexisting : declarationOf [editedDatabase] editedDatabase.id = some editedDatabase := rfl
  refine ⟨by decide +kernel, fun hsettles => ?_⟩
  refine (takes_existing_iff Publication.bareSamples.lawful ordersPublished_covered hroom
    hexisting rfl ?_).mp (hsettles.takes rfl) hoverlooked
  rw [hpublished]
  decide

end Platform
end SaasFabric
