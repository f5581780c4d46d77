import Mathlib.Algebra.Group.Int.Defs
import SaasFabric.Platform.DataSources

/-!
# Placements

`fabric-platform-management`'s `placements/`: the record of where a tenant's logical data
source landed, what is still trusted of the records an environment holds, and the selector
that makes the next one.
-/

namespace SaasFabric
namespace Platform

open Library (bind_eq_ok)
open Publication (IsolationModelDocument PlacementClassDocument mem_sortedBy sortedBy)

/-- `PlacementRecord`. -/
structure PlacementRecord where
  tenant : TenantId
  logical : LogicalDataSourceName
  revision : BindingRevision
  dataSource : DataSourceId
  isolation : IsolationModelDocument
  placedAt : String
deriving DecidableEq

/-- `FIRST_REVISION`. -/
def FIRST_REVISION : BindingRevision := 1

/-- `DataIntent`. -/
structure DataIntent where
  class_ : PlacementClassDocument
  provider : Option String
  region : Option String

/-- RFC 3339, as the time library reads and writes it: what it writes, it reads. -/
structure Rfc3339 where
  OffsetDateTime : Type
  parse : String → Option OffsetDateTime
  fromUnixTimestamp : Int → Option OffsetDateTime
  format : OffsetDateTime → Option String
  parse_format : ∀ moment text, format moment = some text → (parse text).isSome

/-- `Placements::stamp`. -/
def Rfc3339.stamp (time : Rfc3339) (nowUnixSeconds : U64) : Except DesiredStateError String :=
  let seconds : Int := if nowUnixSeconds.val < 2 ^ 63 then nowUnixSeconds.val else 2 ^ 63 - 1
  match (time.fromUnixTimestamp seconds).bind time.format with
  | some text => .ok text
  | none => .error (.unavailable "the clock's time could not be formatted as RFC 3339")

theorem Rfc3339.parse_of_stamp {time : Rfc3339} {nowUnixSeconds : U64} {text : String}
    (h : time.stamp nowUnixSeconds = .ok text) : (time.parse text).isSome := by
  unfold Rfc3339.stamp at h
  dsimp only at h
  split at h
  · rename_i written hwritten
    cases h
    obtain ⟨moment, -, hmoment⟩ := Option.bind_eq_some_iff.mp hwritten
    exact time.parse_format moment _ hmoment
  · cases h

/-! ## What is held -/

/-- `isolation_matches_class`. -/
def isolationMatchesClass (placement : PlacementClassDocument) :
    IsolationModelDocument → Bool
  | .discriminator _ _ => placement = .shared
  | .database => placement ≠ .shared
  | .schema _ => false

/-- What `check_held_placements` has seen of the records before one. -/
structure HeldScan where
  seenPairs : List (TenantId × LogicalDataSourceName)
  discriminatorOwners : List ((DataSourceId × String) × TenantId)
  exclusiveHolders : List DataSourceId

/-- What the isolation of one record adds to what was seen, or what is wrong with it. -/
def HeldScan.isolate (scan : HeldScan) (placement : PlacementRecord)
    (source : DataSourceDeclaration) : Except PlatformError HeldScan :=
  match placement.isolation with
  | .discriminator column value =>
      if source.discriminator.map Discriminator.column ≠ some column then
        .error (.invalidHeldPlacements (s!"{placement.tenant} is isolated by column '{column}', " ++
          s!"which {placement.dataSource} does not declare"))
      else if ((scan.discriminatorOwners.lookup (placement.dataSource, value)).any fun owner =>
          owner != placement.tenant) then
        .error (.invalidHeldPlacements (s!"{placement.dataSource} has two tenants recorded with " ++
          s!"discriminator value '{value}'"))
      else
        .ok { scan with
          discriminatorOwners :=
            ((placement.dataSource, value), placement.tenant) :: scan.discriminatorOwners }
  | .database =>
      if placement.dataSource ∈ scan.exclusiveHolders then
        .error (.invalidHeldPlacements s!"{placement.dataSource} already has a tenant placed on it")
      else
        .ok { scan with exclusiveHolders := placement.dataSource :: scan.exclusiveHolders }
  | .schema _ => .ok scan

/-- What one record adds to what was seen, or what is wrong with it. -/
def HeldScan.step (time : Rfc3339) (declared : List DataSourceDeclaration) (scan : HeldScan)
    (placement : PlacementRecord) : Except PlatformError HeldScan :=
  if (placement.tenant, placement.logical) ∈ scan.seenPairs then
    .error (.invalidHeldPlacements
      s!"{placement.tenant} is placed more than once for {placement.logical}")
  else if (time.parse placement.placedAt).isNone then
    .error (.invalidHeldPlacements
      s!"{placement.tenant} was placed at a timestamp that is not RFC 3339")
  else
    match declarationOf declared placement.dataSource with
    | none =>
        .error (.invalidHeldPlacements
          s!"{placement.tenant} names a data source nothing declares")
    | some source =>
        if isolationMatchesClass source.placement placement.isolation then
          ({ scan with
            seenPairs := (placement.tenant, placement.logical) :: scan.seenPairs } :
              HeldScan).isolate placement source
        else
          .error (.invalidHeldPlacements
            s!"{placement.tenant} is isolated in a way {placement.dataSource} does not serve")

/-- The loop of `check_held_placements`. -/
def checkHeldPlacementsFrom (time : Rfc3339) (declared : List DataSourceDeclaration) :
    HeldScan → List PlacementRecord → Except PlatformError Unit
  | _, [] => .ok ()
  | scan, placement :: rest =>
      match scan.step time declared placement with
      | .error error => .error error
      | .ok next => checkHeldPlacementsFrom time declared next rest

/-- `check_held_placements`. -/
def checkHeldPlacements (time : Rfc3339) (placements : List PlacementRecord)
    (declared : List DataSourceDeclaration) : Except PlatformError Unit :=
  checkHeldPlacementsFrom time declared ⟨[], [], []⟩ placements

/-! ## What is trusted of placements -/

/-- A data source serves a placement: its class serves the isolation, and it declares the
column. -/
structure Serves (source : DataSourceDeclaration) (placement : PlacementRecord) : Prop where
  isolation : isolationMatchesClass source.placement placement.isolation = true
  column : ∀ column value, placement.isolation = .discriminator column value →
    source.discriminator.map Discriminator.column = some column

/-- A placement stands on what is declared. -/
structure Stands (time : Rfc3339) (declared : List DataSourceDeclaration)
    (placement : PlacementRecord) : Prop where
  stamped : (time.parse placement.placedAt).isSome
  served : ∃ source, declarationOf declared placement.dataSource = some source ∧
    Serves source placement

/-- Two placements on one data source collide: a whole database is placed on twice, or two
tenants are at one discriminator value. -/
inductive Collide (first second : PlacementRecord) : Prop where
  | database (dataSource : first.dataSource = second.dataSource)
      (first : first.isolation = .database) (second : second.isolation = .database)
  | discriminator {column other : FieldName} {value : String}
      (dataSource : first.dataSource = second.dataSource) (tenant : first.tenant ≠ second.tenant)
      (first : first.isolation = .discriminator column value)
      (second : second.isolation = .discriminator other value)

/-- Two placements do not stand in each other's way. -/
def Apart (first second : PlacementRecord) : Prop :=
  (first.tenant, first.logical) ≠ (second.tenant, second.logical) ∧ ¬ Collide first second

theorem Collide.symm {first second : PlacementRecord} (h : Collide first second) :
    Collide second first := by
  cases h with
  | database hsource hfirst hsecond => exact .database hsource.symm hsecond hfirst
  | discriminator hsource htenant hfirst hsecond =>
      exact .discriminator hsource.symm htenant.symm hsecond hfirst

theorem Apart.symm {first second : PlacementRecord} (h : Apart first second) :
    Apart second first :=
  ⟨h.1.symm, fun hcollide => h.2 hcollide.symm⟩

/-- Placements are coherent with what is declared: each stands, and they are apart. -/
structure Coherent (time : Rfc3339) (declared : List DataSourceDeclaration)
    (placements : List PlacementRecord) : Prop where
  stands : ∀ placement ∈ placements, Stands time declared placement
  apart : placements.Pairwise Apart

namespace Coherent

variable {time : Rfc3339} {declared : List DataSourceDeclaration}
  {placements : List PlacementRecord}

theorem nil : Coherent time declared [] := ⟨by simp, List.Pairwise.nil⟩

/-- Order does not matter. -/
theorem perm (h : Coherent time declared placements) {other : List PlacementRecord}
    (hperm : placements.Perm other) : Coherent time declared other :=
  ⟨fun placement hmem => h.stands placement (hperm.mem_iff.mpr hmem),
    (hperm.pairwise_iff Apart.symm).mp h.apart⟩

/-- Fewer placements are coherent. -/
theorem subperm (h : Coherent time declared placements) {fewer : List PlacementRecord}
    (hfewer : fewer.Subperm placements) : Coherent time declared fewer := by
  obtain ⟨some, hperm, hsublist⟩ := hfewer
  have hsome : Coherent time declared some :=
    ⟨fun placement hmem => h.stands placement (hsublist.mem hmem), h.apart.sublist hsublist⟩
  exact hsome.perm hperm

/-- One more placement that stands and is apart from the others. -/
theorem concat (h : Coherent time declared placements) {placement : PlacementRecord}
    (hstands : Stands time declared placement)
    (hapart : ∀ other ∈ placements, Apart other placement) :
    Coherent time declared (placements ++ [placement]) := by
  refine ⟨fun other hmem => ?_, List.pairwise_append.mpr ⟨h.apart, List.pairwise_singleton _ _,
    fun other hother last hlast => ?_⟩⟩
  · rcases List.mem_append.mp hmem with hheld | hlast
    · exact h.stands other hheld
    · rw [List.mem_singleton.mp hlast]
      exact hstands
  · rw [List.mem_singleton.mp hlast]
    exact hapart other hother

end Coherent

/-- What was seen before a record does not stand in its way. -/
structure HeldScan.Admits (scan : HeldScan) (placement : PlacementRecord) : Prop where
  pair : (placement.tenant, placement.logical) ∉ scan.seenPairs
  owner : ∀ column value owner, placement.isolation = .discriminator column value →
    scan.discriminatorOwners.lookup (placement.dataSource, value) = some owner →
      owner = placement.tenant
  holder : placement.isolation = .database → placement.dataSource ∉ scan.exclusiveHolders

/-- What one more record that is admitted adds to what was seen. -/
def HeldScan.seen (scan : HeldScan) (placement : PlacementRecord) : HeldScan where
  seenPairs := (placement.tenant, placement.logical) :: scan.seenPairs
  discriminatorOwners :=
    match placement.isolation with
    | .discriminator _ value =>
        ((placement.dataSource, value), placement.tenant) :: scan.discriminatorOwners
    | _ => scan.discriminatorOwners
  exclusiveHolders :=
    match placement.isolation with
    | .database => placement.dataSource :: scan.exclusiveHolders
    | _ => scan.exclusiveHolders

section Scan

variable {time : Rfc3339} {declared : List DataSourceDeclaration} {scan next : HeldScan}
  {placement other : PlacementRecord}

/-- The isolation of a record passes where its column is declared, and nothing that was seen
stands in its way. -/
theorem HeldScan.isolate_eq_ok {source : DataSourceDeclaration} :
    scan.isolate placement source = .ok next ↔
      (∀ column value, placement.isolation = .discriminator column value →
        source.discriminator.map Discriminator.column = some column) ∧
      (∀ column value owner, placement.isolation = .discriminator column value →
        scan.discriminatorOwners.lookup (placement.dataSource, value) = some owner →
          owner = placement.tenant) ∧
      (placement.isolation = .database → placement.dataSource ∉ scan.exclusiveHolders) ∧
      next = { scan.seen placement with seenPairs := scan.seenPairs } := by
  unfold HeldScan.isolate HeldScan.seen
  cases placement.isolation with
  | database =>
      by_cases hheld : placement.dataSource ∈ scan.exclusiveHolders
      · simp [hheld]
      · simp [hheld, eq_comm]
  | schema name =>
      simp only [reduceCtorEq, false_implies, implies_true, true_and, Except.ok.injEq]
      exact eq_comm
  | discriminator column value =>
      simp only [IsolationModelDocument.discriminator.injEq, and_imp, reduceCtorEq,
        false_implies, true_and]
      by_cases hcolumn : source.discriminator.map Discriminator.column = some column
      · rw [if_neg (not_not.mpr hcolumn)]
        cases howner : scan.discriminatorOwners.lookup (placement.dataSource, value) with
        | none =>
            rw [if_neg (by simp)]
            constructor
            · intro h
              cases h
              refine ⟨fun _ _ hsame _ => hsame ▸ hcolumn, fun _ _ _ _ hvalue hsome => ?_, rfl⟩
              rw [← hvalue, howner] at hsome
              cases hsome
            · rintro ⟨-, -, rfl⟩
              rfl
        | some owner =>
            by_cases htenant : owner = placement.tenant
            · rw [if_neg (by simp [htenant])]
              constructor
              · intro h
                cases h
                refine ⟨fun _ _ hsame _ => hsame ▸ hcolumn, fun _ _ _ _ hvalue hsome => ?_, rfl⟩
                rw [← hvalue, howner] at hsome
                cases hsome
                exact htenant
              · rintro ⟨-, -, rfl⟩
                rfl
            · rw [if_pos (by simpa using htenant)]
              exact ⟨nofun, fun h => absurd (h.2.1 column value owner rfl rfl howner) htenant⟩
      · rw [if_pos hcolumn]
        exact ⟨nofun, fun h => absurd (h.1 column value rfl rfl) hcolumn⟩

/-- A record passes where it stands and is admitted. -/
theorem HeldScan.step_eq_ok :
    scan.step time declared placement = .ok next ↔
      Stands time declared placement ∧ scan.Admits placement ∧ next = scan.seen placement := by
  unfold HeldScan.step
  by_cases hpair : (placement.tenant, placement.logical) ∈ scan.seenPairs
  · rw [if_pos hpair]
    exact ⟨nofun, fun h => absurd hpair h.2.1.pair⟩
  · rw [if_neg hpair]
    by_cases hstamped : (time.parse placement.placedAt).isSome
    · rw [if_neg (by simpa [Option.isSome_iff_ne_none] using hstamped)]
      cases hsource : declarationOf declared placement.dataSource with
      | none =>
          refine ⟨nofun, fun h => ?_⟩
          obtain ⟨source, hsome, -⟩ := h.1.served
          rw [hsource] at hsome
          cases hsome
      | some source =>
          dsimp only
          by_cases hclass : isolationMatchesClass source.placement placement.isolation = true
          · rw [if_pos hclass, isolate_eq_ok]
            constructor
            · rintro ⟨hcolumn, howner, hholder, hnext⟩
              exact ⟨⟨hstamped, source, hsource, hclass, hcolumn⟩, ⟨hpair, howner, hholder⟩, hnext⟩
            · rintro ⟨hstands, hadmits, hnext⟩
              obtain ⟨found, hfound, hserves⟩ := hstands.served
              rw [hsource] at hfound
              cases hfound
              exact ⟨hserves.column, hadmits.owner, hadmits.holder, hnext⟩
          · rw [if_neg hclass]
            refine ⟨nofun, fun h => ?_⟩
            obtain ⟨found, hfound, hserves⟩ := h.1.served
            rw [hsource] at hfound
            cases hfound
            exact absurd hserves.isolation hclass
    · rw [if_pos (by simpa using hstamped)]
      exact ⟨nofun, fun h => absurd h.1.stamped hstamped⟩

/-- What is admitted after a record was admitted: what was admitted before it, and is apart
from it. -/
theorem HeldScan.admits_seen (h : scan.Admits placement) :
    (scan.seen placement).Admits other ↔ scan.Admits other ∧ Apart placement other := by
  -- A record of a shared source takes its value there, and no other value or source.
  have howned : ∀ value, (∃ column, placement.isolation = .discriminator column value) →
      placement.dataSource = other.dataSource →
        (scan.seen placement).discriminatorOwners.lookup (other.dataSource, value) =
          some placement.tenant := by
    rintro value ⟨column, hisolation⟩ hsource
    unfold HeldScan.seen
    rw [hisolation, ← hsource]
    exact List.lookup_cons_self
  have hbefore : ∀ value, ¬ ((∃ column, placement.isolation = .discriminator column value) ∧
      placement.dataSource = other.dataSource) →
        (scan.seen placement).discriminatorOwners.lookup (other.dataSource, value) =
          scan.discriminatorOwners.lookup (other.dataSource, value) := by
    intro value hapart
    unfold HeldScan.seen
    cases hisolation : placement.isolation with
    | database => rfl
    | schema name => rfl
    | discriminator column own =>
        dsimp only
        rw [List.lookup_cons]
        have hkeys : ((other.dataSource, value) == (placement.dataSource, own)) = false := by
          rw [beq_eq_false_iff_ne]
          intro hsame
          obtain ⟨hsource, rfl⟩ := Prod.mk.inj hsame
          exact hapart ⟨⟨column, hisolation⟩, hsource.symm⟩
        rw [hkeys]
  have hholders : ∀ source, source ∈ (scan.seen placement).exclusiveHolders ↔
      (placement.isolation = .database ∧ source = placement.dataSource) ∨
        source ∈ scan.exclusiveHolders := by
    intro source
    unfold HeldScan.seen
    cases placement.isolation <;> simp
  constructor
  · intro hother
    -- Each check of the scan after the record is one from before, or one against the record.
    have hpairs := List.mem_cons.not.mp hother.pair
    rw [not_or] at hpairs
    refine ⟨⟨hpairs.2, ?_, fun hdatabase hmem => ?_⟩, fun heq => hpairs.1 heq.symm, ?_⟩
    · intro column value owner hisolation howner
      by_cases hown : (∃ column, placement.isolation = .discriminator column value) ∧
          placement.dataSource = other.dataSource
      · -- The owner before is the record's tenant, and so is the owner after.
        obtain ⟨⟨own, hplaced⟩, hsource⟩ := hown
        have hfirst := h.owner own value owner hplaced (by rw [hsource]; exact howner)
        have hsecond := hother.owner column value placement.tenant hisolation
          (howned value ⟨own, hplaced⟩ hsource)
        exact hfirst.trans hsecond
      · exact hother.owner column value owner hisolation ((hbefore value hown).trans howner)
    · exact hother.holder hdatabase ((hholders _).mpr (Or.inr hmem))
    · rintro (⟨hsource, hfirst, hsecond⟩ | ⟨hsource, htenant, hfirst, hsecond⟩)
      · exact hother.holder hsecond ((hholders _).mpr (Or.inl ⟨hfirst, hsource.symm⟩))
      · exact htenant (hother.owner _ _ placement.tenant hsecond
          (howned _ ⟨_, hfirst⟩ hsource))
  · rintro ⟨hother, hpair, hcollide⟩
    refine ⟨?_, ?_, ?_⟩
    · exact List.mem_cons.not.mpr (not_or.mpr ⟨fun heq => hpair heq.symm, hother.pair⟩)
    · intro column value owner hisolation howner
      by_cases hown : (∃ column, placement.isolation = .discriminator column value) ∧
          placement.dataSource = other.dataSource
      · obtain ⟨⟨own, hplaced⟩, hsource⟩ := hown
        rw [howned value ⟨own, hplaced⟩ hsource] at howner
        cases howner
        by_contra htenant
        exact hcollide (.discriminator hsource htenant hplaced hisolation)
      · rw [hbefore value hown] at howner
        exact hother.owner column value owner hisolation howner
    · intro hdatabase hmem
      rcases (hholders _).mp hmem with ⟨hplaced, hsource⟩ | hheld
      · exact hcollide (.database hsource.symm hplaced hdatabase)
      · exact hother.holder hdatabase hheld

theorem checkHeldPlacementsFrom_eq_ok {placements : List PlacementRecord} :
    checkHeldPlacementsFrom time declared scan placements = .ok () ↔
      Coherent time declared placements ∧ ∀ placement ∈ placements, scan.Admits placement := by
  induction placements generalizing scan with
  | nil => exact ⟨fun _ => ⟨Coherent.nil, by simp⟩, fun _ => rfl⟩
  | cons placement rest ih =>
      unfold checkHeldPlacementsFrom
      constructor
      · intro h
        cases hstep : scan.step time declared placement with
        | error error =>
            rw [hstep] at h
            cases h
        | ok next =>
            rw [hstep] at h
            obtain ⟨hstands, hadmits, rfl⟩ := HeldScan.step_eq_ok.mp hstep
            obtain ⟨hcoherent, hrest⟩ := ih.mp h
            have hlater := fun other hother => (HeldScan.admits_seen hadmits).mp (hrest other hother)
            refine ⟨⟨List.forall_mem_cons.mpr ⟨hstands, hcoherent.stands⟩, List.pairwise_cons.mpr
              ⟨fun other hother => (hlater other hother).2, hcoherent.apart⟩⟩, ?_⟩
            exact List.forall_mem_cons.mpr ⟨hadmits, fun other hother => (hlater other hother).1⟩
      · rintro ⟨hcoherent, hadmits⟩
        obtain ⟨hstands, hstandsRest⟩ := List.forall_mem_cons.mp hcoherent.stands
        obtain ⟨hfirst, hrest⟩ := List.forall_mem_cons.mp hadmits
        obtain ⟨hapart, hapartRest⟩ := List.pairwise_cons.mp hcoherent.apart
        have hstep : scan.step time declared placement = .ok (scan.seen placement) :=
          HeldScan.step_eq_ok.mpr ⟨hstands, hfirst, rfl⟩
        rw [hstep]
        exact ih.mpr ⟨⟨hstandsRest, hapartRest⟩, fun other hother =>
          (HeldScan.admits_seen hfirst).mpr ⟨hrest other hother, hapart other hother⟩⟩

/-- Placements are trusted exactly where they are coherent. -/
theorem checkHeldPlacements_eq_ok {placements : List PlacementRecord} :
    checkHeldPlacements time placements declared = .ok () ↔ Coherent time declared placements := by
  have hnothing : ∀ placement, HeldScan.Admits ⟨[], [], []⟩ placement := fun placement =>
    ⟨List.not_mem_nil, (fun _ _ _ _ h => nomatch h), fun _ => List.not_mem_nil⟩
  unfold checkHeldPlacements
  rw [checkHeldPlacementsFrom_eq_ok]
  exact ⟨fun h => h.1, fun h => ⟨h, fun placement _ => hnothing placement⟩⟩

end Scan

end Platform
end SaasFabric
