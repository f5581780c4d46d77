import SaasFabric.Library.Interleaved
import SaasFabric.Platform.Select

/-!
# What keeps an environment coherent

`DataSources::declare`, `DataSources::remove` and `Placements::place` over the two documents
of an environment.  Any number of them are under way at once; each reads, decides, and writes
against the revisions it read.
-/

namespace SaasFabric
namespace Platform

open Library (Interleaved bind_eq_ok)
open Publication (IsolationModelDocument mem_sortedBy sortedBy)

variable {Revision : Type}

/-! ## The two documents -/

/-- `DataSourcesRead`. -/
structure DataSourcesRead (Revision : Type) where
  revision : Option Revision
  declarations : List DataSourceDeclaration

/-- `PlacementsRead`. -/
structure PlacementsRead (Revision : Type) where
  revision : Option Revision
  placements : List PlacementRecord

/-- What a document holds at each of its revisions. -/
structure Documents (Revision : Type) where
  declarations : Revision → List DataSourceDeclaration
  placements : Revision → List PlacementRecord

/-- The revisions an environment's two documents are at; a document that was never written is at
none. -/
structure Environment (Revision : Type) where
  dataSources : Option Revision
  placements : Option Revision

/-- An environment that nothing was written to. -/
def Environment.empty : Environment Revision := ⟨none, none⟩

namespace Documents

variable (documents : Documents Revision)

/-- The declarations at a revision. -/
def declarationsAt (revision : Option Revision) : List DataSourceDeclaration :=
  (revision.map documents.declarations).getD []

/-- The placements at a revision. -/
def placementsAt (revision : Option Revision) : List PlacementRecord :=
  (revision.map documents.placements).getD []

/-- `read_data_sources`. -/
def readDataSources (environment : Environment Revision) : DataSourcesRead Revision :=
  ⟨environment.dataSources, documents.declarationsAt environment.dataSources⟩

/-- `read_placements`. -/
def readPlacements (environment : Environment Revision) : PlacementsRead Revision :=
  ⟨environment.placements, documents.placementsAt environment.placements⟩

end Documents

/-! ## The operations -/

/-- `Declared`. -/
inductive Declared (Revision : Type) where
  | written (read : DataSourcesRead Revision)
  | unchanged (read : DataSourcesRead Revision)

/-- What an operation answers. -/
inductive Answered (Revision : Type) where
  | declared (declared : Declared Revision)
  | placed (read : PlacementsRead Revision)

/-- Where an operation is, with what it was given and what it has read. -/
inductive Operation (Revision : Type) where
  | declare (declaration : DataSourceDeclaration) (expected : Option Revision)
  | declareWrite (declaration : DataSourceDeclaration) (declarations : List DataSourceDeclaration)
      (expected : Option Revision)
  | remove (id : DataSourceId) (expected : Option Revision)
  | removePlaced (id : DataSourceId) (expected : Option Revision) (held : DataSourcesRead Revision)
  | removeWrite (declarations : List DataSourceDeclaration) (expected : Option Revision)
      (placed : PlacementsRead Revision)
  | place (client : String) (logical : LogicalDataSourceName) (intent : DataIntent)
      (expected : Option Revision)
  | placeDeclared (tenant : TenantId) (logical : LogicalDataSourceName) (intent : DataIntent)
      (expected : Option Revision) (held : PlacementsRead Revision)
  | placeWrite (declared : DataSourcesRead Revision) (placements : List PlacementRecord)
      (expected : Option Revision)
  | rereadDataSources
  | rereadPlacements
  | returned (result : Except PlatformError (Answered Revision))

/-- Where an operation may begin: with any arguments. -/
def Operation.Begins : Operation Revision → Prop
  | .declare _ _ => True
  | .remove _ _ => True
  | .place _ _ _ _ => True
  | _ => False

section Deciding

variable [DecidableEq Revision]

/-- A precondition that names another revision than the one that is held. -/
def checkExpected (expected held : Option Revision) : Except PlatformError Unit :=
  if expected ≠ held then .error (.desiredState .conflict) else .ok ()

/-- An operation goes on with what was decided, or returns why nothing was. -/
def Operation.andThen {T : Type} (next : T → Operation Revision) :
    Except PlatformError T → Operation Revision
  | .error error => .returned (.error error)
  | .ok decided => next decided

/-- What a declaration does with its plan. -/
def declarePlanned (declaration : DataSourceDeclaration) (expected : Option Revision)
    (held : DataSourcesRead Revision) : DeclarationPlan → Operation Revision
  | .unchanged => .returned (.ok (.declared (.unchanged held)))
  | .write declarations => .declareWrite declaration declarations expected

/-- `DataSources::declare` once it has read: `published` is what the publication target answers,
if there is one. -/
def declareRead (declaration : DataSourceDeclaration) (expected : Option Revision)
    (held : DataSourcesRead Revision) (published : Except Unit (Option Published)) :
    Operation Revision :=
  .andThen (declarePlanned declaration expected held) do
    declaration.validate.mapError .invalidDataSource
    checkHeld held.declarations
    checkExpected expected held.revision
    let published ← published.mapError fun _ => .publishedStateUnreadable
    .ok (planDeclaration held.declarations declaration published)

/-- `DataSources::remove` once it has read the declarations. -/
def removeRead (id : DataSourceId) (expected : Option Revision)
    (held : DataSourcesRead Revision) : Operation Revision :=
  .andThen (fun _ => .removePlaced id expected held) do
    checkHeld held.declarations
    checkExpected expected held.revision

/-- The tenants placed on a data source, each once. -/
def tenantsOn (id : DataSourceId) (placements : List PlacementRecord) : List TenantId :=
  sortedBy (fun tenant => tenant) ((placements.filter fun placement =>
    placement.dataSource = id).map PlacementRecord.tenant).dedup

/-- What `DataSources::remove` does where both documents are trusted. -/
def removeTrusted (id : DataSourceId) (expected : Option Revision)
    (held : DataSourcesRead Revision) (placed : PlacementsRead Revision) : Operation Revision :=
  if ¬ (tenantsOn id placed.placements).isEmpty then
    .returned (.error (.dataSourceInUse id (tenantsOn id placed.placements)))
  else if ¬ held.declarations.any fun declared => declared.id = id then
    .returned (.ok (.declared (.unchanged held)))
  else
    .removeWrite (held.declarations.filter fun declared => declared.id ≠ id) expected placed

/-- `DataSources::remove` once it has read the placements too. -/
def removeChecked (time : Rfc3339) (id : DataSourceId) (expected : Option Revision)
    (held : DataSourcesRead Revision) (placed : PlacementsRead Revision) : Operation Revision :=
  .andThen (fun _ => removeTrusted id expected held placed)
    (checkHeldPlacements time placed.placements held.declarations)

/-- `tenant_id`. -/
def tenantId (client : String) : Except PlacementRefusal TenantId :=
  (Identifier.tryNew .tenantId client).mapError fun _ => .tenantIdInvalid client

/-- `Placements::place` once it has read the placements. -/
def placeRead (client : String) (logical : LogicalDataSourceName) (intent : DataIntent)
    (expected : Option Revision) (held : PlacementsRead Revision) : Operation Revision :=
  .andThen (fun tenant => .placeDeclared tenant logical intent expected held) do
    let tenant ← (tenantId client).mapError .placementRefused
    checkExpected expected held.revision
    .ok tenant

/-- Placements by tenant and logical data source. -/
def sortedPlacements (placements : List PlacementRecord) : List PlacementRecord :=
  placements.mergeSort fun left right =>
    ((compare left.tenant right.tenant).then (compare left.logical right.logical)).isLE

/-- `Placements::place` once it has read the declarations too. -/
def placeChecked (time : Rfc3339) (tenant : TenantId) (logical : LogicalDataSourceName)
    (intent : DataIntent) (expected : Option Revision) (held : PlacementsRead Revision)
    (declared : DataSourcesRead Revision) (nowUnixSeconds : U64) : Operation Revision :=
  .andThen (fun record =>
      .placeWrite declared (sortedPlacements (held.placements ++ [record])) expected) do
    checkHeld declared.declarations
    checkHeldPlacements time held.placements declared.declarations
    let now ← (time.stamp nowUnixSeconds).mapError .desiredState
    (select intent tenant logical declared.declarations held.placements now).mapError
      .placementRefused

/-! ## Side by side -/

/-- What a write is answered: the operation goes on, or is told of a failure. -/
inductive Acknowledged (next : Operation Revision) : Operation Revision → Prop where
  | written : Acknowledged next next
  | failed (error : DesiredStateError) :
      Acknowledged next (.returned (.error (.desiredState error)))

/-- How one operation moves.  A document is written where it still is at the revision that the
write names, and any read or write may fail, also after it was carried out. -/
inductive Moves (documents : Documents Revision) (time : Rfc3339) :
    Environment Revision → Operation Revision → Environment Revision → Operation Revision →
      Prop where
  | fails {environment : Environment Revision} {operation : Operation Revision}
      (error : DesiredStateError) (running : ∀ result, operation ≠ .returned result) :
      Moves documents time environment operation environment
        (.returned (.error (.desiredState error)))
  | declareRead {environment : Environment Revision} {declaration : DataSourceDeclaration}
      {expected : Option Revision} (published : Except Unit (Option Published)) :
      Moves documents time environment (.declare declaration expected) environment
        (declareRead declaration expected (documents.readDataSources environment) published)
  | declareWrite {environment : Environment Revision} {declaration : DataSourceDeclaration}
      {declarations : List DataSourceDeclaration} {next : Operation Revision}
      (revision : Revision) (holds : documents.declarations revision = declarations)
      (acknowledged : Acknowledged .rereadDataSources next) :
      Moves documents time environment
        (.declareWrite declaration declarations environment.dataSources)
        { environment with dataSources := some revision } next
  | removeRead {environment : Environment Revision} {id : DataSourceId}
      {expected : Option Revision} :
      Moves documents time environment (.remove id expected) environment
        (removeRead id expected (documents.readDataSources environment))
  | removeChecked {environment : Environment Revision} {id : DataSourceId}
      {expected : Option Revision} {held : DataSourcesRead Revision} :
      Moves documents time environment (.removePlaced id expected held) environment
        (removeChecked time id expected held (documents.readPlacements environment))
  | removeWrite {environment : Environment Revision} {declarations : List DataSourceDeclaration}
      {placed : PlacementsRead Revision} {next : Operation Revision}
      (current : environment.placements = placed.revision) (dataSources placements : Revision)
      (holds : documents.declarations dataSources = declarations)
      (holdsPlaced : documents.placements placements = placed.placements)
      (acknowledged : Acknowledged .rereadDataSources next) :
      Moves documents time environment
        (.removeWrite declarations environment.dataSources placed)
        ⟨some dataSources, some placements⟩ next
  | placeRead {environment : Environment Revision} {client : String}
      {logical : LogicalDataSourceName} {intent : DataIntent} {expected : Option Revision} :
      Moves documents time environment (.place client logical intent expected) environment
        (placeRead client logical intent expected (documents.readPlacements environment))
  | placeChecked {environment : Environment Revision} {tenant : TenantId}
      {logical : LogicalDataSourceName} {intent : DataIntent} {expected : Option Revision}
      {held : PlacementsRead Revision} (nowUnixSeconds : U64) :
      Moves documents time environment (.placeDeclared tenant logical intent expected held)
        environment (placeChecked time tenant logical intent expected held
          (documents.readDataSources environment) nowUnixSeconds)
  | placeWrite {environment : Environment Revision} {declared : DataSourcesRead Revision}
      {records : List PlacementRecord} {next : Operation Revision}
      (current : environment.dataSources = declared.revision) (dataSources placements : Revision)
      (holds : documents.declarations dataSources = declared.declarations)
      (holdsPlaced : documents.placements placements = records)
      (acknowledged : Acknowledged .rereadPlacements next) :
      Moves documents time environment (.placeWrite declared records environment.placements)
        ⟨some dataSources, some placements⟩ next
  | rereadDataSources {environment : Environment Revision} :
      Moves documents time environment .rereadDataSources environment
        (.returned (.ok (.declared (.written (documents.readDataSources environment)))))
  | rereadPlacements {environment : Environment Revision} :
      Moves documents time environment .rereadPlacements environment
        (.returned (.ok (.placed (documents.readPlacements environment))))

/-- The operations of a platform, side by side over one environment. -/
def operations (documents : Documents Revision) (time : Rfc3339) :
    Interleaved (Environment Revision) (Operation Revision) :=
  ⟨Operation.Begins, Moves documents time⟩

end Deciding

end Platform
end SaasFabric
