import SaasFabric.Publication.Document

/-!
# What the platform refuses with

`fabric-platform-management`'s errors, with the texts an operator reads: the rules of a
declaration, why a placement is refused, and what can go wrong at the ports.
-/

namespace SaasFabric
namespace Platform

open Publication (PlacementClassDocument)

/-- `placement_word` and `class_word`: both say the same of a class. -/
def placementWord : PlacementClassDocument → String
  | .shared => "shared"
  | .dedicated => "dedicated"
  | .highAvailability => "high availability"
  | .regulated => "regulated"
  | .development => "development"
  | .ephemeral => "ephemeral"

/-- `PoolField`. -/
inductive PoolField where
  | maxConnections
  | idleTimeoutSeconds
  | acquireTimeoutSeconds
deriving DecidableEq

/-- `operator_words`. -/
def PoolField.operatorWords : PoolField → String
  | .maxConnections => "the pool's maximum connections"
  | .idleTimeoutSeconds => "the pool's idle timeout"
  | .acquireTimeoutSeconds => "the pool's acquire timeout"

/-- `DataSourceRule`. -/
inductive DataSourceRule where
  | sharedNeedsDiscriminator
  | discriminatorOnlyWhenShared (placement : PlacementClassDocument)
  | zeroPool (field : PoolField)
  | emptyLabel
  | malformedSecretReference
  | connectionKindNotDeclarable
deriving DecidableEq

instance : ToString DataSourceRule where
  toString
    | .sharedNeedsDiscriminator => "a shared data source needs a discriminator column"
    | .discriminatorOnlyWhenShared placement =>
        "a discriminator column only applies to a shared data source, not a " ++
          placementWord placement ++ " one"
    | .zeroPool field => field.operatorWords ++ " must be greater than zero"
    | .emptyLabel => "a label cannot have an empty key or value"
    | .malformedSecretReference =>
        "a secret reference must be a non-empty path of at most 512 bytes, with no " ++
          "whitespace or control characters"
    | .connectionKindNotDeclarable =>
        "a connection must be a name the connector holds or a reference to a secret"

/-- `PlacementRefusal`. -/
inductive PlacementRefusal where
  | alreadyPlaced (tenant : TenantId) (logical : LogicalDataSourceName)
  | noDataSourceAdmits (class_ : PlacementClassDocument) (region provider : Option String)
  | allMatchingSourcesOccupied (class_ : PlacementClassDocument)
  | tenantIdInvalid (client : String)
  | discriminatorValueTaken (dataSource : DataSourceId) (value : String)
deriving DecidableEq

/-- `no_data_source_admits_message`. -/
def noDataSourceAdmitsMessage (class_ : PlacementClassDocument)
    (region provider : Option String) : String :=
  s!"declare a {placementWord class_} data source" ++
    ((region.map fun region => s!" in region {region}").getD "") ++
    " that accepts new tenants" ++
    ((provider.map fun provider => s!" ('{provider}' was stated as a provider, but nothing " ++
      "declares one yet, so it was not matched)").getD "")

instance : ToString PlacementRefusal where
  toString
    | .alreadyPlaced tenant logical => s!"{tenant} is already placed for {logical}"
    | .noDataSourceAdmits class_ region provider =>
        noDataSourceAdmitsMessage class_ region provider
    | .allMatchingSourcesOccupied class_ =>
        s!"every {placementWord class_} data source that matches is already somebody's tenant"
    | .tenantIdInvalid client => s!"{client} is not a valid tenant id"
    | .discriminatorValueTaken dataSource value =>
        s!"{dataSource} already has a tenant recorded with discriminator value '{value}'"

/-- `DesiredStateError`. -/
inductive DesiredStateError where
  | notConnected
  | notFound (what : String)
  | conflict
  | unavailable (detail : String)
  | refused (detail : String)
deriving DecidableEq

/-- `RegistryError`. -/
inductive RegistryError where
  | unavailable (detail : String)
  | refused (detail : String)
  | denied (detail : String)
deriving DecidableEq

/-- `PlatformError`. -/
inductive PlatformError where
  | desiredState (error : DesiredStateError)
  | registry (error : RegistryError)
  | notAdvancing (component : String)
  | notRollable (component version : String)
  | belowRollbackFloor (component version floor : String)
  | invalidDataSource (rule : DataSourceRule)
  | invalidHeldDataSources (detail : String)
  | placementRefused (refusal : PlacementRefusal)
  | invalidHeldPlacements (detail : String)
  | dataSourceInUse (id : DataSourceId) (tenants : List TenantId)
  | publishedStateUnreadable
deriving DecidableEq

end Platform
end SaasFabric
