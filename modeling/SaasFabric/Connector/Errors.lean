import SaasFabric.Connector.Filter

/-!
# Connector failures

`fabric-connector`'s `errors/`: what a connector refuses, and how far an operation that
failed may have gone.
-/

namespace SaasFabric

/-- `UnsupportedFeature`. -/
inductive UnsupportedFeature where
  | filtering
  | filteringOnMutations
  | ordering
  | paging
  | comparison (operator : ComparisonOperator)
  | membership
  | nullComparison
  | mutations
  | writesToCollection
  | insertsOnCollection
  | updatesOnCollection
  | deletesOnCollection
deriving DecidableEq

/-- `ConnectorError`, less the transport's own cause of a failed exchange. -/
inductive ConnectorError where
  | unknownConnector (connector : ConnectorId)
  | unsupported (feature : UnsupportedFeature) (detail : Option String)
  | unknownCollection (collection : CollectionName)
  | secretUnavailable (reference : String)
  | unreachable (connector : ConnectorId)
  | outcomeUnknown (connector : ConnectorId)
  | resultLost (connector : ConnectorId)
  | rejected (connector : ConnectorId) (status : Fin (2 ^ 16)) (message : String)
  | malformedResponse (connector : ConnectorId) (detail : String)
  | invalidOperation (message : String)
deriving DecidableEq

namespace UnsupportedFeature

/-- `UnsupportedFeature::refused_because`. -/
def refusedBecause (feature : UnsupportedFeature) (detail : String) : ConnectorError :=
  .unsupported feature (some detail)

end UnsupportedFeature

end SaasFabric
