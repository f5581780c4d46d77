import SaasFabric.Connector.TenantScoping
import SaasFabric.DataApi.Service

/-!
# Authorization comes first

Every operation prepares itself, and preparation decides whether the caller is entitled to an
answer before it looks at what the resource, the tenant or the request hold.
-/

namespace SaasFabric
namespace DataApi

open Library (bind_eq_ok check_bind_eq_ok map_eq_ok mapError_eq_ok)
open Publication (OperationKind)

/-- A call is made to a target, about the record with a key, or where there is none about the
collection. -/
def ActsOn (resource : ResourceDefinition) (target : ExecutionTarget) (key : Option String) :
    Call → Prop
  | .query spec => ∃ asked : QuerySpec, spec = asked.forTarget target ∧
      asked.collection = resource.collection ∧
      ∀ id, key = some id → asked.filter = some (keyFilter resource id)
  | .mutate spec => ∃ asked : MutationSpec, spec = asked.forTarget target ∧
      asked.collection = resource.collection ∧
      ∀ id, key = some id → predicateOf asked = some (keyFilter resource id)

namespace DataApiService

variable {service : DataApiService} {caller : Caller} {name : LogicalResourceName}

/-! ## Preparation -/

/-- Preparation succeeds for a caller who was authorized, on the entry of the catalogue and with
the connector of the tenant's data source. -/
theorem spec_of_prepare {operation : OperationKind} {key : Option String}
    {prepared : Prepared} (h : service.prepare caller name operation key = .ok prepared) :
    service.pinned name = .ok (some prepared.resource) ∧
      service.authorization.decide caller operation name key = .ok () ∧
      service.connectors.get prepared.resolved.target.connector = .ok prepared.connector := by
  unfold prepare at h
  obtain ⟨resource, hpinned, hrest⟩ := bind_eq_ok.mp h
  obtain ⟨hauthorized, hplaced⟩ := check_bind_eq_ok.mp hrest
  unfold place at hplaced
  obtain ⟨entry, hentry, hplaced⟩ := bind_eq_ok.mp hplaced
  split at hplaced
  · cases hplaced
  · obtain ⟨resolved, -, hplaced⟩ := bind_eq_ok.mp hplaced
    split at hplaced
    · cases hplaced
    · obtain ⟨connector, hconnector, hplaced⟩ := bind_eq_ok.mp hplaced
      cases hplaced
      cases resource with
      | none => cases hentry
      | some resource =>
          cases hentry
          exact ⟨hpinned, mapError_eq_ok.mp hauthorized, mapError_eq_ok.mp hconnector⟩

/-- Whether a catalogue is installed, and whether it has the name. -/
def knows (service : DataApiService) (name : LogicalResourceName) : Option Bool :=
  service.view.catalogue.map fun catalogue => catalogue.resources.contains name

/-- What a caller without the scope is answered: that there is no such name, or that it is not
permitted. -/
def refusal (name : LogicalResourceName) (operation : OperationKind) : Option Bool → DataApiError
  | some false => .unknownResource name
  | some true => .forbidden name.value operation.asStr
  | none => .forbidden name.value operation.asStr

theorem prepare_of_missing_scope {operation : OperationKind} (key : Option String)
    (hscope : scopesPermit caller.identity operation name.value = false) :
    service.prepare caller name operation key =
      .error (refusal name operation (service.knows name)) := by
  have hauthorize : service.authorize caller operation name key =
      .error (.forbidden name.value operation.asStr) := by
    unfold authorize
    rw [service.authorization.decide_of_missing_scope hscope]
    rfl
  unfold prepare pinned knows
  rw [hauthorize]
  cases hcatalogue : service.view.catalogue with
  | none => rfl
  | some catalogue =>
      rw [Option.map_some, Std.ExtTreeMap.contains_eq_isSome_getElem?]
      unfold ResourceCatalog.resolve
      dsimp only
      cases hentry : catalogue.resources[name]? with
      | none => rfl
      | some resource => rfl

/-! ## Operations -/

/-- An operation whose preparation is refused is refused in the same way. -/
theorem plan_of_prepare_error {request : Request} {error : DataApiError}
    (h : service.prepare caller name request.operation request.key = .error error) :
    service.plan caller name request = .error error := by
  cases request with
  | list rawQuery =>
      have hlist : service.list caller name rawQuery = .error error := by
        unfold list
        rw [show service.prepare caller name .list none = .error error from h]
        rfl
      change (service.list caller name rawQuery).map _ = .error error
      rw [hlist]
      rfl
  | read key =>
      have hread : service.read caller name key = .error error := by
        unfold read
        rw [show service.prepare caller name .read (some key) = .error error from h]
        rfl
      change (service.read caller name key).map _ = .error error
      rw [hread]
      rfl
  | create rows =>
      have hcreate : service.create caller name rows = .error error := by
        unfold create
        rw [show service.prepare caller name .create none = .error error from h]
        rfl
      change (service.create caller name rows).map _ = .error error
      rw [hcreate]
      rfl
  | update key changes =>
      have hupdate : service.update caller name key changes = .error error := by
        unfold update
        rw [show service.prepare caller name .update (some key) = .error error from h]
        rfl
      change (service.update caller name key changes).map _ = .error error
      rw [hupdate]
      rfl
  | delete key =>
      have hdelete : service.delete caller name key = .error error := by
        unfold delete
        rw [show service.prepare caller name .delete (some key) = .error error from h]
        rfl
      change (service.delete caller name key).map _ = .error error
      rw [hdelete]
      rfl

/-- A connector is asked only by an operation that was prepared, and it is asked about the
record whose key the preparation was for. -/
theorem actsOn_of_plan {request : Request} {dispatch : Dispatch Answer}
    (h : service.plan caller name request = .ok dispatch) :
    ∃ prepared, service.prepare caller name request.operation request.key = .ok prepared ∧
      ActsOn prepared.resource prepared.resolved.target request.key dispatch.call := by
  cases request with
  | list rawQuery =>
      obtain ⟨planned, hplanned, rfl⟩ := map_eq_ok.mp h
      obtain ⟨prepared, hprepared, hrest⟩ := bind_eq_ok.mp hplanned
      obtain ⟨query, -, hrest⟩ := bind_eq_ok.mp hrest
      obtain ⟨-, hrest⟩ := check_bind_eq_ok.mp hrest
      cases hrest
      exact ⟨prepared, hprepared, _, rfl, rfl, fun _ h => nomatch h⟩
  | read key =>
      obtain ⟨planned, hplanned, rfl⟩ := map_eq_ok.mp h
      obtain ⟨prepared, hprepared, hrest⟩ := bind_eq_ok.mp hplanned
      cases hrest
      refine ⟨prepared, hprepared, _, rfl, rfl, ?_⟩
      rintro id ⟨⟩
      rfl
  | create rows =>
      obtain ⟨planned, hplanned, rfl⟩ := map_eq_ok.mp h
      obtain ⟨prepared, hprepared, hrest⟩ := bind_eq_ok.mp hplanned
      unfold createPrepared at hrest
      split at hrest
      · cases hrest
      · obtain ⟨-, hrest⟩ := check_bind_eq_ok.mp hrest
        obtain ⟨written, -, hrest⟩ := bind_eq_ok.mp hrest
        cases hrest
        exact ⟨prepared, hprepared, _, rfl, rfl, fun _ h => nomatch h⟩
  | update key changes =>
      obtain ⟨planned, hplanned, rfl⟩ := map_eq_ok.mp h
      obtain ⟨prepared, hprepared, hrest⟩ := bind_eq_ok.mp hplanned
      unfold updatePrepared at hrest
      split at hrest
      · cases hrest
      · obtain ⟨-, hrest⟩ := check_bind_eq_ok.mp hrest
        obtain ⟨row, -, hrest⟩ := bind_eq_ok.mp hrest
        cases hrest
        refine ⟨prepared, hprepared, _, rfl, rfl, ?_⟩
        rintro id ⟨⟩
        rfl
  | delete key =>
      obtain ⟨planned, hplanned, rfl⟩ := map_eq_ok.mp h
      obtain ⟨prepared, hprepared, hrest⟩ := bind_eq_ok.mp hplanned
      cases hrest
      refine ⟨prepared, hprepared, _, rfl, rfl, ?_⟩
      rintro id ⟨⟩
      rfl

end DataApiService

/-- Authorization is decided before anything is disclosed or done.  Without the scope of the
operation the answer is settled by the name, the operation and whether an installed catalogue
has the name: any other service, with whatever catalogue contents, registries, policies,
authorization service and connectors, answers any request of the operation in the same way.
And a connector is asked only where the scope is held and either the tenant's policy needs no
check or the authorization service, shown the credential that stands for this very tenant and
subject, allowed this operation on the very object the call is about. -/
theorem authorization_precedes_disclosure (service : DataApiService) (caller : Caller)
    (name : LogicalResourceName) (request : Request) :
    (scopesPermit caller.identity request.operation name.value = false →
      ∀ (other : DataApiService) (otherRequest : Request),
        other.knows name = service.knows name →
        otherRequest.operation = request.operation →
        other.respond caller name otherRequest = service.respond caller name request) ∧
    (∀ dispatch, service.plan caller name request = .ok dispatch →
      scopesPermit caller.identity request.operation name.value = true ∧
      (service.authorization.policies.requiresCheck caller.identity.tenant name = false ∨
        ∃ asked, DataAuthorization.IsTarget request.operation name request.key asked ∧
          service.authorization.check caller.credential ⟨request.operation, asked⟩ =
            .ok .allowed ∧
          caller.resolver.identify caller.credential = .ok caller.identity) ∧
      ∃ prepared, service.pinned name = .ok (some prepared.resource) ∧
        service.prepare caller name request.operation request.key = .ok prepared ∧
        ActsOn prepared.resource prepared.resolved.target request.key dispatch.call) := by
  constructor
  · intro hscope other otherRequest hknows hoperation
    have hanswer : ∀ (service : DataApiService) (request : Request),
        scopesPermit caller.identity request.operation name.value = false →
        service.respond caller name request =
          .error (DataApiService.refusal name request.operation (service.knows name)) := by
      intro service request hscope
      unfold DataApiService.respond
      rw [DataApiService.plan_of_prepare_error
        (DataApiService.prepare_of_missing_scope request.key hscope)]
      rfl
    have hother : scopesPermit caller.identity otherRequest.operation name.value = false := by
      rw [hoperation]
      exact hscope
    rw [hanswer other otherRequest hother, hanswer service request hscope, hknows, hoperation]
  · intro dispatch hplan
    obtain ⟨prepared, hprepared, hacts⟩ := DataApiService.actsOn_of_plan hplan
    obtain ⟨hpinned, hdecided, -⟩ := DataApiService.spec_of_prepare hprepared
    obtain ⟨hscope, hcheck⟩ := service.authorization.of_decide_eq_ok hdecided
    refine ⟨hscope, ?_, prepared, hpinned, hprepared, hacts⟩
    rcases hcheck with hfree | ⟨asked, htarget, hallowed⟩
    · exact Or.inl hfree
    · exact Or.inr ⟨asked, htarget, hallowed, caller.identify_credential⟩

/-- A resolver that trusts one issuer and reads every token as the same claims. -/
def acmeResolver (scope : String) : Identity.IdentityResolver where
  config :=
    { tenantClaim := "tenant_id"
      subjectClaim := "sub"
      rolesClaim := "roles"
      scopeClaim := "scope"
      rejectTenantHeader := true
      trustedIssuers := [⟨"https://id.acme", ⟨"acme", acme_accepted⟩⟩] }
  read _ := .ok ⟨Library.collect [("iss", .string "https://id.acme"),
    ("tenant_id", .string "acme"), ("sub", .string "alice"), ("scope", .string scope)]⟩

/-- A subject of one tenant who may read one resource. -/
def acmeReader : Caller where
  identity := ⟨⟨"acme", acme_accepted⟩, "alice", [], ["data:customers:read"]⟩
  credential := "token"
  resolver := acmeResolver "data:customers:read"
  headers := ⟨some "Bearer token", false⟩
  resolved := by decide +kernel
  extracted := by decide +kernel

theorem customers_accepted :
    (IdentifierKind.logicalResourceName.parse "customers").isOk = true := by decide

def customers : LogicalResourceName := ⟨"customers", customers_accepted⟩

theorem main_accepted : (IdentifierKind.logicalDataSourceName.parse "main").isOk = true := by decide

theorem customersCollection_accepted :
    (IdentifierKind.collectionName.parse "customers").isOk = true := by decide

/-- A resource that lists no fields. -/
def customersResource : ResourceDefinition where
  dataSource := ⟨"main", main_accepted⟩
  collection := ⟨"customers", customersCollection_accepted⟩
  keyField := ⟨"id", idField_accepted⟩
  operations := [.read, .list, .create, .update, .delete]
  queryableFields := []

/-- A tenant on a shared table. -/
def sharedView : Runtime.ResolutionView ResourceCatalog where
  catalogue := some ⟨(∅ : BTreeMap LogicalResourceName ResourceDefinition).insert customers
    customersResource⟩
  tenants := some (.new ((∅ : HashMap TenantId Runtime.TenantRuntimeBinding).insert Runtime.acme
    (Runtime.boundTenant Runtime.acme Runtime.sourceA (.discriminator tenantKey "acme"))))
  dataSources := some (.new ((∅ : HashMap DataSourceId Runtime.DataSource).insert Runtime.sourceA
    (Runtime.warehouseSource Runtime.sourceA)))
  served := none

/-- A service over a connector that holds nothing. -/
def emptyService : DataApiService where
  view := sharedView
  connectors := ⟨(∅ : BTreeMap ConnectorId DataConnector).insert ⟨"warehouse", warehouse_accepted⟩
    ⟨⟨"warehouse", warehouse_accepted⟩, fun _ _ => .ok ⟨[], none⟩, fun _ _ => .ok ⟨0, []⟩⟩⟩
  authorization := ⟨⟨∅⟩, fun _ _ => .error .notConfigured⟩
  config := ⟨50, 1000, 25, 5, 50, 4, 500⟩

/-- The service, where each access of the tenant to the resource is a relation that the
authorization service knows, and it knows the one to read a record. -/
def checkedService : DataApiService :=
  { emptyService with
    authorization :=
      { policies := ⟨(∅ : BTreeMap TenantId TenantAuthorization).insert ⟨"acme", acme_accepted⟩
          ⟨.relationChecked, (∅ : BTreeSet LogicalResourceName).insert customers⟩⟩
        check := fun _ question =>
          .ok (if question.operation = .read then .allowed else .denied) } }

/-- A caller with the scope to read is refused a delete in the words any service would use, and
has a list asked of the connector because of that scope; where relations are checked, a record is
read because the relation to this record was asked for and is there, and nothing is listed. -/
theorem acme_reader_reads_and_does_not_delete :
    ({ emptyService with view := { sharedView with tenants := none } } : DataApiService).respond
        acmeReader customers (.delete "2") =
      emptyService.respond acmeReader customers (.delete "1") ∧
    scopesPermit acmeReader.identity .list customers.value = true ∧
    (∃ asked, DataAuthorization.IsTarget .read customers (some "1") asked ∧
      checkedService.authorization.check acmeReader.credential ⟨.read, asked⟩ = .ok .allowed) ∧
    (checkedService.plan acmeReader customers (.list "name=Alice")).isOk = false := by
  refine ⟨?_, ?_, ?_, by decide +kernel⟩
  · exact (authorization_precedes_disclosure emptyService acmeReader customers (.delete "1")).1
      (by decide +kernel) _ (.delete "2") rfl rfl
  · have hplanned : (emptyService.plan acmeReader customers (.list "name=Alice")).isOk = true := by
      decide +kernel
    cases hplan : emptyService.plan acmeReader customers (.list "name=Alice") with
    | error error => rw [hplan] at hplanned; cases hplanned
    | ok dispatch =>
        exact ((authorization_precedes_disclosure emptyService acmeReader customers
          (.list "name=Alice")).2 dispatch hplan).1
  · have hplanned : (checkedService.plan acmeReader customers (.read "1")).isOk = true := by
      decide +kernel
    have hchecks : checkedService.authorization.policies.requiresCheck
        acmeReader.identity.tenant customers = true := by decide +kernel
    cases hplan : checkedService.plan acmeReader customers (.read "1") with
    | error error => rw [hplan] at hplanned; cases hplanned
    | ok dispatch =>
        obtain ⟨-, hrests, -⟩ := (authorization_precedes_disclosure checkedService acmeReader
          customers (.read "1")).2 dispatch hplan
        rcases hrests with hfree | ⟨asked, htarget, hallowed, -⟩
        · rw [hchecks] at hfree
          cases hfree
        · exact ⟨asked, htarget, hallowed⟩

end DataApi
end SaasFabric
