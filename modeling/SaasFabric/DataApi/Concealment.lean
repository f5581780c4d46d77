import SaasFabric.DataApi.Disclosure
import SaasFabric.DataApi.QueryString
import SaasFabric.DataApi.SharedTable

/-!
# The discriminator stays out of sight

One deployment under any placement of a tenant on its shared tables: what a request is answered
does not depend on the placement, as long as the request does not name the column.  And what a
request that names it is answered, beside what it would be answered were the column a field the
resource does not expose.
-/

namespace SaasFabric
namespace DataApi

open Library (FailsWith bind_eq_ok check_bind_eq_ok map_eq_ok)
open Publication (OperationKind)
open SaasFabric.Runtime (DataSource ResolutionView ResourceSnapshot TenantRuntimeBinding targetOf)

/-! ## One deployment, any placement -/

/-- Everything but how one tenant is told apart on the tables it shares: the published state, the
connectors over their tables, and the binding the tenant is placed with. -/
structure Deployment where
  catalogue : Option ResourceCatalog
  tenants : HashMap TenantId TenantRuntimeBinding
  dataSources : Option (ResourceSnapshot DataSource)
  tenant : TenantId
  binding : TenantRuntimeBinding
  logical : LogicalDataSourceName
  dataSource : DataSourceId
  semantics : TableSemantics
  tables : BTreeMap ConnectorId (CollectionName → List SharedRow)
  authorization : DataAuthorization
  config : DataApiConfig

namespace Deployment

variable (deployment : Deployment)

/-- The tenant's binding, placed. -/
def placed (discriminant : Discriminant) : TenantRuntimeBinding :=
  { deployment.binding with
    data := deployment.binding.data.insert deployment.logical
      ⟨deployment.dataSource, .discriminator discriminant.column discriminant.value⟩ }

/-- A connector over the tables as they are under a placement. -/
def connector (discriminant : Discriminant) (id : ConnectorId)
    (tables : CollectionName → List SharedRow) : DataConnector :=
  tableConnector deployment.semantics id fun collection =>
    (tables collection).map (·.stored discriminant)

/-- The service under a placement. -/
def under (discriminant : Discriminant) : DataApiService where
  view :=
    { catalogue := deployment.catalogue
      tenants := some (.new (deployment.tenants.insert deployment.tenant
        (deployment.placed discriminant)))
      dataSources := deployment.dataSources
      served := none }
  connectors := ⟨deployment.tables.map (deployment.connector discriminant)⟩
  authorization := deployment.authorization
  config := deployment.config

/-- Where a request is served, whatever the placement. -/
structure Site where
  resource : ResourceDefinition
  source : DataSource
  tables : CollectionName → List SharedRow

/-- A site is on one of the deployment's connectors and serves the resource of its name. -/
structure Site.Of (site : Site) (name : LogicalResourceName) : Prop where
  tables : ∃ id : ConnectorId, deployment.tables[id]? = some site.tables
  resource : ∃ catalogue, deployment.catalogue = some catalogue ∧
    catalogue.resources[name]? = some site.resource

/-- A site under a placement. -/
def Site.under (site : Site) (operation : OperationKind) (discriminant : Discriminant) :
    Prepared where
  resource := site.resource
  resolved := ⟨targetOf deployment.binding site.source
    (.discriminator discriminant.column discriminant.value), site.source⟩
  connector := deployment.connector discriminant site.source.connector site.tables
  operation := operation

variable {deployment} {caller : Caller} {name : LogicalResourceName}

/-- A placed tenant resolves to the DataSource it is placed on, as long as there is one. -/
theorem resolveDataSource_under (discriminant : Discriminant) :
    (deployment.under discriminant).view.resolveDataSource deployment.tenant deployment.logical =
      ((deployment.under discriminant).view.dataSource deployment.logical
        deployment.dataSource).map fun source =>
          ⟨targetOf deployment.binding source
            (.discriminator discriminant.column discriminant.value), source⟩ := by
  have htenant : (deployment.under discriminant).view.tenant deployment.tenant =
      .ok (deployment.placed discriminant) := by
    unfold ResolutionView.tenant Runtime.lookup under
    simp [Except.mapError]
  have hdata : (deployment.placed discriminant).dataBinding deployment.logical =
      .ok ⟨deployment.dataSource,
        .discriminator discriminant.column discriminant.value⟩ := by
    unfold TenantRuntimeBinding.dataBinding placed
    dsimp only
    rw [Library.getElem?_insert_self]
  unfold ResolutionView.resolveDataSource
  rw [htenant]
  simp only [bind, Except.bind, hdata]
  cases (deployment.under discriminant).view.dataSource deployment.logical
    deployment.dataSource <;> rfl

theorem get_connectors_under (discriminant : Discriminant) (id : ConnectorId) :
    (deployment.under discriminant).connectors.get id =
      (deployment.tables[id]?).elim (.error (.unknownConnector id)) fun tables =>
        .ok (deployment.connector discriminant id tables) := by
  unfold ConnectorRegistry.get under
  dsimp only
  rw [Std.ExtTreeMap.getElem?_map]
  cases deployment.tables[id]? <;> rfl

/-- What follows authorization ends in one refusal under every placement, or at one site. -/
theorem place_under (htenant : caller.identity.tenant = deployment.tenant)
    {resource : ResourceDefinition} (hlogical : resource.dataSource = deployment.logical)
    (operation : OperationKind) :
    (∃ error, ∀ discriminant, (deployment.under discriminant).place caller name operation
      (some resource) = .error error) ∨
    (∃ site : Site, site.resource = resource ∧
      (∃ id : ConnectorId, deployment.tables[id]? = some site.tables) ∧ ∀ discriminant,
      (deployment.under discriminant).place caller name operation (some resource) =
        .ok (site.under deployment operation discriminant)) := by
  let view : ResolutionView ResourceCatalog :=
    ⟨deployment.catalogue, none, deployment.dataSources, none⟩
  have hresolve : ∀ discriminant,
      (deployment.under discriminant).view.resolveDataSource caller.identity.tenant
        resource.dataSource =
        (view.dataSource deployment.logical deployment.dataSource).map fun source =>
          ⟨targetOf deployment.binding source
            (.discriminator discriminant.column discriminant.value), source⟩ := by
    intro discriminant
    rw [htenant, hlogical]
    exact resolveDataSource_under discriminant
  unfold DataApiService.place
  simp only [Option.elim_some, hresolve, bind, Except.bind]
  by_cases hallows : (!resource.allows operation) = true
  · left
    exact ⟨_, fun discriminant => if_pos hallows⟩
  · simp only [if_neg hallows]
    cases view.dataSource deployment.logical deployment.dataSource with
    | error error => exact Or.inl ⟨_, fun discriminant => rfl⟩
    | ok source =>
        simp only [Except.map, Except.mapError]
        by_cases hwrite : (operation.isWrite && !source.capabilities.writable) = true
        · left
          exact ⟨_, fun discriminant => if_pos hwrite⟩
        · simp only [if_neg hwrite]
          have hconnector : ∀ discriminant isolation,
              (deployment.under discriminant).connectors.get
                  (targetOf deployment.binding source isolation).connector =
                (deployment.tables[source.connector]?).elim
                  (.error (.unknownConnector source.connector))
                  fun tables => .ok (deployment.connector discriminant source.connector tables) :=
            fun discriminant _ => get_connectors_under discriminant source.connector
          cases htables : deployment.tables[source.connector]? with
          | none =>
              left
              refine ⟨.connector (.unknownConnector source.connector) operation, ?_⟩
              intro discriminant
              rw [hconnector, htables]
              rfl
          | some tables =>
              right
              refine ⟨⟨resource, source, tables⟩, rfl, ⟨_, htables⟩, fun discriminant => ?_⟩
              rw [hconnector, htables]
              rfl

/-- The preparation of a request ends in one refusal under every placement, or at one site. -/
theorem prepare_under (htenant : caller.identity.tenant = deployment.tenant)
    (hlogical : ∀ catalogue resource, deployment.catalogue = some catalogue →
      catalogue.resources[name]? = some resource → resource.dataSource = deployment.logical)
    (operation : OperationKind) (key : Option String) :
    (∃ error, ∀ discriminant,
      (deployment.under discriminant).prepare caller name operation key = .error error) ∨
    (∃ site : Site, site.Of deployment name ∧ ∀ discriminant,
      (deployment.under discriminant).prepare caller name operation key =
        .ok (site.under deployment operation discriminant)) := by
  let base : DataApiService :=
    { view := ⟨deployment.catalogue, none, deployment.dataSources, none⟩
      connectors := ⟨∅⟩
      authorization := deployment.authorization
      config := deployment.config }
  have hpinned : ∀ discriminant,
      (deployment.under discriminant).pinned name = base.pinned name := fun _ => rfl
  have hauthorize : ∀ discriminant, (deployment.under discriminant).authorize caller operation
      name key = base.authorize caller operation name key := fun _ => rfl
  unfold DataApiService.prepare
  simp only [hpinned, hauthorize, bind, Except.bind]
  cases hentry : base.pinned name with
  | error error => exact Or.inl ⟨error, fun _ => rfl⟩
  | ok entry =>
      cases base.authorize caller operation name key with
      | error error => exact Or.inl ⟨error, fun _ => rfl⟩
      | ok done =>
          cases entry with
          | none => exact Or.inl ⟨DataApiService.unavailable, fun _ => rfl⟩
          | some resource =>
              have hresource : ∃ catalogue, deployment.catalogue = some catalogue ∧
                  catalogue.resources[name]? = some resource := by
                unfold DataApiService.pinned at hentry
                cases hcatalogue : deployment.catalogue with
                | none =>
                    simp only [base, hcatalogue] at hentry
                    cases hentry
                | some catalogue =>
                    simp only [base, hcatalogue] at hentry
                    obtain ⟨found, hfound, hsome⟩ := map_eq_ok.mp hentry
                    cases hsome
                    refine ⟨catalogue, rfl, ?_⟩
                    unfold ResourceCatalog.resolve at hfound
                    cases hresource : catalogue.resources[name]? with
                    | none => rw [hresource] at hfound; cases hfound
                    | some resource => rw [hresource] at hfound; cases hfound; rfl
              obtain ⟨catalogue, hcatalogue, hfound⟩ := hresource
              rcases place_under htenant (hlogical catalogue resource hcatalogue hfound)
                operation with ⟨error, herror⟩ | ⟨site, rfl, htables, hsite⟩
              · exact Or.inl ⟨error, herror⟩
              · exact Or.inr ⟨site, ⟨htables, catalogue, hcatalogue, hfound⟩, hsite⟩

end Deployment

/-! ## Requests that do not name the column -/

namespace Request

/-- A request names a column, under some casing: in a filter, in `sort`, in `select`, or as a
member of a record in its body. -/
def Names (column : FieldName) : Request → Prop
  | list rawQuery => ∃ pair ∈ parsePairs rawQuery, ∃ name ∈ references pair,
      Text.eqIgnoreAsciiCase column.value (Text.trim name) = true
  | read _ => False
  | create rows => ∃ row ∈ rows, ∃ member ∈ row,
      Text.eqIgnoreAsciiCase column.value member.1 = true
  | update _ changes => ∃ member ∈ changes, Text.eqIgnoreAsciiCase column.value member.1 = true
  | delete _ => False

end Request

section Unnamed

variable {S : FilterSemantics} {column : FieldName}

theorem ignores_keyFilter {resource : ResourceDefinition} (hkey : column ≠ resource.keyField)
    (key : String) : Ignores S (some (keyFilter resource key)) column := by
  intro first second hagree
  rw [matches_some, matches_some]
  unfold keyFilter Filter.Selects
  rw [Filter.eval_compare, Filter.eval_compare, hagree _ hkey]

theorem ignores_toFilter {query : ListQuery}
    (h : ∀ field value, query.filters[field]? = some value → column ≠ field) :
    Ignores S query.toFilter column := by
  intro first second hagree
  rw [matches_toFilter, matches_toFilter]
  have hclause : ∀ clause ∈ query.clauses, clause.Selects S first ↔ clause.Selects S second := by
    intro clause hclause
    obtain ⟨⟨field, value⟩, hentry, rfl⟩ := List.mem_map.mp hclause
    have hfield := h field value (Std.ExtTreeMap.mem_toList_iff_getElem?_eq_some.mp hentry)
    unfold Filter.Selects
    rw [Filter.eval_compare, Filter.eval_compare, hagree field hfield]
  exact ⟨fun hall clause hmem => (hclause clause hmem).mp (hall clause hmem),
    fun hall clause hmem => (hclause clause hmem).mpr (hall clause hmem)⟩

/-- A page of stored rows shows what the rows without the column would. -/
theorem fromOutcome_stored {discriminant : Discriminant} {resource : ResourceDefinition}
    {rows : List SharedRow} (fields : List FieldName) (limit offset : U32)
    (hunused : ∀ row ∈ rows, row.base.get discriminant.column = none) :
    ListResponse.fromOutcome
        ⟨(rows.map (·.stored discriminant)).map (restrict fields), none⟩
        ⟨resource, some discriminant.column⟩ limit offset =
      ListResponse.fromOutcome ⟨(rows.map (·.base)).map (restrict fields), none⟩
        ⟨resource, none⟩ limit offset := by
  have hrows : ((rows.map (·.stored discriminant)).map (restrict fields)).map
        (RowResponse.project · ⟨resource, some discriminant.column⟩) =
      ((rows.map (·.base)).map (restrict fields)).map
        (RowResponse.project · ⟨resource, none⟩) := by
    rw [List.map_map, List.map_map, List.map_map, List.map_map]
    refine List.map_congr_left fun row hrow => ?_
    have hagree : AgreeBut discriminant.column (row.stored discriminant) row.base :=
      fun field hne => row.get_stored_of_ne hne
    exact project_eq (hagree.restrict fields) (get_restrict_eq_none (hunused row hrow) fields)
  unfold ListResponse.fromOutcome
  simp only [List.map_take, hrows, List.length_map]

/-- A field that is spelled like no member of an object is not in its row. -/
theorem get_toRow {permits : FieldName → Bool} {object : JsonObject} {row : Row}
    (h : toRow permits object = .ok row) (hcolumn : ∀ member ∈ object, member.1 ≠ column.value) :
    row.get column = none := by
  refine Library.foldlM_invariant (fun row => row.get column = none) ?_ h rfl
  intro state member hmember next hnext hstate
  unfold addMember at hnext
  obtain ⟨field, hfield, hrest⟩ := bind_eq_ok.mp hnext
  split at hrest
  · cases hrest
    have hvalue := Identifier.value_of_tryNew (Library.mapError_eq_ok.mp hfield)
    have hne : field ≠ column := by
      rintro rfl
      exact hcolumn member hmember hvalue.symm
    rw [Row.get_with_ne _ _ hne]
    exact hstate
  · cases hrest

/-- Rules that agree on the fields an object names make the same row of it. -/
theorem toRow_congr {permits other : FieldName → Bool} {object : JsonObject}
    (h : ∀ member ∈ object, ∀ field : FieldName, field.value = member.1 →
      permits field = other field) : toRow permits object = toRow other object := by
  refine Library.foldlM_congr (fun state member hmember => ?_) Row.new
  obtain ⟨name, value⟩ := member
  unfold addMember
  cases hfield : Identifier.tryNew .fieldName name with
  | error error => simp only [hfield, Except.mapError, bind, Except.bind]
  | ok field =>
      have hsame := h _ hmember field (Identifier.value_of_tryNew hfield)
      simp only [hfield, Except.mapError, bind, Except.bind, hsame]

/-- Rows that are the same outside the hidden column show the same. -/
theorem map_project_eq {resource : ResourceDefinition} {rows bases : List Row}
    (h : List.Forall₂ (AgreeBut column) rows bases)
    (hunused : ∀ base ∈ bases, base.get column = none) :
    rows.map (RowResponse.project · ⟨resource, some column⟩) =
      bases.map (RowResponse.project · ⟨resource, none⟩) := by
  induction h with
  | nil => rfl
  | cons hagree _ ih =>
      rw [List.forall_mem_cons] at hunused
      rw [List.map_cons, List.map_cons, project_eq hagree hunused.1, ih hunused.2]

end Unnamed

/-! ## The answer does not depend on the placement -/

namespace Deployment

/-- A placement the deployment could be under: its tables use the column for nothing else and the
value for nobody else, and the resource does not use the column as its key. -/
structure Suits (deployment : Deployment) (name : LogicalResourceName)
    (discriminant : Discriminant) : Prop where
  tables : ∀ (id : ConnectorId) tables, deployment.tables[id]? = some tables →
    ∀ collection, ToldApartBy discriminant (tables collection)
  key : ∀ catalogue (resource : ResourceDefinition), deployment.catalogue = some catalogue →
    catalogue.resources[name]? = some resource → discriminant.column ≠ resource.keyField

section Site

variable {deployment : Deployment} {name : LogicalResourceName} {site : Site}
  {discriminant : Discriminant} {operation : OperationKind}

theorem Suits.told (hsuits : deployment.Suits name discriminant)
    (hof : site.Of deployment name) (collection : CollectionName) :
    ToldApartBy discriminant (site.tables collection) := by
  obtain ⟨id, htables⟩ := hof.tables
  exact hsuits.tables id site.tables htables collection

theorem Suits.key_ne (hsuits : deployment.Suits name discriminant)
    (hof : site.Of deployment name) : discriminant.column ≠ site.resource.keyField := by
  obtain ⟨catalogue, hcatalogue, hresource⟩ := hof.resource
  exact hsuits.key catalogue site.resource hcatalogue hresource

/-- A read of a site is answered on the tenant's own rows. -/
theorem run_executeQuery {α : Type} {spec : QuerySpec}
    {answer : QueryOutcome → Except DataApiError α}
    (htold : ToldApartBy discriminant (site.tables spec.collection))
    (hignores : Ignores deployment.semantics.toFilterSemantics spec.filter discriminant.column)
    (hsort : ∀ entry ∈ spec.sort, discriminant.column ≠ entry.field) :
    (executeQuery (site.under deployment operation discriminant) spec answer).run =
      answer ⟨((sharedMatching deployment.semantics spec (site.tables spec.collection)).map
        (·.stored discriminant)).map (restrict spec.fields), none⟩ := by
  have htarget : (site.under deployment operation discriminant).resolved.target.isolation =
      .discriminator discriminant.column discriminant.value := rfl
  have hspec := forTarget_eq htarget spec
  have hmatching := matching_stored deployment.semantics htold htarget hignores hsort
  unfold executeQuery Dispatch.run
  change answer ⟨(matching deployment.semantics (spec.forTarget _)
    ((site.tables (spec.forTarget _).collection).map _)).map
      (restrict (spec.forTarget _).fields), none⟩ = _
  have hcollection : (spec.forTarget
      (site.under deployment operation discriminant).resolved.target).collection =
        spec.collection := by rw [hspec]
  have hfields : (spec.forTarget
      (site.under deployment operation discriminant).resolved.target).fields =
        spec.fields := by rw [hspec]
  rw [hcollection, hfields, hmatching]

/-- What a write of a site is answered, whatever the placement. -/
def written (deployment : Deployment) (site : Site) (operation : OperationKind)
    (spec : MutationSpec) (budget : RowBudget) : Except DataApiError WriteResponse :=
  let rows := sharedReached deployment.semantics spec (site.tables spec.collection)
  let outcome : MutationOutcome := ⟨U64.ofLength rows.length, rows⟩
  do
    ensureConsistent budget outcome site.source.connector operation
    .ok (.fromOutcome outcome ⟨site.resource, none⟩)

theorem collection_forTarget (spec : MutationSpec) (target : ExecutionTarget) :
    (spec.forTarget target).collection = spec.collection := by
  unfold MutationSpec.forTarget
  cases target.isolation.tenantPredicate <;> cases spec <;> rfl

/-- A write of a site is answered on the tenant's own rows. -/
theorem run_dispatch {spec : MutationSpec} {budget : RowBudget}
    (htold : ToldApartBy discriminant (site.tables spec.collection))
    (hignores : Ignores deployment.semantics.toFilterSemantics (predicateOf spec)
      discriminant.column)
    (hunused : ∀ base ∈ sharedReached deployment.semantics spec (site.tables spec.collection),
      base.get discriminant.column = none) :
    (dispatch (site.under deployment operation discriminant) spec budget).run =
      written deployment site operation spec budget := by
  have htarget : (site.under deployment operation discriminant).resolved.target.isolation =
      .discriminator discriminant.column discriminant.value := rfl
  have hreached := reached_stored deployment.semantics htold htarget hignores
  have hcollection := collection_forTarget spec
    (site.under deployment operation discriminant).resolved.target
  generalize hrows : reached deployment.semantics (spec.forTarget
    (site.under deployment operation discriminant).resolved.target)
      ((site.tables spec.collection).map (·.stored discriminant)) = rows at hreached
  have hrun : (dispatch (site.under deployment operation discriminant) spec budget).run =
      (do
        ensureConsistent budget ⟨U64.ofLength rows.length, rows⟩ site.source.connector operation
        .ok (.fromOutcome ⟨U64.ofLength rows.length, rows⟩
          ⟨site.resource, some discriminant.column⟩)) := by
    rw [← hrows, ← hcollection]
    rfl
  rw [hrun]
  unfold written WriteResponse.fromOutcome
  dsimp only
  rw [map_project_eq hreached hunused, hreached.length_eq]
  rfl

/-- A row the tenant's predicate selects is one of the table. -/
theorem mem_of_mem_ownMatching {S : TableSemantics} {filter : Option Filter}
    {table : List SharedRow} {row : SharedRow} (h : row ∈ ownMatching S filter table) :
    row ∈ table :=
  List.mem_of_mem_filter h

theorem get_merge_eq_none {column : FieldName} {row changes : Row} (hrow : row.get column = none)
    (hchanges : changes.get column = none) : (row.merge changes).get column = none := by
  rw [Row.get_merge, hrow, hchanges]
  rfl

/-- The answers to the operations at one site, whatever the placement. -/
theorem list_under (hof : site.Of deployment name) (rawQuery : String) :
    ∃ answer : Except DataApiError ListResponse, ∀ discriminant,
      deployment.Suits name discriminant →
      ¬ (Request.list rawQuery).Names discriminant.column →
      ((deployment.under discriminant).listPrepared site.resource.permitsField
        (site.under deployment operation discriminant) rawQuery >>= Dispatch.run) = answer := by
  unfold DataApiService.listPrepared
  cases hparse : ListQuery.parse site.resource.permitsField rawQuery with
  | error error => exact ⟨.error error, fun _ _ _ => rfl⟩
  | ok query =>
      cases henforce : enforceQuery query deployment.config with
      | error error =>
          refine ⟨.error error, fun discriminant _ _ => ?_⟩
          have hconfig : (deployment.under discriminant).config = deployment.config := rfl
          simp only [bind, Except.bind, hconfig, henforce]
      | ok done =>
          let limit := deployment.config.effectiveLimit query.limit
          let spec : QuerySpec :=
            { collection := site.resource.collection
              fields := site.resource.projection query.select
              filter := query.toFilter
              sort := query.sort
              limit := some (U32.saturatingSucc limit)
              offset := some (query.offset.getD 0) }
          refine ⟨.ok (.fromOutcome ⟨((sharedMatching deployment.semantics spec
            (site.tables spec.collection)).map (·.base)).map (restrict spec.fields), none⟩
            ⟨site.resource, none⟩ limit (query.offset.getD 0)), ?_⟩
          intro discriminant hsuits hnames
          have hconfig : (deployment.under discriminant).config = deployment.config := rfl
          have hreferred : ∀ field, Referred (parsePairs rawQuery) field →
              discriminant.column ≠ field := by
            rintro field ⟨pair, hpair, text, htext, hfield⟩ rfl
            refine hnames ⟨pair, hpair, text, htext, ?_⟩
            rw [← hfield]
            exact beq_self_eq_true _
          have hwithin := within_parse hparse
          have htold := hsuits.told hof spec.collection
          have hignores : Ignores deployment.semantics.toFilterSemantics spec.filter
              discriminant.column := ignores_toFilter fun field value hfield =>
            hreferred field (hwithin.filters field value hfield)
          have hsort : ∀ entry ∈ spec.sort, discriminant.column ≠ entry.field :=
            fun entry hentry => hreferred _ (hwithin.sort entry hentry)
          simp only [bind, Except.bind, hconfig, henforce]
          refine (run_executeQuery htold hignores hsort).trans ?_
          refine congrArg Except.ok (fromOutcome_stored _ _ _ fun row hrow => ?_)
          exact htold.unused row (mem_of_mem_ownMatching (mem_of_mem_sharedMatching _ hrow))

/-- The one read a key asks for. -/
def keyQuery (site : Site) (key : String) : QuerySpec where
  collection := site.resource.collection
  fields := site.resource.projection []
  filter := some (keyFilter site.resource key)
  sort := []
  limit := some 1
  offset := none

theorem read_under (hof : site.Of deployment name) (key : String) :
    ∃ answer : Except DataApiError RowResponse, ∀ discriminant,
      deployment.Suits name discriminant →
      (executeQuery (site.under deployment operation discriminant) (keyQuery site key)
        (firstRow ⟨site.resource, some discriminant.column⟩)).run = answer := by
  let rows := sharedMatching deployment.semantics (keyQuery site key)
    (site.tables (keyQuery site key).collection)
  refine ⟨firstRow ⟨site.resource, none⟩
    ⟨(rows.map (·.base)).map (restrict (keyQuery site key).fields), none⟩, ?_⟩
  intro discriminant hsuits
  have htold := hsuits.told hof (keyQuery site key).collection
  rw [run_executeQuery htold (ignores_keyFilter (hsuits.key_ne hof) key)
    (fun _ h => absurd h List.not_mem_nil)]
  have hunused : ∀ row ∈ rows, row.base.get discriminant.column = none := fun row hrow =>
    htold.unused row (mem_of_mem_ownMatching (mem_of_mem_sharedMatching _ hrow))
  change firstRow _ ⟨(rows.map _).map _, none⟩ = _
  cases hrows : rows with
  | nil => rfl
  | cons row rest =>
      have hrow := hunused row (by rw [hrows]; exact List.mem_cons_self)
      have hagree : AgreeBut discriminant.column (row.stored discriminant) row.base :=
        fun field hne => row.get_stored_of_ne hne
      exact congrArg Except.ok (project_eq (hagree.restrict _) (get_restrict_eq_none hrow _))

/-- What a write of a site is answered does not depend on a placement that leaves its rows and
its predicate alone. -/
theorem write_under (hof : site.Of deployment name) {spec : MutationSpec} {budget : RowBudget}
    (hsuits : deployment.Suits name discriminant)
    (hpredicate : predicateOf spec = none ∨
      ∃ key, predicateOf spec = some (keyFilter site.resource key))
    (hrows : ∀ rows collection, spec = .insert collection rows →
      ∀ row ∈ rows, row.get discriminant.column = none)
    (hchanges : ∀ collection filter changes, spec = .update collection filter changes →
      changes.get discriminant.column = none) :
    (dispatch (site.under deployment operation discriminant) spec budget).run =
      written deployment site operation spec budget := by
  have htold := hsuits.told hof spec.collection
  refine run_dispatch htold ?_ ?_
  · rcases hpredicate with hnone | ⟨key, hkey⟩
    · rw [hnone]
      exact fun first second _ => by simp
    · rw [hkey]
      exact ignores_keyFilter (hsuits.key_ne hof) key
  · intro base hbase
    cases spec with
    | insert collection rows => exact hrows rows collection rfl base hbase
    | update collection filter changes =>
        obtain ⟨row, hrow, rfl⟩ := List.mem_map.mp hbase
        exact get_merge_eq_none (htold.unused row (mem_of_mem_ownMatching hrow))
          (hchanges collection filter changes rfl)
    | delete collection filter =>
        obtain ⟨row, hrow, rfl⟩ := List.mem_map.mp hbase
        exact htold.unused row (mem_of_mem_ownMatching hrow)

/-- A member of a body that does not name the column is under the rules for any field. -/
theorem permits_of_unnamed {member : String × Value}
    (hmember : ¬ Text.eqIgnoreAsciiCase discriminant.column.value member.1 = true)
    (field : FieldName) (hfield : field.value = member.1) :
    (site.under deployment operation discriminant).writableFields.permits field =
      site.resource.permitsField field := by
  have hunnamed : Text.eqIgnoreAsciiCase discriminant.column.value field.value = false := by
    rw [hfield]
    simpa using hmember
  change (!Text.eqIgnoreAsciiCase discriminant.column.value field.value &&
    site.resource.permitsField field) = _
  rw [hunnamed]
  rfl

/-- A member of a body that does not name the column is not spelled as it is. -/
theorem ne_of_unnamed {column : FieldName} {member : String × Value}
    (hmember : ¬ Text.eqIgnoreAsciiCase column.value member.1 = true) :
    member.1 ≠ column.value := by
  intro h
  rw [h] at hmember
  exact hmember (beq_self_eq_true _)

theorem create_under (hof : site.Of deployment name) (rows : List JsonObject) :
    ∃ answer : Except DataApiError WriteResponse, ∀ discriminant,
      deployment.Suits name discriminant →
      ¬ (Request.create rows).Names discriminant.column →
      ((deployment.under discriminant).createPrepared
        (site.under deployment operation discriminant).writableFields.permits
        (site.under deployment operation discriminant) rows >>= Dispatch.run) = answer := by
  unfold DataApiService.createPrepared
  cases hempty : rows.isEmpty with
  | true => exact ⟨.error (.badRequest "no records to create"), fun _ _ _ => rfl⟩
  | false =>
      cases henforce : enforceBatchSize rows.length deployment.config with
      | error error =>
          refine ⟨.error error, fun discriminant _ _ => ?_⟩
          have hconfig : (deployment.under discriminant).config = deployment.config := rfl
          simp only [Bool.false_eq_true, if_false, bind, Except.bind, hconfig, henforce]
      | ok done =>
          have hrows : ∀ discriminant : Discriminant,
              ¬ (Request.create rows).Names discriminant.column →
              rows.mapM (toRow
                (site.under deployment operation discriminant).writableFields.permits) =
              rows.mapM (toRow site.resource.permitsField) := by
            intro discriminant hnames
            refine Library.mapM_congr fun row hrow => ?_
            refine toRow_congr fun member hmember => permits_of_unnamed fun hnamed => ?_
            exact hnames ⟨row, hrow, member, hmember, hnamed⟩
          cases hread : rows.mapM (toRow site.resource.permitsField) with
          | error error =>
              refine ⟨.error error, fun discriminant _ hnames => ?_⟩
              have hconfig : (deployment.under discriminant).config = deployment.config := rfl
              simp only [Bool.false_eq_true, if_false, bind, Except.bind, hconfig, henforce,
                hrows discriminant hnames, hread]
          | ok written =>
              refine ⟨Deployment.written deployment site operation
                (.insert site.resource.collection written)
                (.batch (U64.ofLength written.length)), fun discriminant hsuits hnames => ?_⟩
              have hconfig : (deployment.under discriminant).config = deployment.config := rfl
              simp only [Bool.false_eq_true, if_false, bind, Except.bind, hconfig, henforce,
                hrows discriminant hnames, hread]
              refine write_under hof hsuits (Or.inl rfl) ?_ (fun _ _ _ h => nomatch h)
              rintro _ _ ⟨⟩ row hrow
              obtain ⟨object, hobject, htoRow⟩ :=
                Library.exists_of_forall₂_of_mem (Library.mapM_eq_ok.mp hread) row hrow
              refine get_toRow htoRow fun member hmember => ne_of_unnamed fun hnamed => ?_
              exact hnames ⟨object, hobject, member, hmember, hnamed⟩

theorem update_under (hof : site.Of deployment name) (key : String) (changes : JsonObject) :
    ∃ answer : Except DataApiError WriteResponse, ∀ discriminant,
      deployment.Suits name discriminant →
      ¬ (Request.update key changes).Names discriminant.column →
      (DataApiService.updatePrepared
        (site.under deployment operation discriminant).writableFields.permits
        (site.under deployment operation discriminant) key changes >>= Dispatch.run) =
          answer := by
  unfold DataApiService.updatePrepared
  cases hempty : changes.isEmpty with
  | true => exact ⟨.error (.badRequest "no fields to update"), fun _ _ _ => rfl⟩
  | false =>
      cases hkey : refuseKeyChange site.resource changes with
      | error error =>
          refine ⟨.error error, fun discriminant _ _ => ?_⟩
          have hresource : (site.under deployment operation discriminant).resource =
            site.resource := rfl
          simp only [Bool.false_eq_true, if_false, bind, Except.bind, hresource, hkey]
      | ok done =>
          have hrow : ∀ discriminant : Discriminant,
              ¬ (Request.update key changes).Names discriminant.column →
              toRow (site.under deployment operation discriminant).writableFields.permits
                changes = toRow site.resource.permitsField changes := fun discriminant hnames =>
            toRow_congr fun member hmember => permits_of_unnamed fun hnamed =>
              hnames ⟨member, hmember, hnamed⟩
          cases hread : toRow site.resource.permitsField changes with
          | error error =>
              refine ⟨.error error, fun discriminant _ hnames => ?_⟩
              have hresource : (site.under deployment operation discriminant).resource =
                site.resource := rfl
              simp only [Bool.false_eq_true, if_false, bind, Except.bind, hresource, hkey,
                hrow discriminant hnames, hread]
          | ok row =>
              refine ⟨written deployment site operation (.update site.resource.collection
                (some (keyFilter site.resource key)) row) .oneRecord,
                fun discriminant hsuits hnames => ?_⟩
              have hresource : (site.under deployment operation discriminant).resource =
                site.resource := rfl
              simp only [Bool.false_eq_true, if_false, bind, Except.bind, hresource, hkey,
                hrow discriminant hnames, hread]
              refine write_under hof hsuits (Or.inr ⟨key, rfl⟩) (fun _ _ h => nomatch h) ?_
              rintro _ _ _ ⟨⟩
              exact get_toRow hread fun member hmember => ne_of_unnamed fun hnamed =>
                hnames ⟨member, hmember, hnamed⟩

end Site

end Deployment

/-! ## Requests as a whole -/

/-- Planning and asking is planning and asking, made something of. -/
theorem run_plan {α β : Type} (planned : Except DataApiError (Dispatch α)) (f : α → β) :
    (planned.map (·.map f) >>= Dispatch.run) = (planned >>= Dispatch.run).map f := by
  cases planned with
  | error error => rfl
  | ok dispatch => exact dispatch.run_map f

namespace DataApiService

variable {service : DataApiService} {caller : Caller} {name : LogicalResourceName}

/-- What the service would answer if every name in a request were under one rule. -/
def respondBy (service : DataApiService) (rule : Prepared → FieldName → Bool) (caller : Caller)
    (name : LogicalResourceName) : Request → Except DataApiError Answer
  | .list rawQuery => (do
      let prepared ← service.prepare caller name .list none
      service.listPrepared (rule prepared) prepared rawQuery >>= Dispatch.run).map .list
  | .create rows => (do
      let prepared ← service.prepare caller name .create none
      service.createPrepared (rule prepared) prepared rows >>= Dispatch.run).map .written
  | .update key changes => (do
      let prepared ← service.prepare caller name .update (some key)
      updatePrepared (rule prepared) prepared key changes >>= Dispatch.run).map .written
  | .read key => service.respond caller name (.read key)
  | .delete key => service.respond caller name (.delete key)

theorem respond_of_prepare_error {request : Request} {error : DataApiError}
    (h : service.prepare caller name request.operation request.key = .error error) :
    service.respond caller name request = .error error := by
  unfold respond
  rw [plan_of_prepare_error h]
  rfl

theorem respond_list {rawQuery : String} {prepared : Prepared}
    (h : service.prepare caller name .list none = .ok prepared) :
    service.respond caller name (.list rawQuery) =
      (service.listPrepared prepared.resource.permitsField prepared rawQuery >>=
        Dispatch.run).map .list := by
  refine (run_plan (service.list caller name rawQuery) Answer.list).trans ?_
  unfold list
  rw [h]
  rfl

theorem respond_create {rows : List JsonObject} {prepared : Prepared}
    (h : service.prepare caller name .create none = .ok prepared) :
    service.respond caller name (.create rows) =
      (service.createPrepared prepared.writableFields.permits prepared rows >>=
        Dispatch.run).map .written := by
  refine (run_plan (service.create caller name rows) Answer.written).trans ?_
  unfold create
  rw [h]
  rfl

theorem respond_update {key : String} {changes : JsonObject} {prepared : Prepared}
    (h : service.prepare caller name .update (some key) = .ok prepared) :
    service.respond caller name (.update key changes) =
      (updatePrepared prepared.writableFields.permits prepared key changes >>=
        Dispatch.run).map .written := by
  refine (run_plan (service.update caller name key changes) Answer.written).trans ?_
  unfold update
  rw [h]
  rfl

theorem respond_read {key : String} {prepared : Prepared}
    (h : service.prepare caller name .read (some key) = .ok prepared) :
    service.respond caller name (.read key) =
      (executeQuery prepared ⟨prepared.resource.collection, prepared.resource.projection [],
        some (keyFilter prepared.resource key), [], some 1, none⟩
          (firstRow prepared.visibleFields)).run.map .row := by
  refine (run_plan (service.read caller name key) Answer.row).trans ?_
  unfold read
  rw [h]
  rfl

theorem respond_delete {key : String} {prepared : Prepared}
    (h : service.prepare caller name .delete (some key) = .ok prepared) :
    service.respond caller name (.delete key) =
      (dispatch prepared (.delete prepared.resource.collection
        (some (keyFilter prepared.resource key))) .oneRecord).run.map .written := by
  refine (run_plan (service.delete caller name key) Answer.written).trans ?_
  unfold delete
  rw [h]
  rfl

theorem respondBy_of_prepare_error {rule : Prepared → FieldName → Bool} {request : Request}
    {error : DataApiError}
    (h : service.prepare caller name request.operation request.key = .error error) :
    service.respondBy rule caller name request = .error error := by
  cases request with
  | list rawQuery =>
      change Except.map _ (service.prepare caller name .list none >>= _) = _
      rw [show service.prepare caller name .list none = .error error from h]
      rfl
  | read key => exact respond_of_prepare_error h
  | create rows =>
      change Except.map _ (service.prepare caller name .create none >>= _) = _
      rw [show service.prepare caller name .create none = .error error from h]
      rfl
  | update key changes =>
      change Except.map _ (service.prepare caller name .update (some key) >>= _) = _
      rw [show service.prepare caller name .update (some key) = .error error from h]
      rfl
  | delete key => exact respond_of_prepare_error h

end DataApiService

open DataApiService in
/-- What a request is answered does not depend on the placement, as long as it does not name the
column. -/
theorem Deployment.respond_under {deployment : Deployment} {caller : Caller}
    {name : LogicalResourceName} (htenant : caller.identity.tenant = deployment.tenant)
    (hlogical : ∀ catalogue resource, deployment.catalogue = some catalogue →
      catalogue.resources[name]? = some resource → resource.dataSource = deployment.logical)
    (request : Request) :
    ∃ answer, ∀ discriminant, deployment.Suits name discriminant →
      ¬ request.Names discriminant.column →
      (deployment.under discriminant).respond caller name request = answer := by
  rcases prepare_under htenant hlogical request.operation request.key with
    ⟨error, herror⟩ | ⟨site, hof, hsite⟩
  · exact ⟨.error error, fun discriminant _ _ => respond_of_prepare_error (herror discriminant)⟩
  · cases request with
    | list rawQuery =>
        obtain ⟨answer, hanswer⟩ := @list_under deployment name site .list hof rawQuery
        refine ⟨answer.map .list, fun discriminant hsuits hnames => ?_⟩
        rw [respond_list (hsite discriminant), ← hanswer discriminant hsuits hnames]
        rfl
    | read key =>
        obtain ⟨answer, hanswer⟩ := @read_under deployment name site .read hof key
        refine ⟨answer.map .row, fun discriminant hsuits _ => ?_⟩
        rw [respond_read (hsite discriminant), ← hanswer discriminant hsuits]
        rfl
    | create rows =>
        obtain ⟨answer, hanswer⟩ := @create_under deployment name site .create hof rows
        refine ⟨answer.map .written, fun discriminant hsuits hnames => ?_⟩
        rw [respond_create (hsite discriminant)]
        exact congrArg _ (hanswer discriminant hsuits hnames)
    | update key changes =>
        obtain ⟨answer, hanswer⟩ := @update_under deployment name site .update hof key changes
        refine ⟨answer.map .written, fun discriminant hsuits hnames => ?_⟩
        rw [respond_update (hsite discriminant)]
        exact congrArg _ (hanswer discriminant hsuits hnames)
    | delete key =>
        refine ⟨(written deployment site .delete (.delete site.resource.collection
          (some (keyFilter site.resource key))) .oneRecord).map .written,
          fun discriminant hsuits _ => ?_⟩
        rw [respond_delete (hsite discriminant)]
        refine congrArg _ (write_under hof hsuits (Or.inr ⟨key, rfl⟩) (fun _ _ h => nomatch h)
          fun _ _ _ h => nomatch h)

/-! ## What a response shows -/

theorem rows_written {prepared : Prepared} {spec : MutationSpec} {budget : RowBudget}
    {response : WriteResponse} (h : (dispatch prepared spec budget).run = .ok response) :
    ∀ row ∈ response.data, ∃ held, row = RowResponse.project held prepared.visibleFields := by
  obtain ⟨outcome, -, houtcome⟩ := bind_eq_ok.mp h
  obtain ⟨-, hresponse⟩ := check_bind_eq_ok.mp houtcome
  cases hresponse
  intro row hrow
  obtain ⟨held, -, rfl⟩ := List.mem_map.mp hrow
  exact ⟨held, rfl⟩

/-- Every field of a row of a response is one the prepared operation may show. -/
theorem rows_visible {service : DataApiService} {caller : Caller} {name : LogicalResourceName}
    {request : Request} {answer : Answer} (h : service.respond caller name request = .ok answer) :
    ∃ prepared, service.prepare caller name request.operation request.key = .ok prepared ∧
      ∀ row ∈ answer.rows, ∃ held, row = RowResponse.project held prepared.visibleFields := by
  cases hprepare : service.prepare caller name request.operation request.key with
  | error error =>
      rw [DataApiService.respond_of_prepare_error hprepare] at h
      cases h
  | ok prepared =>
      refine ⟨prepared, rfl, ?_⟩
      -- Every kind of answer is made of projected rows, by a helper of its own.
      cases request with
      | list rawQuery =>
          rw [DataApiService.respond_list hprepare] at h
          obtain ⟨response, hresponse, rfl⟩ := map_eq_ok.mp h
          unfold DataApiService.listPrepared at hresponse
          obtain ⟨dispatch, hdispatch, hrun⟩ := bind_eq_ok.mp hresponse
          obtain ⟨query, -, hdispatch⟩ := bind_eq_ok.mp hdispatch
          obtain ⟨-, hdispatch⟩ := check_bind_eq_ok.mp hdispatch
          cases hdispatch
          obtain ⟨outcome, -, houtcome⟩ := bind_eq_ok.mp hrun
          cases houtcome
          intro row hrow
          obtain ⟨held, -, rfl⟩ := List.mem_map.mp hrow
          exact ⟨held, rfl⟩
      | read key =>
          rw [DataApiService.respond_read hprepare] at h
          obtain ⟨response, hresponse, rfl⟩ := map_eq_ok.mp h
          obtain ⟨outcome, -, houtcome⟩ := bind_eq_ok.mp hresponse
          unfold firstRow at houtcome
          split at houtcome
          · rename_i held rest _
            cases houtcome
            intro row hrow
            exact ⟨held, List.mem_singleton.mp hrow⟩
          · cases houtcome
      | create rows =>
          rw [DataApiService.respond_create hprepare] at h
          obtain ⟨response, hresponse, rfl⟩ := map_eq_ok.mp h
          unfold DataApiService.createPrepared at hresponse
          obtain ⟨dispatch, hdispatch, hrun⟩ := bind_eq_ok.mp hresponse
          split at hdispatch
          · cases hdispatch
          · obtain ⟨-, hdispatch⟩ := check_bind_eq_ok.mp hdispatch
            obtain ⟨written, -, hdispatch⟩ := bind_eq_ok.mp hdispatch
            cases hdispatch
            exact rows_written hrun
      | update key changes =>
          rw [DataApiService.respond_update hprepare] at h
          obtain ⟨response, hresponse, rfl⟩ := map_eq_ok.mp h
          unfold DataApiService.updatePrepared at hresponse
          obtain ⟨dispatch, hdispatch, hrun⟩ := bind_eq_ok.mp hresponse
          split at hdispatch
          · cases hdispatch
          · obtain ⟨-, hdispatch⟩ := check_bind_eq_ok.mp hdispatch
            obtain ⟨written, -, hdispatch⟩ := bind_eq_ok.mp hdispatch
            cases hdispatch
            exact rows_written hrun
      | delete key =>
          rw [DataApiService.respond_delete hprepare] at h
          obtain ⟨response, hresponse, rfl⟩ := map_eq_ok.mp h
          exact rows_written hresponse

/-! ## Requests that name the column -/

/-- A name stands for a column, under some casing. -/
def namesColumn (column field : FieldName) : Bool :=
  Text.eqIgnoreAsciiCase column.value field.value

/-- The rule that the fields a resource exposes may be named and the discriminator column, under
any casing, may not. -/
def Prepared.exposes (prepared : Prepared) : FieldName → Bool :=
  less prepared.resource.permitsField fun field =>
    prepared.discriminator.any (namesColumn · field)

/-- How a tenant is told apart is out of sight of a request: placements give it one answer unless
it names a column of theirs; naming the placement's column is answered as naming any field the
resource does not expose; and no row of a response holds the column or a field that a list of
fields leaves out. -/
structure Concealed (deployment : Deployment) (caller : Caller) (name : LogicalResourceName)
    (request : Request) (first second : Discriminant) : Prop where
  same : ¬ request.Names first.column → ¬ request.Names second.column →
    (deployment.under first).respond caller name request =
      (deployment.under second).respond caller name request
  unexposed : request.Names first.column →
    (deployment.under first).respond caller name request =
      (deployment.under first).respondBy Prepared.exposes caller name request
  hidden : ∀ answer, (deployment.under first).respond caller name request = .ok answer →
    ∀ row ∈ answer.rows, ∀ field value, row.fields[field]? = some value →
      field ≠ first.column ∧
        ∀ catalogue resource, deployment.catalogue = some catalogue →
          catalogue.resources[name]? = some resource → resource.queryableFields ≠ [] →
            field ∈ resource.queryableFields

/-- A list request that is prepared, and whose query string comes to a filter, a sort or a select
by the column, under a casing that the resource's own list lets through. -/
def ComesToColumn (deployment : Deployment) (caller : Caller) (name : LogicalResourceName)
    (request : Request) (discriminant : Discriminant) : Prop :=
  ∃ rawQuery prepared, request = .list rawQuery ∧
    (deployment.under discriminant).prepare caller name .list none = .ok prepared ∧
    Reaches prepared.resource.permitsField (namesColumn discriminant.column) rawQuery

section Unexposed

variable {service : DataApiService} {prepared : Prepared} {column : FieldName}

/-- A list under the resource's own rule does not fail for naming a field that the rule lets
through. -/
theorem failsWith_listPrepared (permits : FieldName → Bool) (rawQuery : String) :
    FailsWith (Blameless permits)
      (service.listPrepared permits prepared rawQuery >>= Dispatch.run) := by
  have hconnector : ∀ error operation, Blameless permits (.connector error operation) :=
    fun error operation field _ h => nomatch h
  unfold DataApiService.listPrepared
  rw [bind_assoc]
  refine (failsWith_parse rawQuery).bind fun query => ?_
  rw [bind_assoc]
  refine (failsWith_enforceQuery query service.config).bind fun _ => ?_
  change FailsWith (Blameless permits) (Except.mapError _ _ >>= fun outcome => Except.ok _)
  exact FailsWith.bind (FailsWith.mapError fun error => hconnector error _)
    fun outcome => FailsWith.ok _

/-- The two rules give a list the same answer exactly where it does not come to the column. -/
theorem list_unexposed_iff (hdiscriminator : prepared.discriminator = some column)
    (rawQuery : String) :
    (service.listPrepared prepared.resource.permitsField prepared rawQuery >>= Dispatch.run) =
        (service.listPrepared prepared.exposes prepared rawQuery >>= Dispatch.run) ↔
      ¬ Reaches prepared.resource.permitsField (namesColumn column) rawQuery := by
  have hexposes : prepared.exposes =
      less prepared.resource.permitsField (namesColumn column) := by
    unfold Prepared.exposes
    rw [hdiscriminator]
    rfl
  have hcompare := @compare_parse prepared.resource.permitsField (namesColumn column) rawQuery
  rw [hexposes]
  constructor
  · intro hsame hreaches
    obtain ⟨field, hpermits, hrefused⟩ := hcompare.refused hreaches
    have hless : (service.listPrepared (less prepared.resource.permitsField
        (namesColumn column)) prepared rawQuery >>= Dispatch.run) =
          .error (unknownField field) := by
      unfold DataApiService.listPrepared
      rw [hrefused]
      rfl
    rw [hless] at hsame
    exact failsWith_listPrepared prepared.resource.permitsField rawQuery _ hsame field hpermits rfl
  · intro hnot
    unfold DataApiService.listPrepared
    rw [hcompare.same hnot]

/-- The body of a write is under the rule in full. -/
theorem permits_writableFields (hdiscriminator : prepared.discriminator = some column) :
    prepared.writableFields.permits = prepared.exposes := by
  funext field
  unfold Prepared.exposes less WritableFields.permits WritableFields.namesDiscriminator
    Prepared.writableFields namesColumn
  rw [hdiscriminator]
  exact Bool.and_comm _ _

end Unexposed

/-- The discriminator stays out of sight of a request exactly where the request is no list whose
query string comes to the column under a casing that the resource's own list of fields lets
through.  Bodies of writes are under the rule in full, responses never hold the column, and
placements never show in an answer to a request that does not name their columns. -/
theorem concealed_iff (deployment : Deployment) (caller : Caller) (name : LogicalResourceName)
    (request : Request) (first second : Discriminant)
    (htenant : caller.identity.tenant = deployment.tenant)
    (hlogical : ∀ catalogue resource, deployment.catalogue = some catalogue →
      catalogue.resources[name]? = some resource → resource.dataSource = deployment.logical)
    (hfirst : deployment.Suits name first) (hsecond : deployment.Suits name second) :
    Concealed deployment caller name request first second ↔
      ¬ ComesToColumn deployment caller name request first := by
  have hsite := Deployment.prepare_under htenant hlogical request.operation request.key
  constructor
  -- A query that comes to the column is one on which the request unexposed answers otherwise.
  · rintro hconcealed ⟨rawQuery, prepared, rfl, hprepare, hreaches⟩
    have hdiscriminator : prepared.discriminator = some first.column := by
      rcases hsite with ⟨error, herror⟩ | ⟨site, -, hsite⟩
      · exact absurd ((herror first).symm.trans hprepare) (by simp)
      · cases (hsite first).symm.trans hprepare
        rfl
    have hnames : (Request.list rawQuery).Names first.column := by
      obtain ⟨field, ⟨pair, hpair, text, htext, hfield⟩, hhidden⟩ := exists_of_reaches hreaches
      refine ⟨pair, hpair, text, htext, ?_⟩
      rw [← hfield]
      exact hhidden
    have hanswer := hconcealed.unexposed hnames
    rw [DataApiService.respond_list hprepare] at hanswer
    unfold DataApiService.respondBy at hanswer
    rw [hprepare] at hanswer
    have hinjective : Function.Injective (Except.map Answer.list :
        Except DataApiError ListResponse → Except DataApiError Answer) := by
      rintro (error | response) (other | other) h
      · cases h
        rfl
      · cases h
      · cases h
      · cases h
        rfl
    exact (list_unexposed_iff hdiscriminator rawQuery).mp (hinjective hanswer) hreaches
  · intro hnot
    -- Two placements, the request against the one unexposed, and the fields of its rows.
    refine ⟨fun hnamesFirst hnamesSecond => ?_, fun _ => ?_, fun answer hanswer => ?_⟩
    · obtain ⟨answer, hanswer⟩ := Deployment.respond_under htenant hlogical request
      rw [hanswer first hfirst hnamesFirst, hanswer second hsecond hnamesSecond]
    · rcases hsite with ⟨error, herror⟩ | ⟨site, -, hsite⟩
      · rw [DataApiService.respond_of_prepare_error (herror first),
          DataApiService.respondBy_of_prepare_error (herror first)]
      · cases request with
        | read key => rfl
        | delete key => rfl
        | list rawQuery =>
            have hprepare : (deployment.under first).prepare caller name .list none =
                .ok (site.under deployment .list first) := hsite first
            rw [DataApiService.respond_list hprepare]
            change _ = Except.map _ ((deployment.under first).prepare caller name .list none >>= _)
            rw [hprepare]
            refine congrArg _ ((list_unexposed_iff rfl rawQuery).mpr fun hreaches => ?_)
            exact hnot ⟨rawQuery, _, rfl, hprepare, hreaches⟩
        | create rows =>
            have hprepare : (deployment.under first).prepare caller name .create none =
                .ok (site.under deployment .create first) := hsite first
            rw [DataApiService.respond_create hprepare,
              @permits_writableFields _ first.column rfl]
            change _ =
              Except.map _ ((deployment.under first).prepare caller name .create none >>= _)
            rw [hprepare]
            rfl
        | update key changes =>
            have hprepare : (deployment.under first).prepare caller name .update (some key) =
                .ok (site.under deployment .update first) := hsite first
            rw [DataApiService.respond_update hprepare,
              @permits_writableFields _ first.column rfl]
            change _ =
              Except.map _ ((deployment.under first).prepare caller name .update (some key) >>= _)
            rw [hprepare]
            rfl
    -- What is shown of a row is what its projection permits, and that is never the column.
    · obtain ⟨prepared, hprepare, hrows⟩ := rows_visible hanswer
      rcases hsite with ⟨error, herror⟩ | ⟨site, hof, hsite⟩
      · exact absurd ((herror first).symm.trans hprepare) (by simp)
      · cases (hsite first).symm.trans hprepare
        intro row hrow field value hfield
        obtain ⟨held, rfl⟩ := hrows row hrow
        unfold RowResponse.project at hfield
        rw [Std.ExtTreeMap.getElem?_filter'] at hfield
        have hpermits := (Option.filter_eq_some_iff.mp hfield).2
        have hvisible : ((some first.column != some field) &&
            site.resource.permitsField field) = true := hpermits
        rw [Bool.and_eq_true] at hvisible
        refine ⟨?_, fun catalogue resource hcatalogue hresource hlisted => ?_⟩
        · rintro rfl
          simp at hvisible
        · obtain ⟨held', hheld', hentry⟩ := hof.resource
          rw [hcatalogue] at hheld'
          cases hheld'
          rw [hresource] at hentry
          cases hentry
          exact ResourceDefinition.mem_queryableFields_of_permitsField hlisted hvisible.2

/-! ## A guess -/

/-- A table with one row of the tenant and one of another. -/
def customersTable : List SharedRow :=
  [⟨.tenant, Row.new.with ⟨"name", by decide⟩ (.string "Alice")⟩,
    ⟨.other (some (.string "globex")), Row.new.with ⟨"name", by decide⟩ (.string "Bob")⟩]

/-- A tenant on that table. -/
def sharedDeployment : Deployment where
  catalogue := sharedView.catalogue
  tenants := ∅
  dataSources := sharedView.dataSources
  tenant := Runtime.acme
  binding := Runtime.boundTenant Runtime.acme Runtime.sourceA .database
  logical := ⟨"main", main_accepted⟩
  dataSource := Runtime.sourceA
  semantics := { FilterSemantics.plain with le := fun _ _ => true }
  tables := (∅ : BTreeMap ConnectorId (CollectionName → List SharedRow)).insert
    ⟨"warehouse", warehouse_accepted⟩ fun _ => customersTable
  authorization := emptyService.authorization
  config := emptyService.config

def acmeKey : Discriminant := ⟨tenantKey, "acme"⟩

def acmeOrganisation : Discriminant := ⟨⟨"organisation", by decide⟩, "org-7"⟩

/-- The catalogue has the one resource. -/
theorem resource_sharedDeployment {catalogue : ResourceCatalog} {resource : ResourceDefinition}
    (hcatalogue : sharedDeployment.catalogue = some catalogue)
    (hresource : catalogue.resources[customers]? = some resource) :
    resource = customersResource := by
  cases hcatalogue
  dsimp only at hresource
  rw [Library.getElem?_insert_self] at hresource
  cases hresource
  rfl

/-- A placement suits it whose column no row has and whose value nobody else has. -/
theorem suits_sharedDeployment {discriminant : Discriminant}
    (htable : ToldApartBy discriminant customersTable)
    (hkey : discriminant.column ≠ customersResource.keyField) :
    sharedDeployment.Suits customers discriminant where
  tables id tables htables collection := by
    have hone : tables = fun _ => customersTable := by
      by_cases hid : (⟨"warehouse", by decide⟩ : ConnectorId) = id
      · subst hid
        unfold sharedDeployment at htables
        dsimp only at htables
        rw [Library.getElem?_insert_self] at htables
        cases htables
        rfl
      · unfold sharedDeployment at htables
        dsimp only at htables
        rw [Library.getElem?_insert_ne _ _ hid] at htables
        simp at htables
    rw [hone]
    exact htable
  key catalogue resource hcatalogue hresource := by
    rw [resource_sharedDeployment hcatalogue hresource]
    exact hkey

/-- Only one tenant's value is in another's row. -/
theorem foreign_customersTable {value : String} (hvalue : value ≠ "globex") :
    ∀ row ∈ customersTable, ∀ cell, row.owner = .other cell → cell ≠ some (.string value) := by
  intro row hrow cell hcell
  have hcells : ∀ row ∈ customersTable,
      row.owner = .tenant ∨ row.owner = .other (some (.string "globex")) := by decide
  rcases hcells row hrow with htenant | hglobex
  · rw [htenant] at hcell
    cases hcell
  · rw [hglobex] at hcell
    cases hcell
    simpa using hvalue.symm

theorem suits_acmeKey : sharedDeployment.Suits customers acmeKey :=
  suits_sharedDeployment ⟨by decide, foreign_customersTable (by decide)⟩ (by decide)

theorem suits_acmeOrganisation : sharedDeployment.Suits customers acmeOrganisation :=
  suits_sharedDeployment ⟨by decide, foreign_customersTable (by decide)⟩ (by decide)

/-- A guess of the tenant's key is not refused as a field that is not exposed: it is answered
with whether it was right. -/
theorem guess_is_answered :
    ¬ Concealed sharedDeployment acmeReader customers (.list "tenant_key=acme") acmeKey
      acmeOrganisation := by
  intro hconcealed
  have hanswer := hconcealed.unexposed
    ⟨("tenant_key", "acme"), by decide +kernel, "tenant_key", by decide, by decide⟩
  have hanswered : ((sharedDeployment.under acmeKey).respond acmeReader customers
      (.list "tenant_key=acme")).isOk = true := by decide +kernel
  have hrefused : ((sharedDeployment.under acmeKey).respondBy Prepared.exposes acmeReader
      customers (.list "tenant_key=acme")).isOk = false := by decide +kernel
  rw [hanswer, hrefused] at hanswered
  cases hanswered

/-- A filter on another field keeps the column out of sight. -/
theorem name_filter_is_concealed :
    Concealed sharedDeployment acmeReader customers (.list "name=Alice") acmeKey
      acmeOrganisation := by
  refine (concealed_iff sharedDeployment acmeReader customers (.list "name=Alice") acmeKey
    acmeOrganisation rfl ?_ suits_acmeKey suits_acmeOrganisation).mpr ?_
  · intro catalogue resource hcatalogue hresource
    rw [resource_sharedDeployment hcatalogue hresource]
    rfl
  · rintro ⟨rawQuery, prepared, hraw, -, hreaches⟩
    cases hraw
    obtain ⟨field, ⟨pair, hpair, name, hname, hfield⟩, hnamed⟩ := exists_of_reaches hreaches
    have hother : ∀ pair ∈ parsePairs "name=Alice", ∀ name ∈ references pair,
        Text.eqIgnoreAsciiCase tenantKey.value (Text.trim name) = false := by decide +kernel
    unfold namesColumn at hnamed
    rw [hfield] at hnamed
    exact absurd hnamed (by rw [show acmeKey.column = tenantKey from rfl,
      hother pair hpair name hname]; decide)

end DataApi
end SaasFabric
