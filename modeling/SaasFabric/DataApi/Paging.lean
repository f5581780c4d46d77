import SaasFabric.DataApi.Disclosure
import SaasFabric.DataApi.QueryString
import SaasFabric.DataApi.SharedTable

/-!
# A list request, page by page

What `DataApiService::list` answers over a connector that lists its rows in one order, at the
offsets of whole pages; and, with what the query string and its filter come to, which rows a
query string is answered with.
-/

namespace SaasFabric
namespace DataApi

open Library.FormUrlencoded (encode)

/-! ## One order -/

/-- The page of some rows that a read asks for. -/
def cut (spec : QuerySpec) (rows : List Row) : List Row :=
  let skipped := rows.drop (spec.offset.elim 0 (·.val))
  spec.limit.elim skipped fun limit => skipped.take limit.val

/-- A connector lists the rows of its collections that a read selects in an order that is the
same for every page, and answers with the page. -/
structure ListsInOrder (S : FilterSemantics) (connector : DataConnector)
    (target : ExecutionTarget) (tables : CollectionName → List Row)
    (listed : QuerySpec → List Row) : Prop where
  selected : ∀ spec, (listed spec).Perm
    ((tables spec.collection).filter fun row => Matches S spec.filter row)
  everyPage : ∀ spec limit offset, listed { spec with limit, offset } = listed spec
  query : ∀ spec, ∃ total, connector.query target spec =
    .ok ⟨(cut spec (listed spec)).map (restrict spec.fields), total⟩

/-- A connector over tables sorts what a read selects, whatever the page. -/
theorem lists_tableConnector (S : TableSemantics) (id : ConnectorId)
    (tables : CollectionName → List Row) (target : ExecutionTarget) :
    ListsInOrder S.toFilterSemantics (tableConnector S id tables) target tables fun spec =>
      ((tables spec.collection).filter fun row =>
        Matches S.toFilterSemantics spec.filter row).mergeSort (sortLe S.le spec.sort) where
  selected _ := List.mergeSort_perm _ _
  everyPage _ _ _ := rfl
  query _ := ⟨none, rfl⟩

/-! ## One page -/

/-- What a list request asks of the collection, the page aside. -/
def asked (prepared : Prepared) (query : ListQuery) : QuerySpec where
  collection := prepared.resource.collection
  fields := prepared.resource.projection query.select
  filter := query.toFilter
  sort := query.sort
  limit := none
  offset := none

theorem forTarget_page (spec : QuerySpec) (limit offset : Option U32) (target : ExecutionTarget) :
    { spec with limit, offset }.forTarget target =
      { spec.forTarget target with limit, offset } := by
  unfold QuerySpec.forTarget
  cases target.isolation.tenantPredicate <;> rfl

theorem fields_forTarget (spec : QuerySpec) (target : ExecutionTarget) :
    (spec.forTarget target).fields = spec.fields := by
  unfold QuerySpec.forTarget
  cases target.isolation.tenantPredicate <;> rfl

section Page

variable {service : DataApiService} {caller : Caller} {name : LogicalResourceName}
  {prepared : Prepared} {S : FilterSemantics} {tables : CollectionName → List Row}
  {listed : QuerySpec → List Row} {query : ListQuery} {limit offset : U32} {raw : String}

/-- A row as a list request discloses it. -/
def disclosed (prepared : Prepared) (query : ListQuery) (row : Row) : RowResponse :=
  .project (restrict (asked prepared query).fields row) prepared.visibleFields

/-- The rows that match a list request of a prepared caller, in the connector's order. -/
def matchingRows (prepared : Prepared) (listed : QuerySpec → List Row) (query : ListQuery) :
    List Row :=
  listed ((asked prepared query).forTarget prepared.resolved.target)

/-- The page a list request is answered with. -/
def pageAt (prepared : Prepared) (query : ListQuery) (rows : List Row) (limit offset : U32) :
    ListResponse :=
  let data := ((rows.drop offset.val).take limit.val).map (disclosed prepared query)
  { data
    paging :=
      { limit, offset, returned := data.length
        hasMore := decide (offset.val + limit.val < rows.length) } }

/-- One row more is asked for than the page has, and tells whether there are more. -/
theorem fromOutcome_cut {rows : List Row} {fields : List FieldName} {visible : VisibleFields}
    {total : Option U64} (hroom : limit.val + 1 < 2 ^ 32) :
    ListResponse.fromOutcome ⟨((rows.drop offset.val).take (U32.saturatingSucc limit).val).map
        (restrict fields), total⟩ visible limit offset =
      { data := ((rows.drop offset.val).take limit.val).map fun row =>
          .project (restrict fields row) visible
        paging :=
          { limit, offset
            returned := (((rows.drop offset.val).take limit.val).map fun row =>
              RowResponse.project (restrict fields row) visible).length
            hasMore := decide (offset.val + limit.val < rows.length) } } := by
  have hsucc : (U32.saturatingSucc limit).val = limit.val + 1 := by
    unfold U32.saturatingSucc
    rw [dif_pos hroom]
  have hdata : ((((rows.drop offset.val).take (limit.val + 1)).map (restrict fields)).take
      limit.val).map (RowResponse.project · visible) =
        ((rows.drop offset.val).take limit.val).map fun row =>
          RowResponse.project (restrict fields row) visible := by
    rw [← List.map_take, List.take_take, Nat.min_eq_left (Nat.le_succ _), List.map_map]
    rfl
  have hmore : decide (limit.val < (((rows.drop offset.val).take (limit.val + 1)).map
      (restrict fields)).length) = decide (offset.val + limit.val < rows.length) := by
    rw [decide_eq_decide, List.length_map, List.length_take, List.length_drop]
    omega
  unfold ListResponse.fromOutcome
  dsimp only
  rw [hsucc, hdata, hmore]

/-- What a list request asks of the collection for a page: one row more than the page has. -/
def askedPage (prepared : Prepared) (query : ListQuery) (limit offset : U32) : QuerySpec :=
  { asked prepared query with
    limit := some (U32.saturatingSucc limit)
    offset := some offset }

/-- What is asked of the connector. -/
theorem list_of_parse (hprepare : service.prepare caller name .list none = .ok prepared)
    (hbelow : limit < service.config.maxLimit)
    (hadmitted : enforceQuery query service.config = .ok ())
    (hparse : ListQuery.parse prepared.resource.permitsField raw =
      .ok { query with limit := some limit, offset := some offset }) :
    service.list caller name raw =
      .ok (executeQuery prepared (askedPage prepared query limit offset) fun outcome =>
        .ok (.fromOutcome outcome prepared.visibleFields limit offset)) := by
  have heffective : service.config.effectiveLimit (some limit) = limit := by
    unfold DataApiConfig.effectiveLimit
    exact if_neg (not_lt.mpr hbelow.le)
  have henforced : enforceQuery { query with limit := some limit, offset := some offset }
      service.config = .ok () := hadmitted
  unfold DataApiService.list
  rw [hprepare]
  show service.listPrepared prepared.resource.permitsField prepared raw = _
  unfold DataApiService.listPrepared
  rw [hparse]
  show (do
    enforceQuery { query with limit := some limit, offset := some offset } service.config
    _) = _
  rw [henforced]
  show Except.ok _ = Except.ok _
  rw [heffective]
  rfl

/-- What a list request is answered with, below the configured maximum. -/
theorem respond_list_page (hprepare : service.prepare caller name .list none = .ok prepared)
    (hlists : ListsInOrder S prepared.connector prepared.resolved.target tables listed)
    (hbelow : limit < service.config.maxLimit)
    (hadmitted : enforceQuery query service.config = .ok ())
    (hparse : ListQuery.parse prepared.resource.permitsField raw =
      .ok { query with limit := some limit, offset := some offset }) :
    service.respond caller name (.list raw) =
      .ok (.list (pageAt prepared query (matchingRows prepared listed query) limit offset)) := by
  have hroom : limit.val + 1 < 2 ^ 32 := by
    have hmax := service.config.maxLimit.isLt
    have hlt : limit.val < service.config.maxLimit.val := Fin.lt_def.mp hbelow
    omega
  have hspec : (askedPage prepared query limit offset).forTarget prepared.resolved.target =
      { (asked prepared query).forTarget prepared.resolved.target with
        limit := some (U32.saturatingSucc limit)
        offset := some offset } := forTarget_page _ _ _ _
  have hfields : ((asked prepared query).forTarget prepared.resolved.target).fields =
      (asked prepared query).fields := fields_forTarget _ _
  obtain ⟨total, hquery⟩ := hlists.query
    ((askedPage prepared query limit offset).forTarget prepared.resolved.target)
  rw [hspec, hlists.everyPage, ← hspec] at hquery
  unfold DataApiService.respond
  show ((service.list caller name raw).map fun dispatch => dispatch.map Answer.list) >>=
    Dispatch.run = _
  rw [list_of_parse hprepare hbelow hadmitted hparse]
  show ((executeQuery prepared _ _).map Answer.list).run = _
  rw [Dispatch.run_map]
  unfold executeQuery Dispatch.run
  dsimp only
  rw [hquery, hspec]
  show (Except.ok (ListResponse.fromOutcome ⟨(((matchingRows prepared listed query).drop
    offset.val).take (U32.saturatingSucc limit).val).map
      (restrict ((asked prepared query).forTarget prepared.resolved.target).fields), total⟩
        prepared.visibleFields limit offset)).map Answer.list = _
  rw [hfields, fromOutcome_cut hroom]
  rfl

end Page

/-! ## Page after page -/

/-- Pages that follow one another are what comes first. -/
theorem flatMap_pages {α : Type} (rows : List α) (size count : Nat) :
    ((List.range count).flatMap fun page => (rows.drop (page * size)).take size) =
      rows.take (count * size) := by
  induction count with
  | zero => simp
  | succ count ih =>
      rw [List.range_succ, List.flatMap_append, ih, List.flatMap_singleton, Nat.succ_mul,
        List.take_add]

/-- Query strings that ask for the same rows, the first pages of them. -/
def AskForPages (permits : FieldName → Bool) (query : ListQuery) (limit : U32)
    (raws : Nat → String) (last : Nat) : Prop :=
  ∀ page ≤ last, ∃ offset : U32, offset.val = page * limit.val ∧
    ListQuery.parse permits (raws page) =
      .ok { query with limit := some limit, offset := some offset }

/-- Page after page, a list request is answered with every matching row, once and in order, and
each page tells whether a row follows it. -/
def PagesInFull (service : DataApiService) (caller : Caller) (name : LogicalResourceName) : Prop :=
  ∀ prepared, service.prepare caller name .list none = .ok prepared →
  ∀ S tables listed,
    ListsInOrder S prepared.connector prepared.resolved.target tables listed →
  ∀ (query : ListQuery) (limit : U32) raws last, 1 ≤ limit.val →
    limit < service.config.maxLimit → enforceQuery query service.config = .ok () →
    AskForPages prepared.resource.permitsField query limit raws last →
    ∃ pages : Nat → ListResponse,
      (∀ page ≤ last,
        service.respond caller name (.list (raws page)) = .ok (.list (pages page)) ∧
        ((pages page).paging.hasMore = true ↔
          (page + 1) * limit.val < (matchingRows prepared listed query).length)) ∧
      ((pages last).paging.hasMore = false →
        ((List.range (last + 1)).flatMap fun page => (pages page).data) =
          (matchingRows prepared listed query).map (disclosed prepared query))

theorem pagesInFull (service : DataApiService) (caller : Caller) (name : LogicalResourceName) :
    PagesInFull service caller name := by
  intro prepared hprepare S tables listed hlists query limit raws last _ hbelow hadmitted hasked
  set rows := matchingRows prepared listed query with hrows
  -- Past the last page there is no offset to speak of.
  have hoffset : ∀ page, ∃ offset : U32, page ≤ last → offset.val = page * limit.val ∧
      ListQuery.parse prepared.resource.permitsField (raws page) =
        .ok { query with limit := some limit, offset := some offset } := by
    intro page
    by_cases hpage : page ≤ last
    · obtain ⟨offset, hoffset⟩ := hasked page hpage
      exact ⟨offset, fun _ => hoffset⟩
    · exact ⟨0, fun h => absurd h hpage⟩
  choose offsets hoffsets using hoffset
  have hmore : ∀ page ≤ last, (pageAt prepared query rows limit (offsets page)).paging.hasMore =
      true ↔ (page + 1) * limit.val < rows.length := by
    intro page hpage
    show decide ((offsets page).val + limit.val < rows.length) = true ↔ _
    rw [decide_eq_true_eq, (hoffsets page hpage).1, Nat.succ_mul]
  refine ⟨fun page => pageAt prepared query rows limit (offsets page), fun page hpage =>
    ⟨?_, hmore page hpage⟩, fun hlast => ?_⟩
  · exact respond_list_page hprepare hlists hbelow hadmitted (hoffsets page hpage).2
  · have hdata : ∀ page ∈ List.range (last + 1),
        (pageAt prepared query rows limit (offsets page)).data =
          ((rows.map (disclosed prepared query)).drop (page * limit.val)).take limit.val := by
      intro page hpage
      have hle : page ≤ last := Nat.le_of_lt_succ (List.mem_range.mp hpage)
      rw [← (hoffsets page hle).1, ← List.map_drop, ← List.map_take]
      rfl
    have hlength : rows.length ≤ (last + 1) * limit.val := by
      refine not_lt.mp fun hlt => ?_
      have htrue := (hmore last le_rfl).mpr hlt
      rw [hlast] at htrue
      cases htrue
    rw [List.flatMap_congr hdata, flatMap_pages, List.take_of_length_le]
    rw [List.length_map]
    exact hlength

/-! ## What a query string is answered with -/

/-- Pairs are read back as they were written; the filter of an accepted query string selects the
rows the query string describes, exactly where it filters on no field twice; and the rows that
are selected are answered page after page. -/
theorem list_answers_what_is_described (permits : FieldName → Bool) (raw : String) :
    (∀ pairs, parsePairs (encode pairs) = pairs) ∧
    (∀ query, ListQuery.parse permits raw = .ok query → ∀ S,
      (∀ row, Matches S query.toFilter row ↔ Describes raw row) ↔ FiltersOnce raw) ∧
    ∀ service caller name, PagesInFull service caller name :=
  ⟨parsePairs_encode, fun _ hparse _ => selects_described_iff hparse, pagesInFull⟩

/-- A row that is closed. -/
def closedRow : Row := Row.new.with ⟨"status", statusField_accepted⟩ (.string "closed")

/-- Of two values for one field, the first is dropped without a word. -/
theorem repeated_parameter_is_dropped :
    ∃ query, ListQuery.parse (fun _ => true) "status=open&status=closed" = .ok query ∧
      Matches .plain query.toFilter closedRow ∧
        ¬ Describes "status=open&status=closed" closedRow := by
  have haccepted : ((ListQuery.parse (fun _ => true) "status=open&status=closed").toOption.any
      fun query => decide (Matches .plain query.toFilter closedRow)) = true := by
    decide +kernel
  cases hparse : ListQuery.parse (fun _ => true) "status=open&status=closed" with
  | error error =>
      rw [hparse] at haccepted
      cases haccepted
  | ok query =>
      rw [hparse] at haccepted
      refine ⟨query, rfl, of_decide_eq_true haccepted, fun hdescribed => ?_⟩
      obtain ⟨field, hfield, hvalue⟩ := hdescribed ("status", "open") (by decide +kernel)
        (by decide)
      have hstatus : field = ⟨"status", statusField_accepted⟩ :=
        Identifier.ext (hfield.2.trans (by decide +kernel))
      rw [hstatus, closedRow, Row.get_with_self] at hvalue
      exact absurd hvalue (by decide)

/-! ## Two pages -/

/-- A row of a tenant. -/
def customerRow (id tenant : String) : Row :=
  (Row.new.with ⟨"id", idField_accepted⟩ (.string id)).with tenantKey (.string tenant)

/-- Tables that hold two rows of one tenant, and one of another between them. -/
def customerTables (_ : CollectionName) : List Row :=
  [customerRow "1" "acme", customerRow "2" "globex", customerRow "3" "acme"]

/-- A store that keeps the order its rows were written in. -/
def writtenOrder : TableSemantics := { FilterSemantics.plain with le := fun _ _ => true }

/-- The connector over these tables. -/
def customerConnector : DataConnector :=
  tableConnector writtenOrder ⟨"warehouse", warehouse_accepted⟩ customerTables

/-- A service over it. -/
def customerService : DataApiService :=
  { emptyService with
    connectors := ⟨(∅ : BTreeMap ConnectorId DataConnector).insert
      ⟨"warehouse", warehouse_accepted⟩ customerConnector⟩ }

/-- What a list request of the tenant is prepared with. -/
theorem exists_prepared : ∃ prepared,
    customerService.prepare acmeReader customers .list none = .ok prepared ∧
    prepared.resource = customersResource ∧
    prepared.resolved.target.isolation = .discriminator tenantKey "acme" ∧
    prepared.connector = customerConnector := by
  have hprepared : ((customerService.prepare acmeReader customers .list none).toOption.map
      fun prepared => (prepared.resolved.target.isolation, prepared.resolved.target.connector)) =
        some (.discriminator tenantKey "acme", ⟨"warehouse", warehouse_accepted⟩) := by
    decide +kernel
  cases hprepare : customerService.prepare acmeReader customers .list none with
  | error error =>
      rw [hprepare] at hprepared
      cases hprepared
  | ok prepared =>
      rw [hprepare] at hprepared
      obtain ⟨hisolation, hconnector⟩ := Prod.mk.inj (Option.some.inj hprepared)
      obtain ⟨hpinned, -, hgot⟩ := DataApiService.spec_of_prepare hprepare
      have hentry : customerService.pinned customers = .ok (some customersResource) := by
        show (ResourceCatalog.resolve ⟨(∅ : BTreeMap LogicalResourceName
          ResourceDefinition).insert customers customersResource⟩ customers).map some = _
        unfold ResourceCatalog.resolve
        dsimp only
        rw [Library.getElem?_insert_self]
        rfl
      have hheld : customerService.connectors.get ⟨"warehouse", warehouse_accepted⟩ =
          .ok customerConnector := by
        unfold ConnectorRegistry.get customerService
        dsimp only
        rw [Library.getElem?_insert_self]
      refine ⟨prepared, rfl, ?_, hisolation, ?_⟩
      · exact Option.some.inj (Except.ok.inj (hpinned.symm.trans hentry))
      · rw [hconnector] at hgot
        exact Except.ok.inj (hgot.symm.trans hheld)

/-- The rows of the tenant, in the order they were written. -/
theorem matchingRows_customers {prepared : Prepared}
    (htarget : prepared.resolved.target.isolation = .discriminator tenantKey "acme") :
    matchingRows prepared (fun spec => ((customerTables spec.collection).filter fun row =>
        Matches writtenOrder.toFilterSemantics spec.filter row).mergeSort
          (sortLe writtenOrder.le spec.sort)) .default =
      [customerRow "1" "acme", customerRow "3" "acme"] := by
  have hfilter : (customerTables prepared.resource.collection).filter (fun row =>
      Matches writtenOrder.toFilterSemantics
        (some (.compare tenantKey .equal (.string "acme"))) row) =
          [customerRow "1" "acme", customerRow "3" "acme"] := by
    unfold customerTables
    rw [List.filter_cons_of_pos (by decide +kernel), List.filter_cons_of_neg (by decide +kernel),
      List.filter_cons_of_pos (by decide +kernel), List.filter_nil]
  unfold matchingRows
  rw [@forTarget_eq ⟨tenantKey, "acme"⟩ _ htarget]
  show ((customerTables prepared.resource.collection).filter fun row =>
      Matches writtenOrder.toFilterSemantics
        (some (.compare tenantKey .equal (.string "acme"))) row).mergeSort (sortLe _ []) = _
  rw [hfilter]
  exact List.mergeSort_of_pairwise (by simp [sortLe])

/-- Two pages of one row are the tenant's two rows, in the order they were written; the first says
that a row follows it, and the second that none does. -/
theorem two_pages_in_full : ∃ prepared first second,
    customerService.prepare acmeReader customers .list none = .ok prepared ∧
    customerService.respond acmeReader customers (.list "limit=1&offset=0") =
      .ok (.list first) ∧
    customerService.respond acmeReader customers (.list "limit=1&offset=1") =
      .ok (.list second) ∧
    first.paging.hasMore = true ∧ second.paging.hasMore = false ∧
    first.data ++ second.data =
      [customerRow "1" "acme", customerRow "3" "acme"].map (disclosed prepared .default) := by
  obtain ⟨prepared, hprepare, hresource, htarget, hconnector⟩ := exists_prepared
  have hlists := lists_tableConnector writtenOrder ⟨"warehouse", warehouse_accepted⟩ customerTables
    prepared.resolved.target
  change ListsInOrder _ customerConnector _ _ _ at hlists
  rw [← hconnector] at hlists
  have hasked : AskForPages prepared.resource.permitsField .default 1
      (fun page => if page = 0 then "limit=1&offset=0" else "limit=1&offset=1") 1 := by
    rw [hresource]
    intro page hpage
    rcases Nat.le_one_iff_eq_zero_or_eq_one.mp hpage with rfl | rfl
    · exact ⟨0, by decide, by decide +kernel⟩
    · exact ⟨1, by decide, by decide +kernel⟩
  obtain ⟨pages, hpages, hdata⟩ := (list_answers_what_is_described (fun _ => true)
    "limit=1&offset=0").2.2 customerService acmeReader customers prepared hprepare _ customerTables
    _ hlists .default 1 _ 1 le_rfl (by decide) (by decide) hasked
  rw [matchingRows_customers htarget] at hpages hdata
  obtain ⟨hfirst, hfirstMore⟩ := hpages 0 (by decide)
  obtain ⟨hsecond, hsecondMore⟩ := hpages 1 le_rfl
  have hlast : (pages 1).paging.hasMore = false := by
    rw [Bool.eq_false_iff, ne_eq, hsecondMore]
    decide
  refine ⟨prepared, pages 0, pages 1, hprepare, hfirst, hsecond, hfirstMore.mpr (by decide), hlast,
    ?_⟩
  rw [← hdata hlast]
  simp [List.range_succ]

end DataApi
end SaasFabric
