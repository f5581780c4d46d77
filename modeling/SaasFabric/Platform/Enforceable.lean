import SaasFabric.Platform.Coherence
import SaasFabric.Platform.Placing
import SaasFabric.Runtime.Resolution

/-!
# What is placed is enforced

The selector's placements against the runtime's check of isolation: the selector keeps tenants
apart on one data source, the runtime on one destination.
-/

namespace SaasFabric
namespace Platform

open Publication (IsolationModelDocument TenantBindingDocument)
open SaasFabric.Runtime (BuiltFrom DataSource OwnKeys Reaches ResolutionView SameDestination
  TenantRuntimeBinding resolveDataSource_of_found resolveDataSource_of_reached
  resolves_iff_unshared)

/-! ## What a reader holds -/

/-- The tenants a reader holds of the documents published. -/
def publishedTenants (documents : List TenantBindingDocument) :
    HashMap TenantId TenantRuntimeBinding :=
  Library.hashCollect (documents.map fun document => (document.tenant, document.toRuntime))

/-- The data sources a reader holds of what is declared. -/
def publishedSources (declared : List DataSourceDeclaration) : HashMap DataSourceId DataSource :=
  Library.hashCollect (declared.map fun declaration =>
    (declaration.id, declaration.intoDocument.toRuntime))

section Held

variable {declared : List DataSourceDeclaration} {placements : List PlacementRecord}
  {documents : List TenantBindingDocument}

theorem ownKeys_publishedTenants (documents : List TenantBindingDocument) :
    OwnKeys (publishedTenants documents) := by
  intro tenant binding h
  obtain ⟨document, -, hentry⟩ := List.mem_map.mp (Library.mem_of_lookup_hashCollect h)
  cases hentry
  rfl

theorem ownKeys_publishedSources (declared : List DataSourceDeclaration) :
    OwnKeys (publishedSources declared) := by
  intro id source h
  obtain ⟨declaration, -, hentry⟩ := List.mem_map.mp (Library.mem_of_lookup_hashCollect h)
  cases hentry
  rfl

/-- A data source is held where it is declared. -/
theorem lookup_publishedSources (hids : (declared.map DataSourceDeclaration.id).Nodup)
    {id : DataSourceId} {source : DataSource} :
    (publishedSources declared).lookup id = some source ↔
      ∃ declaration ∈ declared, declaration.id = id ∧
        declaration.intoDocument.toRuntime = source := by
  constructor
  · intro h
    obtain ⟨declaration, hmem, hentry⟩ := List.mem_map.mp (Library.mem_of_lookup_hashCollect h)
    cases hentry
    exact ⟨declaration, hmem, rfl, rfl⟩
  · rintro ⟨declaration, hmem, rfl, rfl⟩
    refine Library.lookup_hashCollect_of_nodup ?_ (List.mem_map.mpr ⟨declaration, hmem, rfl⟩)
    rw [List.map_map]
    exact hids

/-- What is recorded is bound. -/
theorem exists_binding (h : composeTenants placements = .ok documents) {record : PlacementRecord}
    (hrecord : record ∈ placements) :
    ∃ binding, (publishedTenants documents).lookup record.tenant = some binding ∧
      binding.data[record.logical]? = some record.binding.toRuntime := by
  obtain ⟨document, hdocument, htenant⟩ := exists_mem_composeTenants h hrecord
  have hcomposed := (mem_composeTenants h).mp hdocument
  refine ⟨document.toRuntime, ?_, ?_⟩
  · refine Library.lookup_hashCollect_of_nodup ?_ (List.mem_map.mpr ⟨document, hdocument, ?_⟩)
    · rw [List.map_map]
      exact nodup_composeTenants h
    · rw [htenant]
  · have hdata := (hcomposed.data record.logical record.binding).mpr
      ⟨record, hrecord, Prod.ext htenant.symm rfl, rfl⟩
    unfold TenantBindingDocument.toRuntime
    rw [Std.ExtTreeMap.getElem?_map, hdata]
    rfl

/-- What is bound is recorded. -/
theorem exists_record (h : composeTenants placements = .ok documents) {tenant : TenantId}
    {binding : TenantRuntimeBinding}
    (hbinding : (publishedTenants documents).lookup tenant = some binding)
    {logical : LogicalDataSourceName} {data : Runtime.TenantDataBinding}
    (hdata : binding.data[logical]? = some data) :
    ∃ record ∈ placements, record.pair = (tenant, logical) ∧ record.binding.toRuntime = data := by
  obtain ⟨document, hdocument, hentry⟩ :=
    List.mem_map.mp (Library.mem_of_lookup_hashCollect hbinding)
  cases hentry
  unfold TenantBindingDocument.toRuntime at hdata
  rw [Std.ExtTreeMap.getElem?_map, Option.map_eq_some_iff] at hdata
  obtain ⟨bound, hbound, rfl⟩ := hdata
  obtain ⟨record, hrecord, hpair, rfl⟩ :=
    (((mem_composeTenants h).mp hdocument).data logical bound).mp hbound
  exact ⟨record, hrecord, hpair, rfl⟩

/-- A tenant reaches a data source where one of its placements lies on it, or on another at the
same destination. -/
theorem reaches_iff (hids : (declared.map DataSourceDeclaration.id).Nodup)
    (h : composeTenants placements = .ok documents) {tenant : TenantId}
    {binding : TenantRuntimeBinding}
    (hbinding : (publishedTenants documents).lookup tenant = some binding)
    (target : DataSourceDeclaration) :
    Reaches (publishedSources declared) binding target.intoDocument.toRuntime ↔
      ∃ record ∈ placements, record.tenant = tenant ∧ (record.dataSource = target.id ∨
        ∃ peer ∈ declared, record.dataSource = peer.id ∧ peer.connector = target.connector ∧
          SameDestination peer.connection.toRuntime target.connection.toRuntime) := by
  unfold Reaches
  simp only [lookup_publishedSources hids]
  constructor
  · rintro ⟨logical, data, hdata, hreaches⟩
    obtain ⟨record, hrecord, hpair, rfl⟩ := exists_record h hbinding hdata
    refine ⟨record, hrecord, (Prod.mk.inj hpair).1, hreaches.imp id ?_⟩
    rintro ⟨_, ⟨peer, hpeer, hid, rfl⟩, hconnector, hdestination⟩
    exact ⟨peer, hpeer, hid.symm, hconnector, hdestination⟩
  · rintro ⟨record, hrecord, rfl, hreaches⟩
    obtain ⟨found, hfound, hdata⟩ := exists_binding h hrecord
    rw [hbinding] at hfound
    cases hfound
    refine ⟨record.logical, record.binding.toRuntime, hdata, hreaches.imp id ?_⟩
    rintro ⟨peer, hpeer, hid, hconnector, hdestination⟩
    exact ⟨_, ⟨peer, hpeer, hid.symm, rfl⟩, hconnector, hdestination⟩

end Held

/-! ## What is asked of placements -/

/-- No placement is refused by the runtime as one whose isolation cannot be enforced, in a view
of exactly what is declared and placed. -/
def Enforceable (declared : List DataSourceDeclaration) (placements : List PlacementRecord) :
    Prop :=
  ∃ documents, composeTenants placements = .ok documents ∧
    ∀ (Catalogue : Type) (view : ResolutionView Catalogue),
      BuiltFrom view (publishedTenants documents) (publishedSources declared) →
        ∀ record ∈ placements, ∀ tenant dataSource isolation,
          view.resolveDataSource record.tenant record.logical ≠
            .error (.isolationNotEnforceable tenant dataSource isolation)

/-- Two tenants at one destination are told apart by one column. -/
def ToldApart (declared : List DataSourceDeclaration) (placements : List PlacementRecord) : Prop :=
  ∀ first ∈ placements, ∀ second ∈ placements, first.tenant ≠ second.tenant →
    ∀ source ∈ declared, ∀ other ∈ declared, first.dataSource = source.id →
      second.dataSource = other.id → source.connector = other.connector →
        source.connection = other.connection →
          ∃ column firstValue secondValue, first.isolation = .discriminator column firstValue ∧
            second.isolation = .discriminator column secondValue ∧ firstValue ≠ secondValue

/-- Where two data sources that take tenants reach one destination, both are shared, and by one
column where their connection is the same. -/
def SharedDestinations (declared : List DataSourceDeclaration) : Prop :=
  ∀ first ∈ declared, ∀ second ∈ declared, first.Admits → second.Admits → first.id ≠ second.id →
    first.connector = second.connector →
      SameDestination first.connection.toRuntime second.connection.toRuntime →
        (first.placement = .shared ∧ second.placement = .shared) ∧
          (first.connection = second.connection → first.discriminator = second.discriminator)

section Enforced

variable {declared : List DataSourceDeclaration} {placements : List PlacementRecord}

/-- Placements over such declarations can be enforced. -/
theorem Placed.enforceable (hheld : checkHeld declared = .ok ())
    (hdestinations : SharedDestinations declared) (h : Placed declared placements) :
    Enforceable declared placements := by
  have hids := (checkHeld_eq_ok.mp hheld).1
  obtain ⟨byTenant, hfold⟩ := exists_foldlM_accumulate h.recordedOnce
  have hcompose := composeTenants_eq_ok.mpr
    ⟨h.recordedOnce, byTenant, (accumulates_of_foldlM hfold).2, rfl⟩
  refine ⟨_, hcompose, fun Catalogue view hview record hrecord tenant dataSource isolation => ?_⟩
  obtain ⟨chosen, hlands⟩ := h.lands record hrecord
  obtain ⟨binding, hbinding, hdata⟩ := exists_binding hcompose hrecord
  have hsource : (publishedSources declared).lookup record.binding.toRuntime.dataSource =
      some chosen.intoDocument.toRuntime :=
    (lookup_publishedSources hids).mpr ⟨chosen, hlands.declared, hlands.dataSource.symm, rfl⟩
  rcases hlands.isolation with ⟨-, discriminator, -, hisolation⟩ | ⟨hexclusive, hisolation⟩
  · -- A discriminator is enforced wherever it is.
    have hmodel : record.binding.toRuntime.isolation =
        .discriminator discriminator.column record.tenant.value :=
      congrArg IsolationModelDocument.toRuntime hisolation
    rw [resolveDataSource_of_found hview hbinding hdata hsource, hmodel]
    exact nofun
  -- A database is enforced where no other tenant reaches its destination.
  · have hmodel : record.binding.toRuntime.isolation = .database :=
      congrArg IsolationModelDocument.toRuntime hisolation
    have hstructural : record.binding.toRuntime.isolation.IsStructural := by
      rw [hmodel]
      trivial
    have hok : (view.resolveDataSource record.tenant record.logical).isOk = true := by
      rw [resolves_iff_unshared hview hbinding hdata hsource hstructural]
      refine ⟨fun hshared => hexclusive ?_, fun other otherBinding hne hother hreaches => ?_⟩
      · have hclass : chosen.placement.toRuntime = .shared := hshared
        cases hplacement : chosen.placement <;> rw [hplacement] at hclass <;>
          first | rfl | cases hclass
      · obtain ⟨placed, hplaced, htenant, hat⟩ := (reaches_iff hids hcompose hother chosen).mp hreaches
        have hdifferent : record.tenant ≠ placed.tenant := by
          rw [htenant]
          exact hne.symm
        obtain ⟨peer, hpeer⟩ := h.lands placed hplaced
        by_cases hsame : peer.id = chosen.id
        · -- One database holds one tenant.
          have hpeerChosen : peer = chosen :=
            List.inj_on_of_nodup_map hids hpeer.declared hlands.declared hsame
          subst hpeerChosen
          rcases hpeer.isolation with ⟨hshared, -⟩ | ⟨-, hdatabase⟩
          · exact hexclusive hshared
          · exact h.not_both_database hrecord hplaced hdifferent
              (hlands.dataSource.trans hpeer.dataSource.symm) hisolation hdatabase
        · rcases hat with hat | ⟨found, hfound, hfoundId, hconnector, hdestination⟩
          · exact hsame (hpeer.dataSource.symm.trans hat)
          · have hpeerFound : found = peer := List.inj_on_of_nodup_map hids hfound hpeer.declared
              (hfoundId.symm.trans hpeer.dataSource)
            subst hpeerFound
            exact hexclusive (hdestinations found hfound chosen hlands.declared hpeer.admits
              hlands.admits hsame hconnector hdestination).1.2
    intro herror
    rw [herror] at hok
    cases hok

/-- Two tenants placed over such declarations are told apart. -/
theorem Placed.toldApart (hheld : checkHeld declared = .ok ())
    (hdestinations : SharedDestinations declared) (h : Placed declared placements) :
    ToldApart declared placements := by
  have hids := (checkHeld_eq_ok.mp hheld).1
  intro first hfirst second hsecond htenant source hsource other hother hfirstId hsecondId
    hconnector hconnection
  obtain ⟨chosen, hfirstLands⟩ := h.lands first hfirst
  obtain ⟨peer, hsecondLands⟩ := h.lands second hsecond
  have hchosen : chosen = source := List.inj_on_of_nodup_map hids hfirstLands.declared hsource
    (hfirstLands.dataSource.symm.trans hfirstId)
  have hpeer : peer = other := List.inj_on_of_nodup_map hids hsecondLands.declared hother
    (hsecondLands.dataSource.symm.trans hsecondId)
  subst hchosen hpeer
  have hvalues : first.tenant.value ≠ second.tenant.value := fun hsame =>
    htenant (Identifier.ext hsame)
  by_cases hsame : chosen.id = peer.id
  · have hpeerChosen : chosen = peer := List.inj_on_of_nodup_map hids hsource hother hsame
    subst hpeerChosen
    rcases hfirstLands.isolation with ⟨hshared, discriminator, hdeclares, hisolation⟩ |
      ⟨hexclusive, hisolation⟩
    · rcases hsecondLands.isolation with ⟨-, found, hfound, hother⟩ | ⟨hexclusive, -⟩
      · rw [hdeclares] at hfound
        cases hfound
        exact ⟨_, _, _, hisolation, hother, hvalues⟩
      · exact absurd hshared hexclusive
    · rcases hsecondLands.isolation with ⟨hshared, -⟩ | ⟨-, hdatabase⟩
      · exact absurd hshared hexclusive
      · exact absurd hdatabase (h.not_both_database hfirst hsecond htenant
          (hfirstId.trans hsecondId.symm) hisolation)
  · have hdestination : SameDestination chosen.connection.toRuntime peer.connection.toRuntime := by
      rw [hconnection]
      exact Runtime.destination_eq_iff.mp rfl
    obtain ⟨⟨hfirstShared, hsecondShared⟩, hdiscriminator⟩ := hdestinations chosen hsource peer
      hother hfirstLands.admits hsecondLands.admits hsame hconnector hdestination
    rcases hfirstLands.isolation with ⟨-, discriminator, hdeclares, hisolation⟩ | ⟨hexclusive, -⟩
    · rcases hsecondLands.isolation with ⟨-, found, hfound, hotherIsolation⟩ | ⟨hexclusive, -⟩
      · rw [← hdiscriminator hconnection, hdeclares] at hfound
        cases hfound
        exact ⟨_, _, _, hisolation, hotherIsolation, hvalues⟩
      · exact absurd hsecondShared hexclusive
    · exact absurd hfirstShared hexclusive

/-- A placement on a whole database is not enforced where another tenant is placed at its
destination. -/
theorem not_enforceable_of_reached (hheld : checkHeld declared = .ok ())
    (hplaced : Placed declared placements) {record other : PlacementRecord}
    (hrecord : record ∈ placements) (hother : other ∈ placements)
    (htenant : other.tenant ≠ record.tenant) {target peer : DataSourceDeclaration}
    (htarget : target ∈ declared) (hpeer : peer ∈ declared)
    (hrecordId : record.dataSource = target.id) (hotherId : other.dataSource = peer.id)
    (hconnector : peer.connector = target.connector)
    (hdestination : SameDestination peer.connection.toRuntime target.connection.toRuntime)
    (hexclusive : target.placement ≠ .shared) : ¬ Enforceable declared placements := by
  have hids := (checkHeld_eq_ok.mp hheld).1
  rintro ⟨documents, hcompose, henforced⟩
  obtain ⟨chosen, hlands⟩ := hplaced.lands record hrecord
  have hchosen : chosen = target := List.inj_on_of_nodup_map hids hlands.declared htarget
    (hlands.dataSource.symm.trans hrecordId)
  subst hchosen
  obtain ⟨binding, hbinding, hdata⟩ := exists_binding hcompose hrecord
  obtain ⟨otherBinding, hotherBinding, -⟩ := exists_binding hcompose hother
  have hsource : (publishedSources declared).lookup record.binding.toRuntime.dataSource =
      some chosen.intoDocument.toRuntime :=
    (lookup_publishedSources hids).mpr ⟨chosen, htarget, hrecordId.symm, rfl⟩
  have hreaches := (reaches_iff hids hcompose hotherBinding chosen).mpr
    ⟨other, hother, rfl, Or.inr ⟨peer, hpeer, hotherId, hconnector, hdestination⟩⟩
  have hstructural : record.binding.toRuntime.isolation.IsStructural := by
    rcases hlands.isolation with ⟨hshared, -⟩ | ⟨-, hisolation⟩
    · exact absurd hshared hexclusive
    · have hmodel : record.binding.toRuntime.isolation = .database :=
        congrArg IsolationModelDocument.toRuntime hisolation
      rw [hmodel]
      trivial
  have hview : BuiltFrom (⟨none, some (.new (publishedTenants documents)),
      some (.new (publishedSources declared)), none⟩ : ResolutionView Unit)
        (publishedTenants documents) (publishedSources declared) :=
    ⟨rfl, rfl, ownKeys_publishedTenants documents, ownKeys_publishedSources declared⟩
  exact henforced Unit _ hview record hrecord _ _ _
    (resolveDataSource_of_reached hview hbinding hdata hsource hstructural htenant hotherBinding
      hreaches)

/-- Some placements put one tenant on a data source, and another everywhere else. -/
theorem exists_placed_apart (hheld : checkHeld declared = .ok ()) {first second :
    DataSourceDeclaration} (hfirst : first ∈ declared) (hsecond : second ∈ declared)
    (hfirstAdmits : first.Admits) (hsecondAdmits : second.Admits) (hne : first.id ≠ second.id) :
    ∃ placements record other, Placed declared placements ∧ record ∈ placements ∧
      other ∈ placements ∧ other.tenant ≠ record.tenant ∧ record.dataSource = first.id ∧
        other.dataSource = second.id := by
  obtain ⟨placements, hplaced, howned, hreached⟩ := exists_placed_reaching hheld
    (fun id => if id = first.id then Runtime.acme else Runtime.globex) _ [] Placed.none
      (by simp [OwnedBy]) le_rfl
  have hreaches : ∀ target ∈ declared, target.Admits →
      ∃ record ∈ placements, record.dataSource = target.id := by
    intro target htarget hadmits
    have hnot := hreached target htarget hadmits
    unfold Unplaced at hnot
    push Not at hnot
    exact hnot
  obtain ⟨record, hrecord, hrecordId⟩ := hreaches first hfirst hfirstAdmits
  obtain ⟨other, hother, hotherId⟩ := hreaches second hsecond hsecondAdmits
  refine ⟨placements, record, other, hplaced, hrecord, hother, ?_, hrecordId, hotherId⟩
  rw [(howned record hrecord).1, (howned other hother).1, hrecordId, hotherId]
  dsimp only
  rw [if_pos rfl, if_neg hne.symm]
  decide

end Enforced

/-! ## Exactly when -/

/-- Placement never produces a tenant that the runtime must refuse, or two at one destination
that are not told apart, exactly where the data sources that take tenants and reach one
destination are shared, by one column. -/
theorem placements_enforceable_iff {declared : List DataSourceDeclaration}
    (hheld : checkHeld declared = .ok ()) :
    (∀ placements, Placed declared placements →
      Enforceable declared placements ∧ ToldApart declared placements) ↔
      SharedDestinations declared := by
  constructor
  · intro h first hfirst second hsecond hfirstAdmits hsecondAdmits hne hconnector hdestination
    obtain ⟨placements, record, other, hplaced, hrecord, hother, htenant, hrecordId, hotherId⟩ :=
      exists_placed_apart hheld hfirst hsecond hfirstAdmits hsecondAdmits hne
    obtain ⟨henforceable, htold⟩ := h placements hplaced
    have hfirstShared : first.placement = .shared := by
      by_contra hexclusive
      exact not_enforceable_of_reached hheld hplaced hrecord hother htenant hfirst hsecond
        hrecordId hotherId hconnector.symm hdestination.symm hexclusive henforceable
    have hsecondShared : second.placement = .shared := by
      by_contra hexclusive
      exact not_enforceable_of_reached hheld hplaced hother hrecord htenant.symm hsecond hfirst
        hotherId hrecordId hconnector hdestination hexclusive henforceable
    refine ⟨⟨hfirstShared, hsecondShared⟩, fun hconnection => ?_⟩
    obtain ⟨column, firstValue, secondValue, hrecordIsolation, hotherIsolation, -⟩ :=
      htold record hrecord other hother htenant.symm first hfirst second hsecond hrecordId hotherId
        hconnector hconnection
    have hids := (checkHeld_eq_ok.mp hheld).1
    -- Each is isolated by the column that its data source declares.
    have hcolumn : ∀ placed ∈ placements, ∀ source ∈ declared, placed.dataSource = source.id →
        ∀ value, placed.isolation = .discriminator column value →
          source.discriminator = some ⟨column⟩ := by
      intro placed hplacedMem source hsource hid value hisolation
      obtain ⟨chosen, hlands⟩ := hplaced.lands placed hplacedMem
      have hchosen : chosen = source := List.inj_on_of_nodup_map hids hlands.declared hsource
        (hlands.dataSource.symm.trans hid)
      subst hchosen
      rcases hlands.isolation with ⟨-, discriminator, hdeclares, hfound⟩ | ⟨-, hdatabase⟩
      · rw [hisolation] at hfound
        cases hfound
        exact hdeclares
      · rw [hisolation] at hdatabase
        cases hdatabase
    rw [hcolumn record hrecord first hfirst hrecordId firstValue hrecordIsolation,
      hcolumn other hother second hsecond hotherId secondValue hotherIsolation]
  · intro hdestinations placements hplaced
    exact ⟨hplaced.enforceable hheld hdestinations, hplaced.toldApart hheld hdestinations⟩

/-- The shared database, declared again in another region. -/
def sharedReplica : DataSourceDeclaration :=
  { sharedDatabase with
    id := ⟨"orders-replica", by decide⟩
    residency := ⟨"au", none⟩ }

/-- The placement of a tenant on a shared declaration. -/
def sharedPlacement (tenant : TenantId) (dataSource : DataSourceId) : PlacementRecord :=
  { acmePlacement with
    tenant
    dataSource
    isolation := .discriminator ⟨"tenant_id", tenantIdField_accepted⟩ tenant.value }

/-- Two tenants, each on another declaration of the one database. -/
def sharedPlacements : List PlacementRecord :=
  [sharedPlacement ⟨"acme", acme_accepted⟩ sharedDatabase.id,
    sharedPlacement ⟨"globex", globex_accepted⟩ sharedReplica.id]

theorem placed_shared : Placed [sharedDatabase, sharedReplica] sharedPlacements := by
  have hacme : select ⟨.shared, none, some "nz"⟩ ⟨"acme", acme_accepted⟩ acmePlacement.logical
      [sharedDatabase, sharedReplica] [] midnightText =
        .ok (sharedPlacement ⟨"acme", acme_accepted⟩ sharedDatabase.id) :=
    pickShared_of_one _ _ _ midnightText rfl rfl
  have hglobex : select ⟨.shared, none, some "au"⟩ ⟨"globex", globex_accepted⟩
      acmePlacement.logical [sharedDatabase, sharedReplica]
      [sharedPlacement ⟨"acme", acme_accepted⟩ sharedDatabase.id] midnightText =
        .ok (sharedPlacement ⟨"globex", globex_accepted⟩ sharedReplica.id) :=
    pickShared_of_one _ _ _ midnightText rfl (by decide +kernel)
  exact (Placed.none.next hacme).next hglobex

/-- Two tenants that are placed on two shared declarations of one database are enforced. -/
theorem ordersDatabase_enforceable :
    Enforceable [sharedDatabase, sharedReplica] sharedPlacements ∧
      ToldApart [sharedDatabase, sharedReplica] sharedPlacements := by
  have hheld : checkHeld [sharedDatabase, sharedReplica] = .ok () := by decide +kernel
  refine (placements_enforceable_iff hheld).mpr ?_ _ placed_shared
  intro first hfirst second hsecond _ _ _ _ _
  simp only [List.mem_cons, List.not_mem_nil, or_false] at hfirst hsecond
  rcases hfirst with rfl | rfl <;> rcases hsecond with rfl | rfl <;>
    exact ⟨⟨rfl, rfl⟩, fun _ => rfl⟩

/-- The same database, declared again in another region. -/
def ordersReplica : DataSourceDeclaration :=
  { ordersDatabase with
    id := ⟨"orders-replica", by decide⟩
    residency := ⟨"au", none⟩ }

/-- Another tenant's placement, on that declaration. -/
def globexPlacement : PlacementRecord :=
  { acmePlacement with
    tenant := ⟨"globex", globex_accepted⟩
    dataSource := ordersReplica.id }

theorem placed_twice : Placed [ordersDatabase, ordersReplica] [acmePlacement, globexPlacement] := by
  have hacme : select ⟨.dedicated, none, some "nz"⟩ acmePlacement.tenant acmePlacement.logical
      [ordersDatabase, ordersReplica] [] midnightText = .ok acmePlacement :=
    pickExclusive_of_free _ _ _ midnightText rfl
  have hglobex : select ⟨.dedicated, none, some "au"⟩ globexPlacement.tenant
      globexPlacement.logical [ordersDatabase, ordersReplica] [acmePlacement] midnightText =
        .ok globexPlacement :=
    pickExclusive_of_free _ _ _ midnightText rfl
  exact (Placed.none.next hacme).next hglobex

/-- Two declarations of one database each take a tenant, and the runtime refuses them. -/
theorem placed_twice_not_enforceable : checkHeld [ordersDatabase, ordersReplica] = .ok () ∧
    Placed [ordersDatabase, ordersReplica] [acmePlacement, globexPlacement] ∧
      ¬ Enforceable [ordersDatabase, ordersReplica] [acmePlacement, globexPlacement] := by
  have hheld : checkHeld [ordersDatabase, ordersReplica] = .ok () := by decide +kernel
  have hreplica : ordersReplica ∈ [ordersDatabase, ordersReplica] := by simp
  have hglobex : globexPlacement ∈ [acmePlacement, globexPlacement] := by simp
  exact ⟨hheld, placed_twice, not_enforceable_of_reached hheld placed_twice List.mem_cons_self
    hglobex (by decide) List.mem_cons_self hreplica rfl rfl rfl
      (Runtime.destination_eq_iff.mp rfl) (by decide)⟩

end Platform
end SaasFabric
