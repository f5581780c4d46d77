import SaasFabric.ClientModel.Edits

/-!
# Projected identity clients

`document/application_identity/`: the clients a document's assignments project, how what is
stored differs from them, and what a product save leaves.
-/

namespace SaasFabric
namespace ClientModel

open Library

/-- `ProjectedClientField`. -/
inductive ProjectedClientField where
  | missing
  | protocol
  | pkce
  | redirectStrategy
  | redirectUris
deriving DecidableEq

/-- `ProjectedClientDivergence`. -/
structure ProjectedClientDivergence where
  client : OidcClientId
  field : ProjectedClientField
deriving DecidableEq

/-- `ProjectionCheck`. -/
inductive ProjectionCheck where
  | consistent
  | diverged (divergences : List ProjectedClientDivergence)
  | unverifiable (unverified : List OidcClientId)
deriving DecidableEq

/-- Two lists of callbacks are one set. -/
def sameUris (first second : List RedirectUri) : Bool :=
  first.all (fun uri => second.contains uri) && second.all fun uri => first.contains uri

/-- `difference`. -/
def difference (expected actual : OidcClient) : Option ProjectedClientField :=
  if actual.protocol ≠ expected.protocol then some .protocol
  else if actual.pkce ≠ expected.pkce then some .pkce
  else if actual.redirect.kind ≠ expected.redirect.kind then some .redirectStrategy
  else if !sameUris actual.redirect.uris expected.redirect.uris then some .redirectUris
  else none

variable {N Described Secrets Data : Type}

/-- The applications a product assigns, by their ids. -/
def ClientProduct.ids (product : ClientProduct Described) : List String :=
  product.applications.map fun assignment => assignment.applicationId.value

namespace Formats

variable (formats : Formats N Described Secrets Data)

/-- `projected_clients_over`. -/
def projectedClientsOver (document : ClientDocument formats)
    (scheme : Option PrivateNetworkScheme) : Except DesiredStateError (List OidcClient) := do
  let projected ← formats.withApplicationIdentityOver document scheme
  let product ← formats.product document
  .ok (projected.client.identity.clients.filter fun client => product.ids.contains client.id.value)

/-- `projected_clients`. -/
def projectedClients (document : ClientDocument formats) :
    Except DesiredStateError (List OidcClient) :=
  formats.projectedClientsOver document document.client.privateNetworkScheme

/-- What a projected client differs in from what is stored. -/
def divergenceOf (stored : List OidcClient) (expected : OidcClient) :
    Option ProjectedClientDivergence :=
  let field : Option ProjectedClientField := match findKey OidcClient.id expected.id stored with
    | none => some .missing
    | some actual => difference expected actual
  field.map fun field => ⟨expected.id, field⟩

/-- `divergences_over`. -/
def divergencesOver (document : ClientDocument formats) (scheme : Option PrivateNetworkScheme) :
    Except DesiredStateError (List ProjectedClientDivergence) := do
  let projected ← formats.projectedClientsOver document scheme
  .ok (projected.filterMap (divergenceOf document.client.identity.clients))

/-- `projection_divergences`. -/
def projectionDivergences (document : ClientDocument formats) :
    Except DesiredStateError (List ProjectedClientDivergence) :=
  formats.divergencesOver document document.client.privateNetworkScheme

/-- `possibly_projected`. -/
def possiblyProjected (document : ClientDocument formats) : List OidcClientId :=
  let assigned := fun client : OidcClient => match formats.product document with
    | .ok product => product.ids.contains client.id.value
    | .error _ => true
  (document.client.identity.clients.filter assigned).map OidcClient.id

/-- `projection_check`. -/
def projectionCheck (document : ClientDocument formats) : ProjectionCheck :=
  match formats.projectionDivergences document with
  | .ok [] => .consistent
  | .ok divergences => .diverged divergences
  | .error _ => .unverifiable (formats.possiblyProjected document)

end Formats

variable {formats : Formats N Described Secrets Data}

/-! ## What is compared -/

theorem sameUris_iff {first second : List RedirectUri} :
    sameUris first second = true ↔ ∀ uri, uri ∈ first ↔ uri ∈ second := by
  simp only [sameUris, Bool.and_eq_true, List.all_eq_true, List.contains_iff_mem]
  constructor
  · rintro ⟨hsubset, hsuperset⟩ uri
    exact ⟨hsubset uri, hsuperset uri⟩
  · intro h
    exact ⟨fun uri => (h uri).mp, fun uri => (h uri).mpr⟩

/-- A client is stored as another is expected: the same in all but the order of its
callbacks. -/
structure StoredAs (expected actual : OidcClient) : Prop where
  id : actual.id = expected.id
  protocol : actual.protocol = expected.protocol
  pkce : actual.pkce = expected.pkce
  kind : actual.redirect.kind = expected.redirect.kind
  callbacks : ∀ uri, uri ∈ actual.redirect.uris ↔ uri ∈ expected.redirect.uris

theorem difference_eq_none {expected actual : OidcClient} (hid : actual.id = expected.id) :
    difference expected actual = none ↔ StoredAs expected actual := by
  unfold difference
  constructor
  · intro h
    split at h
    · cases h
    · next hprotocol =>
      split at h
      · cases h
      · next hpkce =>
        split at h
        · cases h
        · next hkind =>
          split at h
          · cases h
          · next huris =>
            exact ⟨hid, not_not.mp hprotocol, not_not.mp hpkce, not_not.mp hkind,
              sameUris_iff.mp (by simpa using huris)⟩
  · intro h
    rw [if_neg (not_not.mpr h.protocol), if_neg (not_not.mpr h.pkce), if_neg (not_not.mpr h.kind),
      if_neg (by simpa using sameUris_iff.mpr h.callbacks)]

/-- A projected client does not diverge exactly when it is stored as expected. -/
theorem divergenceOf_eq_none {stored : List OidcClient} {expected : OidcClient}
    (hnodup : (stored.map OidcClient.id).Nodup) :
    Formats.divergenceOf stored expected = none ↔ ∃ actual ∈ stored, StoredAs expected actual := by
  unfold Formats.divergenceOf
  rw [Option.map_eq_none_iff]
  cases hfind : findKey OidcClient.id expected.id stored with
  | none =>
      constructor
      · exact nofun
      · rintro ⟨actual, hmem, hstored⟩
        have hfound := (findKey_eq_some hnodup).mpr ⟨hmem, hstored.id⟩
        rw [hfind] at hfound
        cases hfound
  | some found =>
      obtain ⟨hmem, hid⟩ := (findKey_eq_some hnodup).mp hfind
      constructor
      · intro h
        exact ⟨found, hmem, (difference_eq_none hid).mp h⟩
      · rintro ⟨actual, hactual, hstored⟩
        have hfound := (findKey_eq_some hnodup).mpr ⟨hactual, hstored.id⟩
        rw [hfind] at hfound
        rw [Option.some.inj hfound]
        exact (difference_eq_none hstored.id).mpr hstored

/-- The check passes exactly when the projection can be computed and every client of it is
stored as expected. -/
theorem consistent_iff {document : ClientDocument formats} :
    formats.projectionCheck document = .consistent ↔
      ∃ projected, formats.projectedClients document = .ok projected ∧
        ∀ expected ∈ projected, ∃ actual ∈ document.client.identity.clients,
          StoredAs expected actual := by
  unfold Formats.projectionCheck Formats.projectionDivergences Formats.divergencesOver
  show _ ↔ ∃ projected, formats.projectedClientsOver document _ = .ok projected ∧ _
  cases hprojected : formats.projectedClientsOver document document.client.privateNetworkScheme with
  | error error =>
      constructor
      · exact nofun
      · rintro ⟨projected, h, -⟩
        cases h
  | ok projected =>
      rw [ok_bind]
      constructor
      · intro h
        refine ⟨projected, rfl, fun expected hexpected => ?_⟩
        have hnil : projected.filterMap
            (Formats.divergenceOf document.client.identity.clients) = [] := by
          split at h
          · next hsame => exact Except.ok.inj hsame
          · cases h
          · cases h
        exact (divergenceOf_eq_none document.ids_nodup).mp
          (List.filterMap_eq_nil_iff.mp hnil expected hexpected)
      · rintro ⟨other, hother, h⟩
        obtain rfl : projected = other := Except.ok.inj hother
        have hnil : projected.filterMap
            (Formats.divergenceOf document.client.identity.clients) = [] :=
          List.filterMap_eq_nil_iff.mpr fun expected hexpected =>
            (divergenceOf_eq_none document.ids_nodup).mpr (h expected hexpected)
        rw [hnil]

/-! ## Running the projection -/

/-- The assignments are projected one by one, and put in place one after another. -/
theorem foldlM_application {client : Client Secrets Data} {scheme : Option PrivateNetworkScheme}
    {assignments : List (ApplicationAssignment Described)} {clients result : List OidcClient} :
    (assignments.foldlM (fun clients assignment => do
      let application ← Formats.application client scheme assignment
      .ok (upsert OidcClient.id application clients)) clients : Except DesiredStateError _) =
        .ok result ↔
      ∃ applications, assignments.mapM (Formats.application client scheme) = .ok applications ∧
        result = upsertAll OidcClient.id applications clients := by
  induction assignments generalizing clients with
  | nil =>
      constructor
      · intro h
        cases h
        exact ⟨[], rfl, rfl⟩
      · rintro ⟨applications, happlications, rfl⟩
        cases happlications
        rfl
  | cons assignment rest ih =>
      rw [List.foldlM_cons, List.mapM_cons]
      cases happlication : Formats.application client scheme assignment with
      | error error =>
          constructor
          · exact nofun
          · rintro ⟨applications, happlications, -⟩
            cases happlications
      | ok application =>
          rw [ok_bind, ok_bind, ok_bind, ih]
          constructor
          · rintro ⟨applications, happlications, rfl⟩
            rw [happlications]
            exact ⟨application :: applications, rfl, rfl⟩
          · rintro ⟨applications, happlications, rfl⟩
            obtain ⟨others, hothers, hsame⟩ := bind_eq_ok.mp happlications
            cases hsame
            exact ⟨others, hothers, rfl⟩

/-- What a run of the projection does: it projects the assignments, puts the clients in their
places and writes the result. -/
theorem withApplicationIdentityOver_eq_ok {document next : ClientDocument formats}
    {scheme : Option PrivateNetworkScheme} :
    formats.withApplicationIdentityOver document scheme = .ok next ↔
      ∃ product applications, formats.product document = .ok product ∧
        product.applications.mapM (Formats.application document.client scheme) = .ok applications ∧
        formats.withIdentity document { document.client.identity with
          clients := upsertAll OidcClient.id applications document.client.identity.clients } =
            .ok next := by
  unfold Formats.withApplicationIdentityOver
  rw [bind_eq_ok]
  constructor
  · rintro ⟨product, hproduct, h⟩
    obtain ⟨clients, hclients, hnext⟩ := bind_eq_ok.mp h
    obtain ⟨applications, happlications, rfl⟩ := foldlM_application.mp hclients
    exact ⟨product, applications, hproduct, happlications, hnext⟩
  · rintro ⟨product, applications, hproduct, happlications, hnext⟩
    refine ⟨product, hproduct, bind_eq_ok.mpr ⟨_, ?_, hnext⟩⟩
    exact foldlM_application.mpr ⟨applications, happlications, rfl⟩

/-- A projected client is one under its application's id. -/
theorem id_of_application {client : Client Secrets Data} {scheme : Option PrivateNetworkScheme}
    {assignment : ApplicationAssignment Described} {application : OidcClient}
    (h : Formats.application client scheme assignment = .ok application) :
    application.id.value = assignment.applicationId.value := by
  obtain ⟨redirect, -, h⟩ := bind_eq_ok.mp h
  obtain ⟨id, hid, hsame⟩ := bind_eq_ok.mp h
  rw [← Except.ok.inj hsame]
  exact Slug.value_of_tryNew (mapError_eq_ok.mp hid)

/-- The projected clients are those of the assignments, id by id. -/
theorem map_id_of_mapM {client : Client Secrets Data} {scheme : Option PrivateNetworkScheme}
    {assignments : List (ApplicationAssignment Described)} {applications : List OidcClient}
    (h : assignments.mapM (Formats.application client scheme) = .ok applications) :
    applications.map (fun application => application.id.value) =
      assignments.map fun assignment => assignment.applicationId.value := by
  have hall := mapM_eq_ok.mp h
  clear h
  induction hall with
  | nil => rfl
  | cons happlication _ ih => rw [List.map_cons, List.map_cons, id_of_application happlication, ih]

/-- What a document's product section holds, once read. -/
theorem product_congr {first second : ClientDocument formats}
    (h : specAt "product" second.raw = specAt "product" first.raw) :
    formats.product second = formats.product first := by
  unfold Formats.product
  unfold specAt at h
  rw [h]

/-- A document that is the projection of a product's assignments, over the clients that were
declared before: the check passes and projecting once more changes nothing, what no assignment
names is where it was, and each assignment has one client. -/
structure SelfProjected (before : List OidcClient) (product : ClientProduct Described)
    (document : ClientDocument formats) : Prop where
  consistent : formats.projectionCheck document = .consistent
  again : formats.withApplicationIdentity document = .ok document
  assigned : formats.product document = .ok product
  kept : ∀ (i : Nat) client, before[i]? = some client → client.id.value ∉ product.ids →
    document.client.identity.clients[i]? = some client
  once : ∀ assignment ∈ product.applications, document.client.identity.clients.countP
    (fun client => client.id.value == assignment.applicationId.value) = 1

section Run

variable {document next : ClientDocument formats} {product : ClientProduct Described}

/-- What a run of the projection leaves. -/
theorem withApplicationIdentity_spec (hyaml : formats.yaml.ReadsBack)
    (hcurrent : Current document.raw) (hproduct : formats.product document = .ok product)
    (h : formats.withApplicationIdentity document = .ok next) :
    ∃ applications, product.applications.mapM
        (Formats.application document.client document.client.privateNetworkScheme) =
          .ok applications ∧
      next.client.identity = { document.client.identity with
        clients := upsertAll OidcClient.id applications document.client.identity.clients } ∧
      formats.product next = .ok product ∧ formats.withApplicationIdentity next = .ok next := by
  obtain ⟨product', applications, hproduct', happlications, hnext⟩ :=
    withApplicationIdentityOver_eq_ok.mp h
  obtain rfl : product = product' := Except.ok.inj (hproduct.symm.trans hproduct')
  have hraw := raw_of_withIdentity hyaml hnext
  have hidentity := identity_of_withIdentity hyaml hnext
  have hnextProduct : formats.product next = .ok product := by
    rw [← hproduct]
    exact product_congr (specAt_of_withIdentityRaw hraw (by decide))
  -- The client is the one before, but for its identity.
  have hclient := readShape_withIdentityRaw hraw (document.readShape_raw hcurrent)
    (next.readShape_raw (current_of_withIdentityRaw hraw))
  have hid : next.client.id = document.client.id := by rw [hclient]
  have hhosts : next.client.hosts = document.client.hosts := by rw [hclient]
  have hscheme : next.client.privateNetworkScheme = document.client.privateNetworkScheme := by
    rw [hclient]
  refine ⟨applications, happlications, hidentity, hnextProduct, ?_⟩
  refine withApplicationIdentityOver_eq_ok.mpr ⟨product, applications, hnextProduct, ?_, ?_⟩
  · have hsame : @Formats.application Described Secrets Data next.client
        next.client.privateNetworkScheme =
          Formats.application document.client document.client.privateNetworkScheme := by
      unfold Formats.application
      rw [hid, hhosts, hscheme]
    rw [hsame, happlications]
  · rw [hidentity]
    dsimp only
    rw [upsertAll_upsertAll document.ids_nodup]
    exact withIdentity_again hyaml hnext

/-- A document the projection was run on is its own projection. -/
theorem selfProjected_of_run (hyaml : formats.yaml.ReadsBack) (hcurrent : Current document.raw)
    (hproduct : formats.product document = .ok product)
    (h : formats.withApplicationIdentity document = .ok next) :
    SelfProjected document.client.identity.clients product next := by
  obtain ⟨applications, happlications, hidentity, hassigned, hagain⟩ :=
    withApplicationIdentity_spec hyaml hcurrent hproduct h
  have hids := map_id_of_mapM happlications
  have hclients : next.client.identity.clients =
      upsertAll OidcClient.id applications document.client.identity.clients := by rw [hidentity]
  refine ⟨?_, hagain, hassigned, ?_, ?_⟩
  · refine consistent_iff.mpr ⟨next.client.identity.clients.filter fun client =>
      product.ids.contains client.id.value, ?_, fun expected hexpected => ?_⟩
    · show formats.projectedClientsOver next _ = _
      unfold Formats.projectedClientsOver
      have hrun : formats.withApplicationIdentityOver next next.client.privateNetworkScheme =
          .ok next := hagain
      rw [hrun, ok_bind, hassigned, ok_bind]
    · exact ⟨expected, List.mem_of_mem_filter hexpected, rfl, rfl, rfl, rfl, fun _ => Iff.rfl⟩
  · intro i client hclient hnot
    rw [hclients]
    refine getElem?_upsertAll hclient fun application happlication heq => hnot ?_
    unfold ClientProduct.ids
    rw [← hids, heq]
    exact List.mem_map_of_mem happlication
  · intro assignment hassignment
    have hmem : assignment.applicationId.value ∈
        applications.map fun application => application.id.value := by
      rw [hids]
      exact List.mem_map_of_mem hassignment
    obtain ⟨application, happlication, hvalue⟩ := List.mem_map.mp hmem
    have honce := countP_key_eq_one next.ids_nodup (k := application.id) (by
      rw [hclients]
      exact mem_map_upsertAll.mpr (Or.inl (List.mem_map_of_mem happlication)))
    rw [← honce]
    refine List.countP_congr fun client _ => ?_
    rw [beq_iff_eq, decide_eq_true_iff, ← hvalue]
    exact ⟨fun heq => Slug.value_injective heq, congrArg Slug.value⟩

end Run

/-! ## Product saves -/

/-- What a product is read as, once it was written. -/
def Formats.SavedAs (formats : Formats N Described Secrets Data)
    (product saved : ClientProduct Described) : Prop :=
  ∃ encoded, formats.writeProduct product = .ok encoded ∧
    formats.readProduct encoded = some saved

/-- A document's product is the one its section is read as. -/
theorem product_of_specAt {document : ClientDocument formats} {product : ClientProduct Described}
    {encoded : Yaml N} (hspec : specAt "product" document.raw = some encoded)
    (h : formats.product document = .ok product) : formats.readProduct encoded = some product := by
  unfold Formats.product at h
  unfold specAt at hspec
  rw [hspec] at h
  dsimp only at h
  unfold Formats.decoded at h
  split at h
  · next decoded hdecoded => rw [hdecoded, Except.ok.inj h]
  · cases h

/-- A run of the projection reads the product. -/
theorem exists_product_of_run {document next : ClientDocument formats}
    (h : formats.withApplicationIdentity document = .ok next) :
    ∃ product, formats.product document = .ok product := by
  obtain ⟨product, -, hproduct, -⟩ := withApplicationIdentityOver_eq_ok.mp h
  exact ⟨product, hproduct⟩

/-- Where a run starts from a tree that holds a product, it projects that product. -/
theorem selfProjected_of_saved (hyaml : formats.yaml.ReadsBack)
    {document next : ClientDocument formats} {product : ClientProduct Described}
    {encoded : Yaml N} (hcurrent : Current document.raw)
    (hwrite : formats.writeProduct product = .ok encoded)
    (hspec : specAt "product" document.raw = some encoded)
    (h : formats.withApplicationIdentity document = .ok next) :
    ∃ saved, formats.SavedAs product saved ∧
      SelfProjected document.client.identity.clients saved next := by
  obtain ⟨saved, hsaved⟩ := exists_product_of_run h
  exact ⟨saved, ⟨encoded, hwrite, product_of_specAt hspec hsaved⟩,
    selfProjected_of_run hyaml hcurrent hsaved h⟩

theorem selfProjected_of_create (hyaml : formats.yaml.ReadsBack) {id : ClientId}
    {request : ClientProductRequest} {product : ClientProduct Described}
    {document : ClientDocument formats} (h : formats.create id request product = .ok document) :
    ∃ saved, formats.SavedAs product saved ∧ SelfProjected [] saved document := by
  obtain ⟨roles, -, h⟩ := bind_eq_ok.mp h
  obtain ⟨-, h⟩ := check_bind_eq_ok.mp h
  obtain ⟨realm, -, h⟩ := bind_eq_ok.mp h
  obtain ⟨encoded, hencoded, h⟩ := bind_eq_ok.mp h
  obtain ⟨written, hwritten, h⟩ := bind_eq_ok.mp h
  have hraw := raw_of_reread hyaml hwritten
  have hcurrent : Current written.raw := by
    rw [hraw]
    rfl
  have hproduct : specAt "product" written.raw = some encoded := by
    rw [hraw]
    cases hscheme : request.privateNetworkScheme <;> simp [newDocument, hscheme] <;> rfl
  have hidentity : specAt "identity" written.raw =
      some (IdentityConfiguration.write ⟨realm, roles, []⟩) := by
    rw [hraw]
    cases hscheme : request.privateNetworkScheme <;> simp [newDocument, hscheme] <;> rfl
  have hread := identity_of_specAt (written.readShape_raw hcurrent) hidentity
  rw [IdentityConfiguration.read_write] at hread
  have hclients : written.client.identity.clients = [] := by rw [← Option.some.inj hread]
  obtain ⟨saved, hsaved, hself⟩ := selfProjected_of_saved hyaml hcurrent
    (mapError_eq_ok.mp hencoded) hproduct h
  rw [hclients] at hself
  exact ⟨saved, hsaved, hself⟩

/-- What a product save writes in `spec` leaves the identity there. -/
theorem get_identity_of_writeProductSpec {request : ClientProductRequest}
    {product spec written : Yaml N} (hone : Yaml.HoldsOne "identity" spec)
    (h : writeProductSpec request product spec = some written) :
    Yaml.get "identity" written = Yaml.get "identity" spec := by
  obtain ⟨named, hnamed, h⟩ := Option.bind_eq_some_iff.mp h
  obtain ⟨hosted, hhosted, h⟩ := Option.bind_eq_some_iff.mp h
  obtain ⟨schemed, hschemed, h⟩ := Option.bind_eq_some_iff.mp h
  have hnamedOne := Yaml.holdsOne_insert hnamed (by decide) hone
  have hhostedOne := Yaml.holdsOne_insert hhosted (by decide) hnamedOne
  have hscheme : Yaml.get "identity" schemed = Yaml.get "identity" hosted := by
    unfold writeScheme at hschemed
    split at hschemed
    · exact Yaml.get_insert_of_ne hschemed (by decide)
    · exact Yaml.get_remove_of_ne hschemed (by decide) hhostedOne
  rw [Yaml.get_insert_of_ne h (by decide), hscheme, Yaml.get_insert_of_ne hhosted (by decide),
    Yaml.get_insert_of_ne hnamed (by decide)]

theorem get_product_of_writeProductSpec {request : ClientProductRequest}
    {product spec written : Yaml N} (h : writeProductSpec request product spec = some written) :
    Yaml.get "product" written = some product := by
  obtain ⟨named, -, h⟩ := Option.bind_eq_some_iff.mp h
  obtain ⟨hosted, -, h⟩ := Option.bind_eq_some_iff.mp h
  obtain ⟨schemed, -, h⟩ := Option.bind_eq_some_iff.mp h
  exact Yaml.get_insert h

theorem selfProjected_of_withProduct (hyaml : formats.yaml.ReadsBack)
    {stored document : ClientDocument formats} {request : ClientProductRequest}
    {product : ClientProduct Described}
    (h : formats.withProduct stored request product = .ok document) :
    ∃ saved, formats.SavedAs product saved ∧
      SelfProjected stored.client.identity.clients saved document := by
  obtain ⟨previous, -, h⟩ := bind_eq_ok.mp h
  obtain ⟨-, h⟩ := check_bind_eq_ok.mp h
  obtain ⟨-, h⟩ := check_bind_eq_ok.mp h
  obtain ⟨migrated, hmigrated, h⟩ := bind_eq_ok.mp h
  obtain ⟨encoded, hencoded, h⟩ := bind_eq_ok.mp h
  obtain ⟨raw, hraw, h⟩ := bind_eq_ok.mp h
  obtain ⟨written, hwritten, hrun⟩ := bind_eq_ok.mp h
  have hupdate := orMissing_eq_ok.mp hraw
  obtain rfl := raw_of_reread hyaml hwritten
  -- The migrated tree is of the current version and holds the stored identity.
  have hmigratedRaw := raw_of_withIdentity hyaml hmigrated
  have hmigratedCurrent := current_of_withIdentityRaw hmigratedRaw
  have hcurrent : Current written.raw := by
    unfold Current
    rw [Yaml.get_update_of_ne hupdate (by decide)]
    exact hmigratedCurrent
  obtain ⟨spec, new, hspec, hwrite, hnew⟩ := Yaml.get_update hupdate
  obtain ⟨fields, hfields, -⟩ := readSpec_of_get (migrated.readShape_raw hmigratedCurrent) hspec
  have hproduct : specAt "product" written.raw = some encoded := by
    unfold specAt
    rw [hnew]
    exact get_product_of_writeProductSpec hwrite
  have hidentity : specAt "identity" written.raw =
      some (IdentityConfiguration.write stored.client.identity) := by
    rw [← specAt_identity_of_withIdentityRaw hmigratedRaw]
    unfold specAt
    rw [hnew, hspec]
    exact get_identity_of_writeProductSpec (Yaml.holdsOne_of_fields hfields (by decide)) hwrite
  have hread := identity_of_specAt (written.readShape_raw hcurrent) hidentity
  rw [IdentityConfiguration.read_write] at hread
  rw [Option.some.inj hread]
  exact selfProjected_of_saved hyaml hcurrent (mapError_eq_ok.mp hencoded) hproduct hrun

/-- A product save leaves a document that is its own projection, whatever was declared by hand
beside it; and the check of any document passes exactly when the clients its assignments
project are stored as they are projected, their callbacks in whatever order. -/
theorem product_save_is_its_own_projection (hyaml : formats.yaml.ReadsBack) :
    (∀ id request product, ∀ document : ClientDocument formats,
      formats.create id request product = .ok document →
        ∃ saved, formats.SavedAs product saved ∧ SelfProjected [] saved document) ∧
    (∀ stored request product, ∀ document : ClientDocument formats,
      formats.withProduct stored request product = .ok document →
        ∃ saved, formats.SavedAs product saved ∧
          SelfProjected stored.client.identity.clients saved document) ∧
    ∀ document : ClientDocument formats, formats.projectionCheck document = .consistent ↔
      ∃ projected, formats.projectedClients document = .ok projected ∧
        ∀ expected ∈ projected, ∃ actual ∈ document.client.identity.clients,
          StoredAs expected actual :=
  ⟨fun _ _ _ _ h => selfProjected_of_create hyaml h,
    fun _ _ _ _ h => selfProjected_of_withProduct hyaml h, fun _ => consistent_iff⟩

/-! ## A client of one application -/

namespace Acme

def client : ClientId := ⟨"acme", by decide⟩

def request : ClientProductRequest :=
  ⟨"Acme", [⟨"acme.example.com", by decide +kernel⟩], none⟩

/-- One application, reached on a hostname of its own as well. -/
def product : ClientProduct Unit :=
  ⟨"Acme Limited", "au", "Pacific/Auckland", 1, [],
    [⟨⟨"reports", by decide⟩,
      ⟨2, "", 1790086400, ⟨"Reports", "", "\x7bclient\x7d.reports.example.com", ()⟩⟩,
      ⟨"standard", by decide⟩, []⟩], []⟩

def natural (value : U64) : Yaml Number := .number (.posInt value)

/-- The product, written as it is derived. -/
def written : Yaml Number :=
  .mapping [(.string "legalName", .string "Acme Limited"), (.string "region", .string "au"),
    (.string "timezone", .string "Pacific/Auckland"), (.string "definitionVersion", natural 1),
    (.string "configuration", .mapping []),
    (.string "applications", .sequence [.mapping [(.string "applicationId", .string "reports"),
      (.string "release", .mapping [(.string "version", natural 2), (.string "note", .string ""),
        (.string "publishedAt", natural 1790086400),
        (.string "definition", .mapping [(.string "name", .string "Reports"),
          (.string "description", .string ""),
          (.string "domain", .string "\x7bclient\x7d.reports.example.com"),
          (.string "components", .sequence []), (.string "features", .sequence []),
          (.string "plans", .sequence []), (.string "fields", .sequence []),
          (.string "navigation", .sequence [])])]),
      (.string "planId", .string "standard"), (.string "configuration", .mapping [])]]),
    (.string "activity", .sequence [])]

def roles : List RoleName :=
  [⟨"Client Realm Administrator", by decide +kernel⟩, ⟨"Client Realm User", by decide +kernel⟩]

def identity (clients : List OidcClient) : IdentityConfiguration :=
  ⟨⟨"acme", by decide⟩, roles, clients⟩

def application : OidcClient :=
  ⟨⟨"reports", by decide⟩, .oidc, .s256, ⟨.claimedHttps,
    [⟨"https://acme.reports.example.com/callback", .https, by decide +kernel⟩,
      ⟨"https://acme.example.com/reports/callback", .https, by decide +kernel⟩]⟩⟩

/-- A client that was declared by hand. -/
def kiosk : OidcClient :=
  ⟨⟨"kiosk", by decide⟩, .oidc, .s256, ⟨.claimedHttps,
    [⟨"https://kiosk.example.com/callback", .https, by decide +kernel⟩]⟩⟩

/-- A document without a product, in which it was. -/
def declared : Yaml Number :=
  .mapping [(.string "apiVersion", .string API_VERSION_V2), (.string "kind", .string DOCUMENT_KIND),
    (.string "metadata", .mapping [(.string "name", .string "acme")]),
    (.string "spec", .mapping [(.string "displayName", .string "Acme"),
      (.string "hosts", .sequence [.string "acme.example.com"]),
      (.string "identity", (identity [kiosk]).write)])]

/-- A client as it is rendered. -/
def clientText (id callbacks : String) : String :=
  "\n    - id: " ++ id ++ "\n      type: oidc\n      pkce: s256\n      redirect:\n" ++
  "        strategy: claimedHttps\n        uris:" ++ callbacks

def applicationText : String :=
  clientText "reports" ("\n        - https://acme.reports.example.com/callback" ++
    "\n        - https://acme.example.com/reports/callback")

def kioskText : String := clientText "kiosk" "\n        - https://kiosk.example.com/callback"

/-- A document as it is rendered, with these identity clients and what is after them. -/
def text (clients after : String) : String :=
  "apiVersion: fabric.fieldstate.nz/v2\nkind: Client\nmetadata:\n  name: acme\nspec:\n" ++
  "  displayName: Acme\n  hosts:\n  - acme.example.com\n  identity:\n    realm: acme\n" ++
  "    roles:\n    - Client Realm Administrator\n    - Client Realm User\n    clients:" ++ clients ++
  "\n" ++ after

/-- The product as it is rendered. -/
def productText : String :=
  "  product:\n    legalName: Acme Limited\n    region: au\n    timezone: Pacific/Auckland\n" ++
  "    definitionVersion: 1\n    configuration: \x7b\x7d\n    applications:\n" ++
  "    - applicationId: reports\n      release:\n        version: 2\n        note: ''\n" ++
  "        publishedAt: 1790086400\n        definition:\n          name: Reports\n" ++
  "          description: ''\n          domain: '\x7bclient\x7d.reports.example.com'\n" ++
  "          components: []\n          features: []\n          plans: []\n" ++
  "          fields: []\n          navigation: []\n      planId: standard\n" ++
  "      configuration: \x7b\x7d\n    activity: []\n"

/-- The document of this client, once it holds the product. -/
def saved (clients : List OidcClient) : Yaml Number :=
  newDocument client request (identity clients) written

/-- The documents that saves of the product write, and the one that was declared. -/
def format : Formats Number Unit Unit Unit where
  yaml := .table [(saved [], text " []" productText),
    (saved [application], text applicationText productText),
    (declared, text kioskText ""), (saved [kiosk], text kioskText productText),
    (saved [kiosk, application], text (kioskText ++ applicationText) productText)]
  complaint _ := ""
  readProduct value := if value = written then some product else none
  writeProduct _ := .ok written
  readAuthorization _ := none
  readSecrets _ := none
  readData _ := none
  noData := ()
  readLifecycle _ := none
  writeLifecycle _ := .error ""

theorem format_readsBack : format.yaml.ReadsBack :=
  TextCodec.readsBack_table (by decide +kernel)

theorem readProduct_written : format.readProduct written = some product := by
  show (if written = written then some product else none) = _
  exact if_pos rfl

theorem created : ∃ document, format.create client request product = .ok document := by
  have hok : (format.create client request product).isOk = true := by decide +kernel
  cases h : format.create client request product with
  | ok document => exact ⟨document, rfl⟩
  | error error =>
      rw [h] at hok
      cases hok

/-- The product is saved over what was declared by hand. -/
theorem saved_over_declared : ∃ stored document, format.parse (text kioskText "") = .ok stored ∧
    stored.client.identity.clients = [kiosk] ∧
    format.withProduct stored request product = .ok document := by
  have hparsed : ((format.parse (text kioskText "")).toOption.map
      fun stored => stored.client.identity.clients) = some [kiosk] := by decide +kernel
  have hsaved : (do
      let stored ← format.parse (text kioskText "")
      format.withProduct stored request product).isOk = true := by decide +kernel
  cases hstored : format.parse (text kioskText "") with
  | error error =>
      rw [hstored] at hparsed
      cases hparsed
  | ok stored =>
      rw [hstored] at hparsed hsaved
      cases hdocument : format.withProduct stored request product with
      | error error =>
          rw [ok_bind, hdocument] at hsaved
          cases hsaved
      | ok document => exact ⟨stored, document, rfl, Option.some.inj hparsed, hdocument⟩

end Acme

/-- A document is created with a product and passes its check; and so does one that a client was
declared in by hand, which is left where it was, beside the application's one client. -/
theorem acme_save_is_consistent :
    (∃ document, Acme.format.create Acme.client Acme.request Acme.product = .ok document ∧
      Acme.format.projectionCheck document = .consistent) ∧
    ∃ stored document, Acme.format.parse (Acme.text Acme.kioskText "") = .ok stored ∧
      Acme.format.withProduct stored Acme.request Acme.product = .ok document ∧
      Acme.format.projectionCheck document = .consistent ∧
      document.client.identity.clients[0]? = some Acme.kiosk ∧
      document.client.identity.clients.countP (fun client => client.id.value == "reports") = 1 := by
  obtain ⟨hcreate, hsave, -⟩ := product_save_is_its_own_projection Acme.format_readsBack
  constructor
  · obtain ⟨document, hcreated⟩ := Acme.created
    obtain ⟨saved, -, hself⟩ := hcreate _ _ _ _ hcreated
    exact ⟨document, hcreated, hself.consistent⟩
  · obtain ⟨stored, document, hstored, hclients, hsaved⟩ := Acme.saved_over_declared
    obtain ⟨saved, ⟨encoded, hencoded, hread⟩, hself⟩ := hsave _ _ _ _ hsaved
    -- The product is read as it was.
    obtain rfl : Acme.product = saved := by
      cases hencoded
      exact Option.some.inj (Acme.readProduct_written.symm.trans hread)
    refine ⟨stored, document, hstored, hsaved, hself.consistent, ?_, ?_⟩
    · exact hself.kept 0 Acme.kiosk (by rw [hclients]; rfl) (by decide)
    · exact hself.once _ List.mem_cons_self

end ClientModel
end SaasFabric
