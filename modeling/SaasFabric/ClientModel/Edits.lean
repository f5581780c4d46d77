import SaasFabric.ClientModel.Document

/-!
# What an edit of a document leaves

An edit writes some keys of the tree, renders it and reads the text again.  As far as the
YAML library reads back what it wrote, the result has the tree that was written, and says
what that tree says.
-/

namespace SaasFabric
namespace ClientModel

open Library

variable {N Described Secrets Data : Type} {formats : Formats N Described Secrets Data}

/-! ## Reading a tree again -/

theorem Formats.fromRaw_eq_ok {raw : Yaml N} {document : ClientDocument formats} :
    formats.fromRaw raw = .ok document ↔ document.raw = raw := by
  unfold fromRaw
  constructor
  · intro h
    split at h
    · cases h
      rfl
    · cases h
  · rintro rfl
    split
    · next client hclient =>
      refine congrArg Except.ok (ClientDocument.eq_of_raw ?_)
      rfl
    · next error herror => exact absurd (herror.symm.trans document.viewed) nofun

/-- A document that was read again has the tree that was written. -/
theorem raw_of_reread (hyaml : formats.yaml.ReadsBack) {raw : Yaml N}
    {document : ClientDocument formats} (h : formats.reread raw = .ok document) :
    document.raw = raw := by
  obtain ⟨text, htext, hparse⟩ := bind_eq_ok.mp h
  obtain ⟨read, hread, hdocument⟩ := bind_eq_ok.mp hparse
  rw [Formats.fromRaw_eq_ok.mp hdocument]
  exact hyaml raw text read (mapError_eq_ok.mp htext) (mapError_eq_ok.mp hread)

/-! ## The current version -/

/-- The tree is of the version that is written. -/
def Current (raw : Yaml N) : Prop := raw.get "apiVersion" = some (.string API_VERSION_V2)

/-- What `spec` holds under a name. -/
def specAt (name : String) (raw : Yaml N) : Option (Yaml N) := (raw.get "spec").bind (Yaml.get name)

theorem reading_of_current {raw reading : Yaml N} (hcurrent : Current raw)
    (h : Formats.reading raw = .ok reading) : reading = raw := by
  obtain ⟨version, hversion, hreading⟩ := bind_eq_ok.mp h
  have hapi : stringAt raw "apiVersion" = some API_VERSION_V2 := by
    unfold stringAt
    rw [hcurrent]
    rfl
  cases version with
  | v1 =>
      unfold checkDocumentKind at hversion
      simp only [hapi] at hversion
      split at hversion
      · cases hversion
      · split at hversion
        · next hold => exact absurd (Option.some.inj hold.2) (by decide)
        · cases hversion
  | v2 =>
      obtain ⟨-, hsame⟩ := check_bind_eq_ok.mp hreading
      exact (Except.ok.inj hsame).symm

/-- What a document says is read of some tree, and was checked. -/
theorem ClientDocument.viewed_eq_ok (document : ClientDocument formats) :
    ∃ reading, Formats.reading document.raw = .ok reading ∧
      formats.readShape reading = some document.client ∧
      Formats.checkClient document.client = .ok () := by
  obtain ⟨reading, hreading, h⟩ := bind_eq_ok.mp document.viewed
  obtain ⟨client, hclient, h⟩ := bind_eq_ok.mp h
  obtain ⟨hchecked, hsame⟩ := check_bind_eq_ok.mp h
  obtain rfl : client = document.client := Except.ok.inj hsame
  refine ⟨reading, hreading, ?_, hchecked⟩
  unfold Formats.decoded at hclient
  split at hclient
  · next decoded hdecoded =>
    rw [hdecoded, Except.ok.inj hclient]
  · cases hclient

/-- A document of the current version says what its own tree says. -/
theorem ClientDocument.readShape_raw (document : ClientDocument formats)
    (hcurrent : Current document.raw) :
    formats.readShape document.raw = some document.client := by
  obtain ⟨reading, hreading, hshape, -⟩ := document.viewed_eq_ok
  rwa [reading_of_current hcurrent hreading] at hshape

/-- A document's identity configuration was checked. -/
theorem ClientDocument.identity_checked (document : ClientDocument formats) :
    document.client.identity.validate = .ok () := by
  obtain ⟨-, -, -, hchecked⟩ := document.viewed_eq_ok
  unfold Formats.checkClient at hchecked
  exact (check_bind_eq_ok.mp (check_bind_eq_ok.mp hchecked).2).1

/-- A document declares each identity client once. -/
theorem ClientDocument.ids_nodup (document : ClientDocument formats) :
    (document.client.identity.clients.map OidcClient.id).Nodup :=
  IdentityConfiguration.ids_nodup_of_validate document.identity_checked

/-! ## What a shape is read of -/

theorem readShape_eq_some {raw : Yaml N} {client : Client Secrets Data} :
    formats.readShape raw = some client ↔ ∃ top id spec, Yaml.fields documentShape raw = some top ∧
      Yaml.required top "metadata" readMetadata = some id ∧ top.lookup "spec" = some spec ∧
      formats.readSpec id spec = some client := by
  unfold Formats.readShape Yaml.required
  simp only [Option.bind_eq_bind, Option.bind_eq_some_iff]
  constructor
  · rintro ⟨top, htop, id, ⟨metadata, hmetadata, hid⟩, spec, hspec, hclient⟩
    exact ⟨top, id, spec, htop, ⟨metadata, hmetadata, hid⟩, hspec, hclient⟩
  · rintro ⟨top, id, spec, htop, ⟨metadata, hmetadata, hid⟩, hspec, hclient⟩
    exact ⟨top, htop, id, ⟨metadata, hmetadata, hid⟩, spec, hspec, hclient⟩

/-- A client that was read of these fields. -/
structure ReadOf (formats : Formats N Described Secrets Data) (fields : List (String × Yaml N))
    (client : Client Secrets Data) : Prop where
  displayName : Yaml.required fields "displayName" Yaml.asStr = some client.displayName
  hosts : Yaml.defaulted fields "hosts" (Yaml.items (readName Host.tryNew)) [] = some client.hosts
  privateNetworkScheme : Yaml.defaulted fields "privateNetworkScheme"
    (Yaml.optional (Yaml.unitVariant readScheme)) none = some client.privateNetworkScheme
  identity : Yaml.required fields "identity" IdentityConfiguration.read = some client.identity
  authorization : Yaml.defaulted fields "authorization" formats.readAuthorization ⟨[]⟩ =
    some client.authorization
  secrets : Yaml.defaulted fields "secrets" (Yaml.optional formats.readSecrets) none =
    some client.secrets
  data : Yaml.defaulted fields "data" formats.readData formats.noData = some client.data
  lifecycle : Yaml.defaulted fields "lifecycle" formats.readLifecycle ⟨none, none, [], none⟩ =
    some client.lifecycle

theorem readSpec_eq_some {id : ClientId} {spec : Yaml N} {client : Client Secrets Data} :
    formats.readSpec id spec = some client ↔ client.id = id ∧
      ∃ fields, Yaml.fields specShape spec = some fields ∧ ReadOf formats fields client := by
  unfold Formats.readSpec
  simp only [Option.bind_eq_bind, Option.bind_eq_some_iff, Option.some.injEq]
  constructor
  · rintro ⟨fields, hfields, displayName, hdisplayName, hosts, hhosts, scheme, hscheme, identity,
      hidentity, authorization, hauthorization, secrets, hsecrets, data, hdata, lifecycle,
      hlifecycle, rfl⟩
    exact ⟨rfl, fields, hfields, hdisplayName, hhosts, hscheme, hidentity, hauthorization, hsecrets,
      hdata, hlifecycle⟩
  · rintro ⟨rfl, fields, hfields, hread⟩
    exact ⟨fields, hfields, _, hread.displayName, _, hread.hosts, _, hread.privateNetworkScheme, _,
      hread.identity, _, hread.authorization, _, hread.secrets, _, hread.data, _, hread.lifecycle,
      rfl⟩

/-- What is read of a field depends on what is looked up for it. -/
theorem required_congr {T : Type} {fields others : List (String × Yaml N)} {name : String}
    {read : Yaml N → Option T} (h : others.lookup name = fields.lookup name) :
    Yaml.required others name read = Yaml.required fields name read := by
  unfold Yaml.required
  rw [h]

theorem defaulted_congr {T : Type} {fields others : List (String × Yaml N)} {name : String}
    {read : Yaml N → Option T} {default : T} (h : others.lookup name = fields.lookup name) :
    Yaml.defaulted others name read default = Yaml.defaulted fields name read default := by
  unfold Yaml.defaulted
  rw [h]

/-- What `spec` is read of, where the tree has one. -/
theorem readSpec_of_get {raw spec : Yaml N} {client : Client Secrets Data}
    (h : formats.readShape raw = some client) (hspec : raw.get "spec" = some spec) :
    ∃ fields, Yaml.fields specShape spec = some fields ∧ ReadOf formats fields client := by
  obtain ⟨top, id, found, htop, -, hfound, hclient⟩ := readShape_eq_some.mp h
  have hlookup := Yaml.lookup_fields_of_get htop (by decide) hspec
  rw [hfound] at hlookup
  rw [Option.some.inj hlookup] at hclient
  exact (readSpec_eq_some.mp hclient).2

/-- The identity a tree says is the one its section says. -/
theorem identity_of_specAt {raw value : Yaml N} {client : Client Secrets Data}
    (h : formats.readShape raw = some client) (hvalue : specAt "identity" raw = some value) :
    IdentityConfiguration.read value = some client.identity := by
  obtain ⟨spec, hspec, hget⟩ := Option.bind_eq_some_iff.mp hvalue
  obtain ⟨fields, hfields, hread⟩ := readSpec_of_get h hspec
  have hidentity := hread.identity
  unfold Yaml.required at hidentity
  rwa [Yaml.lookup_fields_of_get hfields (by decide) hget] at hidentity

/-! ## Writing the identity -/

theorem orMissing_eq_ok {T : Type} {field : String} {value : Option T} {result : T} :
    orMissing field value = .ok result ↔ value = some result := by
  cases value <;> simp [orMissing]

/-- What `with_identity` writes, step by step. -/
theorem withIdentityRaw_eq_ok {raw after : Yaml N} {identity : IdentityConfiguration} :
    withIdentityRaw raw identity = .ok after ↔ ∃ versioned,
      Yaml.insert "apiVersion" (.string API_VERSION_V2) raw = some versioned ∧
        insertSpec "identity" identity.write versioned = some after := by
  unfold withIdentityRaw
  rw [bind_eq_ok]
  simp only [orMissing_eq_ok]

/-- A key of `spec` was written: `spec` holds it, and holds every other key as before. -/
theorem insertSpec_spec {name : String} {value raw after : Yaml N}
    (h : insertSpec name value raw = some after) : ∃ spec written,
      raw.get "spec" = some spec ∧ Yaml.insert name value spec = some written ∧
        after.get "spec" = some written :=
  Yaml.get_update h

theorem specAt_insertSpec {name : String} {value raw after : Yaml N}
    (h : insertSpec name value raw = some after) : specAt name after = some value := by
  obtain ⟨spec, written, -, hwritten, hafter⟩ := insertSpec_spec h
  unfold specAt
  rw [hafter]
  exact Yaml.get_insert hwritten

theorem specAt_insertSpec_of_ne {name other : String} {value raw after : Yaml N}
    (h : insertSpec name value raw = some after) (hne : other ≠ name) :
    specAt other after = specAt other raw := by
  obtain ⟨spec, written, hspec, hwritten, hafter⟩ := insertSpec_spec h
  unfold specAt
  rw [hafter, hspec]
  exact Yaml.get_insert_of_ne hwritten hne

/-- Writing what `spec` holds already changes nothing. -/
theorem insertSpec_of_specAt {name : String} {value raw : Yaml N}
    (h : specAt name raw = some value) : insertSpec name value raw = some raw := by
  obtain ⟨spec, hspec, hget⟩ := Option.bind_eq_some_iff.mp h
  exact Yaml.update_of_get hspec (Yaml.insert_of_get hget)

section Identity

variable {raw after : Yaml N} {identity : IdentityConfiguration}

theorem current_of_withIdentityRaw (h : withIdentityRaw raw identity = .ok after) :
    Current after := by
  obtain ⟨versioned, hversioned, hafter⟩ := withIdentityRaw_eq_ok.mp h
  unfold Current
  rw [Yaml.get_update_of_ne hafter (by decide)]
  exact Yaml.get_insert hversioned

theorem specAt_identity_of_withIdentityRaw (h : withIdentityRaw raw identity = .ok after) :
    specAt "identity" after = some identity.write := by
  obtain ⟨versioned, -, hafter⟩ := withIdentityRaw_eq_ok.mp h
  exact specAt_insertSpec hafter

theorem specAt_of_withIdentityRaw (h : withIdentityRaw raw identity = .ok after) {name : String}
    (hne : name ≠ "identity") : specAt name after = specAt name raw := by
  obtain ⟨versioned, hversioned, hafter⟩ := withIdentityRaw_eq_ok.mp h
  rw [specAt_insertSpec_of_ne hafter hne]
  unfold specAt
  rw [Yaml.get_insert_of_ne hversioned (by decide)]

/-- Writing the same identity once more changes nothing. -/
theorem withIdentityRaw_again (h : withIdentityRaw raw identity = .ok after) :
    withIdentityRaw after identity = .ok after :=
  withIdentityRaw_eq_ok.mpr ⟨after, Yaml.insert_of_get (current_of_withIdentityRaw h),
    insertSpec_of_specAt (specAt_identity_of_withIdentityRaw h)⟩

/-- The identity is all that the written tree says otherwise. -/
theorem readShape_withIdentityRaw (h : withIdentityRaw raw identity = .ok after)
    {client next : Client Secrets Data} (hclient : formats.readShape raw = some client)
    (hnext : formats.readShape after = some next) :
    next = { client with identity := next.identity } := by
  obtain ⟨versioned, hversioned, hafter⟩ := withIdentityRaw_eq_ok.mp h
  obtain ⟨top, id, old, htop, hid, hold, hold'⟩ := readShape_eq_some.mp hclient
  obtain ⟨top', id', new, htop', hid', hnew, hnew'⟩ := readShape_eq_some.mp hnext
  obtain ⟨hclientId, fields, hfields, hread⟩ := readSpec_eq_some.mp hold'
  obtain ⟨hnextId, fields', hfields', hread'⟩ := readSpec_eq_some.mp hnew'
  -- The version is no field of the shape, so both trees are read of the same members but one.
  have hversionedTop := Yaml.fields_insert_of_notMem rfl (by decide) hversioned htop
  have hmetadata : top'.lookup "metadata" = top.lookup "metadata" :=
    Yaml.lookup_fields_update hafter hversionedTop htop' (by decide) (by decide)
  rw [required_congr hmetadata, hid] at hid'
  obtain rfl : id = id' := Option.some.inj hid'
  obtain ⟨spec, written, hspec, hwritten, hspec'⟩ := insertSpec_spec hafter
  obtain rfl : old = spec := by
    have hlookup := Yaml.lookup_fields_of_get hversionedTop (by decide) hspec
    exact Option.some.inj (hold.symm.trans hlookup)
  obtain rfl : new = written := by
    have hlookup := Yaml.lookup_fields_of_get htop' (by decide) hspec'
    exact Option.some.inj (hnew.symm.trans hlookup)
  have hsame : ∀ name ∈ specShape.fields, name ≠ "identity" →
      fields'.lookup name = fields.lookup name := fun name hname hne =>
    Yaml.lookup_fields_insert hwritten hfields hfields' hne hname
  have hdisplayName := hread'.displayName
  have hhosts := hread'.hosts
  have hscheme := hread'.privateNetworkScheme
  have hauthorization := hread'.authorization
  have hsecrets := hread'.secrets
  have hdata := hread'.data
  have hlifecycle := hread'.lifecycle
  rw [required_congr (hsame _ (by decide) (by decide)), hread.displayName] at hdisplayName
  rw [defaulted_congr (hsame _ (by decide) (by decide)), hread.hosts] at hhosts
  rw [defaulted_congr (hsame _ (by decide) (by decide)), hread.privateNetworkScheme] at hscheme
  rw [defaulted_congr (hsame _ (by decide) (by decide)), hread.authorization] at hauthorization
  rw [defaulted_congr (hsame _ (by decide) (by decide)), hread.secrets] at hsecrets
  rw [defaulted_congr (hsame _ (by decide) (by decide)), hread.data] at hdata
  rw [defaulted_congr (hsame _ (by decide) (by decide)), hread.lifecycle] at hlifecycle
  cases client
  cases next
  simp_all

theorem withIdentity_eq_ok {document next : ClientDocument formats}
    {identity : IdentityConfiguration} : formats.withIdentity document identity = .ok next ↔
      identity.validate = .ok () ∧
        ∃ raw, withIdentityRaw document.raw identity = .ok raw ∧ formats.reread raw = .ok next := by
  unfold Formats.withIdentity
  rw [check_bind_eq_ok, bind_eq_ok]

/-- The tree of a document whose identity was written. -/
theorem raw_of_withIdentity (hyaml : formats.yaml.ReadsBack)
    {document next : ClientDocument formats} {identity : IdentityConfiguration}
    (h : formats.withIdentity document identity = .ok next) :
    withIdentityRaw document.raw identity = .ok next.raw := by
  obtain ⟨-, raw, hraw, hreread⟩ := withIdentity_eq_ok.mp h
  rwa [raw_of_reread hyaml hreread]

/-- A document says the identity that was written. -/
theorem identity_of_withIdentity (hyaml : formats.yaml.ReadsBack)
    {document next : ClientDocument formats} {identity : IdentityConfiguration}
    (h : formats.withIdentity document identity = .ok next) :
    next.client.identity = identity := by
  have hraw := raw_of_withIdentity hyaml h
  have hread := identity_of_specAt (next.readShape_raw (current_of_withIdentityRaw hraw))
    (specAt_identity_of_withIdentityRaw hraw)
  rw [identity.read_write] at hread
  exact (Option.some.inj hread).symm

/-- Writing the identity a document was given once more changes nothing. -/
theorem withIdentity_again (hyaml : formats.yaml.ReadsBack)
    {document next : ClientDocument formats} {identity : IdentityConfiguration}
    (h : formats.withIdentity document identity = .ok next) :
    formats.withIdentity next identity = .ok next := by
  obtain ⟨hvalid, raw, hraw, hreread⟩ := withIdentity_eq_ok.mp h
  refine withIdentity_eq_ok.mpr ⟨hvalid, raw, ?_, hreread⟩
  rw [raw_of_reread hyaml hreread]
  exact withIdentityRaw_again hraw

end Identity
end ClientModel
end SaasFabric
