import SaasFabric.Publication.Attempts
import SaasFabric.Publication.Replan
import SaasFabric.Publication.Sampled

/-!
# Other registrations for the same documents

Where a publication was carried out, its documents are offered again with another registry: the
documents are unchanged, and the registry is stamped with the next generation.
-/

namespace SaasFabric
namespace Publication

open Library (bind_eq_ok)

variable {codecs : Codecs} {snapshot : RuntimeSnapshot} {held : HeldDocuments}
  {plan : PublicationPlan} {record : Option PublicationRecord} {published : PublishedResources}

theorem Validated.registered {tenants : List TenantBindingDocument}
    {dataSources : List DataSourceDocument} (h : Validated snapshot tenants dataSources)
    (offered : Option (List IssuerRegistration)) :
    Validated { snapshot with registry := offered } tenants dataSources :=
  ⟨h.catalog, h.bound, h.entries, h.carried, h.retained, h.tenants, h.dataSources⟩

theorem MayFollow.registered {published : PublishedResources} (h : MayFollow snapshot published)
    (offered : Option (List IssuerRegistration)) :
    MayFollow { snapshot with registry := offered } published :=
  ⟨h.dataSources, h.tenants, h.removed⟩

/-- The documents of a plan that was carried out are planned again, with whatever registry is
decided. -/
theorem Planned.reregistered (hlawful : codecs.Lawful) (hunique : snapshot.UniqueIds)
    (h : Planned codecs snapshot held plan record published)
    {offered : Option (List IssuerRegistration)} {registry : Option RegistryPlan}
    (hregistry : decideRegistry codecs plan.record.record.registry
      (plan.carriedOut held).registry { snapshot with registry := offered } = .ok registry) :
    ∃ again, planPublication codecs { snapshot with registry := offered }
        (plan.carriedOut held) = .ok again ∧
      SameDocuments plan again ∧ again.registry = registry := by
  obtain ⟨again, now, hagain, hsame, -⟩ := h.carriedOut hlawful hunique
  obtain ⟨recordPlan, hdecided⟩ := exists_decideRecord hlawful
    (heldRecord (some plan.record.record) (plan.carriedOut held)) again.dataSources again.catalog
    again.tenants (now.history.including snapshot.tenants.payload snapshot.dataSources.payload)
    registry
  refine ⟨{ again with registry, record := recordPlan }, ?_, ⟨hsame.dataSources, hsame.catalog,
    hsame.tenants⟩, rfl⟩
  exact (planPublication_eq_ok hlawful).mpr ⟨_, now,
    { hagain with
    validated := hagain.validated.registered offered
    follows := hagain.follows.registered offered
    registry := hregistry
    decided := hdecided }⟩

/-- Registrations that the recorded registry does not hold are rendered for the generation after
its own. -/
theorem decideRegistry_next (hlawful : codecs.Lawful) {recorded : RecordedRegistry}
    {before offered : List IssuerRegistration} {heldRegistry : IssuerRegistryDocument × Bytes}
    (hheld : render codecs recorded.generation before = .ok heldRegistry)
    (hoffered : snapshot.registry = some offered)
    (hbound : ∀ registration ∈ offered, registration.tenant ∈
      snapshot.tenants.payload.map TenantBindingDocument.tenant)
    {other : IssuerRegistryDocument × Bytes}
    (hother : render codecs recorded.generation offered = .ok other)
    (hdiffers : codecs.sha256Hex other.2 ≠ recorded.sha256) {next : RegistryGeneration}
    (hnext : recorded.generation.next = some next)
    {rendered : IssuerRegistryDocument × Bytes}
    (hrender : render codecs next offered = .ok rendered) :
    decideRegistry codecs (some recorded) (some heldRegistry.2) snapshot =
      .ok (some ⟨.written, rendered.1, rendered.2⟩) := by
  have hgenerations := heldGenerations_render hlawful hheld
  have hgeneration : generationFor codecs (some recorded) (some heldRegistry.2) offered =
      .ok next := by
    have hahead : aheadOf (some recorded.generation) (some recorded.generation) = none :=
      if_neg (lt_irrefl _)
    have hkept : keptRecorded codecs (some recorded) none offered = .ok none := by
      refine bind_eq_ok.mpr ⟨other, hother, ?_⟩
      rw [if_neg hdiffers]
    refine bind_eq_ok.mpr
      ⟨_, hgenerations, bind_eq_ok.mpr ⟨none, ?_, bind_eq_ok.mpr ⟨none, ?_, ?_⟩⟩⟩
    · show keptRecorded codecs _ (aheadOf (some recorded.generation) (some recorded.generation))
        offered = _
      rw [hahead, hkept]
    · show keptAhead codecs (aheadOf (some recorded.generation) (some recorded.generation)) _ _ = _
      rw [hahead]
      rfl
    · show nextGeneration (Library.maxFloor (some recorded.generation)
        (some recorded.generation)) = _
      have hfloor : Library.maxFloor (some recorded.generation) (some recorded.generation) =
          some recorded.generation := by
        refine Library.maxFloor_some_of_forall_le fun other hother => ?_
        rw [Option.some.inj hother]
      rw [hfloor]
      unfold nextGeneration
      dsimp only
      rw [hnext]
  -- What is held is of another generation, so it is not what is rendered.
  have hwritten : heldRegistry.2 ≠ rendered.2 := by
    intro hsame
    have hagain := heldGenerations_render hlawful hrender
    rw [← hsame, hgenerations] at hagain
    cases hagain
    exact absurd (RegistryGeneration.lt_of_next hnext) (lt_irrefl _)
  refine decideRegistry_eq_ok.mpr (Or.inr ⟨offered, next, rendered.1, rendered.2, hoffered, hbound,
    hgeneration, hrender, ?_⟩)
  rw [if_neg fun hsame => hwritten (Option.some.inj hsame)]

/-! ## A tenant and its issuers -/

theorem acmeRealm_accepted : checkIssuer "https://id.example/realms/acme" = .ok () := by decide

theorem staffRealm_accepted : checkIssuer "https://id.example/realms/staff" = .ok () := by decide

theorem secondGeneration_pos : 0 < (2 : U64) := by decide

/-- An issuer of one tenant. -/
def acmeRegistration : IssuerRegistration :=
  ⟨⟨"https://id.example/realms/acme", acmeRealm_accepted⟩, ⟨"acme", acme_accepted⟩⟩

/-- Another issuer of that tenant. -/
def staffRegistration : IssuerRegistration :=
  ⟨⟨"https://id.example/realms/staff", staffRealm_accepted⟩, ⟨"acme", acme_accepted⟩⟩

/-- A registry of some issuers. -/
def registryOf (generation : RegistryGeneration) (issuers : List IssuerRegistration) :
    IssuerRegistryDocument := ⟨REGISTRY_SCHEMA_VERSION, generation, issuers⟩

/-- The first registry, and the one with the other issuer, at two generations. -/
def acmeRegistry : IssuerRegistryDocument := registryOf .FIRST [acmeRegistration]

def staffRegistry (generation : RegistryGeneration) : IssuerRegistryDocument :=
  registryOf generation [acmeRegistration, staffRegistration]

def secondGeneration : RegistryGeneration := ⟨2, secondGeneration_pos⟩

/-- An issuer of the tenant, as it is published. -/
def issuerText (realm : String) : String :=
  "\n    \x7b\n      \"issuer\": \"https://id.example/realms/" ++ realm ++
    "\",\n      \"tenant\": \"acme\"\n    \x7d"

/-- A registry, as it is published. -/
def registryText (generation issuers : String) : String := "\x7b" ++
  ("\n  \"schemaVersion\": 1,\n  \"generation\": " ++ generation ++ ",\n  \"issuers\": [" ++
    issuers ++ "\n  ]\n") ++ "\x7d"

def acmeRegistryText : String := registryText "1" (issuerText "acme")

def staffRegistryText (generation : String) : String :=
  registryText generation (issuerText "acme" ++ "," ++ issuerText "staff")

def acmeRegistryDigest : Runtime.RecordDigest :=
  ⟨0xf9fdcf525caf5c3f416e76b0f1263e0881d4cc206010a87ae048a8a7a7e134da⟩

def firstStaffRegistryDigest : Runtime.RecordDigest :=
  ⟨0x03003eea5a63a0767adb2b83d5a938b6ad1366ed68f3b4061ec91a69e136d0de⟩

def staffRegistryDigest : Runtime.RecordDigest :=
  ⟨0x2e4facd5ffe13d1da6ca683754601560b2340daae45e44ccf204994a68f10a39⟩

/-- The record of the tenant's publication with a registry. -/
def registeredRecord (generation : U64) (registry : RecordedRegistry) : PublicationRecord :=
  (acmeRecord generation (toString oneAcmeDigest)).withRegistry (some registry)

/-- It, as it is published. -/
def registeredRecordText (generation registry : String) : String :=
  acmeRecordText generation (toString oneAcmeDigest)
    (",\n  \"registry\": \x7b\n    \"generation\": " ++ generation ++ ",\n    \"sha256\": \"" ++
      registry ++ "\"\n  \x7d")

def acmeRegisteredText : String := registeredRecordText "1" (toString acmeRegistryDigest)

def staffRegisteredText : String := registeredRecordText "2" (toString staffRegistryDigest)

/-- The registries, each beside what is written of it. -/
def issuerRegistryEntries : List (IssuerRegistryDocument × Bytes) :=
  [(acmeRegistry, acmeRegistryText.toUTF8), (staffRegistry .FIRST, (staffRegistryText "1").toUTF8),
    (staffRegistry secondGeneration, (staffRegistryText "2").toUTF8)]

theorem issuerRegistryEntries_sample :
    ∀ entry ∈ issuerRegistryEntries, Library.IsSample entry.2 := by
  intro entry hentry
  simp only [issuerRegistryEntries, List.mem_cons, List.not_mem_nil, or_false] at hentry
  rcases hentry with rfl | rfl | rfl
  all_goals exact Library.isSample_braces _

theorem issuerRegistryEntries_apart : (issuerRegistryEntries.map Prod.fst).Nodup ∧
    issuerRegistryEntries.Pairwise fun first second =>
      first.2.data.toList ≠ second.2.data.toList := by
  decide +kernel

def issuerRegistries : Sample IssuerRegistryDocument :=
  ⟨issuerRegistryEntries, issuerRegistryEntries_sample, issuerRegistryEntries_apart.1,
    issuerRegistryEntries_apart.2⟩

/-- The records that name them. -/
def registeredRecords : Sample PublicationRecord where
  entries :=
    [(registeredRecord 1 ⟨.FIRST, toString acmeRegistryDigest⟩, acmeRegisteredText.toUTF8),
      (registeredRecord 2 ⟨secondGeneration, toString staffRegistryDigest⟩,
        staffRegisteredText.toUTF8)]
  sample := List.forall_mem_cons.mpr ⟨Library.isSample_braces _,
    List.forall_mem_singleton.mpr (Library.isSample_braces _)⟩
  values := by decide +kernel
  apart := by decide +kernel

/-- What serde writes of the tenant with these issuers, and what its digests are. -/
def registeredSamples : Samples where
  digests :=
    [("[" ++ oneAcmeText ++ "]" ++ "\n", oneAcmeDigest), (mainText ++ "\n", mainDigest),
      (ordersText ++ "\n", ordersDigest), (acmeRegistryText ++ "\n", acmeRegistryDigest),
      (staffRegistryText "1" ++ "\n", firstStaffRegistryDigest),
      (staffRegistryText "2" ++ "\n", staffRegistryDigest),
      (acmeRegisteredText ++ "\n",
        ⟨0x823b066836059b53e02d74747237d1aad904012f98e51b4ad637874d91cd58fb⟩),
      (staffRegisteredText ++ "\n",
        ⟨0x9b5c47f49a8cd5888eb9e1f0aa4ea92e54d52eba36acad32ee31609c053f82e1⟩)]
  tenants := oneAcmeSamples.tenants
  dataSources := oneAcmeSamples.dataSources
  catalog := oneAcmeSamples.catalog
  manifest := firstManifests
  record := registeredRecords
  registry := issuerRegistries

/-- The tenant with some issuers. -/
def registeredSnapshot (offered : List IssuerRegistration) : RuntimeSnapshot :=
  { acmeSnapshot [acmeTenant] with registry := some offered }

theorem uniqueIds_registeredSnapshot (offered : List IssuerRegistration) :
    (registeredSnapshot offered).UniqueIds :=
  ⟨List.nodup_singleton _, List.nodup_singleton _⟩

theorem render_acmeRegistry : render registeredSamples.codecs .FIRST [acmeRegistration] =
    .ok (acmeRegistry, lineOf acmeRegistryText) := by
  refine render_eq_ok.mpr ⟨?_, Sample.line_of_mem List.mem_cons_self⟩
  unfold IssuerRegistryDocument.new
  rw [List.mergeSort_singleton]
  rfl

theorem render_staffRegistry {generation : RegistryGeneration} {text : String}
    (h : (staffRegistry generation, text.toUTF8) ∈ issuerRegistries.entries) :
    render registeredSamples.codecs generation [acmeRegistration, staffRegistration] =
      .ok (staffRegistry generation, lineOf text) := by
  have hsorted : [acmeRegistration, staffRegistration].mergeSort (fun a b => (compare a b).isLE) =
      [acmeRegistration, staffRegistration] := List.mergeSort_of_pairwise (by decide)
  refine render_eq_ok.mpr ⟨?_, Sample.line_of_mem h⟩
  unfold IssuerRegistryDocument.new
  rw [hsorted]
  rfl

theorem registeredDigests_apart : (registeredSamples.digests.map Prod.fst).Nodup := by
  decide +kernel

theorem acmeRegistry_digest : Library.tabled registeredSamples.digests ⟨0⟩
    (lineOf acmeRegistryText) = acmeRegistryDigest :=
  Samples.tabled_line registeredDigests_apart (List.mem_of_getElem? (i := 3) rfl)

theorem firstStaffRegistry_digest : Library.tabled registeredSamples.digests ⟨0⟩
    (lineOf (staffRegistryText "1")) = firstStaffRegistryDigest :=
  Samples.tabled_line registeredDigests_apart (List.mem_of_getElem? (i := 4) rfl)

theorem next_first : RegistryGeneration.FIRST.next = some secondGeneration := by decide

/-- The plan of the tenant with its first issuer. -/
noncomputable def registeredPlan : PublicationPlan :=
  firstPlan registeredSamples.codecs (registeredSnapshot [acmeRegistration])
    (some ⟨.written, acmeRegistry, lineOf acmeRegistryText⟩) (lineOf mainText) (lineOf ordersText)
    (lineOf ("[" ++ oneAcmeText ++ "]")) (lineOf acmeRegisteredText)

theorem registeredPlan_record : registeredPlan.record.record =
    registeredRecord 1 ⟨.FIRST, toString acmeRegistryDigest⟩ := by
  have htenants : Library.tabled registeredSamples.digests ⟨0⟩
      (lineOf ("[" ++ oneAcmeText ++ "]")) = oneAcmeDigest :=
    Samples.tabled_line registeredDigests_apart (List.mem_of_getElem? (i := 0) rfl)
  have hmain : Library.tabled registeredSamples.digests ⟨0⟩ (lineOf mainText) = mainDigest :=
    Samples.tabled_line registeredDigests_apart (List.mem_of_getElem? (i := 1) rfl)
  have horders : Library.tabled registeredSamples.digests ⟨0⟩ (lineOf ordersText) = ordersDigest :=
    Samples.tabled_line registeredDigests_apart (List.mem_of_getElem? (i := 2) rfl)
  have hhistory : ResourceHistory.empty.including [] [] = ResourceHistory.empty := rfl
  show (PublicationRecord.new 1 ⟨RecordedDocument.of _ 1 _, RecordedDocument.of _ 1 _,
    RecordedDocument.of _ 1 _⟩ ((ResourceHistory.empty.including [] []).including [acmeTenant]
      [mainDataSource])).withRegistry (some ⟨.FIRST, toString (Library.tabled
        registeredSamples.digests ⟨0⟩ (lineOf acmeRegistryText))⟩) = _
  rw [Samples.recordedDocument_of _ htenants, Samples.recordedDocument_of _ hmain,
    Samples.recordedDocument_of _ horders, hhistory, acmeRegistry_digest]
  rfl

/-- The tenant is published with its issuer where nothing is held, -/
theorem registeredSnapshot_planned : planPublication registeredSamples.codecs
    (registeredSnapshot [acmeRegistration]) HeldDocuments.absent = .ok registeredPlan := by
  have hvalid := @acmeSnapshot_validated [acmeTenant] (List.cons_ne_nil _ _)
    fun tenant htenant => List.mem_singleton.mp htenant
  have hregistry : decideRegistry registeredSamples.codecs none none
      (registeredSnapshot [acmeRegistration]) =
        .ok (some ⟨.written, acmeRegistry, lineOf acmeRegistryText⟩) := by
    refine decideRegistry_eq_ok.mpr (Or.inr ⟨_, .FIRST, _, _, rfl, ?_, rfl, render_acmeRegistry,
      rfl⟩)
    decide
  refine planned_first registeredSamples.lawful (hvalid.registered _) hregistry ?_ ?_ ?_ ?_
  · show registeredSamples.dataSources.codec.line (List.mergeSort [mainDataSource] _) = _
    rw [List.mergeSort_singleton]
    exact Sample.line_of_mem List.mem_cons_self
  · exact Sample.line_of_mem List.mem_cons_self
  · show registeredSamples.tenants.codec.line (List.mergeSort [acmeTenant] _) = _
    rw [List.mergeSort_singleton]
    exact Sample.line_of_mem List.mem_cons_self
  · show registeredSamples.codecs.record.line registeredPlan.record.record = _
    rw [registeredPlan_record]
    exact Sample.line_of_mem List.mem_cons_self

/-- which leaves what its plan leaves, -/
theorem readHeld_registered : readHeld registeredSamples.codecs
    ((publisher registeredSamples.codecs).final Target.empty
      [⟨registeredSnapshot [acmeRegistration], none, 8⟩]) =
    .ok (registeredPlan.carriedOut HeldDocuments.absent) := by
  rw [final_publisher_singleton]
  exact (publish_whole registeredSamples.lawful readHeld_empty registeredSnapshot_planned).1

/-- and over that it is planned with another issuer beside it. -/
theorem reregisteredSnapshot_planned : ∃ again, planPublication registeredSamples.codecs
      (registeredSnapshot [acmeRegistration, staffRegistration])
        (registeredPlan.carriedOut HeldDocuments.absent) = .ok again ∧
    again.registry = some ⟨.written, staffRegistry secondGeneration,
      lineOf (staffRegistryText "2")⟩ := by
  obtain ⟨record, published, hplanned⟩ :=
    (planPublication_eq_ok registeredSamples.lawful).mp registeredSnapshot_planned
  have hdiffers : registeredSamples.codecs.sha256Hex (lineOf (staffRegistryText "1")) ≠
      toString acmeRegistryDigest := by
    rw [Samples.sha256Hex_of _ firstStaffRegistry_digest]
    exact fun hsame => absurd (Reader.toString_digest_injective hsame) (by decide)
  have hbound : ∀ registration ∈ [acmeRegistration, staffRegistration], registration.tenant ∈
      (registeredSnapshot [acmeRegistration, staffRegistration]).tenants.payload.map
        TenantBindingDocument.tenant := by decide
  have hregistry := @decideRegistry_next registeredSamples.codecs
    (registeredSnapshot [acmeRegistration, staffRegistration]) registeredSamples.lawful
    ⟨.FIRST, toString acmeRegistryDigest⟩ _ _ _ render_acmeRegistry rfl hbound _
    (render_staffRegistry (List.mem_cons_of_mem _ List.mem_cons_self)) hdiffers
    secondGeneration next_first _ (render_staffRegistry
      (List.mem_cons_of_mem _ (List.mem_cons_of_mem _ List.mem_cons_self)))
  obtain ⟨again, hagain, -, hagainRegistry⟩ := hplanned.reregistered registeredSamples.lawful
    (uniqueIds_registeredSnapshot _) (by
      rw [registeredPlan_record]
      exact hregistry)
  exact ⟨again, hagain, hagainRegistry⟩

end Publication
end SaasFabric
