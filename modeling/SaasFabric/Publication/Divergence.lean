import SaasFabric.Publication.DocumentBytes

/-!
# What a plan is refused with

What cannot be read of a target is refused before any rule about an offer, and with three
refusals only.  A publisher's controller answers one other refusal by offering again at the
next revision: of everything a plan can be refused with, only the verdict on a document is
that one, and it names the document and the revision it was offered at.
-/

namespace SaasFabric
namespace Publication

open Library (FailsWith)

/-- The refusals of a target that cannot be read. -/
inductive Unread : PublicationError → Prop where
  | unreadable (document : DocumentKind) (cause : String) : Unread (.unreadable document cause)
  | lost (document : DocumentKind) : Unread (.heldPayloadLost document)
  | floor (floor publisher : U32) : Unread (.belowRollbackFloor floor publisher)

/-- A refusal that is no divergence. -/
def NoDivergence (error : PublicationError) : Prop :=
  ∀ document revision, error ≠ .divergentPayload document revision

/-- A computation that is never refused as divergent. -/
abbrev NeverDiverges {T : Type} (computation : Except PublicationError T) : Prop :=
  FailsWith NoDivergence computation

section Plan

variable {codecs : Codecs} {snapshot : RuntimeSnapshot} {held : HeldDocuments}

theorem failsWith_parseHeld (bytes : Bytes) :
    FailsWith Unread (PublicationRecord.parseHeld codecs bytes) := by
  refine FailsWith.bind (FailsWith.bind ?_ fun _ => ?_) fun _ => ?_
  · exact FailsWith.mapError fun cause => .unreadable _ cause
  · exact FailsWith.ite (FailsWith.error (.floor _ _)) (FailsWith.ok ())
  · exact FailsWith.mapError fun cause => .unreadable _ cause

theorem failsWith_parseRecord : FailsWith Unread (held.parseRecord codecs) := by
  unfold HeldDocuments.parseRecord
  split
  · exact FailsWith.ok none
  · exact (failsWith_parseHeld _).map

theorem failsWith_parseHeldDocuments {T : Type} {codec : Library.Codec (List T)}
    {document : HeldDocument} {kind : DocumentKind} :
    FailsWith Unread (parseHeldDocuments codec document kind) := by
  unfold parseHeldDocuments parseDocuments
  split
  · exact FailsWith.error (.lost kind)
  · split
    · exact FailsWith.ok []
    · exact FailsWith.mapError fun cause => .unreadable _ cause

theorem failsWith_resources : FailsWith Unread (held.resources codecs) :=
  failsWith_parseRecord.bind fun _ => failsWith_parseHeldDocuments.bind fun _ =>
    failsWith_parseHeldDocuments.bind fun _ => FailsWith.ok _

/-- What cannot be read is no divergence. -/
theorem Unread.noDivergence {error : PublicationError} (h : Unread error) : NoDivergence error := by
  intro document revision
  cases h <;> exact nofun

theorem neverDiverges_validateSnapshot {tenants : List TenantBindingDocument}
    {dataSources : List DataSourceDocument} :
    NeverDiverges (validateSnapshot snapshot tenants dataSources) := by
  unfold validateSnapshot
  refine FailsWith.bind ?_ fun _ => FailsWith.bind ?_ fun _ => FailsWith.bind ?_
    fun _ => FailsWith.bind ?_ fun _ => FailsWith.bind ?_ fun _ =>
      FailsWith.bind ?_ fun _ => ?_
  · exact FailsWith.ite (FailsWith.error nofun) (FailsWith.ok ())
  · exact FailsWith.forM fun _ _ =>
      FailsWith.ite (FailsWith.error nofun) (FailsWith.ok ())
  · unfold refuseUnboundCatalogueEntries
    split
    · exact FailsWith.error nofun
    · exact FailsWith.ok ()
  · exact FailsWith.forM fun _ _ => FailsWith.forM fun _ _ =>
      FailsWith.ite (FailsWith.ok ()) (FailsWith.error nofun)
  · exact FailsWith.forM fun _ _ => FailsWith.forM fun _ _ =>
      FailsWith.ite (FailsWith.ok ()) (FailsWith.error nofun)
  · exact FailsWith.ite (FailsWith.error nofun) (FailsWith.ok ())
  · exact FailsWith.ite (FailsWith.error nofun) (FailsWith.ok ())

theorem neverDiverges_refuseUnadvanced {T V : Type} [DecidableEq V] {kind : DocumentKind}
    {toValue : T → Except String V} {copies offered : List T}
    {identity : T → String × BindingRevision × Option BindingRevision} :
    NeverDiverges (refuseUnadvanced kind toValue copies offered identity) := by
  exact FailsWith.forM fun resource _ => failsWith_refuseResource fun _ => nofun

theorem neverDiverges_refuseResourceChanges {published : PublishedResources} :
    NeverDiverges (refuseResourceChanges codecs snapshot published) := by
  refine neverDiverges_refuseUnadvanced.bind fun _ =>
    neverDiverges_refuseUnadvanced.bind fun _ => ?_
  exact FailsWith.ite (FailsWith.ok ()) (FailsWith.forM fun _ _ =>
    FailsWith.ite (FailsWith.ok ()) (FailsWith.error nofun))

theorem neverDiverges_render {generation : RegistryGeneration}
    {offered : List IssuerRegistration} : NeverDiverges (render codecs generation offered) := by
  refine FailsWith.bind (FailsWith.mapError fun _ => ?_) fun _ =>
    FailsWith.bind (FailsWith.mapError fun _ => ?_) fun _ => FailsWith.ok _
  · exact nofun
  · exact nofun

theorem neverDiverges_generationFor {recorded : Option RecordedRegistry} {held : Option Bytes}
    {offered : List IssuerRegistration} :
    NeverDiverges (generationFor codecs recorded held offered) := by
  have hkeptRecorded : ∀ ahead, NeverDiverges (keptRecorded codecs recorded ahead offered) := by
    intro ahead
    unfold keptRecorded
    split
    · exact neverDiverges_render.bind fun _ => FailsWith.ok _
    · exact FailsWith.ok none
  have hkeptAhead : ∀ ahead, NeverDiverges (keptAhead codecs ahead held offered) := by
    intro ahead
    unfold keptAhead
    split
    · exact neverDiverges_render.bind fun _ => FailsWith.ok _
    · exact FailsWith.ok none
  have hnext : ∀ highest, NeverDiverges (nextGeneration highest) := by
    intro highest
    unfold nextGeneration
    split
    · exact FailsWith.ok _
    · split
      · exact FailsWith.ok _
      · exact FailsWith.error nofun
  have hheld : NeverDiverges (heldGenerations codecs held) := by
    unfold heldGenerations heldGeneration
    split
    · exact FailsWith.ok none
    · exact (FailsWith.mapError fun _ => nofun).map
  refine hheld.bind fun _ => (hkeptRecorded _).bind fun kept => ?_
  cases kept with
  | some generation => exact FailsWith.ok generation
  | none =>
      refine (hkeptAhead _).bind fun kept => ?_
      cases kept with
      | some generation => exact FailsWith.ok generation
      | none => exact hnext _

theorem neverDiverges_decideRegistry {recorded : Option RecordedRegistry}
    {held : Option Bytes} : NeverDiverges (decideRegistry codecs recorded held snapshot) := by
  unfold decideRegistry
  split
  · split
    · exact FailsWith.error nofun
    · exact FailsWith.ok none
  · dsimp only
    split
    · exact FailsWith.error nofun
    · exact neverDiverges_generationFor.bind fun _ => neverDiverges_render.bind fun _ =>
        FailsWith.ok _

/-- A document's decision diverges at the revision it is offered at. -/
theorem decideDocument_diverges {kind document : DocumentKind} {copy : Option Held}
    {offered revision : DocumentRevision} {bytes : Except String Bytes}
    (h : decideDocument kind copy offered bytes = .error (.divergentPayload document revision)) :
    document = kind ∧ revision = offered := by
  unfold decideDocument at h
  cases bytes with
  | error cause => cases h
  | ok bytes =>
      change (verdict copy ⟨kind, offered, bytes⟩ >>= _) = _ at h
      unfold verdict at h
      cases copy with
      | none => cases h
      | some copy =>
          dsimp only at h
          split at h
          · cases h
          · split at h
            · cases h
            · split at h
              · cases h
              · split at h
                · cases h
                · cases h
                  exact ⟨rfl, rfl⟩

/-- A sequence diverges where its first part does, or where its rest does. -/
theorem diverges_bind {T S : Type} {first : Except PublicationError T}
    {rest : T → Except PublicationError S} {document : DocumentKind} {revision : DocumentRevision}
    (h : (first >>= rest) = .error (.divergentPayload document revision)) :
    first = .error (.divergentPayload document revision) ∨
      ∃ value, rest value = .error (.divergentPayload document revision) := by
  cases first with
  | error error => exact Or.inl (congrArg Except.error (Except.error.inj h))
  | ok value => exact Or.inr ⟨value, h⟩

/-- A plan that diverges names a document and the revision it is offered at. -/
theorem planPublication_diverges {document : DocumentKind} {revision : DocumentRevision}
    (h : planPublication codecs snapshot held = .error (.divergentPayload document revision)) :
    revision = snapshot.revision document := by
  have hdecided : ∀ {kind copy bytes},
      decideDocument kind copy (snapshot.revision kind) bytes =
        .error (.divergentPayload document revision) → revision = snapshot.revision document := by
    intro kind copy bytes hdiverges
    obtain ⟨rfl, hrevision⟩ := decideDocument_diverges hdiverges
    exact hrevision
  unfold planPublication at h
  obtain hparsed | ⟨record, h⟩ := diverges_bind h
  · exact absurd rfl (failsWith_parseRecord _ hparsed |>.noDivergence document revision)
  obtain hresources | ⟨published, h⟩ := diverges_bind h
  · exact absurd rfl (failsWith_resources _ hresources |>.noDivergence document revision)
  obtain hvalidated | ⟨-, h⟩ := diverges_bind h
  · exact absurd rfl (neverDiverges_validateSnapshot _ hvalidated document revision)
  obtain hdataSources | ⟨dataSources, h⟩ := diverges_bind h
  · exact @hdecided .dataSources _ _ hdataSources
  obtain hcatalog | ⟨catalog, h⟩ := diverges_bind h
  · exact @hdecided .catalog _ _ hcatalog
  obtain htenants | ⟨tenants, h⟩ := diverges_bind h
  · exact @hdecided .tenants _ _ htenants
  obtain hchanges | ⟨-, h⟩ := diverges_bind h
  · exact absurd rfl (neverDiverges_refuseResourceChanges _ hchanges document revision)
  obtain hregistry | ⟨registry, h⟩ := diverges_bind h
  · exact absurd rfl (neverDiverges_decideRegistry _ hregistry document revision)
  obtain hrecord | ⟨plan, h⟩ := diverges_bind h
  · have hnever : ∀ held dataSources catalog tenants resources registry, NeverDiverges
        (decideRecord codecs held dataSources catalog tenants resources registry) :=
      fun _ _ _ _ _ _ => (FailsWith.mapError fun _ => nofun).bind fun _ => FailsWith.ok _
    exact absurd rfl (hnever _ _ _ _ _ _ _ hrecord document revision)
  · cases h

end Plan

end Publication
end SaasFabric
