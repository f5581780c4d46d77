import SaasFabric.Library.Fallible
import SaasFabric.Core.Text
import SaasFabric.Platform.Errors
import SaasFabric.Publication.Record

/-!
# Declared data sources

`fabric-platform-management`'s `data_sources/`: the rules of one declaration, what is still
trusted of the declarations an environment holds, and what a declaration writes.
-/

namespace SaasFabric
namespace Platform

open Library (bind_eq_ok)
open Publication (ConnectionSelectorDocument DataResidencyDocument DataSourceCapabilitiesDocument
  DataSourceDocument PlacementClassDocument PoolSettingsDocument mem_sortedBy sortedBy)

/-- `Discriminator`. -/
structure Discriminator where
  column : FieldName
deriving DecidableEq

/-- `DataSourceDeclaration`. -/
structure DataSourceDeclaration where
  id : DataSourceId
  revision : BindingRevision
  connector : ConnectorId
  connection : ConnectionSelectorDocument
  placement : PlacementClassDocument
  residency : DataResidencyDocument
  pool : PoolSettingsDocument
  capabilities : DataSourceCapabilitiesDocument
  discriminator : Option Discriminator
  labels : BTreeMap String String
deriving DecidableEq

namespace DataSourceDeclaration

variable (declaration : DataSourceDeclaration)

/-- `into_document`: the discriminator is the one field the wire does not have. -/
def intoDocument : DataSourceDocument where
  id := declaration.id
  revision := declaration.revision
  connector := declaration.connector
  connection := declaration.connection
  placement := declaration.placement
  residency := declaration.residency
  pool := declaration.pool
  capabilities := declaration.capabilities
  labels := declaration.labels

end DataSourceDeclaration

/-! ## The rules of a declaration -/

/-- `MAX_SECRET_REFERENCE_BYTES`. -/
def MAX_SECRET_REFERENCE_BYTES : Nat := 512

/-- A discriminator is declared on a shared data source, and on no other. -/
def checkDiscriminator (declaration : DataSourceDeclaration) : Except DataSourceRule Unit :=
  if declaration.placement = .shared then
    if declaration.discriminator.isNone then .error .sharedNeedsDiscriminator else .ok ()
  else if declaration.discriminator.isSome then
    .error (.discriminatorOnlyWhenShared declaration.placement)
  else
    .ok ()

/-- A connection is named, or a secret that is referred to. -/
def checkConnection : ConnectionSelectorDocument → Except DataSourceRule Unit
  | .default => .error .connectionKindNotDeclarable
  | .secret reference =>
      if reference.isEmpty ∨ MAX_SECRET_REFERENCE_BYTES < reference.utf8ByteSize ∨
          reference.toList.any fun c => isWhitespace c || isControl c then
        .error .malformedSecretReference
      else
        .ok ()
  | .named _ => .ok ()

/-- No pool setting is zero. -/
def checkPool (pool : PoolSettingsDocument) : Except DataSourceRule Unit := do
  if pool.maxConnections = 0 then .error (.zeroPool .maxConnections) else .ok ()
  if pool.idleTimeoutSeconds = 0 then .error (.zeroPool .idleTimeoutSeconds) else .ok ()
  if pool.acquireTimeoutSeconds = 0 then .error (.zeroPool .acquireTimeoutSeconds) else .ok ()

/-- `DataSourceDeclaration::validate`. -/
def DataSourceDeclaration.validate (declaration : DataSourceDeclaration) :
    Except DataSourceRule Unit := do
  checkDiscriminator declaration
  checkConnection declaration.connection
  checkPool declaration.pool
  declaration.labels.toList.forM fun (key, value) =>
    if key.isEmpty ∨ value.isEmpty then .error .emptyLabel else .ok ()

/-- A declaration that is valid is shared exactly where it declares a discriminator. -/
theorem DataSourceDeclaration.shared_iff_of_validate {declaration : DataSourceDeclaration}
    (h : declaration.validate = .ok ()) :
    declaration.placement = .shared ↔ declaration.discriminator.isSome := by
  unfold DataSourceDeclaration.validate at h
  obtain ⟨_, hdiscriminator, -⟩ := bind_eq_ok.mp h
  unfold checkDiscriminator at hdiscriminator
  split at hdiscriminator
  · rename_i hshared
    split at hdiscriminator
    · cases hdiscriminator
    · rename_i hsome
      exact ⟨fun _ => Option.isSome_iff_ne_none.mpr fun hnone => hsome (by rw [hnone]; rfl),
        fun _ => hshared⟩
  · rename_i hother
    split at hdiscriminator
    · cases hdiscriminator
    · rename_i hnone
      exact ⟨fun hshared => absurd hshared hother, fun hsome => absurd hsome hnone⟩

/-! ## What is held -/

/-- The declarations after some that have been seen. -/
def checkHeldFrom (seen : List DataSourceId) : List DataSourceDeclaration → Except PlatformError Unit
  | [] => .ok ()
  | declared :: rest =>
      if declared.id ∈ seen then
        .error (.invalidHeldDataSources s!"{declared.id} is declared more than once")
      else
        match declared.validate with
        | .error rule => .error (.invalidHeldDataSources s!"{declared.id} is invalid: {rule}")
        | .ok () => checkHeldFrom (declared.id :: seen) rest

/-- `check_held`. -/
def checkHeld (declarations : List DataSourceDeclaration) : Except PlatformError Unit :=
  checkHeldFrom [] declarations

theorem checkHeldFrom_eq_ok {seen : List DataSourceId} {declarations : List DataSourceDeclaration} :
    checkHeldFrom seen declarations = .ok () ↔
      (declarations.map DataSourceDeclaration.id).Nodup ∧
        (∀ declared ∈ declarations, declared.validate = .ok ()) ∧
          ∀ declared ∈ declarations, declared.id ∉ seen := by
  induction declarations generalizing seen with
  | nil => simp [checkHeldFrom]
  | cons declared rest ih =>
      unfold checkHeldFrom
      by_cases hseen : declared.id ∈ seen
      · rw [if_pos hseen]
        exact ⟨nofun, fun h => absurd hseen (h.2.2 declared List.mem_cons_self)⟩
      · rw [if_neg hseen]
        cases hvalid : declared.validate with
        | error rule =>
            refine ⟨nofun, fun h => ?_⟩
            have hok := h.2.1 declared List.mem_cons_self
            rw [hvalid] at hok
            cases hok
        | ok _ =>
            simp only [ih, List.map_cons, List.nodup_cons, List.mem_cons, forall_eq_or_imp, hvalid,
              not_or, List.mem_map, not_exists, not_and]
            constructor
            · rintro ⟨hnodup, hvalidRest, hfresh⟩
              exact ⟨⟨fun other hother => (hfresh other hother).1, hnodup⟩, ⟨trivial, hvalidRest⟩,
                hseen, fun other hother => (hfresh other hother).2⟩
            · rintro ⟨⟨hapart, hnodup⟩, ⟨-, hvalidRest⟩, -, hfresh⟩
              exact ⟨hnodup, hvalidRest, fun other hother => ⟨hapart other hother,
                hfresh other hother⟩⟩

/-- What is trusted of declarations: each is named once, and each is valid. -/
theorem checkHeld_eq_ok {declarations : List DataSourceDeclaration} :
    checkHeld declarations = .ok () ↔
      (declarations.map DataSourceDeclaration.id).Nodup ∧
        ∀ declared ∈ declarations, declared.validate = .ok () := by
  unfold checkHeld
  rw [checkHeldFrom_eq_ok]
  exact ⟨fun h => ⟨h.1, h.2.1⟩, fun h => ⟨h.1, h.2, fun _ _ => List.not_mem_nil⟩⟩

/-- The declaration of an id. -/
def declarationOf (declarations : List DataSourceDeclaration) (id : DataSourceId) :
    Option DataSourceDeclaration :=
  declarations.find? fun declared => declared.id == id

/-- Where each id is declared once, its declaration is the one that is found. -/
theorem declarationOf_eq_some {declarations : List DataSourceDeclaration} {id : DataSourceId}
    {declared : DataSourceDeclaration}
    (hnodup : (declarations.map DataSourceDeclaration.id).Nodup) :
    declarationOf declarations id = some declared ↔
      declared ∈ declarations ∧ declared.id = id := by
  unfold declarationOf
  constructor
  · intro h
    exact ⟨List.mem_of_find?_eq_some h, beq_iff_eq.mp (List.find?_some h :)⟩
  · rintro ⟨hmem, rfl⟩
    cases hfound : declarations.find? fun other => other.id == declared.id with
    | none => exact absurd (beq_self_eq_true declared.id) (List.find?_eq_none.mp hfound _ hmem)
    | some other =>
        have hid : other.id = declared.id := beq_iff_eq.mp (List.find?_some hfound :)
        exact congrArg some (List.inj_on_of_nodup_map hnodup (List.mem_of_find?_eq_some hfound)
          hmem hid)

/-! ## Planning a declaration -/

/-- `Plan`. -/
inductive DeclarationPlan where
  | unchanged
  | write (declarations : List DataSourceDeclaration)

/-- `Published`: the highest revision an id was ever published at, and whether it still is. -/
structure Published where
  revision : BindingRevision
  current : Bool

/-- What a held revision has to reach for a declaration to be left as it is. -/
def keepsRevision : Option Published → BindingRevision
  | none => 0
  | some published =>
      if published.current then published.revision else published.revision.saturatingSucc

/-- `plan`. -/
def planDeclaration (held : List DataSourceDeclaration) (incoming : DataSourceDeclaration)
    (published : Option Published) : DeclarationPlan :=
  let floor := (published.map Published.revision).getD 0
  match declarationOf held incoming.id with
  | none => .write (sortedBy DataSourceDeclaration.id
      (held ++ [{ incoming with revision := floor.saturatingSucc }]))
  | some existing =>
      let merged := { incoming with revision := existing.revision }
      if merged = existing ∧ keepsRevision published ≤ existing.revision then
        .unchanged
      else
        .write (sortedBy DataSourceDeclaration.id
          (held.filter (fun declared => declared.id != incoming.id) ++
            [{ merged with revision := (max existing.revision floor).saturatingSucc }]))

/-- What is written is what is held, but for the declaration that comes in, at a revision that
is worked out. -/
theorem mem_of_planDeclaration {held written : List DataSourceDeclaration}
    {incoming : DataSourceDeclaration} {published : Option Published}
    (h : planDeclaration held incoming published = .write written) :
    ∃ revision, ∀ declared, declared ∈ written ↔
      (declared ∈ held ∧ declared.id ≠ incoming.id) ∨
        declared = { incoming with revision := revision } := by
  unfold planDeclaration at h
  dsimp only at h
  cases hexisting : declarationOf held incoming.id with
  | none =>
      rw [hexisting] at h
      cases h
      refine ⟨((published.map Published.revision).getD 0).saturatingSucc, fun declared => ?_⟩
      have hother : declared ∈ held → declared.id ≠ incoming.id := by
        intro hmem hid
        exact absurd (beq_iff_eq.mpr hid) (List.find?_eq_none.mp hexisting _ hmem)
      rw [mem_sortedBy, List.mem_append, List.mem_singleton]
      exact or_congr_left ⟨fun hmem => ⟨hmem, hother hmem⟩, fun h => h.1⟩
  | some existing =>
      rw [hexisting] at h
      dsimp only at h
      split at h
      · cases h
      · cases h
        refine ⟨(max existing.revision ((published.map Published.revision).getD 0)).saturatingSucc,
          fun declared => ?_⟩
        rw [mem_sortedBy, List.mem_append, List.mem_singleton, List.mem_filter, bne_iff_ne]

/-- Each id is still declared once. -/
theorem nodup_of_planDeclaration {held written : List DataSourceDeclaration}
    {incoming : DataSourceDeclaration} {published : Option Published}
    (hnodup : (held.map DataSourceDeclaration.id).Nodup)
    (h : planDeclaration held incoming published = .write written) :
    (written.map DataSourceDeclaration.id).Nodup := by
  have happend : ∀ (before : List DataSourceDeclaration) (last : DataSourceDeclaration),
      before.Sublist held → (∀ declared ∈ before, declared.id ≠ last.id) →
        ((sortedBy DataSourceDeclaration.id (before ++ [last])).map
          DataSourceDeclaration.id).Nodup := by
    intro before last hsublist hfresh
    rw [Publication.nodup_map_sortedBy, List.map_append, List.map_singleton, List.nodup_append]
    refine ⟨(hsublist.map _).nodup hnodup, List.nodup_singleton _, ?_⟩
    intro id hid other hother
    obtain ⟨declared, hdeclared, rfl⟩ := List.mem_map.mp hid
    rw [List.mem_singleton.mp hother]
    exact hfresh declared hdeclared
  unfold planDeclaration at h
  dsimp only at h
  cases hexisting : declarationOf held incoming.id with
  | none =>
      rw [hexisting] at h
      cases h
      refine happend _ _ (List.Sublist.refl held) fun declared hmem hid => ?_
      exact absurd (beq_iff_eq.mpr hid) (List.find?_eq_none.mp hexisting _ hmem)
  | some existing =>
      rw [hexisting] at h
      dsimp only at h
      split at h
      · cases h
      · cases h
        refine happend _ _ List.filter_sublist fun declared hmem => ?_
        exact bne_iff_ne.mp (List.mem_filter.mp hmem).2

/-- A valid declaration over trusted ones leaves trusted ones. -/
theorem checkHeld_of_planDeclaration {held written : List DataSourceDeclaration}
    {incoming : DataSourceDeclaration} {published : Option Published}
    (hheld : checkHeld held = .ok ()) (hvalid : incoming.validate = .ok ())
    (h : planDeclaration held incoming published = .write written) :
    checkHeld written = .ok () := by
  rw [checkHeld_eq_ok] at hheld ⊢
  refine ⟨nodup_of_planDeclaration hheld.1 h, fun declared hmem => ?_⟩
  obtain ⟨revision, hwritten⟩ := mem_of_planDeclaration h
  rcases (hwritten declared).mp hmem with ⟨hkept, -⟩ | rfl
  · exact hheld.2 declared hkept
  · exact hvalid

/-- The declaration of an id other than the one that comes in is left as it is. -/
theorem declarationOf_planDeclaration {held written : List DataSourceDeclaration}
    {incoming : DataSourceDeclaration} {published : Option Published}
    (hnodup : (held.map DataSourceDeclaration.id).Nodup)
    (h : planDeclaration held incoming published = .write written) :
    ∃ revision, ∀ id, declarationOf written id =
      if id = incoming.id then some { incoming with revision := revision }
      else declarationOf held id := by
  obtain ⟨revision, hwritten⟩ := mem_of_planDeclaration h
  have hnodupWritten := nodup_of_planDeclaration hnodup h
  refine ⟨revision, fun id => ?_⟩
  by_cases hid : id = incoming.id
  · rw [if_pos hid]
    exact (declarationOf_eq_some hnodupWritten).mpr ⟨(hwritten _).mpr (Or.inr rfl), hid.symm⟩
  · rw [if_neg hid]
    refine Option.ext fun declared => ?_
    rw [declarationOf_eq_some hnodupWritten, declarationOf_eq_some hnodup, hwritten]
    constructor
    · rintro ⟨⟨hmem, -⟩ | rfl, rfl⟩
      · exact ⟨hmem, rfl⟩
      · exact absurd rfl hid
    · rintro ⟨hmem, rfl⟩
      exact ⟨Or.inl ⟨hmem, hid⟩, rfl⟩

end Platform
end SaasFabric
