import Mathlib.Tactic.Common
import SaasFabric.Core.Identifier
import SaasFabric.Library.Grouping

/-!
# Resources and snapshots

`fabric-tenant-runtime`'s `resource/`: what a registry holds, the immutable snapshot it
serves it from, and the changes it announces.
-/

namespace SaasFabric
namespace Runtime

/-- `ConfigurationError`. -/
inductive ConfigurationError where
  | tenantHasNoDataBindings (tenant : TenantId)
  | invalidResource (message : String)
deriving DecidableEq

instance : ToString ConfigurationError where
  toString
    | .tenantHasNoDataBindings tenant => s!"tenant {tenant} has no data bindings"
    | .invalidResource message => message

/-- `RegistryResource`: a kind of resource, the key it is held under, and the facts that
are derived from a whole set of them. -/
class RegistryResource (T : Type) (Key Facts : outParam Type) where
  [decidableEqKey : DecidableEq Key]
  [decidableEq : DecidableEq T]
  [toStringKey : ToString Key]
  KIND : String
  key : T → Key
  revision : T → BindingRevision
  validate : T → Except ConfigurationError Unit
  deriveSetFacts : HashMap Key T → Facts

attribute [reducible, instance] RegistryResource.decidableEqKey RegistryResource.decidableEq
  RegistryResource.toStringKey

open RegistryResource (key revision validate deriveSetFacts)

variable {T Key Facts : Type} [RegistryResource T Key Facts]

/-- `ResourceSnapshot`: the entries, and the facts derived from exactly these entries. -/
structure ResourceSnapshot (T : Type) {Key Facts : Type} [RegistryResource T Key Facts] where
  entries : HashMap Key T
  facts : Facts
  facts_derived : facts = deriveSetFacts entries

namespace ResourceSnapshot

/-- `ResourceSnapshot::new`. -/
def new (entries : HashMap Key T) : ResourceSnapshot T :=
  ⟨entries, deriveSetFacts entries, rfl⟩

/-- `ResourceSnapshot::get`. -/
def get (snapshot : ResourceSnapshot T) (key : Key) : Option T :=
  snapshot.entries.lookup key

def len (snapshot : ResourceSnapshot T) : Nat := snapshot.entries.entries.length

@[simp] theorem entries_new (entries : HashMap Key T) :
    (new entries : ResourceSnapshot T).entries = entries := rfl

@[simp] theorem get_new (entries : HashMap Key T) (key : Key) :
    (new entries : ResourceSnapshot T).get key = entries.lookup key := rfl

@[simp] theorem facts_new (entries : HashMap Key T) :
    (new entries : ResourceSnapshot T).facts = deriveSetFacts entries := rfl

end ResourceSnapshot

/-- Every entry of a map is stored under its own key. -/
def OwnKeys (entries : HashMap Key T) : Prop :=
  ∀ k resource, entries.lookup k = some resource → key resource = k

theorem OwnKeys.empty : OwnKeys (∅ : HashMap Key T) := by
  intro k resource h
  simp at h

theorem OwnKeys.insert {entries : HashMap Key T} (hkeys : OwnKeys entries) (resource : T) :
    OwnKeys (entries.insert (key resource) resource) := by
  intro k held h
  by_cases hk : k = key resource
  · subst hk
    rw [AList.lookup_insert] at h
    cases h
    rfl
  · rw [AList.lookup_insert_ne hk] at h
    exact hkeys k held h

/-- A resource among the values of such a map is stored under its own key. -/
theorem OwnKeys.lookup_of_mem {entries : HashMap Key T} (hkeys : OwnKeys entries) {resource : T}
    (h : resource ∈ HashMap.values entries) : entries.lookup (key resource) = some resource := by
  obtain ⟨k, hk⟩ := Library.mem_values_iff.mp h
  rw [hkeys k resource hk, hk]

/-! ## Lookups -/

/-- `LookupError`. -/
inductive LookupError where
  | unavailable
  | notFound
deriving DecidableEq

/-- `lookup` on a snapshot that may not be there yet. -/
def lookup (snapshot : Option (ResourceSnapshot T)) (key : Key) : Except LookupError T :=
  match snapshot with
  | none => .error .unavailable
  | some snapshot =>
      match snapshot.get key with
      | none => .error .notFound
      | some resource => .ok resource

/-! ## Changes -/

/-- `ChangeKind`. -/
inductive ChangeKind where
  | added
  | updated
  | removed
deriving DecidableEq

/-- `ResourceChange`. -/
structure ResourceChange (K : Type) where
  key : K
  kind : ChangeKind
  previousRevision : Option BindingRevision
  currentRevision : Option BindingRevision
deriving DecidableEq

namespace ResourceChange

variable {K : Type}

def added (key : K) (revision : BindingRevision) : ResourceChange K :=
  ⟨key, .added, none, some revision⟩

def updated (key : K) (previous current : BindingRevision) : ResourceChange K :=
  ⟨key, .updated, some previous, some current⟩

def removed (key : K) (previous : BindingRevision) : ResourceChange K :=
  ⟨key, .removed, some previous, none⟩

end ResourceChange

end Runtime
end SaasFabric
