import SaasFabric.Library.Machine
import SaasFabric.Runtime.Merge
import SaasFabric.Runtime.Resolution

/-!
# The history of a registry

Any sequence of full syncs, single updates and removals on a fresh registry.  Every call
is one of the three writes or writes nothing, so what each write keeps (`Steps`) is kept
by every run.
-/

namespace SaasFabric
namespace Runtime

open RegistryResource (KIND key revision validate)

variable {T Key Facts : Type} [RegistryResource T Key Facts]

/-- A call on a registry.  The order is the one in which a full sync finds the held
entries listed. -/
inductive Call (T : Type) {Key Facts : Type} [RegistryResource T Key Facts] where
  | applyAll (incoming : List T) (order : IterationOrder Key T)
  | applyOne (resource : T)
  | invalidate (key : Key)

/-- What a call leaves installed, and the changes it publishes. -/
def Call.run (registry : ResourceRegistry T) :
    Call T → ResourceRegistry T × List (ResourceChange Key)
  | .applyAll incoming order =>
      match Runtime.applyAll registry incoming order with
      | .error _ => (registry, [])
      | .ok (written, _) => (some written.snapshot, written.events)
  | .applyOne resource =>
      match Runtime.applyOne registry resource with
      | none => (registry, [])
      | some written => (some written.snapshot, written.events)
  | .invalidate key =>
      match Runtime.invalidate registry key with
      | none => (registry, [])
      | some written => (some written.snapshot, written.events)

/-- A registry under calls. -/
def registryMachine (T : Type) {Key Facts : Type} [RegistryResource T Key Facts] :
    Library.Machine (ResourceRegistry T) (Call T) (ResourceChange Key) where
  step := Call.run

/-- Every call keeps what the writes keep. -/
theorem steps_run (registry : ResourceRegistry T) (call : Call T) :
    Steps registry (call.run registry).1 (call.run registry).2 := by
  cases call with
  | applyAll incoming order =>
      unfold Call.run
      dsimp only
      split
      · exact Steps.refl registry
      · rename_i h
        exact steps_applyAll h
  | applyOne resource =>
      unfold Call.run
      dsimp only
      split
      · exact Steps.refl registry
      · rename_i h
        exact steps_applyOne h
  | invalidate key =>
      unfold Call.run
      dsimp only
      split
      · exact Steps.refl registry
      · rename_i h
        exact steps_invalidate h

/-! ## Runs -/

theorem sound_none : Sound (none : ResourceRegistry T) := by
  intro k resource h
  cases h

theorem mirrors_none : Mirrors ∅ (none : ResourceRegistry T) := fun _ => rfl

/-- A primed registry stays primed. -/
theorem primed_final {registry : ResourceRegistry T} (h : registry.isSome)
    (calls : List (Call T)) : ((registryMachine T).final registry calls).isSome :=
  (registryMachine T).invariant (fun registry => registry.isSome = true)
    (fun registry call h => (steps_run registry call).primed h) h calls

theorem sound_final {registry : ResourceRegistry T} (h : Sound registry)
    (calls : List (Call T)) : Sound ((registryMachine T).final registry calls) :=
  (registryMachine T).invariant Sound
    (fun registry call h => (steps_run registry call).sound h) h calls

/-- A run's announcements, replayed, mirror the registry it leaves. -/
theorem mirrors_final {registry : ResourceRegistry T} (hsound : Sound registry)
    {map : HashMap Key BindingRevision} (hmap : Mirrors map registry)
    (calls : List (Call T)) :
    Mirrors (replay map ((registryMachine T).emitted registry calls))
      ((registryMachine T).final registry calls) := by
  have hrun := (registryMachine T).trace_invariant
    (fun registry trace => Sound registry ∧ Mirrors (replay map trace) registry)
    (fun registry trace call h => by
      obtain ⟨hsound, hmirrors⟩ := h
      refine ⟨(steps_run registry call).sound hsound, ?_⟩
      rw [replay_append]
      exact (steps_run registry call).mirrors hsound _ hmirrors)
    (show Sound registry ∧ Mirrors (replay map []) registry from ⟨hsound, hmap⟩) calls
  exact hrun.2

/-- Over calls that remove a key not once, the entry it holds only moves on. -/
theorem advances_final {registry : ResourceRegistry T} (hsound : Sound registry)
    {map : HashMap Key BindingRevision} (hmap : Mirrors map registry)
    {calls : List (Call T)} {k : Key} {old new : T} (hold : held registry k = some old)
    (hkept : ∀ change ∈ (registryMachine T).emitted registry calls, ¬ change.Removes k)
    (hnew : held ((registryMachine T).final registry calls) k = some new) :
    Advances old new := by
  induction calls generalizing registry map old with
  | nil =>
      rw [Library.Machine.final_nil, hold] at hnew
      cases hnew
      exact Advances.refl _
  | cons call calls ih =>
      have hstep := steps_run registry call
      have hmirrors := hstep.mirrors hsound map hmap
      rw [Library.Machine.emitted_cons] at hkept
      -- No removal of the key is announced, so the key is still held after this call.
      have hsome : ((replay map (call.run registry).2).lookup k).isSome := by
        refine isSome_lookup_replay ?_ fun change hchange =>
          hkept change (List.mem_append_left _ hchange)
        rw [hmap k, hold]
        rfl
      rw [hmirrors k, Option.isSome_map] at hsome
      obtain ⟨middle, hmiddle⟩ := Option.isSome_iff_exists.mp hsome
      exact (hstep.advances hsound k old middle hold hmiddle).trans
        (ih (hstep.sound hsound) hmirrors hmiddle
          (fun change hchange => hkept change (List.mem_append_right _ hchange)) hnew)

/-- The history of a registry, over every sequence of calls on a fresh one: a primed
registry stays primed; what is held has validated and is stored under its own key;
between two moments at which a key is held, with no removal of it in between, its
revision does not decrease and its payload changes only where the revision increases;
and the changes published, replayed over the empty map, give exactly the revisions
held. -/
theorem registry_history (T : Type) {Key Facts : Type} [RegistryResource T Key Facts] :
    (∀ before calls : List (Call T), ((registryMachine T).final none before).isSome →
      ((registryMachine T).final none (before ++ calls)).isSome) ∧
    (∀ (calls : List (Call T)) k resource,
      held ((registryMachine T).final none calls) k = some resource →
        key resource = k ∧ validate resource = .ok ()) ∧
    (∀ (before between : List (Call T)) k old new,
      held ((registryMachine T).final none before) k = some old →
      (∀ change ∈ (registryMachine T).emitted ((registryMachine T).final none before) between,
        ¬ change.Removes k) →
      held ((registryMachine T).final none (before ++ between)) k = some new →
        revision old ≤ revision new ∧ (old ≠ new → revision old < revision new)) ∧
    (∀ (calls : List (Call T)) k,
      (replay ∅ ((registryMachine T).emitted none calls)).lookup k =
        (held ((registryMachine T).final none calls) k).map revision) := by
  refine ⟨fun before calls h => ?_, fun calls k resource h => ?_,
    fun before between k old new hold hkept hnew => ?_, fun calls k => ?_⟩
  · rw [Library.Machine.final_append]
    exact primed_final h calls
  · exact sound_final sound_none calls k resource h
  · rw [Library.Machine.final_append] at hnew
    exact advances_final (sound_final sound_none before)
      (mirrors_final sound_none mirrors_none before) hold hkept hnew
  · exact mirrors_final sound_none mirrors_none calls k

/-- A tenant with nothing bound, which does not validate. -/
def unboundTenant (tenant : TenantId) : TenantRuntimeBinding :=
  { boundTenant tenant sourceA .database with revision := 3, data := ∅ }

theorem storedOrder_perm (entries : List ((_ : TenantId) × TenantRuntimeBinding)) :
    (id entries).Perm entries := .refl _

/-- The entries of a held map as they are stored. -/
def storedOrder : IterationOrder TenantId TenantRuntimeBinding := ⟨id, storedOrder_perm⟩

/-- A tenant is synced, offered unusable, and then moved to another DataSource without
its revision moving on: the first copy is the one held, with nothing removed. -/
theorem acme_history :
    held ((registryMachine TenantRuntimeBinding).final none
      [.applyAll [boundTenant acme sourceA .database] storedOrder,
        .applyAll [unboundTenant acme] storedOrder,
        .applyOne (boundTenant acme sourceB .database)]) acme =
      some (boundTenant acme sourceA .database) ∧
    revision (boundTenant acme sourceA .database) ≤
      revision (boundTenant acme sourceA .database) :=
  ⟨by decide, ((registry_history TenantRuntimeBinding).2.2.1
    [.applyAll [boundTenant acme sourceA .database] storedOrder]
    [.applyAll [unboundTenant acme] storedOrder,
      .applyOne (boundTenant acme sourceB .database)] acme _ _ (by decide) (by decide)
    (by decide)).1⟩

end Runtime
end SaasFabric
