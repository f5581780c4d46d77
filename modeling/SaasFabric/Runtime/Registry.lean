import Mathlib.Tactic.Common
import SaasFabric.Runtime.Resource

/-!
# The registry

`fabric-tenant-runtime`'s `resource/registry/`: one immutable snapshot, replaced whole
by a full sync, an update of one resource or a removal, each of which announces what it
changed.  A registry is `none` until something was installed in it.
-/

namespace SaasFabric
namespace Runtime

open RegistryResource (KIND key revision validate)

variable {T Key Facts : Type} [RegistryResource T Key Facts]

/-- The state of a `ResourceRegistry`: the snapshot it serves, once there is one. -/
abbrev ResourceRegistry (T : Type) {Key Facts : Type} [RegistryResource T Key Facts] :=
  Option (ResourceSnapshot T)

/-- What a registry holds under a key. -/
def held (registry : ResourceRegistry T) (key : Key) : Option T :=
  registry.bind fun snapshot => snapshot.get key

/-- An order a hash map may happen to list its entries in. -/
structure IterationOrder (K V : Type) where
  listed : List (Sigma fun _ : K => V) → List (Sigma fun _ : K => V)
  perm : ∀ entries, (listed entries).Perm entries

/-! ## A full sync -/

/-- `ApplyReport`. -/
structure ApplyReport where
  added : Nat := 0
  updated : Nat := 0
  removed : Nat := 0
  staleIgnored : Nat := 0
  unchanged : Nat := 0
  invalidRejected : Nat := 0
  divergentPayload : Nat := 0
  duplicateRejected : Nat := 0
deriving DecidableEq

/-- `ApplyReport::took_every_resource`. -/
def ApplyReport.tookEveryResource (report : ApplyReport) : Bool :=
  report.staleIgnored == 0 && report.invalidRejected == 0 && report.divergentPayload == 0 &&
    report.duplicateRejected == 0

/-- `UnusableFirstLoad`. -/
structure UnusableFirstLoad where
  published : Nat
  reason : String
deriving DecidableEq

/-- `MergedSnapshot`: a full sync under way.  `decided` is a hash set, by its members. -/
structure MergedSnapshot (T : Type) {Key Facts : Type} [RegistryResource T Key Facts] where
  next : HashMap Key T
  events : List (ResourceChange Key)
  report : ApplyReport
  decided : List Key
  firstRejection : Option String
  published : Nat
  firstLoad : Bool

namespace MergedSnapshot

/-- `MergedSnapshot::against_held`: an entry that is valid and the first of its key. -/
def againstHeld (merged : MergedSnapshot T) (incoming : T) (held : Option T) :
    MergedSnapshot T :=
  match held with
  | none =>
      { merged with
        report := { merged.report with added := merged.report.added + 1 }
        events := merged.events ++ [.added (key incoming) (revision incoming)]
        next := merged.next.insert (key incoming) incoming }
  | some held =>
      if revision held < revision incoming then
        { merged with
          report := { merged.report with updated := merged.report.updated + 1 }
          events := merged.events ++
            [.updated (key incoming) (revision held) (revision incoming)]
          next := merged.next.insert (key incoming) incoming }
      else if revision incoming < revision held then
        { merged with
          report := { merged.report with staleIgnored := merged.report.staleIgnored + 1 }
          next := merged.next.insert (key incoming) held }
      else if incoming = held then
        { merged with
          report := { merged.report with unchanged := merged.report.unchanged + 1 }
          next := merged.next.insert (key incoming) held }
      else
        { merged with
          report := { merged.report with divergentPayload := merged.report.divergentPayload + 1 }
          next := merged.next.insert (key incoming) held }

/-- An entry that does not validate: what is held under its key is retained, unless an
earlier entry decided it. -/
def rejectInvalid (merged : MergedSnapshot T) (incoming : T) (held : Option T)
    (error : ConfigurationError) : MergedSnapshot T :=
  { merged with
    report := { merged.report with invalidRejected := merged.report.invalidRejected + 1 }
    firstRejection := merged.firstRejection.or
      (some s!"{KIND T} {key incoming}: {error}")
    next := match held with
      | some held =>
          if key incoming ∈ merged.decided then merged.next
          else merged.next.insert (key incoming) held
      | none => merged.next }

/-- `MergedSnapshot::accept`. -/
def accept (merged : MergedSnapshot T) (incoming : T) (held : Option T) : MergedSnapshot T :=
  match validate incoming with
  | .error error => merged.rejectInvalid incoming held error
  | .ok () =>
      if key incoming ∈ merged.decided then
        { merged with
          report := { merged.report with
            duplicateRejected := merged.report.duplicateRejected + 1 } }
      else
        { merged with decided := key incoming :: merged.decided }.againstHeld incoming held

/-- One round of the loop of `collect_removals`. -/
def collectRemoval (merged : MergedSnapshot T) (entry : Sigma fun _ : Key => T) :
    MergedSnapshot T :=
  if (merged.next.lookup entry.1).isSome then
    merged
  else
    { merged with
      report := { merged.report with removed := merged.report.removed + 1 }
      events := merged.events ++ [.removed entry.1 (revision entry.2)] }

/-- `MergedSnapshot::collect_removals`, in the order the held map is listed in. -/
def collectRemovals (merged : MergedSnapshot T) (current : ResourceSnapshot T)
    (order : IterationOrder Key T) : MergedSnapshot T :=
  (order.listed current.entries.entries).foldl collectRemoval merged

/-- A sync that has not looked at anything yet. -/
def start (current : ResourceRegistry T) (incoming : List T) : MergedSnapshot T where
  next := ∅
  events := []
  report := {}
  decided := []
  firstRejection := none
  published := incoming.length
  firstLoad := current.isNone

/-- The loop of `merge` over what is incoming. -/
def acceptAll (merged : MergedSnapshot T) (current : ResourceRegistry T) (incoming : List T) :
    MergedSnapshot T :=
  incoming.foldl (fun merged resource => merged.accept resource (held current (key resource)))
    merged

/-- `MergedSnapshot::merge`. -/
def merge (current : ResourceRegistry T) (incoming : List T) (order : IterationOrder Key T) :
    MergedSnapshot T :=
  let merged := (start current incoming).acceptAll current incoming
  match current with
  | some snapshot => merged.collectRemovals snapshot order
  | none => merged

/-- `MergedSnapshot::refusal`: a first load that published something and left nothing. -/
def refusal (merged : MergedSnapshot T) : Option UnusableFirstLoad :=
  if !merged.firstLoad || merged.published == 0 || !merged.next.entries.isEmpty then
    none
  else
    some ⟨merged.published,
      merged.firstRejection.getD s!"no {KIND T} survived the merge"⟩

end MergedSnapshot

/-! ## The three writes -/

/-- What a write leaves and announces. -/
structure Written (T : Type) {Key Facts : Type} [RegistryResource T Key Facts] where
  snapshot : ResourceSnapshot T
  events : List (ResourceChange Key)

/-- `ResourceRegistry::apply_all`: a refused sync writes nothing. -/
def applyAll (current : ResourceRegistry T) (incoming : List T) (order : IterationOrder Key T) :
    Except UnusableFirstLoad (Written T × ApplyReport) :=
  let merged := MergedSnapshot.merge current incoming order
  match merged.refusal with
  | some refusal => .error refusal
  | none => .ok (⟨.new merged.next, merged.events⟩, merged.report)

/-- `ResourceRegistry::apply_one`, `none` where it answers `false`. -/
def applyOne (current : ResourceRegistry T) (resource : T) : Option (Written T) :=
  match validate resource with
  | .error _ => none
  | .ok () =>
      let next := (current.map (·.entries)).getD ∅
      let written (event : ResourceChange Key) : Written T :=
        ⟨.new (next.insert (key resource) resource), [event]⟩
      match next.lookup (key resource) with
      | some held =>
          if revision resource ≤ revision held then none
          else some (written (.updated (key resource) (revision held) (revision resource)))
      | none => some (written (.added (key resource) (revision resource)))

/-- `ResourceRegistry::invalidate`, `none` where it answers `false`. -/
def invalidate (current : ResourceRegistry T) (key : Key) : Option (Written T) :=
  match current with
  | none => none
  | some snapshot =>
      match snapshot.get key with
      | none => none
      | some held =>
          some ⟨.new (snapshot.entries.erase key), [.removed key (revision held)]⟩

/-! ## The question asked before a generation is taken -/

/-- The loop of `refuses_whole`, over the keys seen so far. -/
def refusesFrom (current : ResourceRegistry T) (seen : List Key) : List T → Option String
  | [] => none
  | resource :: rest =>
      match validate resource with
      | .error error => some s!"{KIND T} {key resource}: {error}"
      | .ok () =>
          if key resource ∈ seen then
            some s!"{KIND T} {key resource} appears twice"
          else
            match held current (key resource) with
            | none => refusesFrom current (key resource :: seen) rest
            | some held =>
                if revision resource < revision held then
                  some (s!"{KIND T} {key resource} is offered at revision " ++
                    s!"{revision resource}, below revision {revision held} already applied")
                else if revision resource = revision held ∧ resource ≠ held then
                  some (s!"{KIND T} {key resource} changed without its revision " ++
                    s!"{revision resource} advancing")
                else
                  refusesFrom current (key resource :: seen) rest

/-- `ResourceRegistry::refuses_whole`. -/
def refusesWhole (current : ResourceRegistry T) (incoming : List T) : Option String :=
  refusesFrom current [] incoming

end Runtime
end SaasFabric
