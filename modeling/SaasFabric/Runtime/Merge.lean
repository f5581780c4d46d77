import Mathlib.Tactic.Common
import SaasFabric.Runtime.Registry

/-!
# What a write of the registry does

Each of the three writes keeps three things: every entry is valid and under its own
key; an entry a key keeps has not gone back, and has the same payload unless it moved
on; and what the write announces, replayed over the revisions held before, gives the
revisions held after.
-/

namespace SaasFabric
namespace Runtime

open RegistryResource (KIND key revision validate)

/-! ## Replaying announcements -/

section Replay

variable {K : Type} [DecidableEq K]

/-- What a subscriber makes of one change: an added or updated key is set to the new
revision, and a removed one is deleted. -/
def ResourceChange.applyTo (map : HashMap K BindingRevision) (change : ResourceChange K) :
    HashMap K BindingRevision :=
  match change.kind, change.currentRevision with
  | .removed, _ => map.erase change.key
  | .added, some revision => map.insert change.key revision
  | .updated, some revision => map.insert change.key revision
  | .added, none => map
  | .updated, none => map

/-- What a subscriber makes of a list of changes. -/
def replay (map : HashMap K BindingRevision) (events : List (ResourceChange K)) :
    HashMap K BindingRevision :=
  events.foldl ResourceChange.applyTo map

@[simp] theorem replay_nil (map : HashMap K BindingRevision) : replay map [] = map := rfl

@[simp] theorem replay_append (map : HashMap K BindingRevision)
    (first second : List (ResourceChange K)) :
    replay map (first ++ second) = replay (replay map first) second :=
  List.foldl_append

theorem replay_singleton (map : HashMap K BindingRevision) (change : ResourceChange K) :
    replay map [change] = change.applyTo map := rfl

theorem replay_cons (map : HashMap K BindingRevision) (change : ResourceChange K)
    (events : List (ResourceChange K)) :
    replay map (change :: events) = replay (change.applyTo map) events := rfl

/-- A change says nothing about another key. -/
theorem lookup_applyTo_ne {map : HashMap K BindingRevision} {change : ResourceChange K} {k : K}
    (hne : k ≠ change.key) : (change.applyTo map).lookup k = map.lookup k := by
  unfold ResourceChange.applyTo
  split
  · exact AList.lookup_erase_ne hne
  · exact AList.lookup_insert_ne hne
  · exact AList.lookup_insert_ne hne
  · rfl
  · rfl

@[simp] theorem lookup_added (map : HashMap K BindingRevision) (k : K)
    (revision : BindingRevision) :
    ((ResourceChange.added k revision).applyTo map).lookup k = some revision :=
  AList.lookup_insert _

@[simp] theorem lookup_updated (map : HashMap K BindingRevision) (k : K)
    (previous current : BindingRevision) :
    ((ResourceChange.updated k previous current).applyTo map).lookup k = some current :=
  AList.lookup_insert _

@[simp] theorem lookup_removed (map : HashMap K BindingRevision) (k : K)
    (previous : BindingRevision) :
    ((ResourceChange.removed k previous).applyTo map).lookup k = none :=
  AList.lookup_erase _ _

/-- Changes of other keys leave a key as it is. -/
theorem lookup_replay_of_forall_ne {map : HashMap K BindingRevision}
    {events : List (ResourceChange K)} {k : K} (hother : ∀ change ∈ events, k ≠ change.key) :
    (replay map events).lookup k = map.lookup k := by
  induction events generalizing map with
  | nil => rfl
  | cons change events ih =>
      rw [replay_cons, ih fun other h => hother other (List.mem_cons_of_mem _ h)]
      exact lookup_applyTo_ne (hother change List.mem_cons_self)

/-- A change removes a key. -/
def ResourceChange.Removes (change : ResourceChange K) (k : K) : Prop :=
  change.kind = .removed ∧ change.key = k

instance (change : ResourceChange K) (k : K) : Decidable (change.Removes k) :=
  inferInstanceAs (Decidable (_ ∧ _))

/-- A key that no change removes stays. -/
theorem isSome_lookup_replay {map : HashMap K BindingRevision}
    {events : List (ResourceChange K)} {k : K} (hmap : (map.lookup k).isSome)
    (hkept : ∀ change ∈ events, ¬ change.Removes k) : ((replay map events).lookup k).isSome := by
  induction events generalizing map with
  | nil => exact hmap
  | cons change events ih =>
      refine ih ?_ fun other hother => hkept other (List.mem_cons_of_mem _ hother)
      by_cases hk : k = change.key
      · subst hk
        have hnot : change.kind ≠ .removed := fun hremoved =>
          hkept change List.mem_cons_self ⟨hremoved, rfl⟩
        unfold ResourceChange.applyTo
        split
        · contradiction
        · rw [AList.lookup_insert]
          rfl
        · rw [AList.lookup_insert]
          rfl
        · exact hmap
        · exact hmap
      · rw [lookup_applyTo_ne hk]
        exact hmap

end Replay

variable {T Key Facts : Type} [RegistryResource T Key Facts]

/-! ## What every write keeps -/

/-- Everything held has validated, and is stored under its own key. -/
def Sound (registry : ResourceRegistry T) : Prop :=
  ∀ k resource, held registry k = some resource →
    key resource = k ∧ validate resource = .ok ()

/-- An entry is followed by another: its revision does not go back, and its payload
changes only where the revision moves on. -/
def Advances (before after : T) : Prop :=
  revision before ≤ revision after ∧ (before ≠ after → revision before < revision after)

theorem Advances.refl (resource : T) : Advances resource resource :=
  ⟨le_rfl, fun h => absurd rfl h⟩

theorem Advances.of_lt {before after : T} (h : revision before < revision after) :
    Advances before after :=
  ⟨h.le, fun _ => h⟩

theorem Advances.trans {first second third : T} (h : Advances first second)
    (h' : Advances second third) : Advances first third := by
  refine ⟨h.1.trans h'.1, fun hne => ?_⟩
  by_cases heq : first = second
  · subst heq
    exact h'.2 hne
  · exact lt_of_lt_of_le (h.2 heq) h'.1

/-- A map of revisions mirrors a registry: it has the keys the registry holds, each at
the revision it is held at. -/
def Mirrors (map : HashMap Key BindingRevision) (registry : ResourceRegistry T) : Prop :=
  ∀ k, map.lookup k = (held registry k).map revision

/-- What one write does, whatever it is. -/
structure Steps (before after : ResourceRegistry T) (events : List (ResourceChange Key)) :
    Prop where
  primed : before.isSome → after.isSome
  sound : Sound before → Sound after
  advances : Sound before → ∀ k old new, held before k = some old → held after k = some new →
    Advances old new
  mirrors : Sound before → ∀ map, Mirrors map before → Mirrors (replay map events) after

/-- A write that writes nothing. -/
theorem Steps.refl (registry : ResourceRegistry T) : Steps registry registry [] where
  primed := id
  sound := id
  advances _ k old new hold hnew := by
    rw [hold] at hnew
    cases hnew
    exact Advances.refl _
  mirrors _ _ h := h

/-! ## A full sync, entry by entry -/

/-- Where a full sync has got to: every key it decided has its announcement made, and
every other key stands as the registry holds it. -/
structure Merging (current : ResourceRegistry T) (merged : MergedSnapshot T) : Prop where
  stored : ∀ k resource, merged.next.lookup k = some resource →
    key resource = k ∧ validate resource = .ok () ∧
      ∀ old, held current k = some old → Advances old resource
  decided : ∀ k ∈ merged.decided, (merged.next.lookup k).isSome
  retained : ∀ k ∉ merged.decided, ∀ resource, merged.next.lookup k = some resource →
    held current k = some resource
  replays : ∀ map, Mirrors map current → ∀ k, (replay map merged.events).lookup k =
    if k ∈ merged.decided then (merged.next.lookup k).map revision else map.lookup k

variable {current : ResourceRegistry T} {merged : MergedSnapshot T}

theorem Merging.start (current : ResourceRegistry T) (incoming : List T) :
    Merging current (MergedSnapshot.start current incoming) where
  stored k resource h := by
    simp [MergedSnapshot.start] at h
  decided k h := by
    simp [MergedSnapshot.start] at h
  retained k _ resource h := by
    simp [MergedSnapshot.start] at h
  replays map _ k := by
    simp [MergedSnapshot.start]

/-- Deciding a key: what is stored under it is valid and follows what is held, and what
is announced leads from the revision held to the revision stored. -/
theorem Merging.decide (h : Merging current merged) {resource : T}
    (announced : List (ResourceChange Key)) (hnew : key resource ∉ merged.decided) (hvalid : validate resource = .ok ())
    (hadvances : ∀ old, held current (key resource) = some old → Advances old resource)
    (hother : ∀ change ∈ announced, change.key = key resource)
    (hreplay : ∀ map, map.lookup (key resource) = (held current (key resource)).map revision →
      (replay map announced).lookup (key resource) = some (revision resource))
    (report : ApplyReport) :
    Merging current { merged with
      decided := key resource :: merged.decided
      report := report
      events := merged.events ++ announced
      next := merged.next.insert (key resource) resource } where
  stored k found hfound := by
    by_cases hk : k = key resource
    · subst hk
      rw [AList.lookup_insert] at hfound
      cases hfound
      exact ⟨rfl, hvalid, hadvances⟩
    · rw [AList.lookup_insert_ne hk] at hfound
      exact h.stored k found hfound
  decided k hk := by
    rcases List.mem_cons.mp hk with rfl | hk
    · rw [AList.lookup_insert]
      rfl
    · by_cases heq : k = key resource
      · subst heq
        exact absurd hk hnew
      · rw [AList.lookup_insert_ne heq]
        exact h.decided k hk
  retained k hk found hfound := by
    simp only [List.mem_cons, not_or] at hk
    rw [AList.lookup_insert_ne hk.1] at hfound
    exact h.retained k hk.2 found hfound
  replays map hmap k := by
    rw [replay_append]
    have hbefore := h.replays map hmap k
    by_cases hk : k = key resource
    · subst hk
      rw [if_neg hnew] at hbefore
      rw [if_pos List.mem_cons_self, AList.lookup_insert]
      exact hreplay _ (hbefore.trans (hmap _))
    · rw [AList.lookup_insert_ne hk, lookup_replay_of_forall_ne fun change hchange => by
        rw [hother change hchange]
        exact hk, hbefore]
      simp only [List.mem_cons, hk, false_or]

/-- An entry that is the first valid one of its key is decided, whatever is held. -/
theorem Merging.againstHeld (hsound : Sound current) (h : Merging current merged)
    {incoming : T} (hnew : key incoming ∉ merged.decided) (hvalid : validate incoming = .ok ()) :
    Merging current
      ({ merged with decided := key incoming :: merged.decided }.againstHeld incoming
        (held current (key incoming))) := by
  cases hheld : held current (key incoming) with
  | none =>
      refine h.decide [.added (key incoming) (revision incoming)] hnew hvalid
        (fun old hold => ?_) (fun change hchange => ?_) (fun map _ => ?_) _
      · rw [hheld] at hold
        cases hold
      · rw [List.mem_singleton.mp hchange]
        rfl
      · rw [replay_singleton, lookup_added]
  | some old =>
      obtain ⟨hkey, hold⟩ := hsound _ _ hheld
      -- What a retained entry needs: it is the one held, and nothing is announced of it.
      have hretained : ∀ report, Merging current { merged with
          decided := key incoming :: merged.decided
          report := report
          next := merged.next.insert (key incoming) old } := by
        intro report
        rw [← hkey] at hnew hheld ⊢
        have hkept := h.decide [] hnew hold (fun other hother => by
            rw [hheld] at hother
            cases hother
            exact Advances.refl _) (by simp)
          (fun map hmap => by
            rw [replay_nil, hmap, hheld]
            rfl) report
        simpa only [List.append_nil] using hkept
      unfold MergedSnapshot.againstHeld
      dsimp only
      split
      · rename_i hlt
        refine h.decide [.updated (key incoming) (revision old) (revision incoming)] hnew
          hvalid (fun other hother => ?_) (fun change hchange => ?_) (fun map _ => ?_) _
        · rw [hheld] at hother
          cases hother
          exact Advances.of_lt hlt
        · rw [List.mem_singleton.mp hchange]
          rfl
        · rw [replay_singleton, lookup_updated]
      · split
        · exact hretained _
        · split
          · exact hretained _
          · exact hretained _

/-- An invalid entry leaves a decided key alone, and keeps what is held under any other. -/
theorem Merging.rejectInvalid (hsound : Sound current) (h : Merging current merged)
    (incoming : T) (error : ConfigurationError) :
    Merging current
      (merged.rejectInvalid incoming (held current (key incoming)) error) := by
  cases hheld : held current (key incoming) with
  | none => exact ⟨h.stored, h.decided, h.retained, h.replays⟩
  | some old =>
      by_cases hdecided : key incoming ∈ merged.decided
      · unfold MergedSnapshot.rejectInvalid
        simp only [if_pos hdecided]
        exact ⟨h.stored, h.decided, h.retained, h.replays⟩
      · unfold MergedSnapshot.rejectInvalid
        simp only [if_neg hdecided]
        obtain ⟨hkey, hold⟩ := hsound _ _ hheld
        have hne : ∀ k ∈ merged.decided, k ≠ key incoming := fun k hk heq =>
          hdecided (heq ▸ hk)
        refine ⟨fun k found hfound => ?_, fun k hk => ?_, fun k hk found hfound => ?_,
          fun map hmap k => ?_⟩
        · by_cases hk : k = key incoming
          · subst hk
            rw [AList.lookup_insert] at hfound
            cases hfound
            refine ⟨hkey, hold, fun other hother => ?_⟩
            rw [hheld] at hother
            cases hother
            exact Advances.refl _
          · rw [AList.lookup_insert_ne hk] at hfound
            exact h.stored k found hfound
        · rw [AList.lookup_insert_ne (hne k hk)]
          exact h.decided k hk
        · by_cases heq : k = key incoming
          · subst heq
            rw [AList.lookup_insert] at hfound
            cases hfound
            exact hheld
          · rw [AList.lookup_insert_ne heq] at hfound
            exact h.retained k hk found hfound
        · rw [h.replays map hmap k]
          by_cases hk : k ∈ merged.decided
          · rw [if_pos hk, if_pos hk, AList.lookup_insert_ne (hne k hk)]
          · rw [if_neg hk, if_neg hk]

theorem Merging.accept (hsound : Sound current) (h : Merging current merged) (incoming : T) :
    Merging current (merged.accept incoming (held current (key incoming))) := by
  unfold MergedSnapshot.accept
  split
  · exact h.rejectInvalid hsound incoming _
  · rename_i hvalid
    by_cases hdecided : key incoming ∈ merged.decided
    · rw [if_pos hdecided]
      exact ⟨h.stored, h.decided, h.retained, h.replays⟩
    · rw [if_neg hdecided]
      exact h.againstHeld hsound hdecided hvalid

theorem Merging.acceptAll (hsound : Sound current) (h : Merging current merged)
    (incoming : List T) : Merging current (merged.acceptAll current incoming) := by
  induction incoming generalizing merged with
  | nil => exact h
  | cons resource incoming ih => exact ih (h.accept hsound resource)

/-! ## Removals -/

/-- Collecting removals announces; it stores nothing. -/
theorem next_foldl_collectRemoval (merged : MergedSnapshot T)
    (entries : List (Sigma fun _ : Key => T)) :
    (entries.foldl MergedSnapshot.collectRemoval merged).next = merged.next := by
  induction entries generalizing merged with
  | nil => rfl
  | cons entry entries ih =>
      refine (ih _).trans ?_
      unfold MergedSnapshot.collectRemoval
      split <;> rfl

/-- The keys listed that nothing is stored under are the ones announced as removed. -/
theorem lookup_replay_foldl_collectRemoval (merged : MergedSnapshot T)
    (entries : List (Sigma fun _ : Key => T)) (map : HashMap Key BindingRevision) (k : Key) :
    (replay map (entries.foldl MergedSnapshot.collectRemoval merged).events).lookup k =
      if merged.next.lookup k = none ∧ k ∈ entries.map Sigma.fst then none
      else (replay map merged.events).lookup k := by
  induction entries generalizing merged with
  | nil => simp
  | cons entry entries ih =>
      rw [List.foldl_cons, ih]
      by_cases hstored : (merged.next.lookup entry.1).isSome
      · have hround : merged.collectRemoval entry = merged := if_pos hstored
        have hiff : (merged.next.lookup k = none ∧ k ∈ (entry :: entries).map Sigma.fst) ↔
            (merged.next.lookup k = none ∧ k ∈ entries.map Sigma.fst) := by
          simp only [List.map_cons, List.mem_cons]
          refine and_congr_right fun hnone => or_iff_right fun heq => ?_
          rw [← heq, hnone] at hstored
          cases hstored
        rw [hround]
        simp only [hiff]
      · have hround : merged.collectRemoval entry = { merged with
            report := { merged.report with removed := merged.report.removed + 1 }
            events := merged.events ++ [.removed entry.1 (revision entry.2)] } :=
          if_neg hstored
        rw [hround]
        simp only [replay_append, replay_singleton, List.map_cons, List.mem_cons]
        by_cases hk : k = entry.1
        · subst hk
          have hnone : merged.next.lookup entry.1 = none := by simpa using hstored
          simp [hnone]
        · rw [lookup_applyTo_ne hk]
          simp only [hk, false_or]

/-! ## The three writes -/

/-- What `apply_all` leaves is what the merge stored. -/
theorem applyAll_eq_ok {incoming : List T} {order : IterationOrder Key T}
    {written : Written T} {report : ApplyReport}
    (h : applyAll current incoming order = .ok (written, report)) :
    written = ⟨.new (MergedSnapshot.merge current incoming order).next,
        (MergedSnapshot.merge current incoming order).events⟩ ∧
      report = (MergedSnapshot.merge current incoming order).report := by
  unfold applyAll at h
  dsimp only at h
  split at h
  · cases h
  · cases h
    exact ⟨rfl, rfl⟩

/-- The merge stores what accepting the incoming list stored. -/
theorem next_merge (current : ResourceRegistry T) (incoming : List T)
    (order : IterationOrder Key T) :
    (MergedSnapshot.merge current incoming order).next =
      ((MergedSnapshot.start current incoming).acceptAll current incoming).next := by
  unfold MergedSnapshot.merge
  cases current with
  | none => rfl
  | some snapshot => exact next_foldl_collectRemoval _ _

/-- The merge announces a removal for each key that is held and not stored any more. -/
theorem mirrors_merge (hsound : Sound current) (incoming : List T)
    (order : IterationOrder Key T) {map : HashMap Key BindingRevision}
    (hmap : Mirrors map current) (k : Key) :
    (replay map (MergedSnapshot.merge current incoming order).events).lookup k =
      ((MergedSnapshot.merge current incoming order).next.lookup k).map revision := by
  have hmerging := (Merging.start current incoming).acceptAll hsound incoming
  have hreplays := hmerging.replays map hmap k
  rw [next_merge]
  generalize hmerged : (MergedSnapshot.start current incoming).acceptAll current incoming =
    merged at hmerging hreplays ⊢
  -- A key that is stored: its announcement is made, or it is retained and needs none.
  have hstored : ∀ resource, merged.next.lookup k = some resource →
      (replay map merged.events).lookup k = some (revision resource) := by
    intro resource hresource
    rw [hreplays]
    by_cases hk : k ∈ merged.decided
    · rw [if_pos hk, hresource]
      rfl
    · rw [if_neg hk, hmap k, hmerging.retained k hk resource hresource]
      rfl
  -- A key that is not stored was not decided either.
  have hmissing : merged.next.lookup k = none →
      (replay map merged.events).lookup k = (held current k).map revision := by
    intro hnone
    have hk : k ∉ merged.decided := fun hk => by
      have hsome := hmerging.decided k hk
      rw [hnone] at hsome
      cases hsome
    rw [hreplays, if_neg hk, hmap k]
  unfold MergedSnapshot.merge
  rw [hmerged]
  cases hcurrent : current with
  | none =>
      dsimp only
      cases hnext : merged.next.lookup k with
      | none =>
          rw [hmissing hnext, hcurrent]
          rfl
      | some resource => exact hstored resource hnext
  | some snapshot =>
      dsimp only [MergedSnapshot.collectRemovals]
      rw [lookup_replay_foldl_collectRemoval]
      cases hnext : merged.next.lookup k with
      | some resource =>
          rw [if_neg fun hk => nomatch hk.1]
          exact hstored resource hnext
      | none =>
          split
          · rfl
          · rename_i hlisted
            rw [hmissing hnext, hcurrent]
            have hnot : k ∉ snapshot.entries.keys := fun hk =>
              hlisted ⟨rfl, ((order.perm _).map _).mem_iff.mpr hk⟩
            have hget : held (some snapshot) k = none := AList.lookup_eq_none.mpr hnot
            rw [hget]

theorem steps_applyAll {incoming : List T} {order : IterationOrder Key T}
    {written : Written T} {report : ApplyReport}
    (h : applyAll current incoming order = .ok (written, report)) :
    Steps current (some written.snapshot) written.events := by
  obtain ⟨rfl, -⟩ := applyAll_eq_ok h
  have hstored : Sound current → ∀ k resource,
      held (some (ResourceSnapshot.new (MergedSnapshot.merge current incoming order).next)) k =
          some resource →
        key resource = k ∧ validate resource = .ok () ∧
          ∀ old, held current k = some old → Advances old resource := by
    intro hsound k resource hresource
    have hnext : (MergedSnapshot.merge current incoming order).next.lookup k = some resource :=
      hresource
    rw [next_merge] at hnext
    exact ((Merging.start current incoming).acceptAll hsound incoming).stored k resource hnext
  exact {
    primed := fun _ => rfl
    sound := fun hsound k resource hresource =>
      ⟨(hstored hsound k resource hresource).1, (hstored hsound k resource hresource).2.1⟩
    advances := fun hsound k old new hold hnew => (hstored hsound k new hnew).2.2 old hold
    mirrors := fun hsound map hmap k => mirrors_merge hsound incoming order hmap k }

/-- What an update of one resource announces: it is new, or it is newer than what is
held. -/
theorem applyOne_eq_some {resource : T} {written : Written T}
    (h : applyOne current resource = some written) :
    validate resource = .ok () ∧
      written.snapshot =
        .new (((current.map ResourceSnapshot.entries).getD ∅).insert (key resource) resource) ∧
      (∀ old, held current (key resource) = some old → revision old < revision resource) ∧
      ∃ change : ResourceChange Key, written.events = [change] ∧
        (change = .added (key resource) (revision resource) ∨
          ∃ previous, change = .updated (key resource) previous (revision resource)) := by
  have hlookup : ((current.map ResourceSnapshot.entries).getD ∅).lookup (key resource) =
      held current (key resource) := by
    cases current with
    | none => rfl
    | some snapshot => rfl
  unfold applyOne at h
  dsimp only at h
  rw [hlookup] at h
  split at h
  · cases h
  · rename_i hvalid
    split at h
    · rename_i old hold
      split at h
      · cases h
      · rename_i hlt
        cases h
        refine ⟨hvalid, rfl, fun other hother => ?_, _, rfl, Or.inr ⟨_, rfl⟩⟩
        rw [hold] at hother
        cases hother
        exact not_le.mp hlt
    · rename_i hnone
      cases h
      refine ⟨hvalid, rfl, fun other hother => ?_, _, rfl, Or.inl rfl⟩
      rw [hnone] at hother
      cases hother

theorem steps_applyOne {resource : T} {written : Written T}
    (h : applyOne current resource = some written) :
    Steps current (some written.snapshot) written.events := by
  obtain ⟨hvalid, hsnapshot, hnewer, change, hevents, hchange⟩ := applyOne_eq_some h
  have hself : held (some written.snapshot) (key resource) = some resource := by
    rw [hsnapshot]
    exact AList.lookup_insert _
  have hother : ∀ k, k ≠ key resource → held (some written.snapshot) k = held current k := by
    intro k hk
    rw [hsnapshot]
    refine (AList.lookup_insert_ne hk).trans ?_
    cases current with
    | none => rfl
    | some snapshot => rfl
  have hannounced : change.key = key resource ∧ ∀ map : HashMap Key BindingRevision,
      (change.applyTo map).lookup (key resource) = some (revision resource) := by
    rcases hchange with rfl | ⟨previous, rfl⟩
    · exact ⟨rfl, fun map => lookup_added map _ _⟩
    · exact ⟨rfl, fun map => lookup_updated map _ _ _⟩
  refine ⟨fun _ => rfl, fun hsound k found hfound => ?_, fun _ k old new hold hnew => ?_,
    fun _ map hmap k => ?_⟩
  · by_cases hk : k = key resource
    · subst hk
      rw [hself] at hfound
      cases hfound
      exact ⟨rfl, hvalid⟩
    · rw [hother k hk] at hfound
      exact hsound k found hfound
  · by_cases hk : k = key resource
    · subst hk
      rw [hself] at hnew
      cases hnew
      exact Advances.of_lt (hnewer old hold)
    · rw [hother k hk, hold] at hnew
      cases hnew
      exact Advances.refl _
  · rw [hevents, replay_singleton]
    by_cases hk : k = key resource
    · subst hk
      rw [hself, hannounced.2]
      rfl
    · rw [lookup_applyTo_ne fun heq => hk (heq.trans hannounced.1), hother k hk]
      exact hmap k

theorem steps_invalidate {k : Key} {written : Written T}
    (h : invalidate current k = some written) :
    Steps current (some written.snapshot) written.events := by
  unfold invalidate at h
  split at h
  · cases h
  · rename_i snapshot
    split at h
    · cases h
    · cases h
      have hself : held (some (ResourceSnapshot.new (T := T) (snapshot.entries.erase k))) k =
          none :=
        AList.lookup_erase _ _
      have hother : ∀ other, other ≠ k →
          held (some (ResourceSnapshot.new (T := T) (snapshot.entries.erase k))) other =
            held (some snapshot) other :=
        fun other hne => AList.lookup_erase_ne hne
      refine ⟨fun _ => rfl, fun hsound other found hfound => ?_,
        fun _ other old new hold hnew => ?_, fun _ map hmap other => ?_⟩
      · by_cases hk : other = k
        · subst hk
          rw [hself] at hfound
          cases hfound
        · rw [hother other hk] at hfound
          exact hsound other found hfound
      · by_cases hk : other = k
        · subst hk
          rw [hself] at hnew
          cases hnew
        · rw [hother other hk, hold] at hnew
          cases hnew
          exact Advances.refl _
      · rw [replay_singleton]
        by_cases hk : other = k
        · subst hk
          rw [lookup_removed, hself]
          rfl
        · rw [lookup_applyTo_ne hk, hother other hk]
          exact hmap other

end Runtime
end SaasFabric
