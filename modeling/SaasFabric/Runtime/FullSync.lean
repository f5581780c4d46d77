import SaasFabric.Runtime.TakesWhole

/-!
# What a full sync comes to

A full sync is told by what was held and what is offered: for each key the first valid entry
decides, against what is held; an entry that is not valid keeps what is held; and what nothing was
offered for is removed.  Every entry offered is counted once, and a key is announced once where its
revision is not what it was.
-/

namespace SaasFabric
namespace Runtime

open RegistryResource (KIND key revision validate)

variable {T Key Facts : Type} [RegistryResource T Key Facts] {current : ResourceRegistry T}
  {offered : List T} {merged : MergedSnapshot T} {resource : T} {k : Key}

/-! ## What each key comes to -/

/-- A valid entry that is offered for a key. -/
def decides (k : Key) (resource : T) : Bool := key resource = k && (validate resource).isOk

/-- The entry that decides a key: the first valid one that is offered for it. -/
def firstValid (offered : List T) (k : Key) : Option T := offered.find? (decides k)

/-- Of an entry and what is held, what is stored: what is newer, and else what is held. -/
def newer (held : Option T) (resource : T) : T :=
  match held with
  | none => resource
  | some held => if revision held < revision resource then resource else held

/-- What a key comes to. -/
def settled (current : ResourceRegistry T) (offered : List T) (k : Key) : Option T :=
  match firstValid offered k with
  | some resource => some (newer (held current k) resource)
  | none => if offered.any (fun resource => key resource = k) then held current k else none

/-- What is announced of a key: nothing where its revision is what it was. -/
def announcement (k : Key) (before after : Option BindingRevision) :
    List (ResourceChange Key) :=
  match before, after with
  | none, none => []
  | none, some after => [.added k after]
  | some before, none => [.removed k before]
  | some before, some after => if before = after then [] else [.updated k before after]

theorem firstValid_concat (offered : List T) (resource : T) (k : Key) :
    firstValid (offered ++ [resource]) k =
      (firstValid offered k).or (if decides k resource then some resource else none) := by
  unfold firstValid
  rw [List.find?_append]
  congr 1
  cases h : decides k resource <;> simp [h]

/-- A key is decided once. -/
theorem settled_of_isSome (h : (firstValid offered k).isSome) :
    settled current (offered ++ [resource]) k = settled current offered k := by
  obtain ⟨first, hfirst⟩ := Option.isSome_iff_exists.mp h
  unfold settled
  rw [firstValid_concat, hfirst, Option.some_or]

/-- An entry says nothing of another key. -/
theorem settled_of_ne (h : key resource ≠ k) :
    settled current (offered ++ [resource]) k = settled current offered k := by
  have hnot : decides k resource = false := by simp [decides, h]
  unfold settled
  rw [firstValid_concat, if_neg (by rw [hnot]; exact Bool.false_ne_true), Option.or_none]
  simp [h]

/-- The first valid entry of a key is set against what is held. -/
theorem settled_of_decides (hnone : firstValid offered k = none) (h : decides k resource = true) :
    settled current (offered ++ [resource]) k = some (newer (held current k) resource) := by
  unfold settled
  rw [firstValid_concat, hnone, if_pos h, Option.none_or]

/-- An entry that is not valid keeps what is held under its key. -/
theorem settled_of_invalid (hnone : firstValid offered (key resource) = none)
    (h : (validate resource).isOk = false) :
    settled current (offered ++ [resource]) (key resource) = held current (key resource) := by
  have hnot : decides (key resource) resource = false := by simp [decides, h]
  unfold settled
  rw [firstValid_concat, hnone, if_neg (by rw [hnot]; exact Bool.false_ne_true), Option.or_none]
  simp

/-! ## The loop -/

/-- The entries a report accounts for. -/
def ApplyReport.counted (report : ApplyReport) : Nat :=
  report.added + report.updated + report.staleIgnored + report.unchanged +
    report.divergentPayload + report.invalidRejected + report.duplicateRejected

/-- A full sync that has looked at the entries offered so far. -/
structure SyncedUpTo (current : ResourceRegistry T) (offered : List T)
    (merged : MergedSnapshot T) : Prop where
  stored : ∀ k, merged.next.lookup k = settled current offered k
  decided : ∀ k, k ∈ merged.decided ↔ (firstValid offered k).isSome
  announced : ∀ k, (merged.events.filter fun change => change.key = k) =
    if (firstValid offered k).isSome then
      announcement k ((held current k).map revision) ((settled current offered k).map revision)
    else []
  counted : merged.report.counted = offered.length
  removed : merged.report.removed = 0

theorem SyncedUpTo.start (current : ResourceRegistry T) (offered : List T) :
    SyncedUpTo current [] (MergedSnapshot.start current offered) where
  stored k := by simp [MergedSnapshot.start, settled, firstValid]
  decided k := by simp [MergedSnapshot.start, firstValid]
  announced k := by simp [MergedSnapshot.start, firstValid]
  counted := rfl
  removed := rfl

/-- What an entry set against what is held does: it stores one of the two, announces a revision
that changed, and is counted. -/
theorem againstHeld_spec (merged : MergedSnapshot T) (resource : T) (held : Option T) :
    let after := merged.againstHeld resource held
    after.next = merged.next.insert (key resource) (newer held resource) ∧
      after.events = merged.events ++ announcement (key resource) (held.map revision)
        (some (revision (newer held resource))) ∧
      after.decided = merged.decided ∧ after.report.counted = merged.report.counted + 1 ∧
        after.report.removed = merged.report.removed := by
  unfold MergedSnapshot.againstHeld newer
  cases held with
  | none => exact ⟨rfl, rfl, rfl, by simp only [ApplyReport.counted]; omega, rfl⟩
  | some old =>
      dsimp only [Option.map_some]
      by_cases hlt : revision old < revision resource
      · simp only [if_pos hlt, announcement, if_neg hlt.ne]
        exact ⟨trivial, trivial, trivial, by simp only [ApplyReport.counted]; omega, trivial⟩
      · simp only [if_neg hlt, announcement, if_true]
        split
        · exact ⟨rfl, (List.append_nil _).symm, rfl, by simp only [ApplyReport.counted]; omega, rfl⟩
        · split
          · exact ⟨rfl, (List.append_nil _).symm, rfl, by simp only [ApplyReport.counted]; omega,
              rfl⟩
          · exact ⟨rfl, (List.append_nil _).symm, rfl, by simp only [ApplyReport.counted]; omega,
              rfl⟩

/-- Everything announced of a key is about it. -/
theorem filter_announcement (k other : Key) (before after : Option BindingRevision) :
    ((announcement k before after).filter fun change => change.key = other) =
      if k = other then announcement k before after else [] := by
  have hkey : ∀ change ∈ announcement k before after, change.key = k := by
    intro change hchange
    unfold announcement at hchange
    split at hchange
    · cases hchange
    · rw [List.mem_singleton.mp hchange]
      rfl
    · rw [List.mem_singleton.mp hchange]
      rfl
    · split at hchange
      · cases hchange
      · rw [List.mem_singleton.mp hchange]
        rfl
  by_cases h : k = other
  · rw [if_pos h, List.filter_eq_self]
    exact fun change hchange => decide_eq_true ((hkey change hchange).trans h)
  · rw [if_neg h, List.filter_eq_nil_iff]
    intro change hchange
    rw [hkey change hchange, decide_eq_true_eq]
    exact h

/-- An entry that is valid and the first of its key. -/
theorem SyncedUpTo.againstHeld (h : SyncedUpTo current offered merged)
    (hnone : firstValid offered (key resource) = none)
    (hdecides : decides (key resource) resource = true) :
    SyncedUpTo current (offered ++ [resource])
      ({ merged with decided := key resource :: merged.decided }.againstHeld resource
        (held current (key resource))) := by
  obtain ⟨hnext, hevents, hdecided, hcounted, hremoved⟩ := againstHeld_spec
    { merged with decided := key resource :: merged.decided } resource (held current (key resource))
  have hother : ∀ k, key resource ≠ k →
      firstValid (offered ++ [resource]) k = firstValid offered k := by
    intro k hk
    rw [firstValid_concat, if_neg (by simp [decides, hk]), Option.or_none]
  have hfirst : firstValid (offered ++ [resource]) (key resource) = some resource := by
    rw [firstValid_concat, hnone, if_pos hdecides, Option.none_or]
  refine ⟨fun k => ?_, fun k => ?_, fun k => ?_, ?_, hremoved.trans h.removed⟩
  · rw [hnext]
    by_cases hk : key resource = k
    · subst hk
      rw [AList.lookup_insert, settled_of_decides hnone hdecides]
    · rw [AList.lookup_insert_ne (Ne.symm hk), settled_of_ne hk]
      exact h.stored k
  · rw [hdecided, List.mem_cons]
    by_cases hk : key resource = k
    · subst hk
      simp [hfirst]
    · rw [hother k hk, ← h.decided k]
      exact or_iff_right (Ne.symm hk)
  · rw [hevents, List.filter_append, filter_announcement, h.announced k]
    by_cases hk : key resource = k
    · -- The key was not decided, so nothing was announced of it.
      subst hk
      rw [hnone, hfirst, settled_of_decides hnone hdecides]
      simp
    · rw [hother k hk, settled_of_ne hk, if_neg hk, List.append_nil]
  · rw [hcounted, List.length_append]
    exact congrArg (· + 1) h.counted

/-- An entry that is not valid. -/
theorem SyncedUpTo.rejectInvalid (h : SyncedUpTo current offered merged)
    {error : ConfigurationError} (hinvalid : validate resource = .error error) :
    SyncedUpTo current (offered ++ [resource])
      (merged.rejectInvalid resource (held current (key resource)) error) := by
  have hnot : ∀ k, decides k resource = false := by
    intro k
    unfold decides
    rw [hinvalid]
    exact Bool.and_false _
  -- An entry that is not valid decides nothing.
  have hfirst : ∀ k, firstValid (offered ++ [resource]) k = firstValid offered k := by
    intro k
    rw [firstValid_concat, if_neg (by rw [hnot]; exact Bool.false_ne_true), Option.or_none]
  have hstored : ∀ k, (merged.rejectInvalid resource (held current (key resource)) error).next.lookup k =
      settled current (offered ++ [resource]) k := by
    intro k
    unfold MergedSnapshot.rejectInvalid
    dsimp only
    -- Only its own key can change: what is held there is kept, unless a valid entry was met before.
    by_cases hk : key resource = k
    · subst hk
      cases hdecided : firstValid offered (key resource) with
      | some first =>
          have hmem : key resource ∈ merged.decided :=
            (h.decided _).mpr (by rw [hdecided]; rfl)
          rw [settled_of_isSome (by rw [hdecided]; rfl), ← h.stored]
          cases held current (key resource) with
          | none => rfl
          | some old => simp only [if_pos hmem]
      | none =>
          have hmem : key resource ∉ merged.decided := fun hmem => by
            have hsome := (h.decided _).mp hmem
            rw [hdecided] at hsome
            cases hsome
          rw [settled_of_invalid hdecided (by rw [hinvalid]; rfl)]
          cases hheld : held current (key resource) with
          | none =>
              rw [h.stored]
              unfold settled
              rw [hdecided, hheld]
              simp
          | some old => simp only [if_neg hmem, AList.lookup_insert]
    · rw [settled_of_ne hk, ← h.stored k]
      cases held current (key resource) with
      | none => rfl
      | some old =>
          dsimp only
          split
          · rfl
          · exact AList.lookup_insert_ne (Ne.symm hk)
  refine ⟨hstored, fun k => ?_, fun k => ?_, ?_, h.removed⟩
  · rw [hfirst k]
    exact h.decided k
  · rw [hfirst k]
    refine (h.announced k).trans ?_
    by_cases hdecided : (firstValid offered k).isSome
    · rw [if_pos hdecided, if_pos hdecided, settled_of_isSome hdecided]
    · rw [if_neg hdecided, if_neg hdecided]
  · have hcounted := h.counted
    rw [List.length_append]
    simp only [ApplyReport.counted, MergedSnapshot.rejectInvalid, List.length_cons,
      List.length_nil] at hcounted ⊢
    omega

/-- An entry for a key that is decided already. -/
theorem SyncedUpTo.duplicate (h : SyncedUpTo current offered merged)
    (hdecided : (firstValid offered (key resource)).isSome) :
    SyncedUpTo current (offered ++ [resource]) { merged with
      report := { merged.report with
        duplicateRejected := merged.report.duplicateRejected + 1 } } := by
  have hfirst : ∀ k, (firstValid (offered ++ [resource]) k).isSome =
      (firstValid offered k).isSome := by
    intro k
    rw [firstValid_concat]
    by_cases hk : key resource = k
    · subst hk
      rw [Option.isSome_or, hdecided, Bool.true_or]
    · rw [if_neg (by simp [decides, hk]), Option.or_none]
  have hsettled : ∀ k, settled current (offered ++ [resource]) k = settled current offered k := by
    intro k
    by_cases hk : key resource = k
    · exact settled_of_isSome (hk ▸ hdecided)
    · exact settled_of_ne hk
  refine ⟨fun k => ?_, fun k => ?_, fun k => ?_, ?_, h.removed⟩
  · rw [hsettled k]
    exact h.stored k
  · rw [hfirst k]
    exact h.decided k
  · rw [hfirst k, hsettled k]
    exact h.announced k
  · have hcounted := h.counted
    rw [List.length_append]
    simp only [ApplyReport.counted, List.length_cons, List.length_nil] at hcounted ⊢
    omega

theorem SyncedUpTo.accept (h : SyncedUpTo current offered merged) (resource : T) :
    SyncedUpTo current (offered ++ [resource])
      (merged.accept resource (held current (key resource))) := by
  unfold MergedSnapshot.accept
  split
  · exact h.rejectInvalid ‹_›
  · rename_i hvalid
    by_cases hdecided : key resource ∈ merged.decided
    · rw [if_pos hdecided]
      exact h.duplicate ((h.decided _).mp hdecided)
    · rw [if_neg hdecided]
      refine h.againstHeld (Option.not_isSome_iff_eq_none.mp fun hsome => hdecided ?_) ?_
      · exact (h.decided _).mpr hsome
      · simp [decides, hvalid, Except.isOk, Except.toBool]

theorem syncedUpTo_acceptAll (current : ResourceRegistry T) (offered : List T) :
    SyncedUpTo current offered
      ((MergedSnapshot.start current offered).acceptAll current offered) := by
  -- What a sync starts from mentions the whole list only in how many were published.
  have hstarts : ∀ seen : List T, SyncedUpTo current seen
      ((MergedSnapshot.start current offered).acceptAll current seen) := by
    intro seen
    induction seen using List.reverseRecOn with
    | nil =>
        have hstart := SyncedUpTo.start current offered
        exact ⟨hstart.stored, hstart.decided, hstart.announced, hstart.counted, hstart.removed⟩
    | append_singleton seen resource ih =>
        unfold MergedSnapshot.acceptAll at ih ⊢
        rw [List.foldl_concat]
        exact ih.accept resource
  exact hstarts offered

/-! ## Removals -/

/-- The entries that nothing is stored for any more. -/
def dropped (next : HashMap Key T) (entries : List (Sigma fun _ : Key => T)) :
    List (Sigma fun _ : Key => T) :=
  entries.filter fun entry => (next.lookup entry.1).isNone

/-- What is announced of an entry that is not stored any more. -/
def removal (entry : Sigma fun _ : Key => T) : ResourceChange Key :=
  .removed entry.1 (revision entry.2)

/-- Collecting removals announces and counts each key that nothing is stored for any more. -/
theorem foldl_collectRemoval (merged : MergedSnapshot T)
    (entries : List (Sigma fun _ : Key => T)) :
    let after := entries.foldl MergedSnapshot.collectRemoval merged
    after.events = merged.events ++
        (dropped merged.next entries).map removal ∧
      after.report.removed = merged.report.removed + (dropped merged.next entries).length ∧
        after.report.counted = merged.report.counted := by
  induction entries generalizing merged with
  | nil => exact ⟨(List.append_nil _).symm, rfl, rfl⟩
  | cons entry entries ih =>
      rw [List.foldl_cons]
      cases hstored : merged.next.lookup entry.1 with
      | some resource =>
          have hround : merged.collectRemoval entry = merged :=
            if_pos (by rw [hstored]; rfl)
          have hdropped : dropped merged.next (entry :: entries) = dropped merged.next entries :=
            List.filter_cons_of_neg (by rw [hstored]; exact Bool.false_ne_true)
          rw [hround, hdropped]
          exact ih merged
      | none =>
          have hround : merged.collectRemoval entry = { merged with
              report := { merged.report with removed := merged.report.removed + 1 }
              events := merged.events ++ [.removed entry.1 (revision entry.2)] } :=
            if_neg (by rw [hstored]; exact Bool.false_ne_true)
          have hdropped : dropped merged.next (entry :: entries) =
              entry :: dropped merged.next entries :=
            List.filter_cons_of_pos (by rw [hstored]; rfl)
          obtain ⟨hevents, hremoved, hcounted⟩ := ih (merged.collectRemoval entry)
          rw [hround] at hevents hremoved hcounted ⊢
          refine ⟨?_, ?_, hcounted⟩
          · rw [hevents, hdropped, List.map_cons, List.append_assoc]
            rfl
          · rw [hremoved, hdropped, List.length_cons]
            show merged.report.removed + 1 + (dropped merged.next entries).length = _
            omega

/-- Of a map's entries, in whatever order they are listed, one has a key that is there. -/
theorem filter_listed (order : IterationOrder Key T) (entries : HashMap Key T) (k : Key) :
    ((order.listed entries.entries).filter fun entry => entry.1 = k) =
      ((entries.lookup k).map fun resource => (⟨k, resource⟩ : Sigma fun _ : Key => T)).toList := by
  have hkeys : ∀ list : List (Sigma fun _ : Key => T), list.NodupKeys →
      (list.filter fun entry => entry.1 = k) =
        ((list.dlookup k).map fun resource => (⟨k, resource⟩ : Sigma fun _ : Key => T)).toList := by
    intro list hnodup
    induction list with
    | nil => rfl
    | cons entry rest ih =>
        obtain ⟨hnew, hrest⟩ := List.nodupKeys_cons.mp hnodup
        obtain ⟨first, resource⟩ := entry
        by_cases h : first = k
        · subst h
          have hnone : rest.filter (fun entry => entry.1 = first) = [] := by
            rw [List.filter_eq_nil_iff]
            intro entry hentry heq
            exact hnew (List.mem_keys.mpr ⟨entry.2, by rw [← of_decide_eq_true heq]; exact hentry⟩)
          rw [List.filter_cons_of_pos (by simp), hnone, List.dlookup_cons_eq]
          rfl
        · rw [List.filter_cons_of_neg (by simpa using h), List.dlookup_cons_ne _ _ (Ne.symm h)]
          exact ih hrest
  have hperm := (order.perm entries.entries).filter fun entry => decide (entry.1 = k)
  rw [hkeys entries.entries entries.nodupKeys] at hperm
  show List.filter _ _ = Option.toList ((entries.entries.dlookup k).map _)
  cases h : entries.entries.dlookup k with
  | none =>
      rw [h] at hperm
      exact hperm.eq_nil
  | some resource =>
      rw [h] at hperm
      exact List.perm_singleton.mp hperm

/-! ## A full sync -/

/-- The held keys that a map does not have. -/
def removedKeys (current : ResourceRegistry T) (next : HashMap Key T) : List Key :=
  ((current.map fun snapshot => snapshot.entries.keys).getD []).filter fun k =>
    (next.lookup k).isNone

theorem next_merge_lookup (current : ResourceRegistry T) (offered : List T)
    (order : IterationOrder Key T) (k : Key) :
    (MergedSnapshot.merge current offered order).next.lookup k = settled current offered k := by
  rw [next_merge]
  exact (syncedUpTo_acceptAll current offered).stored k

/-- What is announced of a key. -/
theorem events_merge (current : ResourceRegistry T) (offered : List T)
    (order : IterationOrder Key T) (k : Key) :
    ((MergedSnapshot.merge current offered order).events.filter fun change => change.key = k) =
      announcement k ((held current k).map revision)
        ((settled current offered k).map revision) := by
  have hsynced := syncedUpTo_acceptAll current offered
  have hannounced := hsynced.announced k
  -- A key that was not decided and is stored is held as it was.
  have hretained : ∀ resource, firstValid offered k = none →
      settled current offered k = some resource → held current k = some resource := by
    intro resource hnone hsettled
    unfold settled at hsettled
    rw [hnone] at hsettled
    dsimp only at hsettled
    split at hsettled
    · exact hsettled
    · cases hsettled
  have hkept : (settled current offered k).isSome → (if (firstValid offered k).isSome then
      announcement k ((held current k).map revision) ((settled current offered k).map revision)
      else []) = announcement k ((held current k).map revision)
        ((settled current offered k).map revision) := by
    intro hsome
    obtain ⟨resource, hresource⟩ := Option.isSome_iff_exists.mp hsome
    cases hfirst : firstValid offered k with
    | some first => exact if_pos rfl
    | none =>
        rw [if_neg (by simp), hresource, hretained resource hfirst hresource]
        simp [announcement]
  have hundecided : settled current offered k = none → firstValid offered k = none := by
    intro hnone
    cases hfirst : firstValid offered k with
    | none => rfl
    | some first =>
        unfold settled at hnone
        rw [hfirst] at hnone
        cases hnone
  unfold MergedSnapshot.merge
  cases hcurrent : current with
  | none =>
      rw [hcurrent] at hannounced hkept hundecided
      dsimp only
      rw [hannounced]
      cases hsettled : settled none offered k with
      | some resource =>
          rw [hsettled] at hkept
          exact hkept rfl
      | none =>
          rw [hundecided hsettled]
          rfl
  | some snapshot =>
      rw [hcurrent] at hannounced hkept hundecided hsynced
      dsimp only [MergedSnapshot.collectRemovals]
      rw [(foldl_collectRemoval _ _).1, List.filter_append, hannounced, List.filter_map]
      have hdropped : ((dropped ((MergedSnapshot.start (some snapshot) offered).acceptAll
          (some snapshot) offered).next (order.listed snapshot.entries.entries)).filter
            ((fun change : ResourceChange Key => decide (change.key = k)) ∘ removal)) =
          if (settled (some snapshot) offered k).isSome then [] else
            ((held (some snapshot) k).map fun resource =>
              (⟨k, resource⟩ : Sigma fun _ : Key => T)).toList := by
        unfold dropped
        rw [List.filter_filter, ← hsynced.stored k]
        have hlisted := filter_listed order snapshot.entries k
        split
        · rename_i hsome
          rw [List.filter_eq_nil_iff]
          intro entry _ hboth
          simp only [Function.comp_apply, Bool.and_eq_true, decide_eq_true_eq] at hboth
          rw [← hboth.1] at hsome
          have hnone := Option.isNone_iff_eq_none.mp hboth.2
          simp only [removal, ResourceChange.removed] at hsome
          rw [hnone] at hsome
          cases hsome
        · rename_i hnone
          refine Eq.trans (List.filter_congr fun entry _ => ?_) hlisted
          simp only [Function.comp_apply, removal, ResourceChange.removed]
          by_cases hk : entry.1 = k
          · subst hk
            simpa using hnone
          · simp [hk]
      rw [hdropped]
      cases hsettled : settled (some snapshot) offered k with
      | some resource =>
          rw [hsettled] at hkept
          rw [hkept rfl]
          simp
      | none =>
          rw [hundecided hsettled]
          cases hheld : held (some snapshot) k with
          | none => rfl
          | some old => rfl

/-- What a full sync counts. -/
theorem report_merge (current : ResourceRegistry T) (offered : List T)
    (order : IterationOrder Key T) :
    (MergedSnapshot.merge current offered order).report.counted = offered.length ∧
      (MergedSnapshot.merge current offered order).report.removed =
        (removedKeys current (MergedSnapshot.merge current offered order).next).length := by
  have hsynced := syncedUpTo_acceptAll current offered
  rw [next_merge]
  unfold MergedSnapshot.merge removedKeys
  cases current with
  | none => exact ⟨hsynced.counted, hsynced.removed⟩
  | some snapshot =>
      obtain ⟨-, hremoved, hcounted⟩ := foldl_collectRemoval
        ((MergedSnapshot.start (some snapshot) offered).acceptAll (some snapshot) offered)
        (order.listed snapshot.entries.entries)
      refine ⟨hcounted.trans hsynced.counted, hremoved.trans ?_⟩
      rw [hsynced.removed, Nat.zero_add]
      have hperm := (order.perm snapshot.entries.entries).filter fun entry =>
        (((MergedSnapshot.start (some snapshot) offered).acceptAll (some snapshot)
          offered).next.lookup entry.1).isNone
      refine hperm.length_eq.trans ?_
      simp only [Option.map_some, Option.getD_some, AList.keys, List.keys]
      rw [List.filter_map, List.length_map]
      rfl

theorem firstLoad_accept (merged : MergedSnapshot T) (resource : T) (old : Option T) :
    (merged.accept resource old).firstLoad = merged.firstLoad := by
  unfold MergedSnapshot.accept MergedSnapshot.rejectInvalid MergedSnapshot.againstHeld
  repeat' split
  all_goals rfl

theorem firstLoad_acceptAll (merged : MergedSnapshot T) (offered : List T) :
    (merged.acceptAll current offered).firstLoad = merged.firstLoad := by
  induction offered generalizing merged with
  | nil => rfl
  | cons resource rest ih => exact (ih _).trans (firstLoad_accept merged resource _)

theorem firstLoad_foldl_collectRemoval (merged : MergedSnapshot T)
    (entries : List (Sigma fun _ : Key => T)) :
    (entries.foldl MergedSnapshot.collectRemoval merged).firstLoad = merged.firstLoad := by
  induction entries generalizing merged with
  | nil => rfl
  | cons entry entries ih =>
      refine (ih _).trans ?_
      unfold MergedSnapshot.collectRemoval
      split <;> rfl

theorem firstLoad_merge (current : ResourceRegistry T) (offered : List T)
    (order : IterationOrder Key T) :
    (MergedSnapshot.merge current offered order).firstLoad = current.isNone := by
  unfold MergedSnapshot.merge
  cases current with
  | none => exact firstLoad_acceptAll _ offered
  | some snapshot =>
      exact (firstLoad_foldl_collectRemoval _ _).trans (firstLoad_acceptAll _ offered)

/-- A first load is refused where it published something and none of it is valid. -/
theorem isSome_refusal_merge (current : ResourceRegistry T) (offered : List T)
    (order : IterationOrder Key T) :
    (MergedSnapshot.merge current offered order).refusal.isSome ↔
      current = none ∧ offered ≠ [] ∧ ∀ resource ∈ offered, (validate resource).isOk = false := by
  have hempty : current = none →
      ((MergedSnapshot.merge current offered order).next.entries.isEmpty = true ↔
        ∀ resource ∈ offered, (validate resource).isOk = false) := by
    rintro rfl
    have hlookup := next_merge_lookup (none : ResourceRegistry T) offered order
    have hnone : ∀ k, settled (none : ResourceRegistry T) offered k = none ↔
        firstValid offered k = none := by
      intro k
      unfold settled
      cases firstValid offered k with
      | none => simp [held]
      | some resource => simp
    rw [List.isEmpty_iff]
    constructor
    · intro hentries resource hresource
      have hlost := (hlookup (key resource)).symm
      rw [AList.lookup, hentries, List.dlookup_nil, hnone] at hlost
      have hnot := List.find?_eq_none.mp hlost resource hresource
      simpa [decides] using hnot
    · intro hinvalid
      rw [List.eq_nil_iff_forall_not_mem]
      rintro ⟨k, resource⟩ hentry
      have hstored := hlookup k
      rw [AList.mem_lookup_iff.mpr hentry] at hstored
      have hlost := (hnone k).mpr (List.find?_eq_none.mpr fun other hother => by
        simp [decides, hinvalid other hother])
      rw [hlost] at hstored
      cases hstored
  unfold MergedSnapshot.refusal
  rw [published_merge, firstLoad_merge]
  cases hcurrent : current with
  | some snapshot => simp
  | none =>
      rw [hcurrent] at hempty
      have hiff := hempty rfl
      cases hnext : (MergedSnapshot.merge none offered order).next.entries.isEmpty with
      | true =>
          have hall := hiff.mp hnext
          cases offered with
          | nil => simp
          | cons first rest => simpa using hall
      | false =>
          have hnot : ¬∀ resource ∈ offered, (validate resource).isOk = false := fun hall => by
            rw [hiff.mpr hall] at hnext
            cases hnext
          simp [hnot]

/-- A key is there where a valid entry was offered for it, or one that is not valid and it was held
already. -/
theorem isSome_settled (current : ResourceRegistry T) (offered : List T) (k : Key) :
    (settled current offered k).isSome ↔
      (∃ resource ∈ offered, key resource = k ∧ (validate resource).isOk = true) ∨
        (∃ resource ∈ offered, key resource = k ∧ (validate resource).isOk = false) ∧
          (held current k).isSome := by
  unfold settled
  cases hfirst : firstValid offered k with
  | some first =>
      have hmem := List.mem_of_find?_eq_some hfirst
      have hdecides := List.find?_some hfirst
      simp only [decides, Bool.and_eq_true, decide_eq_true_eq] at hdecides
      simp only [Option.isSome_some, true_iff]
      exact Or.inl ⟨first, hmem, hdecides.1, hdecides.2⟩
  | none =>
      have hnone := List.find?_eq_none.mp hfirst
      have hinvalid : ∀ resource ∈ offered, key resource = k →
          (validate resource).isOk = false := by
        intro resource hresource hkey
        simpa [decides, hkey] using hnone resource hresource
      dsimp only
      constructor
      · intro hsome
        split at hsome
        · rename_i hany
          obtain ⟨resource, hresource, hkey⟩ := List.any_eq_true.mp hany
          exact Or.inr ⟨⟨resource, hresource, of_decide_eq_true hkey,
            hinvalid resource hresource (of_decide_eq_true hkey)⟩, hsome⟩
        · cases hsome
      · rintro (⟨resource, hresource, hkey, hvalid⟩ | ⟨⟨resource, hresource, hkey, -⟩, hheld⟩)
        · rw [hinvalid resource hresource hkey] at hvalid
          cases hvalid
        · rw [if_pos (List.any_eq_true.mpr ⟨resource, hresource, decide_eq_true hkey⟩)]
          exact hheld

/-- The value of a key: the first valid entry where it is newer than what is held, and else what is
held. -/
def StoredFor (current : ResourceRegistry T) (offered : List T) (k : Key) (stored : T) : Prop :=
  (∃ resource, firstValid offered k = some resource ∧
      (∀ old, held current k = some old → revision old < revision resource) ∧
        stored = resource) ∨
    held current k = some stored ∧ ∀ resource, firstValid offered k = some resource →
      ¬revision stored < revision resource

theorem storedFor_of_settled {stored : T} (h : settled current offered k = some stored) :
    StoredFor current offered k stored := by
  unfold settled newer at h
  unfold StoredFor
  cases hfirst : firstValid offered k with
  | some resource =>
      rw [hfirst] at h
      cases hheld : held current k with
      | none =>
          rw [hheld] at h
          exact Or.inl ⟨resource, rfl, nofun, (Option.some.inj h).symm⟩
      | some old =>
          rw [hheld] at h
          dsimp only at h
          split at h
          · rename_i hlt
            exact Or.inl ⟨resource, rfl, fun other hother => Option.some.inj hother ▸ hlt,
              (Option.some.inj h).symm⟩
          · rename_i hnot
            cases h
            exact Or.inr ⟨rfl, fun other hother => Option.some.inj hother ▸ hnot⟩
  | none =>
      rw [hfirst] at h
      dsimp only at h
      split at h
      · exact Or.inr ⟨h, nofun⟩
      · cases h

/-- One full sync: it is refused where it is a first load of nothing valid; and else each key comes
to what was offered and held for it, each entry is counted once, each held key that is gone is
counted once, and a key is announced once where its revision is not what it was. -/
theorem full_sync (current : ResourceRegistry T) (offered : List T)
    (order : IterationOrder Key T) :
    ((∃ refusal, applyAll current offered order = .error refusal) ↔
      current = none ∧ offered ≠ [] ∧ ∀ resource ∈ offered, (validate resource).isOk = false) ∧
    ∀ written report, applyAll current offered order = .ok (written, report) →
      (∀ k, (written.snapshot.get k).isSome ↔
        (∃ resource ∈ offered, key resource = k ∧ (validate resource).isOk = true) ∨
          (∃ resource ∈ offered, key resource = k ∧ (validate resource).isOk = false) ∧
            (held current k).isSome) ∧
      (∀ k stored, written.snapshot.get k = some stored → StoredFor current offered k stored) ∧
      report.counted = offered.length ∧
      report.removed = (removedKeys current written.snapshot.entries).length ∧
      ∀ k, (written.events.filter fun change => change.key = k) =
        announcement k ((held current k).map revision)
          ((written.snapshot.get k).map revision) := by
  constructor
  · rw [← isSome_refusal_merge current offered order]
    unfold applyAll
    dsimp only
    cases (MergedSnapshot.merge current offered order).refusal with
    | none => simp
    | some refusal => simp
  · intro written report h
    obtain ⟨rfl, rfl⟩ := applyAll_eq_ok h
    have hget : ∀ k, (ResourceSnapshot.new (T := T)
        (MergedSnapshot.merge current offered order).next).get k = settled current offered k :=
      next_merge_lookup current offered order
    refine ⟨fun k => ?_, fun k stored hstored => ?_, (report_merge current offered order).1,
      (report_merge current offered order).2, fun k => ?_⟩
    · rw [hget k]
      exact isSome_settled current offered k
    · rw [hget k] at hstored
      exact storedFor_of_settled hstored
    · rw [hget k]
      exact events_merge current offered order k

end Runtime
end SaasFabric
