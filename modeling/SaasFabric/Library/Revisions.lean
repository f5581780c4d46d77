import SaasFabric.Library.Floor

/-!
# Revisions

Resources are offered in lists; each has a key and a revision.  What was offered last is
held, some of what was offered is committed, and a floor is kept for every key.  A resource
is admitted where it is above its floor, or is held already and at its floor.  From that
alone a revision names one content, in everything ever committed.
-/

namespace SaasFabric
namespace Library

/-- What was committed, in order, what is held now, and the floor of every key. -/
structure Lane (T K R : Type) [Ord K] where
  committed : List (List T)
  held : List T
  floors : BTreeMap K R

section Revisions

variable {T K R : Type} [Ord K] [Std.TransOrd K] [Std.LawfulEqOrd K] [LinearOrder R]
variable (key : T → K) (revision : T → R)

/-- The floors that some resources were seen at. -/
def raiseBy (floors : BTreeMap K R) (resources : List T) : BTreeMap K R :=
  raiseAll floors (resources.map fun resource => (key resource, revision resource))

variable {key revision}

theorem atLeast_raiseBy {floors : BTreeMap K R} {resources : List T} {other : K} {bound : R} :
    AtLeast (raiseBy key revision floors resources)[other]? bound ↔
      AtLeast floors[other]? bound ∨
        ∃ resource ∈ resources, key resource = other ∧ bound ≤ revision resource := by
  unfold raiseBy
  rw [atLeast_raiseAll]
  simp only [List.mem_map, exists_exists_and_eq_and]

variable (key revision)

/-- A resource is above its floor, or is the copy that is held, and not below its floor. -/
def Admitted (floors : BTreeMap K R) (copy : Option T) (resource : T) : Prop :=
  (∀ bound, AtLeast floors[key resource]? bound → bound < revision resource) ∨
    (copy = some resource ∧
      ∀ bound, AtLeast floors[key resource]? bound → bound ≤ revision resource)

omit [Std.LawfulEqOrd K] in
/-- An admitted resource is not below its floor. -/
theorem Admitted.le {floors : BTreeMap K R} {copy : Option T} {resource : T}
    (h : Admitted key revision floors copy resource) {bound : R}
    (hbound : AtLeast floors[key resource]? bound) : bound ≤ revision resource := by
  rcases h with habove | ⟨-, hle⟩
  · exact (habove bound hbound).le
  · exact hle bound hbound

/-- Everything offered is admitted, over the floors of a lane and of what it holds. -/
def Lane.Admits (lane : Lane T K R) (offered : List T) : Prop :=
  ∀ resource ∈ offered, ∃ copy, (∀ held, copy = some held → held ∈ lane.held) ∧
    Admitted key revision (raiseBy key revision lane.floors lane.held) copy resource

/-- An offer that is admitted is held, or held and committed. -/
inductive Lane.Step (before after : Lane T K R) : Prop where
  | stage (offered : List T) (admits : before.Admits key revision offered)
      (held : ∀ resource ∈ after.held, resource ∈ offered)
      (committed : after.committed = before.committed) (floors : after.floors = before.floors)
  | commit (offered : List T) (admits : before.Admits key revision offered)
      (held : ∀ resource ∈ after.held, resource ∈ offered)
      (committed : after.committed = before.committed ++ [offered])
      (floors : ∀ (other : K) (bound : R), AtLeast after.floors[other]? bound ↔
        AtLeast (raiseBy key revision before.floors before.held)[other]? bound ∨
          ∃ resource ∈ offered, key resource = other ∧ bound ≤ revision resource)

variable {key}

/-- What a later resource of the same key has to do with a committed one: its revision is
not lower, and where it is the same so is the resource, and it was never away in between. -/
def Continues (committed : List (List T)) (first last : Nat) (earlier later : T) : Prop :=
  revision earlier ≤ revision later ∧
    (revision earlier = revision later →
      later = earlier ∧ ∀ index between, first ≤ index → index < last →
        committed[index]? = some between → earlier ∈ between)

/-- A commitment more does not change what came before it. -/
theorem Continues.append {committed : List (List T)} {first last : Nat} {earlier later : T}
    (h : Continues revision committed first last earlier later) (hlast : last ≤ committed.length)
    (offered : List T) :
    Continues revision (committed ++ [offered]) first last earlier later := by
  refine ⟨h.1, fun heq => ⟨(h.2 heq).1, fun index between hfirst hindex hbetween => ?_⟩⟩
  rw [List.getElem?_append_left (hindex.trans_le hlast)] at hbetween
  exact (h.2 heq).2 index between hfirst hindex hbetween

variable (key)

/-- A revision names one content.  A list that names a key twice says nothing about it. -/
structure Lane.Identifies (lane : Lane T K R) : Prop where
  covers : ∀ docs ∈ lane.committed, ∀ resource ∈ docs,
    AtLeast lane.floors[key resource]? (revision resource)
  held : ∀ first docs, lane.committed[first]? = some docs → (docs.map key).Nodup →
    ∀ earlier ∈ docs, ∀ later ∈ lane.held, key earlier = key later →
      Continues revision lane.committed first lane.committed.length earlier later
  ordered : ∀ first last docs others, first < last → lane.committed[first]? = some docs →
    lane.committed[last]? = some others → (docs.map key).Nodup →
      ∀ earlier ∈ docs, ∀ later ∈ others, key earlier = key later →
        Continues revision lane.committed first last earlier later

variable {key revision} {before after : Lane T K R}

/-- What is admitted continues everything committed. -/
theorem Lane.Identifies.admitted (h : before.Identifies key revision) {offered : List T}
    (hadmits : before.Admits key revision offered) {first : Nat} {docs : List T}
    (hdocs : before.committed[first]? = some docs) (hnodup : (docs.map key).Nodup)
    {earlier later : T} (hearlier : earlier ∈ docs) (hlater : later ∈ offered)
    (hkey : key earlier = key later) :
    Continues revision before.committed first before.committed.length earlier later := by
  have hfloor : AtLeast (raiseBy key revision before.floors before.held)[key later]?
      (revision earlier) := by
    have hcovered := h.covers docs (List.mem_of_getElem? hdocs) earlier hearlier
    rw [hkey] at hcovered
    exact atLeast_raiseBy.mpr (Or.inl hcovered)
  obtain ⟨copy, hcopy, habove | ⟨hsome, -⟩⟩ := hadmits later hlater
  · have hlt := habove _ hfloor
    exact ⟨hlt.le, fun heq => absurd heq hlt.ne⟩
  · -- What is held already continues it.
    exact h.held first docs hdocs hnodup earlier hearlier later (hcopy later hsome) hkey

theorem getElem?_append_singleton_of_some {committed : List (List T)} {offered docs : List T}
    {index : Nat} (h : (committed ++ [offered])[index]? = some docs) :
    (index < committed.length ∧ committed[index]? = some docs) ∨
      (index = committed.length ∧ docs = offered) := by
  by_cases hlt : index < committed.length
  · rw [List.getElem?_append_left hlt] at h
    exact Or.inl ⟨hlt, h⟩
  · rw [List.getElem?_append_right (not_lt.mp hlt), List.getElem?_singleton] at h
    split at h
    · cases h
      rename_i hzero
      exact Or.inr ⟨by omega, rfl⟩
    · cases h

/-- A continuation up to a commitment is one beyond it, where it is committed itself. -/
theorem Continues.commit {committed : List (List T)} {first : Nat} {earlier later : T}
    {offered : List T} (h : Continues revision committed first committed.length earlier later)
    (hlater : later ∈ offered) :
    Continues revision (committed ++ [offered]) first (committed ++ [offered]).length
      earlier later := by
  refine ⟨h.1, fun heq => ⟨(h.2 heq).1, fun index between hfirst _ hbetween => ?_⟩⟩
  rcases getElem?_append_singleton_of_some hbetween with ⟨hindex, hbetween⟩ | ⟨-, rfl⟩
  · exact (h.2 heq).2 index between hfirst hindex hbetween
  · rw [← (h.2 heq).1]
    exact hlater

/-- A step keeps what a revision names. -/
theorem Lane.Identifies.step (h : before.Identifies key revision)
    (hstep : Lane.Step key revision before after) : after.Identifies key revision := by
  cases hstep with
  | stage offered hadmits hheld hcommitted hfloors =>
      constructor
      · rw [hcommitted, hfloors]
        exact h.covers
      · rw [hcommitted]
        intro first docs hdocs hnodup earlier hearlier later hlater hkey
        exact h.admitted hadmits hdocs hnodup hearlier (hheld later hlater) hkey
      · rw [hcommitted]
        exact h.ordered
  | commit offered hadmits hheld hcommitted hfloors =>
      constructor
      · intro docs hdocs resource hresource
        rw [hfloors]
        rw [hcommitted] at hdocs
        rcases List.mem_append.mp hdocs with hold | hnew
        · exact Or.inl (atLeast_raiseBy.mpr (Or.inl (h.covers docs hold resource hresource)))
        · rw [List.mem_singleton.mp hnew] at hresource
          exact Or.inr ⟨resource, hresource, rfl, le_rfl⟩
      · rw [hcommitted]
        intro first docs hdocs hnodup earlier hearlier later hlater hkey
        have hoffered := hheld later hlater
        rcases getElem?_append_singleton_of_some hdocs with ⟨-, hdocs⟩ | ⟨rfl, rfl⟩
        · exact (h.admitted hadmits hdocs hnodup hearlier hoffered hkey).commit hoffered
        · -- Both are in the list just committed, which names their key once.
          have hsame : later = earlier :=
            (List.inj_on_of_nodup_map hnodup hearlier hoffered hkey).symm
          subst hsame
          refine ⟨le_rfl, fun _ => ⟨rfl, fun index between hfirst _ hbetween => ?_⟩⟩
          rcases getElem?_append_singleton_of_some hbetween with ⟨hindex, -⟩ | ⟨-, rfl⟩
          · omega
          · exact hoffered
      · rw [hcommitted]
        intro first last docs others hlt hdocs hothers hnodup earlier hearlier later hlater hkey
        have hfirst : first < before.committed.length := by
          rcases getElem?_append_singleton_of_some hothers with ⟨hlast, -⟩ | ⟨rfl, -⟩
          · exact hlt.trans hlast
          · exact hlt
        rw [List.getElem?_append_left hfirst] at hdocs
        rcases getElem?_append_singleton_of_some hothers with ⟨hlast, hothers⟩ | ⟨rfl, rfl⟩
        · exact (h.ordered first last docs others hlt hdocs hothers hnodup earlier hearlier
            later hlater hkey).append revision hlast.le offered
        · exact (h.admitted hadmits hdocs hnodup hearlier hlater hkey).append revision le_rfl _

end Revisions
end Library
end SaasFabric
