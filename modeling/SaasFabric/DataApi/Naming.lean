import SaasFabric.DataApi.ListQuery

/-!
# Two rules about names

A query string read under a rule of which fields may be named, and under the same rule less some
names.  The two readings are the same until a name is come to that only the first lets through.
-/

namespace SaasFabric
namespace DataApi

open Library (FailsWith bind_eq_ok check_bind_eq_ok map_eq_ok mapError_eq_ok)

/-- The refusal of a field. -/
def unknownField (field : FieldName) : DataApiError := .badRequest s!"unknown field {field}"

/-- The names a pair of a query string refers to fields by, in the order they are looked up. -/
def references (pair : String × String) : List String :=
  if pair.1 = "limit" then []
  else if pair.1 = "offset" then []
  else if pair.1 = "sort" then (entries pair.2).map fun entry => (sortEntry entry).2
  else if pair.1 = "select" then entries pair.2
  else [pair.1]

section Reaches

variable (permits : FieldName → Bool) (hidden : FieldName → Bool)

/-- Looking names up one by one comes to a hidden one that the rule lets through. -/
def ReachesIn : List String → Prop
  | [] => False
  | name :: rest =>
      match parseField permits name with
      | .ok field => hidden field = true ∨ ReachesIn rest
      | .error _ => False

/-- Reading pairs one by one comes to a hidden name that the rule lets through. -/
def ReachesPairs : List (String × String) → Prop
  | [] => False
  | pair :: rest =>
      (refuseNul pair.1 = .ok () ∧ refuseNul pair.2 = .ok () ∧
        ReachesIn permits hidden (references pair)) ∨
      ((ListQuery.parsePair permits .default pair).isOk = true ∧ ReachesPairs rest)

/-- A query string comes to a hidden name that the rule lets through, before anything in it is
refused. -/
def Reaches (raw : String) : Prop := ReachesPairs permits hidden (parsePairs raw)

/-- The rule less the hidden names. -/
def less (field : FieldName) : Bool := permits field && !hidden field

/-- What a reading under the rule and one under the rule less the hidden names come to: the same,
or the refusal of a name that the rule lets through. -/
structure Compare (reached : Prop) {α : Type} (under underLess : Except DataApiError α) :
    Prop where
  same : ¬ reached → underLess = under
  refused : reached → ∃ field, permits field = true ∧ underLess = .error (unknownField field)

end Reaches

section Comparison

variable {permits hidden : FieldName → Bool} {α β : Type}

theorem Compare.refl {reached : Prop} (result : Except DataApiError α) (h : ¬ reached) :
    Compare permits reached result result :=
  ⟨fun _ => rfl, fun hreached => absurd hreached h⟩

theorem Compare.congr {first second : Prop} {under underLess : Except DataApiError α}
    (h : Compare permits first under underLess) (hiff : second ↔ first) :
    Compare permits second under underLess :=
  ⟨fun hnot => h.same (mt hiff.mpr hnot), fun hreached => h.refused (hiff.mp hreached)⟩

/-- In sequence: the second part is only come to where the first passes. -/
theorem Compare.bind {first second : Prop} {under underLess : Except DataApiError α}
    {rest restLess : α → Except DataApiError β} (h : Compare permits first under underLess)
    (hrest : ∀ value, under = .ok value → Compare permits second (rest value) (restLess value)) :
    Compare permits (first ∨ (∃ value, under = .ok value) ∧ second) (under >>= rest)
      (underLess >>= restLess) := by
  by_cases hfirst : first
  · obtain ⟨field, hpermits, hrefused⟩ := h.refused hfirst
    refine ⟨fun hnot => absurd (Or.inl hfirst) hnot, fun _ => ⟨field, hpermits, ?_⟩⟩
    rw [hrefused]
    rfl
  · rw [h.same hfirst]
    cases hunder : under with
    | error error =>
        refine Compare.refl _ ?_
        rintro (h | ⟨⟨value, hvalue⟩, -⟩)
        · exact hfirst h
        · cases hvalue
    | ok value =>
        refine (hrest value hunder).congr ?_
        simp [hfirst]

/-- One name. -/
theorem compare_parseField (name : String) :
    Compare permits (∃ field, parseField permits name = .ok field ∧ hidden field = true)
      (parseField permits name) (parseField (less permits hidden) name) := by
  unfold parseField less
  cases Identifier.tryNew .fieldName (Text.trim name) with
  | error error =>
      refine Compare.refl _ ?_
      rintro ⟨field, hfield, -⟩
      cases hfield
  | ok field =>
      simp only [Except.mapError, bind, Except.bind]
      cases hpermits : permits field with
      | false =>
          refine Compare.refl _ ?_
          rintro ⟨field, hfield, -⟩
          cases hfield
      | true =>
          cases hhidden : hidden field with
          | false =>
              refine Compare.refl _ ?_
              rintro ⟨other, hother, hhides⟩
              cases hother
              rw [hhidden] at hhides
              cases hhides
          | true =>
              refine ⟨fun hnot => absurd ⟨field, rfl, hhidden⟩ hnot, fun _ => ?_⟩
              exact ⟨field, hpermits, rfl⟩

/-- A list, item by item. -/
theorem Compare.mapM {ρ : List α → Prop} {under underLess : α → Except DataApiError β}
    (reachedItem : α → Prop) (hnil : ¬ ρ [])
    (hcons : ∀ item items, ρ (item :: items) ↔
      reachedItem item ∨ (∃ value, under item = .ok value) ∧ ρ items)
    (h : ∀ item, Compare permits (reachedItem item) (under item) (underLess item))
    (items : List α) :
    Compare permits (ρ items) (items.mapM under) (items.mapM underLess) := by
  induction items with
  | nil => exact Compare.refl _ hnil
  | cons item items ih =>
      rw [List.mapM_cons, List.mapM_cons]
      refine Compare.congr (Compare.bind (h item) fun value _ => ?_) (hcons item items)
      refine Compare.congr (Compare.bind ih fun values _ => Compare.refl _ id) ?_
      simp

/-- A reading, and what is made of it. -/
theorem Compare.map {reached : Prop} {under underLess : Except DataApiError α} (make : α → β)
    (h : Compare permits reached under underLess) :
    Compare permits reached (make <$> under) (make <$> underLess) := by
  refine ⟨fun hnot => by rw [h.same hnot], fun hreached => ?_⟩
  obtain ⟨field, hpermits, hrefused⟩ := h.refused hreached
  refine ⟨field, hpermits, ?_⟩
  rw [hrefused]
  rfl

theorem reachesIn_cons (name : String) (rest : List String) :
    ReachesIn permits hidden (name :: rest) ↔
      (∃ field, parseField permits name = .ok field ∧ hidden field = true) ∨
        (∃ field, parseField permits name = .ok field) ∧ ReachesIn permits hidden rest := by
  rw [ReachesIn]
  cases parseField permits name with
  | error error => simp
  | ok field => simp

theorem parseSortEntry_eq (permits : FieldName → Bool) (entry : String) :
    parseSortEntry permits entry =
      (fun field => { field, direction := (sortEntry entry).1 }) <$>
        parseField permits (sortEntry entry).2 := by
  unfold parseSortEntry
  generalize sortEntry entry = read
  obtain ⟨direction, name⟩ := read
  dsimp only
  cases parseField permits name <;> rfl

theorem compare_parseSort (value : String) :
    Compare permits
      (ReachesIn permits hidden ((entries value).map fun entry => (sortEntry entry).2))
      (parseSort permits value) (parseSort (less permits hidden) value) := by
  have hentry : ∀ entry, Compare permits
      (∃ field, parseField permits (sortEntry entry).2 = .ok field ∧ hidden field = true)
      (parseSortEntry permits entry) (parseSortEntry (less permits hidden) entry) := by
    intro entry
    rw [parseSortEntry_eq, parseSortEntry_eq]
    exact (compare_parseField _).map _
  refine Compare.mapM (ρ := fun items =>
    ReachesIn permits hidden (items.map fun entry => (sortEntry entry).2)) _
    (by simp [ReachesIn]) (fun entry rest => ?_) hentry (entries value)
  rw [List.map_cons, reachesIn_cons, parseSortEntry_eq]
  cases parseField permits (sortEntry entry).2 <;> simp

theorem compare_parseSelect (value : String) :
    Compare permits (ReachesIn permits hidden (entries value))
      (parseSelect permits value) (parseSelect (less permits hidden) value) :=
  Compare.mapM (ρ := ReachesIn permits hidden)
    (fun name => ∃ field, parseField permits name = .ok field ∧ hidden field = true)
    (by simp [ReachesIn]) reachesIn_cons compare_parseField (entries value)

/-- One parameter. -/
theorem compare_setParameter (query : ListQuery) (key value : String) :
    Compare permits (ReachesIn permits hidden (references (key, value)))
      (ListQuery.setParameter permits query key value)
      (ListQuery.setParameter (less permits hidden) query key value) := by
  unfold ListQuery.setParameter references
  dsimp only
  split
  · exact Compare.refl _ id
  · split
    · exact Compare.refl _ id
    · split
      · exact (compare_parseSort value).map _
      · split
        · exact (compare_parseSelect value).map _
        · refine Compare.congr ((compare_parseField key).map _) ?_
          rw [reachesIn_cons]
          simp [ReachesIn]

/-- One pair. -/
theorem compare_parsePair (query : ListQuery) (pair : String × String) :
    Compare permits
      (refuseNul pair.1 = .ok () ∧ refuseNul pair.2 = .ok () ∧
        ReachesIn permits hidden (references pair))
      (ListQuery.parsePair permits query pair)
      (ListQuery.parsePair (less permits hidden) query pair) := by
  have h := @compare_setParameter permits hidden query pair.1 pair.2
  unfold ListQuery.parsePair
  cases refuseNul pair.1 with
  | error error =>
      dsimp only [bind, Except.bind]
      exact Compare.refl _ (by simp)
  | ok done =>
      cases refuseNul pair.2 with
      | error error =>
          dsimp only [bind, Except.bind]
          exact Compare.refl _ (by simp)
      | ok done =>
          dsimp only [bind, Except.bind]
          refine Compare.congr h ?_
          simp

/-- Whether a pair is taken does not depend on what was read before it. -/
theorem isOk_parsePair (query other : ListQuery) (pair : String × String) :
    (ListQuery.parsePair permits query pair).isOk =
      (ListQuery.parsePair permits other pair).isOk := by
  have hmap : ∀ {γ : Type} (make makeOther : γ → ListQuery) (read : Except DataApiError γ),
      (make <$> read).isOk = (makeOther <$> read).isOk := by
    intro γ make makeOther read
    cases read <;> rfl
  unfold ListQuery.parsePair ListQuery.setParameter
  cases refuseNul pair.1 with
  | error error => rfl
  | ok done =>
      cases refuseNul pair.2 with
      | error error => rfl
      | ok done =>
          dsimp only [bind, Except.bind]
          split_ifs <;> exact hmap _ _ _

/-- The whole query string, from any query read so far. -/
theorem compare_parsePairs (pairs : List (String × String)) (query : ListQuery) :
    Compare permits (ReachesPairs permits hidden pairs)
      (pairs.foldlM (ListQuery.parsePair permits) query)
      (pairs.foldlM (ListQuery.parsePair (less permits hidden)) query) := by
  induction pairs generalizing query with
  | nil =>
      rw [List.foldlM_nil, List.foldlM_nil]
      exact Compare.refl _ id
  | cons pair pairs ih =>
      rw [List.foldlM_cons, List.foldlM_cons, ReachesPairs]
      have hpair := @compare_parsePair permits hidden query pair
      refine Compare.congr (hpair.bind fun next _ => ih next) ?_
      rw [isOk_parsePair .default query pair]
      cases ListQuery.parsePair permits query pair <;> simp [Except.isOk, Except.toBool]

theorem compare_parse (raw : String) :
    Compare permits (Reaches permits hidden raw) (ListQuery.parse permits raw)
      (ListQuery.parse (less permits hidden) raw) :=
  compare_parsePairs (parsePairs raw) .default

end Comparison

/-! ## Which fields a reading names -/

/-- Some pair refers to a field, by its own spelling. -/
def Referred (pairs : List (String × String)) (field : FieldName) : Prop :=
  ∃ pair ∈ pairs, ∃ name ∈ references pair, field.value = Text.trim name

/-- What a reading selects and sorts by is referred to in what is read. -/
structure Within (pairs : List (String × String)) (query : ListQuery) : Prop where
  filters : ∀ field value, query.filters[field]? = some value → Referred pairs field
  sort : ∀ entry ∈ query.sort, Referred pairs entry.field

section Named

variable {permits : FieldName → Bool}

theorem parseField_eq_ok {name : String} {field : FieldName}
    (h : parseField permits name = .ok field) :
    field.value = Text.trim name ∧ permits field = true := by
  unfold parseField at h
  obtain ⟨parsed, hparsed, hrest⟩ := bind_eq_ok.mp h
  split at hrest
  · rename_i hpermits
    cases hrest
    exact ⟨Identifier.value_of_tryNew (mapError_eq_ok.mp hparsed), hpermits⟩
  · cases hrest

/-- One more pair keeps what was read within what was referred to. -/
theorem within_setParameter {pairs : List (String × String)} {query next : ListQuery}
    {key value : String} (hpair : (key, value) ∈ pairs)
    (h : ListQuery.setParameter permits query key value = .ok next) (hquery : Within pairs query) :
    Within pairs next := by
  unfold ListQuery.setParameter at h
  split at h
  · obtain ⟨limit, -, rfl⟩ := map_eq_ok.mp h
    exact ⟨hquery.filters, hquery.sort⟩
  · rename_i hlimit
    split at h
    · obtain ⟨offset, -, rfl⟩ := map_eq_ok.mp h
      exact ⟨hquery.filters, hquery.sort⟩
    · rename_i hoffset
      split at h
      · rename_i hsort
        obtain ⟨sort, hparsed, rfl⟩ := map_eq_ok.mp h
        refine ⟨hquery.filters, fun entry hentry => ?_⟩
        obtain ⟨text, htext, hread⟩ :=
          Library.exists_of_forall₂_of_mem (Library.mapM_eq_ok.mp hparsed) entry hentry
        rw [parseSortEntry_eq] at hread
        obtain ⟨field, hfield, rfl⟩ := map_eq_ok.mp hread
        refine ⟨_, hpair, (sortEntry text).2, ?_, (parseField_eq_ok hfield).1⟩
        unfold references
        rw [if_neg hlimit, if_neg hoffset, if_pos hsort]
        exact List.mem_map_of_mem htext
      · rename_i hsort
        split at h
        · obtain ⟨select, -, rfl⟩ := map_eq_ok.mp h
          exact ⟨hquery.filters, hquery.sort⟩
        · rename_i hselect
          obtain ⟨field, hfield, rfl⟩ := map_eq_ok.mp h
          refine ⟨fun other held hother => ?_, hquery.sort⟩
          by_cases hsame : field = other
          · subst hsame
            refine ⟨_, hpair, key, ?_, (parseField_eq_ok hfield).1⟩
            unfold references
            rw [if_neg hlimit, if_neg hoffset, if_neg hsort, if_neg hselect]
            exact List.mem_singleton_self key
          · dsimp only at hother
            rw [Library.getElem?_insert_ne _ _ hsame] at hother
            exact hquery.filters other held hother

theorem within_parse {raw : String} {query : ListQuery}
    (h : ListQuery.parse permits raw = .ok query) : Within (parsePairs raw) query := by
  refine Library.foldlM_invariant (Within (parsePairs raw)) ?_ h ?_
  · intro state pair hpair next hnext hstate
    unfold ListQuery.parsePair at hnext
    obtain ⟨-, hrest⟩ := check_bind_eq_ok.mp hnext
    obtain ⟨-, hset⟩ := check_bind_eq_ok.mp hrest
    exact within_setParameter hpair hset hstate
  · refine ⟨fun field value h => ?_, fun entry h => ?_⟩
    · simp [ListQuery.default] at h
    · simp [ListQuery.default] at h

end Named

section Reached

variable {permits hidden : FieldName → Bool}

theorem exists_of_reachesIn {names : List String} (h : ReachesIn permits hidden names) :
    ∃ name ∈ names, ∃ field, parseField permits name = .ok field ∧ hidden field = true := by
  induction names with
  | nil => exact absurd h id
  | cons name rest ih =>
      rcases (reachesIn_cons name rest).mp h with ⟨field, hfield, hhidden⟩ | ⟨-, hrest⟩
      · exact ⟨name, List.mem_cons_self, field, hfield, hhidden⟩
      · obtain ⟨later, hlater, hfield⟩ := ih hrest
        exact ⟨later, List.mem_cons_of_mem _ hlater, hfield⟩

/-- What a reading comes to is referred to in what is read. -/
theorem exists_of_reaches {pairs : List (String × String)} (h : ReachesPairs permits hidden pairs) :
    ∃ field, Referred pairs field ∧ hidden field = true := by
  induction pairs with
  | nil => exact absurd h id
  | cons pair rest ih =>
      rcases h with ⟨-, -, hin⟩ | ⟨-, hrest⟩
      · obtain ⟨name, hname, field, hfield, hhidden⟩ := exists_of_reachesIn hin
        exact ⟨field, ⟨pair, List.mem_cons_self, name, hname, (parseField_eq_ok hfield).1⟩, hhidden⟩
      · obtain ⟨field, ⟨later, hlater, hname⟩, hhidden⟩ := ih hrest
        exact ⟨field, ⟨later, List.mem_cons_of_mem _ hlater, hname⟩, hhidden⟩

end Reached

/-! ## What a reading is refused with -/

/-- A failure that is not the refusal of a field the rule lets through. -/
def Blameless (permits : FieldName → Bool) (error : DataApiError) : Prop :=
  ∀ field, permits field = true → error ≠ unknownField field

theorem head_unknownField (field : FieldName) :
    (s!"unknown field {field}").toList.head? = some 'u' := by
  simp [toString, String.toList_append]

section Blameless

variable {permits : FieldName → Bool}

/-- A message that starts otherwise is no refusal of a field. -/
theorem blameless_of_head {message : String} (h : message.toList.head? ≠ some 'u') :
    Blameless permits (.badRequest message) := by
  intro field _ hfield
  unfold unknownField at hfield
  rw [DataApiError.badRequest.injEq] at hfield
  rw [hfield] at h
  exact h (head_unknownField field)

theorem blameless_unknownField {field : FieldName} (h : permits field = false) :
    Blameless permits (unknownField field) := by
  intro other hother hsame
  unfold unknownField at hsame
  rw [DataApiError.badRequest.injEq] at hsame
  have hvalue : field.value = other.value := by
    simpa [String.append_right_inj, toString] using hsame
  rw [Identifier.ext hvalue, hother] at h
  cases h

theorem failsWith_refuseNul (text : String) : FailsWith (Blameless permits) (refuseNul text) := by
  unfold refuseNul
  exact FailsWith.ite (FailsWith.error (blameless_of_head (by decide))) (FailsWith.ok ())

theorem failsWith_parseNumber {parameter : String} (value : String)
    (h : ∀ rest, (parameter ++ rest).toList.head? ≠ some 'u') :
    FailsWith (Blameless permits) (parseNumber value parameter) := by
  unfold parseNumber
  split
  · exact FailsWith.ok _
  · refine FailsWith.error (blameless_of_head ?_)
    simpa [toString] using h " must be a non-negative integer"

theorem failsWith_parseField (name : String) :
    FailsWith (Blameless permits) (parseField permits name) := by
  unfold parseField
  refine FailsWith.bind (FailsWith.mapError fun error => blameless_of_head ?_) fun field => ?_
  · simp [toString, String.toList_append]
  · cases hpermits : permits field with
    | true => exact FailsWith.ok field
    | false => exact FailsWith.error (blameless_unknownField hpermits)

theorem failsWith_setParameter (query : ListQuery) (key value : String) :
    FailsWith (Blameless permits) (ListQuery.setParameter permits query key value) := by
  unfold ListQuery.setParameter
  refine FailsWith.ite (FailsWith.map (failsWith_parseNumber value ?_)) (FailsWith.ite
    (FailsWith.map (failsWith_parseNumber value ?_)) (FailsWith.ite (FailsWith.map ?_)
      (FailsWith.ite (FailsWith.map ?_) (FailsWith.map (failsWith_parseField key)))))
  · simp [String.toList_append]
  · simp [String.toList_append]
  · refine FailsWith.mapM fun entry _ => ?_
    rw [parseSortEntry_eq]
    exact FailsWith.map (failsWith_parseField _)
  · exact FailsWith.mapM fun name _ => failsWith_parseField name

theorem failsWith_parse (raw : String) :
    FailsWith (Blameless permits) (ListQuery.parse permits raw) := by
  unfold ListQuery.parse
  refine FailsWith.foldlM _ fun query pair _ => ?_
  unfold ListQuery.parsePair
  exact (failsWith_refuseNul pair.1).bind fun _ => (failsWith_refuseNul pair.2).bind fun _ =>
    failsWith_setParameter query pair.1 pair.2

theorem failsWith_within (what : String) (actual : Nat) (max : U32) :
    FailsWith (Blameless permits) (within what actual max) := by
  unfold within
  refine FailsWith.ite (FailsWith.error (blameless_of_head ?_)) (FailsWith.ok ())
  simp [toString, String.toList_append]

theorem failsWith_enforceQuery (query : ListQuery) (config : DataApiConfig) :
    FailsWith (Blameless permits) (enforceQuery query config) := by
  unfold enforceQuery
  refine (failsWith_within _ _ _).bind fun _ => (failsWith_within _ _ _).bind fun _ =>
    (failsWith_within _ _ _).bind fun _ => ?_
  split
  · exact failsWith_within _ _ _
  · exact FailsWith.ok ()

end Blameless

end DataApi
end SaasFabric
