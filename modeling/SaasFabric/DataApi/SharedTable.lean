import SaasFabric.Connector.TenantScoping
import SaasFabric.DataApi.Service

/-!
# A table that tenants share

A connector with the plain meaning of a table: a read filters, sorts, cuts and projects its
rows, a write answers with the rows it reached.  On a table that tenants share, what a scoped
operation reads and reaches of the tenant's rows is the same whatever the column is called that
they are told apart by, and whatever is in it.
-/

namespace SaasFabric
namespace DataApi

/-- How a store compares cells with literals and with each other. -/
structure TableSemantics extends FilterSemantics where
  le : Option Value → Option Value → Bool

/-- A row does not come after another in the order a list of fields asks for. -/
def sortLe (le : Option Value → Option Value → Bool) : List SortField → Row → Row → Bool
  | [], _, _ => true
  | sort :: rest, first, second =>
      let (first', second') := match sort.direction with
        | .ascending => (first.get sort.field, second.get sort.field)
        | .descending => (second.get sort.field, first.get sort.field)
      le first' second' && (!le second' first' || sortLe le rest first second)

/-- Only the fields asked for, all of them where none is. -/
def restrict (fields : List FieldName) (row : Row) : Row :=
  if fields.isEmpty then row else ⟨row.fields.filter fun field _ => fields.contains field⟩

section Table

variable (S : TableSemantics)

/-- The rows a read gives, before they are projected. -/
def matching (spec : QuerySpec) (table : List Row) : List Row :=
  let sorted := (table.filter fun row => Matches S.toFilterSemantics spec.filter row).mergeSort
    (sortLe S.le spec.sort)
  let skipped := sorted.drop (spec.offset.elim 0 (·.val))
  spec.limit.elim skipped fun limit => skipped.take limit.val

/-- The rows a write reaches, as it leaves them or, where it removes them, as they were. -/
def reached (spec : MutationSpec) (table : List Row) : List Row :=
  match spec with
  | .insert _ rows => rows
  | .update _ filter changes =>
      (table.filter fun row => Matches S.toFilterSemantics filter row).map (·.merge changes)
  | .delete _ filter => table.filter fun row => Matches S.toFilterSemantics filter row

/-- A connector over tables. -/
def tableConnector (id : ConnectorId) (tables : CollectionName → List Row) : DataConnector where
  id := id
  query _ spec :=
    .ok ⟨(matching S spec (tables spec.collection)).map (restrict spec.fields), none⟩
  mutate _ spec :=
    let rows := reached S spec (tables spec.collection)
    .ok ⟨U64.ofLength rows.length, rows⟩

end Table

/-! ## Shared rows -/

/-- Whose a row is: the tenant's, or another's with what its cell of the column holds. -/
inductive Owner where
  | tenant
  | other (cell : Option Value)
deriving DecidableEq

/-- A row of a shared table, without the column that tells tenants apart. -/
structure SharedRow where
  owner : Owner
  base : Row
deriving DecidableEq

/-- How a tenant is told apart. -/
structure Discriminant where
  column : FieldName
  value : String
deriving DecidableEq

/-- A row as the table holds it. -/
def SharedRow.stored (discriminant : Discriminant) (row : SharedRow) : Row :=
  match row.owner with
  | .tenant => row.base.with discriminant.column (.string discriminant.value)
  | .other (some cell) => row.base.with discriminant.column cell
  | .other none => row.base

/-- A table uses the column for nothing else, and the tenant's value for nobody else. -/
structure ToldApartBy (discriminant : Discriminant) (table : List SharedRow) : Prop where
  unused : ∀ row ∈ table, row.base.get discriminant.column = none
  foreign : ∀ row ∈ table, ∀ cell, row.owner = .other cell →
    cell ≠ some (.string discriminant.value)

namespace SharedRow

variable {discriminant : Discriminant}

theorem get_stored_of_ne (row : SharedRow) {field : FieldName}
    (h : discriminant.column ≠ field) : (row.stored discriminant).get field = row.base.get field := by
  unfold stored
  split
  · exact Row.get_with_ne _ _ h
  · exact Row.get_with_ne _ _ h
  · rfl

/-- A row carries the tenant's value exactly where it is the tenant's. -/
theorem carries_stored_iff {table : List SharedRow} (h : ToldApartBy discriminant table)
    {row : SharedRow} (hrow : row ∈ table) :
    (row.stored discriminant).Carries discriminant.column discriminant.value ↔
      row.owner = .tenant := by
  unfold Row.Carries stored
  split
  · rename_i howner
    simp [howner]
  · rename_i cell howner
    have hforeign := h.foreign row hrow _ howner
    simp only [Row.get_with_self, howner, reduceCtorEq, iff_false]
    exact hforeign
  · rename_i howner
    rw [h.unused row hrow]
    simp [howner]

end SharedRow

/-! ## What an operation reads and reaches of a shared table -/

/-- Two rows that are the same outside a column. -/
def AgreeBut (column : FieldName) (first second : Row) : Prop :=
  ∀ field, column ≠ field → first.get field = second.get field

/-- A predicate says the same of rows that are the same outside a column. -/
def Ignores (S : FilterSemantics) (filter : Option Filter) (column : FieldName) : Prop :=
  ∀ first second, AgreeBut column first second → (Matches S filter first ↔ Matches S filter second)

theorem sortLe_congr {le : Option Value → Option Value → Bool} {column : FieldName}
    {sort : List SortField} (hsort : ∀ entry ∈ sort, column ≠ entry.field)
    {first first' second second' : Row} (hfirst : AgreeBut column first first')
    (hsecond : AgreeBut column second second') :
    sortLe le sort first second = sortLe le sort first' second' := by
  induction sort with
  | nil => rfl
  | cons entry rest ih =>
      rw [List.forall_mem_cons] at hsort
      unfold sortLe
      rw [hfirst _ hsort.1, hsecond _ hsort.1, ih hsort.2]

section Shared

variable (S : TableSemantics) {discriminant : Discriminant} {table : List SharedRow}

/-- The tenant's rows that a predicate selects. -/
def ownMatching (filter : Option Filter) (table : List SharedRow) : List SharedRow :=
  table.filter fun row => row.owner = .tenant ∧ Matches S.toFilterSemantics filter row.base

/-- The tenant's rows that a read gives. -/
def sharedMatching (spec : QuerySpec) (table : List SharedRow) : List SharedRow :=
  let sorted := (ownMatching S spec.filter table).mergeSort fun first second =>
    sortLe S.le spec.sort first.base second.base
  let skipped := sorted.drop (spec.offset.elim 0 (·.val))
  spec.limit.elim skipped fun limit => skipped.take limit.val

theorem mem_of_mem_sharedMatching {spec : QuerySpec} {row : SharedRow}
    (h : row ∈ sharedMatching S spec table) : row ∈ ownMatching S spec.filter table := by
  unfold sharedMatching at h
  have hdrop : ∀ n, row ∈ ((ownMatching S spec.filter table).mergeSort fun first second =>
      sortLe S.le spec.sort first.base second.base).drop n →
      row ∈ ownMatching S spec.filter table := fun n h =>
    List.mem_mergeSort.mp (List.mem_of_mem_drop h)
  cases hlimit : spec.limit with
  | none =>
      rw [hlimit] at h
      exact hdrop _ h
  | some limit =>
      rw [hlimit] at h
      exact hdrop _ (List.mem_of_mem_take h)

/-- The tenant's rows that a write reaches. -/
def sharedReached (spec : MutationSpec) (table : List SharedRow) : List Row :=
  match spec with
  | .insert _ rows => rows
  | .update _ filter changes =>
      (ownMatching S filter table).map fun row => row.base.merge changes
  | .delete _ filter => (ownMatching S filter table).map (·.base)

variable (htold : ToldApartBy discriminant table)

include htold

/-- Scoped to the tenant, a predicate selects of the stored rows the tenant's own that it
selects. -/
theorem filter_stored {filter : Option Filter}
    (hignores : Ignores S.toFilterSemantics filter discriminant.column) :
    (table.map (·.stored discriminant)).filter (fun row => Matches S.toFilterSemantics
      (some (conjoin filter (.compare discriminant.column .equal (.string discriminant.value))))
      row) = (ownMatching S filter table).map (·.stored discriminant) := by
  unfold ownMatching
  rw [List.filter_map]
  refine congrArg _ (List.filter_congr fun row hrow => ?_)
  have hbase : AgreeBut discriminant.column (row.stored discriminant) row.base :=
    fun field hne => row.get_stored_of_ne hne
  simp only [Function.comp_apply, decide_eq_decide]
  rw [matches_conjoin, selects_tenantPredicate, SharedRow.carries_stored_iff htold hrow,
    hignores _ _ hbase]
  exact and_comm

end Shared

section Scoped

variable (S : TableSemantics) {discriminant : Discriminant} {table : List SharedRow}
  (htold : ToldApartBy discriminant table) {target : ExecutionTarget}
  (htarget : target.isolation = .discriminator discriminant.column discriminant.value)

include htarget

theorem forTarget_eq (spec : QuerySpec) :
    spec.forTarget target = { spec with
      filter := some (conjoin spec.filter
        (.compare discriminant.column .equal (.string discriminant.value))) } := by
  unfold QuerySpec.forTarget
  rw [htarget]
  cases spec.filter <;> rfl

include htold

/-- A scoped read gives the tenant's rows that the caller's own would, in the same order. -/
theorem matching_stored {spec : QuerySpec}
    (hignores : Ignores S.toFilterSemantics spec.filter discriminant.column)
    (hsort : ∀ entry ∈ spec.sort, discriminant.column ≠ entry.field) :
    matching S (spec.forTarget target) (table.map (·.stored discriminant)) =
      (sharedMatching S spec table).map (·.stored discriminant) := by
  rw [forTarget_eq htarget]
  unfold matching sharedMatching
  dsimp only
  have hsorted : ∀ rows : List SharedRow,
      (rows.map (·.stored discriminant)).mergeSort (sortLe S.le spec.sort) =
        (rows.mergeSort fun first second =>
          sortLe S.le spec.sort first.base second.base).map (·.stored discriminant) := by
    intro rows
    refine (List.map_mergeSort fun first _ second _ => ?_).symm
    exact (sortLe_congr hsort (fun field hne => first.get_stored_of_ne hne)
      fun field hne => second.get_stored_of_ne hne).symm
  rw [filter_stored S htold hignores, hsorted]
  cases spec.limit with
  | none => exact List.map_drop.symm
  | some limit => simp only [Option.elim_some, List.map_take, List.map_drop]

/-- A scoped write reaches rows of the tenant that are, outside the column, those the caller's
own would reach. -/
theorem reached_stored {spec : MutationSpec}
    (hignores : Ignores S.toFilterSemantics (predicateOf spec) discriminant.column) :
    List.Forall₂ (AgreeBut discriminant.column)
      (reached S (spec.forTarget target) (table.map (·.stored discriminant)))
      (sharedReached S spec table) := by
  have hstamp : ∀ row, AgreeBut discriminant.column (stamp row target) row := by
    intro row field hne
    unfold stamp
    rw [htarget]
    exact Row.get_with_ne _ _ hne
  unfold MutationSpec.forTarget
  rw [htarget]
  cases spec with
  | insert collection rows =>
      simp only [IsolationModel.tenantPredicate, reached, sharedReached]
      rw [List.forall₂_map_left_iff]
      exact List.forall₂_same.mpr fun row _ => hstamp row
  | update collection filter changes =>
      change Ignores S.toFilterSemantics filter discriminant.column at hignores
      simp only [IsolationModel.tenantPredicate, reached, sharedReached]
      rw [filter_stored S htold hignores, List.map_map, List.forall₂_map_left_iff,
        List.forall₂_map_right_iff]
      refine List.forall₂_same.mpr fun row _ field hne => ?_
      rw [Function.comp_apply, Row.get_merge, Row.get_merge, hstamp changes field hne,
        row.get_stored_of_ne hne]
  | delete collection filter =>
      change Ignores S.toFilterSemantics filter discriminant.column at hignores
      simp only [IsolationModel.tenantPredicate, reached, sharedReached]
      rw [filter_stored S htold hignores, List.forall₂_map_left_iff, List.forall₂_map_right_iff]
      exact List.forall₂_same.mpr fun row _ field hne => row.get_stored_of_ne hne

end Scoped

/-! ## What a response shows of it -/

section Projection

variable {column : FieldName} {resource : ResourceDefinition}

/-- The hidden column apart, a response shows of a row what it shows of any that is the same
outside the column. -/
theorem project_eq {row base : Row} (hagree : AgreeBut column row base)
    (hbase : base.get column = none) :
    RowResponse.project row ⟨resource, some column⟩ =
      RowResponse.project base ⟨resource, none⟩ := by
  unfold RowResponse.project
  refine congrArg RowResponse.mk (Std.ExtTreeMap.ext_getElem? fun field => ?_)
  rw [Std.ExtTreeMap.getElem?_filter', Std.ExtTreeMap.getElem?_filter']
  by_cases hfield : column = field
  · subst hfield
    have hnone : base.fields[column]? = none := hbase
    rw [hnone]
    simp [VisibleFields.permits]
  · have hsame : row.fields[field]? = base.fields[field]? := hagree field hfield
    have hpermits : VisibleFields.permits ⟨resource, some column⟩ field =
        VisibleFields.permits ⟨resource, none⟩ field := by
      have hne : (some column != some field) = true := by simpa using hfield
      unfold VisibleFields.permits
      rw [hne]
      rfl
    rw [hsame, hpermits]

theorem get_restrict (fields : List FieldName) (row : Row) (field : FieldName) :
    (restrict fields row).get field =
      if fields = [] ∨ field ∈ fields then row.get field else none := by
  unfold restrict
  cases fields with
  | nil => simp
  | cons first rest =>
      rw [List.isEmpty_cons, if_neg Bool.false_ne_true]
      unfold Row.get
      rw [Std.ExtTreeMap.getElem?_filter']
      by_cases hmem : field ∈ first :: rest
      · rw [List.contains_iff_mem.mpr hmem, if_pos (Or.inr hmem)]
        cases row.fields[field]? <;> rfl
      · have hcontains : (first :: rest).contains field = false := by
          rw [← Bool.not_eq_true, List.contains_iff_mem]
          exact hmem
        rw [hcontains, if_neg (by simpa using hmem)]
        cases row.fields[field]? <;> rfl

theorem AgreeBut.restrict {first second : Row} (h : AgreeBut column first second)
    (fields : List FieldName) :
    AgreeBut column (DataApi.restrict fields first) (DataApi.restrict fields second) := by
  intro field hne
  rw [get_restrict, get_restrict, h field hne]

theorem get_restrict_eq_none {row : Row} (h : row.get column = none) (fields : List FieldName) :
    (restrict fields row).get column = none := by
  rw [get_restrict, h, ite_self]

end Projection


end DataApi
end SaasFabric
