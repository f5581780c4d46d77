import Mathlib.Data.Multiset.Filter
import SaasFabric.Connector.Execution

/-!
# Discriminator isolation does not interfere

A collection shared by tenants is a multiset of rows, and a mutation acts on each
row by itself: it leaves it, changes it, or removes it, and an insert adds rows of
its own.  A mutation scoped to a target with a discriminator acts on the target's
rows as the caller's own would, and on no other row at all.
-/

namespace SaasFabric

variable (S : FilterSemantics)

/-- A field of one row is overwritten by the same field of another. -/
def Row.merge (row changes : Row) : Row := ⟨row.fields ∪ changes.fields⟩

theorem Row.get_merge (row changes : Row) (field : FieldName) :
    (row.merge changes).get field = (changes.get field).or (row.get field) :=
  Std.ExtTreeMap.getElem?_union

/-- A filter that is absent matches every row. -/
def Matches (filter : Option Filter) (row : Row) : Prop :=
  ∀ predicate ∈ filter, predicate.Selects S row

instance (filter : Option Filter) (row : Row) : Decidable (Matches S filter row) :=
  match filter with
  | none => isTrue (by simp [Matches])
  | some predicate => decidable_of_iff (predicate.Selects S row) (by simp [Matches])

@[simp] theorem matches_none (row : Row) : Matches S none row := by
  simp [Matches]

@[simp] theorem matches_some (filter : Filter) (row : Row) :
    Matches S (some filter) row ↔ filter.Selects S row := by
  simp [Matches]

/-- Joining the tenant's predicate on restricts what matched before to it. -/
theorem matches_conjoin (caller : Option Filter) (tenant : Filter) (row : Row) :
    Matches S (some (conjoin caller tenant)) row ↔
      Matches S caller row ∧ tenant.Selects S row := by
  cases caller with
  | none => simp [conjoin]
  | some filter => simp [conjoin]

namespace QuerySpec

/-- The rows a read returns, before it sorts, cuts and projects them. -/
def rows (spec : QuerySpec) (table : Multiset Row) : Multiset Row :=
  table.filter (Matches S spec.filter)

end QuerySpec

namespace MutationSpec

/-- The rows of the collection a mutation reaches. -/
def Affects : MutationSpec → Row → Prop
  | insert _ _, _ => False
  | update _ filter _, row => Matches S filter row
  | delete _ filter, row => Matches S filter row

instance (spec : MutationSpec) (row : Row) : Decidable (spec.Affects S row) := by
  cases spec <;> unfold Affects <;> infer_instance

/-- What becomes of one row of the collection. -/
def effect : MutationSpec → Row → Option Row
  | insert _ _, row => some row
  | update _ filter changes, row =>
      if Matches S filter row then some (row.merge changes) else some row
  | delete _ filter, row => if Matches S filter row then none else some row

/-- The rows a mutation adds. -/
def created : MutationSpec → List Row
  | insert _ rows => rows
  | update _ _ _ => []
  | delete _ _ => []

/-- Executes a mutation on a whole collection. -/
def execute (spec : MutationSpec) (table : Multiset Row) : Multiset Row :=
  table.filterMap (spec.effect S) + (spec.created : Multiset Row)

/-- A row a mutation does not reach stays as it is. -/
theorem effect_of_not_affects {spec : MutationSpec} {row : Row}
    (h : ¬ spec.Affects S row) : spec.effect S row = some row := by
  cases spec with
  | insert collection rows => rfl
  | update collection filter changes => exact if_neg h
  | delete collection filter => exact if_neg h

end MutationSpec

/-! ## The rows of one tenant -/

/-- A row belongs to the tenant whose value its discriminator column holds. -/
def Row.Carries (column : FieldName) (value : String) (row : Row) : Prop :=
  row.get column = some (.string value)

instance (column : FieldName) (value : String) : DecidablePred (Row.Carries column value) :=
  fun row => inferInstanceAs (Decidable (row.get column = _))

/-- Every other row is another tenant's. -/
def Row.Foreign (column : FieldName) (value : String) (row : Row) : Prop :=
  ¬ row.Carries column value

instance (column : FieldName) (value : String) : DecidablePred (Row.Foreign column value) :=
  fun row => inferInstanceAs (Decidable (¬ row.Carries column value))

section Discriminator

variable {S} {target : ExecutionTarget} {column : FieldName} {value : String}
  (htarget : target.isolation = .discriminator column value)

/-- The tenant predicate selects exactly the tenant's rows. -/
theorem selects_tenantPredicate (row : Row) :
    (Filter.compare column .equal (.string value)).Selects S row ↔
      row.Carries column value := by
  unfold Filter.Selects
  rw [Filter.eval_compare]
  exact S.compare_equal_string _ _

include htarget

/-- A stamped row belongs to the tenant, whatever it held before. -/
theorem carries_stamp (row : Row) : (stamp row target).Carries column value := by
  simp [stamp, htarget, Row.Carries]

/-- Stamped changes act as the caller's own, up to the discriminator. -/
theorem merge_stamp (row changes : Row) :
    row.merge (stamp changes target) = stamp (row.merge changes) target := by
  apply Row.ext_get
  intro field
  simp only [stamp, htarget, Row.get_merge]
  by_cases hfield : column = field
  · subst hfield
    simp
  · rw [Row.get_with_ne _ _ hfield, Row.get_with_ne _ _ hfield, Row.get_merge]

/-- A scoped mutation reaches the tenant's part of what the caller's reaches. -/
theorem affects_forTarget (spec : MutationSpec) (row : Row) :
    (spec.forTarget target).Affects S row ↔
      spec.Affects S row ∧ row.Carries column value := by
  cases spec <;>
    simp only [MutationSpec.forTarget, htarget, IsolationModel.tenantPredicate,
      MutationSpec.Affects, matches_conjoin, selects_tenantPredicate, false_and]

/-- A row of another tenant comes through a scoped mutation as it was. -/
theorem effect_forTarget_of_foreign (spec : MutationSpec) {row : Row}
    (hforeign : row.Foreign column value) :
    (spec.forTarget target).effect S row = some row :=
  MutationSpec.effect_of_not_affects S fun haffects =>
    hforeign ((affects_forTarget htarget spec row).mp haffects).2

/-- On the tenant's own rows a scoped mutation does what the caller's does, and
stamps what is left. -/
theorem effect_forTarget_of_own (spec : MutationSpec) {row : Row}
    (hown : row.Carries column value) (haffects : spec.Affects S row) :
    (spec.forTarget target).effect S row =
      (spec.effect S row).map (stamp · target) := by
  have hscoped := (affects_forTarget htarget spec row).mpr ⟨haffects, hown⟩
  cases spec with
  | insert collection rows => exact haffects.elim
  | update collection filter changes =>
      simp only [MutationSpec.forTarget, htarget, IsolationModel.tenantPredicate,
        MutationSpec.Affects, MutationSpec.effect] at hscoped haffects ⊢
      rw [if_pos hscoped, if_pos haffects, Option.map_some, merge_stamp htarget]
  | delete collection filter =>
      simp only [MutationSpec.forTarget, htarget, IsolationModel.tenantPredicate,
        MutationSpec.Affects, MutationSpec.effect] at hscoped haffects ⊢
      rw [if_pos hscoped, if_pos haffects, Option.map_none]

/-- A row of the tenant stays with the tenant. -/
theorem carries_of_mem_effect_forTarget (spec : MutationSpec) {row after : Row}
    (hown : row.Carries column value)
    (hafter : after ∈ (spec.forTarget target).effect S row) :
    after.Carries column value := by
  by_cases haffects : spec.Affects S row
  · rw [effect_forTarget_of_own htarget spec hown haffects, Option.mem_map] at hafter
    obtain ⟨changed, -, rfl⟩ := hafter
    exact carries_stamp htarget changed
  · have hscoped : ¬ (spec.forTarget target).Affects S row := fun h =>
      haffects ((affects_forTarget htarget spec row).mp h).1
    rw [MutationSpec.effect_of_not_affects S hscoped] at hafter
    cases hafter
    exact hown

/-- What a scoped mutation adds is the caller's rows, each stamped. -/
theorem created_forTarget (spec : MutationSpec) :
    (spec.forTarget target).created = spec.created.map (stamp · target) := by
  cases spec <;>
    simp [MutationSpec.forTarget, htarget, IsolationModel.tenantPredicate,
      MutationSpec.created]

/-- Every row a scoped mutation adds belongs to the tenant. -/
theorem carries_of_mem_created_forTarget (spec : MutationSpec) {row : Row}
    (hrow : row ∈ (spec.forTarget target).created) : row.Carries column value := by
  rw [created_forTarget htarget, List.mem_map] at hrow
  obtain ⟨original, -, rfl⟩ := hrow
  exact carries_stamp htarget original

/-- The other tenants' part of the collection, repeated rows included, is the
same before and after. -/
theorem filter_foreign_execute_forTarget (spec : MutationSpec) (table : Multiset Row) :
    ((spec.forTarget target).execute S table).filter (Row.Foreign column value) =
      table.filter (Row.Foreign column value) := by
  have hcreated : ((spec.forTarget target).created : Multiset Row).filter
      (Row.Foreign column value) = 0 := by
    rw [Multiset.filter_eq_nil]
    intro row hrow hforeign
    exact hforeign (carries_of_mem_created_forTarget htarget spec hrow)
  unfold MutationSpec.execute
  rw [Multiset.filter_add, hcreated, Multiset.add_zero]
  induction table using Multiset.induction with
  | empty => rfl
  | cons row table ih =>
      by_cases hforeign : row.Foreign column value
      · rw [Multiset.filter_cons_of_pos _ hforeign,
          Multiset.filterMap_cons_some _ _ _
            (effect_forTarget_of_foreign htarget spec hforeign),
          Multiset.filter_cons_of_pos _ hforeign, ih]
      · have hown : row.Carries column value := not_not.mp hforeign
        rw [Multiset.filter_cons_of_neg _ hforeign, ← ih]
        cases heffect : (spec.forTarget target).effect S row with
        | none => rw [Multiset.filterMap_cons_none _ _ heffect]
        | some after =>
            have hafter : ¬ after.Foreign column value := fun hforeign =>
              hforeign (carries_of_mem_effect_forTarget htarget spec hown heffect)
            rw [Multiset.filterMap_cons_some _ _ _ heffect,
              Multiset.filter_cons_of_neg _ hafter]

/-- A scoped read returns the tenant's part of what the caller's returns. -/
theorem rows_forTarget (spec : QuerySpec) (table : Multiset Row) :
    (spec.forTarget target).rows S table =
      (spec.rows S table).filter (Row.Carries column value) := by
  have hmatches : ∀ row, Matches S (spec.forTarget target).filter row ↔
      row.Carries column value ∧ Matches S spec.filter row := by
    intro row
    cases hfilter : spec.filter <;>
      simp [QuerySpec.forTarget, htarget, IsolationModel.tenantPredicate, hfilter,
        selects_tenantPredicate, and_comm]
  unfold QuerySpec.rows
  rw [Multiset.filter_filter]
  exact Multiset.filter_congr fun row _ => hmatches row

end Discriminator

/-- Isolation by discriminator does not interfere.  Scoped to a target, a mutation
leaves every other tenant's row alone (one by one, and as a part of the whole
collection), lets none of the tenant's rows go, adds only rows of the tenant, and
reaches exactly the tenant's part of what the caller's own would reach; to those rows it
does what the caller's own does, and it adds the caller's rows, each stamped; and a read
returns exactly the tenant's part of what the caller's own would return. -/
theorem discriminator_does_not_interfere (S : FilterSemantics) (target : ExecutionTarget)
    (column : FieldName) (value : String)
    (htarget : target.isolation = .discriminator column value)
    (spec : MutationSpec) (query : QuerySpec) (table : Multiset Row) :
    (∀ row, row.Foreign column value →
      (spec.forTarget target).effect S row = some row) ∧
    (∀ row, row.Carries column value →
      ∀ after ∈ (spec.forTarget target).effect S row, after.Carries column value) ∧
    (∀ row ∈ (spec.forTarget target).created, row.Carries column value) ∧
    ((spec.forTarget target).execute S table).filter (Row.Foreign column value) =
      table.filter (Row.Foreign column value) ∧
    table.filter ((spec.forTarget target).Affects S) =
      (table.filter (spec.Affects S)).filter (Row.Carries column value) ∧
    (∀ row, row.Carries column value → spec.Affects S row →
      (spec.forTarget target).effect S row = (spec.effect S row).map (stamp · target)) ∧
    (spec.forTarget target).created = spec.created.map (stamp · target) ∧
    (query.forTarget target).rows S table =
      (query.rows S table).filter (Row.Carries column value) := by
  refine ⟨?_, ?_, ?_, ?_, ?_, ?_, ?_, ?_⟩
  · exact fun row hforeign => effect_forTarget_of_foreign htarget spec hforeign
  · exact fun row hown after => carries_of_mem_effect_forTarget htarget spec hown
  · exact fun row => carries_of_mem_created_forTarget htarget spec
  · exact filter_foreign_execute_forTarget htarget spec table
  · rw [Multiset.filter_filter]
    refine Multiset.filter_congr fun row _ => ?_
    rw [affects_forTarget htarget, and_comm]
  · exact fun row hown haffects => effect_forTarget_of_own htarget spec hown haffects
  · exact created_forTarget htarget spec
  · exact rows_forTarget htarget query table

/-- A shared collection's discriminator column. -/
def tenantKey : FieldName := ⟨"tenant_key", by decide⟩

/-- The target of a tenant in a shared collection. -/
def acmeTarget : ExecutionTarget where
  tenant := ⟨"acme", by decide⟩
  tenantRevision := 1
  dataSource := ⟨"shared", by decide⟩
  dataSourceRevision := 1
  connector := ⟨"warehouse", by decide⟩
  connection := .default
  isolation := .discriminator tenantKey "acme"

theorem invoices_accepted : (IdentifierKind.collectionName.parse "invoices").isOk = true := by
  decide

/-- An update of every row, scoped to one of two tenants. -/
def closeInvoices : MutationSpec :=
  .update ⟨"invoices", invoices_accepted⟩ none
    (Row.new.with ⟨"status", statusField_accepted⟩ (.string "closed"))

/-- It changes the tenant's own row, and leaves the other's as it was. -/
theorem update_all_leaves_the_other_tenant :
    ((closeInvoices.forTarget acmeTarget).execute .plain
        {Row.new.with tenantKey (.string "acme"),
          Row.new.with tenantKey (.string "globex")}).filter (Row.Foreign tenantKey "acme") =
      {Row.new.with tenantKey (.string "globex")} ∧
    (((closeInvoices.forTarget acmeTarget).effect .plain
        (Row.new.with tenantKey (.string "acme"))).bind
          (·.get ⟨"status", statusField_accepted⟩)) = some (.string "closed") := by
  obtain ⟨-, -, -, hforeign, -, hown, -⟩ := discriminator_does_not_interfere .plain acmeTarget
    tenantKey "acme" rfl closeInvoices ⟨⟨"invoices", invoices_accepted⟩, [], none, [], none, none⟩
    {Row.new.with tenantKey (.string "acme"), Row.new.with tenantKey (.string "globex")}
  refine ⟨hforeign.trans (by decide), ?_⟩
  rw [hown _ (by decide) (by decide)]
  decide +kernel

end SaasFabric
