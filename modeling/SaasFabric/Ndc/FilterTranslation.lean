import Mathlib.Data.List.Forall2
import Mathlib.Tactic.Common
import SaasFabric.Ndc.Expression

/-!
# Translating a filter never changes which rows match

Whatever `to_expression` returns renders its filter clause by clause, in columns and
operators the schema declares.  A rendering means what the filter means, except that
a containment over a column whose type has no exact containment may match more.
-/

namespace SaasFabric
namespace Ndc

open Library (Truth)

section Rendering

variable (schema : NdcSchemaResponse) (collection : CollectionName)

/-- An expression compares a field with a literal by an operator the field's scalar
type declares for a meaning; or, for containment where it declares no exact one, for
the case-insensitive form. -/
def Compares (field : FieldName) (semantic : SemanticOperator) (value : Value)
    (expression : NdcExpression) : Prop :=
  ∃ operator definition,
    expression = .binaryComparisonOperator (.column field.value) operator ⟨value⟩ ∧
      schema.operatorOf collection.value field.value operator = some definition ∧
      (definition = semantic.definition ∨
        definition = .containsInsensitive ∧ semantic = .contains ∧
          ¬ schema.ContainsExactly collection field)

mutual

/-- An expression renders a filter: it has the filter's shape, an inequality as a
negated equality and a membership test as its values or one equality a value. -/
def Renders : Filter → NdcExpression → Prop
  | .and clauses, expression =>
      ∃ expressions, expression = .and expressions ∧ RendersAll clauses expressions
  | .or clauses, expression =>
      ∃ expressions, expression = .or expressions ∧ RendersAll clauses expressions
  | .not clause, expression => ∃ inner, expression = .not inner ∧ Renders clause inner
  | .isNull field, expression =>
      (schema.fieldOf collection.value field.value).isSome ∧
        expression = .unaryComparisonOperator (.column field.value) .isNull
  | .compare field .notEqual value, expression =>
      ∃ inner, expression = .not inner ∧ Compares schema collection field .equal value inner
  | .compare field operator value, expression =>
      Compares schema collection field (.forNeutral operator) value expression
  | .in field values, expression =>
      values ≠ [] ∧
        (Compares schema collection field .in (.array values) expression ∨
          ∃ expressions, expression = .or expressions ∧
            List.Forall₂ (fun value => Compares schema collection field .equal value)
              values expressions)

/-- The clauses of a list are rendered one by one, in order: none is left out. -/
def RendersAll : List Filter → List NdcExpression → Prop
  | [], [] => True
  | clause :: clauses, expression :: expressions =>
      Renders clause expression ∧ RendersAll clauses expressions
  | _, _ => False

end

end Rendering

section Translated

variable {schema : NdcSchemaResponse} {collection : CollectionName}

theorem comparison_compares {field : FieldName} {semantic : SemanticOperator} {value : Value}
    {expression : NdcExpression}
    (h : comparison collection field semantic value (.build schema) = .ok expression) :
    Compares schema collection field semantic value expression := by
  unfold comparison at h
  split at h
  · rename_i operator hoperator
    cases h
    obtain ⟨definition, hdefinition, hfits⟩ := operatorName_build hoperator
    exact ⟨operator, definition, rfl, hdefinition, hfits⟩
  · cases h

theorem translateMembership_renders {field : FieldName} {values : List Value}
    {expression : NdcExpression}
    (h : translateMembership collection field values (.build schema) = .ok expression) :
    Renders schema collection (.in field values) expression := by
  unfold translateMembership at h
  rw [Library.bind_eq_ok] at h
  obtain ⟨_, hnonempty, hrest⟩ := h
  have hvalues : values ≠ [] := by
    rintro rfl
    cases hnonempty
  rw [Renders]
  refine ⟨hvalues, ?_⟩
  split at hrest
  · rename_i operator hoperator
    cases hrest
    obtain ⟨definition, hdefinition, hfits⟩ := operatorName_build hoperator
    exact Or.inl ⟨operator, definition, rfl, hdefinition, hfits⟩
  · rw [Library.map_eq_ok] at hrest
    obtain ⟨expressions, htranslated, rfl⟩ := hrest
    rw [Library.mapM_eq_ok] at htranslated
    exact Or.inr ⟨expressions, rfl, htranslated.imp fun _ _ => comparison_compares⟩

/-- A list of clauses is rendered when each of them is. -/
theorem translateAll_renders {clauses : List Filter} {expressions : List NdcExpression}
    (hclauses : ∀ clause ∈ clauses, ∀ expression,
      toExpression collection clause (.build schema) = .ok expression →
        Renders schema collection clause expression)
    (h : translateAll collection clauses (.build schema) = .ok expressions) :
    RendersAll schema collection clauses expressions := by
  induction clauses generalizing expressions with
  | nil =>
      rw [translateAll] at h
      cases h
      rw [RendersAll]
      trivial
  | cons clause clauses ih =>
      rw [translateAll] at h
      simp only [Library.bind_eq_ok] at h
      obtain ⟨expression, hhead, rest, htail, hok⟩ := h
      cases hok
      rw [RendersAll]
      exact ⟨hclauses clause List.mem_cons_self expression hhead,
        ih (fun other hother => hclauses other (List.mem_cons_of_mem _ hother)) htail⟩

/-- Every translation renders its filter. -/
theorem toExpression_renders {filter : Filter} {expression : NdcExpression}
    (h : toExpression collection filter (.build schema) = .ok expression) :
    Renders schema collection filter expression := by
  induction filter generalizing expression with
  | and clauses ih =>
      rw [toExpression, Library.map_eq_ok] at h
      obtain ⟨expressions, hall, rfl⟩ := h
      rw [Renders]
      exact ⟨expressions, rfl, translateAll_renders (fun clause hclause _ => ih clause hclause)
        hall⟩
  | or clauses ih =>
      rw [toExpression, Library.map_eq_ok] at h
      obtain ⟨expressions, hall, rfl⟩ := h
      rw [Renders]
      exact ⟨expressions, rfl, translateAll_renders (fun clause hclause _ => ih clause hclause)
        hall⟩
  | not clause ih =>
      rw [toExpression, Library.map_eq_ok] at h
      obtain ⟨inner, hinner, rfl⟩ := h
      rw [Renders]
      exact ⟨inner, rfl, ih hinner⟩
  | compare field operator value =>
      by_cases hoperator : operator = .notEqual
      · subst hoperator
        rw [toExpression, Library.map_eq_ok] at h
        obtain ⟨inner, hinner, rfl⟩ := h
        rw [Renders]
        exact ⟨inner, rfl, comparison_compares hinner⟩
      · rw [toExpression] at h
        · rw [Renders]
          · exact comparison_compares h
          · exact hoperator
        · exact hoperator
  | isNull field =>
      rw [toExpression] at h
      unfold translateNullCheck at h
      split at h
      · rename_i hfield
        cases h
        rw [Renders]
        exact ⟨hasField_build.symm.trans hfield, rfl⟩
      · cases h
  | «in» field values =>
      rw [toExpression] at h
      exact translateMembership_renders h

end Translated

/-! ## What a rendering means -/

section Meaning

variable (N : NdcSemantics) (schema : NdcSchemaResponse) (collection : CollectionName)

open Classical in
/-- What a comparison of a filter answers once it is translated: the neutral answer,
or the wider one for a containment over a type without an exact one. -/
noncomputable def answers (row : Row) (field : FieldName) (operator : ComparisonOperator)
    (value : Value) : Truth :=
  if operator = .contains ∧ ¬ schema.ContainsExactly collection field then
    N.containsInsensitive (row.get field) value
  else
    N.compare operator (row.get field) value

variable {N schema collection}

theorem answers_of_ne_contains {row : Row} {field : FieldName} {operator : ComparisonOperator}
    {value : Value} (h : operator ≠ .contains) :
    answers N schema collection row field operator value =
      N.compare operator (row.get field) value :=
  if_neg fun hwidened => h hwidened.1

theorem answers_of_containsExactly {row : Row} {field : FieldName}
    {operator : ComparisonOperator} {value : Value}
    (h : schema.ContainsExactly collection field) :
    answers N schema collection row field operator value =
      N.compare operator (row.get field) value :=
  if_neg fun hwidened => hwidened.2 h

/-- A translated comparison answers at least where the neutral one does. -/
theorem answers_widens {row : Row} {field : FieldName} {operator : ComparisonOperator}
    {value : Value} (h : N.compare operator (row.get field) value = .true) :
    answers N schema collection row field operator value = .true := by
  unfold answers
  split
  · rename_i hwidened
    rw [hwidened.1] at h
    exact N.widens _ _ h
  · exact h

/-- A rendered comparison answers what the comparison answers. -/
theorem Compares.eval {field : FieldName} {operator : ComparisonOperator} {value : Value}
    {expression : NdcExpression} (hoperator : operator ≠ .notEqual)
    (h : Compares schema collection field (.forNeutral operator) value expression) (row : Row) :
    expression.eval N schema collection row =
      answers N schema collection row field operator value := by
  obtain ⟨name, definition, rfl, hdefinition, hfits⟩ := h
  have heval : (NdcExpression.binaryComparisonOperator (.column field.value) name ⟨value⟩).eval
      N schema collection row = N.meaning definition (row.get field) value := by
    rw [NdcExpression.eval, NdcComparisonTarget.cell_column]
    simp only [NdcComparisonTarget.column, hdefinition]
  rw [heval]
  rcases hfits with rfl | ⟨rfl, hcontains, hinexact⟩
  · by_cases hcontains : operator = .contains
    · subst hcontains
      rw [answers_of_containsExactly ⟨name, hdefinition⟩]
      rfl
    · rw [answers_of_ne_contains hcontains]
      cases operator <;> first | rfl | contradiction
  · cases operator <;> first | contradiction | exact (if_pos ⟨rfl, hinexact⟩).symm

/-- A rendered equality answers what equality answers. -/
theorem Compares.eval_equal {field : FieldName} {value : Value} {expression : NdcExpression}
    (h : Compares schema collection field .equal value expression) (row : Row) :
    expression.eval N schema collection row =
      answers N schema collection row field .equal value := by
  have heval := @Compares.eval
  exact heval (by decide) h row

/-- A native membership test answers as one equality for each value would. -/
theorem Compares.eval_in {field : FieldName} {values : List Value} {expression : NdcExpression}
    (h : Compares schema collection field .in (.array values) expression) (row : Row) :
    expression.eval N schema collection row =
      Truth.any (values.map (answers N schema collection row field .equal)) := by
  obtain ⟨name, definition, rfl, hdefinition, hfits⟩ := h
  have hin : definition = .in := by
    rcases hfits with hexact | ⟨-, hcontains, -⟩
    · exact hexact
    · cases hcontains
  subst hin
  have hequal : answers N schema collection row field .equal =
      N.compare .equal (row.get field) :=
    funext fun value => answers_of_ne_contains (by decide)
  rw [NdcExpression.eval, NdcComparisonTarget.cell_column, hequal]
  simp only [NdcComparisonTarget.column, hdefinition]
  rfl

/-- Rendered equalities, one for each value, answer as equality does. -/
theorem map_eval_of_compares {field : FieldName} {values : List Value}
    {expressions : List NdcExpression}
    (h : List.Forall₂ (fun value => Compares schema collection field .equal value)
      values expressions) (row : Row) :
    expressions.map (NdcExpression.eval N schema collection row) =
      values.map (answers N schema collection row field .equal) := by
  induction h with
  | nil => rfl
  | cons hequal _ ih => rw [List.map_cons, List.map_cons, ih, hequal.eval_equal row]

/-- The truth value of a filter with its containments as they are translated. -/
noncomputable def evalTranslated (N : NdcSemantics) (schema : NdcSchemaResponse)
    (collection : CollectionName) (row : Row) (filter : Filter) : Truth :=
  filter.evalBy (answers N schema collection row) fun field => isNullCell (row.get field)

/-- A rendered list of clauses means, clause by clause, what the clauses mean. -/
theorem RendersAll.map_eval {row : Row} {clauses : List Filter}
    {expressions : List NdcExpression}
    (hclauses : ∀ clause ∈ clauses, ∀ expression, Renders schema collection clause expression →
      expression.eval N schema collection row = evalTranslated N schema collection row clause)
    (h : RendersAll schema collection clauses expressions) :
    expressions.map (NdcExpression.eval N schema collection row) =
      clauses.map (evalTranslated N schema collection row) := by
  induction clauses generalizing expressions with
  | nil =>
      cases expressions with
      | nil => rfl
      | cons expression expressions => simp [RendersAll] at h
  | cons clause clauses ih =>
      cases expressions with
      | nil => simp [RendersAll] at h
      | cons expression expressions =>
          rw [RendersAll] at h
          rw [List.map_cons, List.map_cons, hclauses clause List.mem_cons_self expression h.1,
            ih (fun other hother => hclauses other (List.mem_cons_of_mem _ hother)) h.2]

/-- A rendering means what the filter means, its containments as translated. -/
theorem Renders.eval {filter : Filter} {expression : NdcExpression}
    (h : Renders schema collection filter expression) (row : Row) :
    expression.eval N schema collection row =
      evalTranslated N schema collection row filter := by
  induction filter generalizing expression with
  | and clauses ih =>
      rw [Renders] at h
      obtain ⟨expressions, rfl, hall⟩ := h
      rw [NdcExpression.eval_and, evalTranslated, Filter.evalBy_and,
        hall.map_eval fun clause hclause _ => ih clause hclause]
      rfl
  | or clauses ih =>
      rw [Renders] at h
      obtain ⟨expressions, rfl, hall⟩ := h
      rw [NdcExpression.eval_or, evalTranslated, Filter.evalBy_or,
        hall.map_eval fun clause hclause _ => ih clause hclause]
      rfl
  | not clause ih =>
      rw [Renders] at h
      obtain ⟨inner, rfl, hinner⟩ := h
      rw [NdcExpression.eval, ih hinner, evalTranslated, evalTranslated, Filter.evalBy_not]
  | compare field operator value =>
      rw [evalTranslated, Filter.evalBy_compare]
      by_cases hoperator : operator = .notEqual
      · subst hoperator
        rw [Renders] at h
        obtain ⟨inner, rfl, hinner⟩ := h
        rw [NdcExpression.eval, hinner.eval_equal row, answers_of_ne_contains (by decide),
          answers_of_ne_contains (by decide), N.compare_notEqual]
      · rw [Renders] at h
        · exact h.eval hoperator row
        · exact hoperator
  | isNull field =>
      rw [Renders] at h
      obtain ⟨-, rfl⟩ := h
      rw [NdcExpression.eval, NdcComparisonTarget.cell_column, evalTranslated,
        Filter.evalBy_isNull]
  | «in» field values =>
      rw [Renders] at h
      rw [evalTranslated, Filter.evalBy_in]
      rcases h.2 with hnative | ⟨expressions, rfl, halternatives⟩
      · exact hnative.eval_in row
      · rw [NdcExpression.eval_or, map_eval_of_compares halternatives row]

/-- Where every containment is over a type with an exact one, the containments as
translated are the neutral ones. -/
theorem evalTranslated_eq_eval {filter : Filter} (row : Row)
    (hexact : ∀ field, (field, .contains) ∈ filter.comparisons →
      schema.ContainsExactly collection field) :
    evalTranslated N schema collection row filter = filter.eval N.toFilterSemantics row := by
  refine Filter.evalBy_congr fun comparison hcomparison value => ?_
  obtain ⟨field, operator⟩ := comparison
  by_cases hoperator : operator = .contains
  · subst hoperator
    exact answers_of_containsExactly (hexact field hcomparison)
  · exact answers_of_ne_contains hoperator

end Meaning

/-! ## What a rendering names -/

section Names

variable {schema : NdcSchemaResponse} {collection : CollectionName}

/-- A leaf is declared: its column is a field of the collection, and its operator one of
that field's scalar type. -/
def LeafDeclared (schema : NdcSchemaResponse) (collection : CollectionName)
    (leaf : NdcComparisonTarget × Option String) : Prop :=
  leaf.1.fieldPath = none ∧
    (schema.fieldOf collection.value leaf.1.name).isSome ∧
    ∀ operator ∈ leaf.2, (schema.operatorOf collection.value leaf.1.name operator).isSome

/-- An operator is declared only on a field that is. -/
theorem fieldOf_isSome_of_operatorOf {column operator : String}
    {definition : NdcComparisonOperatorDefinition}
    (h : schema.operatorOf collection.value column operator = some definition) :
    (schema.fieldOf collection.value column).isSome := by
  unfold NdcSchemaResponse.operatorOf at h
  cases hfield : schema.fieldOf collection.value column with
  | none => simp [hfield] at h
  | some field => rfl

theorem Compares.leaves_declared {field : FieldName} {semantic : SemanticOperator}
    {value : Value} {expression : NdcExpression}
    (h : Compares schema collection field semantic value expression) :
    ∀ leaf ∈ expression.leaves, LeafDeclared schema collection leaf := by
  obtain ⟨name, definition, rfl, hdefinition, -⟩ := h
  intro leaf hleaf
  rw [NdcExpression.leaves, List.mem_singleton] at hleaf
  subst hleaf
  refine ⟨rfl, fieldOf_isSome_of_operatorOf hdefinition, ?_⟩
  intro operator hoperator
  cases hoperator
  exact Option.isSome_iff_exists.mpr ⟨definition, hdefinition⟩

theorem mem_leavesAll {expressions : List NdcExpression}
    {leaf : NdcComparisonTarget × Option String} :
    leaf ∈ NdcExpression.leavesAll expressions ↔
      ∃ expression ∈ expressions, leaf ∈ expression.leaves := by
  induction expressions with
  | nil => simp [NdcExpression.leavesAll]
  | cons expression expressions ih => simp [NdcExpression.leavesAll, ih]

/-- Every expression of a rendered list renders one of the clauses. -/
theorem RendersAll.exists_clause {clauses : List Filter} {expressions : List NdcExpression}
    (h : RendersAll schema collection clauses expressions) :
    ∀ expression ∈ expressions, ∃ clause ∈ clauses,
      Renders schema collection clause expression := by
  induction clauses generalizing expressions with
  | nil =>
      cases expressions with
      | nil => simp
      | cons expression expressions => simp [RendersAll] at h
  | cons clause clauses ih =>
      cases expressions with
      | nil => simp [RendersAll] at h
      | cons expression expressions =>
          rw [RendersAll] at h
          intro other hother
          rcases List.mem_cons.mp hother with rfl | htail
          · exact ⟨clause, List.mem_cons_self, h.1⟩
          · obtain ⟨found, hfound, hrenders⟩ := ih h.2 other htail
            exact ⟨found, List.mem_cons_of_mem _ hfound, hrenders⟩

/-- What holds of everything each clause's rendering names holds of what the list's does. -/
theorem RendersAll.leaves_declared {clauses : List Filter} {expressions : List NdcExpression}
    (hclauses : ∀ clause ∈ clauses, ∀ expression, Renders schema collection clause expression →
      ∀ leaf ∈ expression.leaves, LeafDeclared schema collection leaf)
    (h : RendersAll schema collection clauses expressions) :
    ∀ leaf ∈ NdcExpression.leavesAll expressions, LeafDeclared schema collection leaf := by
  intro leaf hleaf
  obtain ⟨inner, hinner, hmem⟩ := mem_leavesAll.mp hleaf
  obtain ⟨clause, hclause, hrenders⟩ := h.exists_clause inner hinner
  exact hclauses clause hclause inner hrenders leaf hmem

/-- Everything a rendering names is declared. -/
theorem Renders.leaves_declared {filter : Filter} {expression : NdcExpression}
    (h : Renders schema collection filter expression) :
    ∀ leaf ∈ expression.leaves, LeafDeclared schema collection leaf := by
  induction filter generalizing expression with
  | and clauses ih =>
      rw [Renders] at h
      obtain ⟨expressions, rfl, hall⟩ := h
      rw [NdcExpression.leaves]
      exact hall.leaves_declared fun clause hclause _ => ih clause hclause
  | or clauses ih =>
      rw [Renders] at h
      obtain ⟨expressions, rfl, hall⟩ := h
      rw [NdcExpression.leaves]
      exact hall.leaves_declared fun clause hclause _ => ih clause hclause
  | not clause ih =>
      rw [Renders] at h
      obtain ⟨inner, rfl, hinner⟩ := h
      rw [NdcExpression.leaves]
      exact ih hinner
  | compare field operator value =>
      by_cases hoperator : operator = .notEqual
      · subst hoperator
        rw [Renders] at h
        obtain ⟨inner, rfl, hinner⟩ := h
        rw [NdcExpression.leaves]
        exact hinner.leaves_declared
      · rw [Renders] at h
        · exact h.leaves_declared
        · exact hoperator
  | isNull field =>
      rw [Renders] at h
      obtain ⟨hfield, rfl⟩ := h
      intro leaf hleaf
      rw [NdcExpression.leaves, List.mem_singleton] at hleaf
      subst hleaf
      refine ⟨rfl, hfield, ?_⟩
      intro operator hoperator
      cases hoperator
  | «in» field values =>
      rw [Renders] at h
      rcases h.2 with hnative | ⟨expressions, rfl, halternatives⟩
      · exact hnative.leaves_declared
      · intro leaf hleaf
        rw [NdcExpression.leaves, mem_leavesAll] at hleaf
        obtain ⟨inner, hinner, hmem⟩ := hleaf
        obtain ⟨value, -, hcompares⟩ := Library.exists_of_forall₂_of_mem halternatives inner hinner
        exact hcompares.leaves_declared leaf hmem

end Names

/-- Translating a filter never changes which rows match.  An expression returned for a
filter answers on every row as the filter does where every containment is over a type
with an exact one; otherwise those containments, and nothing else, answer by the
case-insensitive form, which holds wherever containment does.  Every column and every
operator it names is declared, and it renders every clause of the filter. -/
theorem toExpression_preserves_matches (N : NdcSemantics) (schema : NdcSchemaResponse)
    (collection : CollectionName) (filter : Filter) (expression : NdcExpression)
    (h : toExpression collection filter (.build schema) = .ok expression) :
    ((∀ field, (field, .contains) ∈ filter.comparisons →
        schema.ContainsExactly collection field) →
      ∀ row, expression.eval N schema collection row = filter.eval N.toFilterSemantics row) ∧
    (∀ row, expression.eval N schema collection row =
      filter.evalBy (answers N schema collection row) fun field =>
        isNullCell (row.get field)) ∧
    (∀ row field operator value, N.compare operator (row.get field) value = .true →
      answers N schema collection row field operator value = .true) ∧
    (∀ leaf ∈ expression.leaves, LeafDeclared schema collection leaf) ∧
    Renders schema collection filter expression := by
  have hrenders := toExpression_renders h
  refine ⟨?_, ?_, ?_, ?_, hrenders⟩
  · intro hexact row
    exact (hrenders.eval row).trans (evalTranslated_eq_eval row hexact)
  · exact fun row => hrenders.eval row
  · exact fun row field operator value => answers_widens
  · exact hrenders.leaves_declared

/-- A plain connector: its case-insensitive containment is containment. -/
def NdcSemantics.plain : NdcSemantics where
  toFilterSemantics := .plain
  containsInsensitive := FilterSemantics.plain.compare .contains
  widens _ _ h := h
  other _ _ _ := .unknown

/-- A schema of one collection, whose one text column has equality and both forms of
containment. -/
def customersSchema : NdcSchemaResponse where
  scalarTypes := Library.collect [("text", ⟨Library.collect
    [("_eq", .equal), ("_ilike", .containsInsensitive), ("_like", .contains)]⟩)]
  objectTypes := Library.collect [("customers", ⟨Library.collect
    [("status", ⟨.nullable (.named "text")⟩)]⟩)]
  collections := [⟨"customers", "customers"⟩]
  procedures := []

def customers : CollectionName := ⟨"customers", by decide⟩

def status : FieldName := ⟨"status", statusField_accepted⟩

/-- A membership test and a containment, translated and read back on one row. -/
theorem customers_filter_preserved :
    (NdcExpression.and
      [.or [.binaryComparisonOperator (.column "status") "_eq" ⟨.string "active"⟩],
        .binaryComparisonOperator (.column "status") "_like" ⟨.string "act"⟩]).eval
      .plain customersSchema customers (Row.new.with status (.string "active")) = .true :=
  ((toExpression_preserves_matches .plain customersSchema customers
    (.and [.in status [.string "active"], .compare status .contains (.string "act")]) _
    rfl).1 (fun field hfield => ⟨"_like", by
      have hstatus : field = status := by
        simpa [Filter.comparisons, Filter.comparisonsAll] using hfield
      rw [hstatus]
      rfl⟩) _).trans (by decide)

end Ndc
end SaasFabric
