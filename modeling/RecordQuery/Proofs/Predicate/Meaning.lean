import RecordQuery.Proofs.Predicate.Induction

/-!
The translation of predicates into expressions keeps their meaning: on every record the expression
holds exactly when the predicate does. The comparisons are settled first, each on the one operand that
its field stands for; the connectives follow by induction.
-/

namespace RecordQuery

namespace Expression

/-- A comparison with a known operand is the comparison of the values, and else false. -/
theorem holds_compare_value (comparison : Comparison) (operand : Expression) (value : Value)
    (record : Record) :
    (compare comparison operand (.value value)).holds record =
      (operand.resolve? record).any fun actual => comparison.holds actual value := by
  unfold holds
  simp only [resolve?]
  cases operand.resolve? record with
  | none => rfl
  | some actual => exact isTrue_some_bool _

theorem holds_oneOf (operand : Expression) (values : List Value) (record : Record) :
    (oneOf operand values).holds record =
      (operand.resolve? record).any fun actual => values.any actual.equalTo := by
  unfold holds
  simp only [resolve?]
  cases operand.resolve? record with
  | none => rfl
  | some actual => exact isTrue_some_bool _

end Expression

namespace Limit

theorem admitsBelow_eq (limit : Limit) (actual : Value) :
    limit.admitsBelow actual =
      Comparison.holds (if limit.inclusive then .ge else .gt) actual limit.value := by
  obtain ⟨value, inclusive⟩ := limit
  cases inclusive <;> simp only [admitsBelow, Comparison.holds] <;>
    cases actual.compare? value with
    | none => rfl
    | some order => cases order <;> rfl

theorem admitsAbove_eq (limit : Limit) (actual : Value) :
    limit.admitsAbove actual =
      Comparison.holds (if limit.inclusive then .le else .lt) actual limit.value := by
  obtain ⟨value, inclusive⟩ := limit
  cases inclusive <;> simp only [admitsAbove, Comparison.holds] <;>
    cases actual.compare? value with
    | none => rfl
    | some order => cases order <;> rfl

end Limit

namespace Predicate

theorem resolve?_operand (field : String) (record : Record) :
    (operand field).resolve? record = record.field? field := by
  unfold operand Record.field?
  split <;> rfl

theorem holds_known (field : String) (record : Record) :
    (known field).holds record = (record.field? field).isSome := by
  unfold known Record.field?
  split
  · rw [Expression.holds, Expression.resolve?, Expression.isTrue_some_bool]
    exact (Option.isSome_map ..).symm
  · rw [Expression.holds, Expression.resolve?, Expression.isTrue_some_bool]

theorem holds_lowerBound (field : String) (limit : Limit) (record : Record) :
    (lowerBound field limit).holds record = (record.field? field).any limit.admitsBelow := by
  rw [lowerBound, Expression.holds_compare_value, resolve?_operand]
  congr 1
  funext actual
  exact (limit.admitsBelow_eq actual).symm

theorem holds_upperBound (field : String) (limit : Limit) (record : Record) :
    (upperBound field limit).holds record = (record.field? field).any limit.admitsAbove := by
  rw [upperBound, Expression.holds_compare_value, resolve?_operand]
  congr 1
  funext actual
  exact (limit.admitsAbove_eq actual).symm

theorem holds_expression_range (field : String) (lower upper : Option Limit) (record : Record) :
    (range field lower upper).expression.holds record = (range field lower upper).holds record := by
  cases lower <;> cases upper <;>
    simp only [expression, holds, holds_known, holds_lowerBound, holds_upperBound,
      Expression.holds_and, List.all_cons, List.all_nil] <;>
    cases record.field? field <;> simp

theorem holds_expression_member (field : String) (values : List Value) (negated : Bool)
    (record : Record) :
    (member field values negated).expression.holds record =
      (member field values negated).holds record := by
  cases negated <;>
    simp only [expression, holds, holds_known, Expression.holds_oneOf, resolve?_operand,
      Expression.holds_and, Expression.holds_not, List.all_cons, List.all_nil] <;>
    cases record.field? field <;> simp

theorem holds_expression (predicate : Predicate) (record : Record) :
    predicate.expression.holds record = predicate.holds record := by
  induction predicate with
  | equals field value =>
    rw [expression, Expression.holds_compare_value, resolve?_operand]
    rfl
  | notEquals field value =>
    rw [expression, Expression.holds_compare_value, resolve?_operand]
    rfl
  | range field lower upper => exact holds_expression_range field lower upper record
  | isNull field =>
    rw [expression, Expression.holds_not, holds_known, holds]
    cases record.field? field <;> rfl
  | isNotNull field => rw [expression, holds_known, holds]
  | member field values negated => exact holds_expression_member field values negated record
  | and parts ih =>
    rw [expression, Expression.holds_and, holds_and, expressions_eq_map, List.all_map]
    exact all_congr_of_mem ih
  | or parts ih =>
    rw [expression, Expression.holds_or, holds_or, expressions_eq_map, List.any_map]
    exact any_congr_of_mem ih

end Predicate

end RecordQuery
