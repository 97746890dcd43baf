import RecordQuery.Proofs.Expression.Induction
import RecordQuery.Proofs.Predicate.Induction

/-!
Booleans as integers. Writing the booleans of an expression as integers is the same as writing those of
the predicate so, before it is translated.
-/

namespace RecordQuery.Predicate

open Expression (boolAsInt boolsAsIntsIn_eq_map)

theorem boolsAsInts_operand (field : String) : (operand field).boolsAsInts = operand field := by
  unfold operand
  split <;> rfl

theorem boolsAsInts_known (field : String) : (known field).boolsAsInts = known field := by
  unfold known
  split <;> rfl

theorem boolsAsInts_lowerBound (field : String) (limit : Limit) :
    (lowerBound field limit).boolsAsInts =
      lowerBound field { limit with value := boolAsInt limit.value } := by
  rw [lowerBound, Expression.boolsAsInts, boolsAsInts_operand]
  rfl

theorem boolsAsInts_upperBound (field : String) (limit : Limit) :
    (upperBound field limit).boolsAsInts =
      upperBound field { limit with value := boolAsInt limit.value } := by
  rw [upperBound, Expression.boolsAsInts, boolsAsInts_operand]
  rfl

theorem boolsAsIntsIn_expressions {parts : List Predicate}
    (each : ∀ part ∈ parts, part.expression.boolsAsInts = (part.mapValues boolAsInt).expression) :
    Expression.boolsAsIntsIn (expressions parts) = expressions (mapValuesIn boolAsInt parts) := by
  rw [boolsAsIntsIn_eq_map, expressions_eq_map, expressions_eq_map, mapValuesIn_eq_map, List.map_map,
    List.map_map]
  exact List.map_congr_left each

theorem boolsAsInts_expression (predicate : Predicate) :
    predicate.expression.boolsAsInts = (predicate.mapValues boolAsInt).expression := by
  induction predicate with
  | equals field value =>
    rw [expression, Expression.boolsAsInts, boolsAsInts_operand]
    rfl
  | notEquals field value =>
    rw [expression, Expression.boolsAsInts, boolsAsInts_operand]
    rfl
  | range field lower upper =>
    cases lower with
    | none =>
      cases upper with
      | none => exact boolsAsInts_known field
      | some upper => exact boolsAsInts_upperBound field upper
    | some lower =>
      cases upper with
      | none => exact boolsAsInts_lowerBound field lower
      | some upper =>
        rw [expression, Expression.boolsAsInts, boolsAsIntsIn_eq_map, List.map_cons, List.map_cons,
          boolsAsInts_lowerBound, boolsAsInts_upperBound]
        rfl
  | isNull field =>
    rw [expression, Expression.boolsAsInts, boolsAsInts_known]
    rfl
  | isNotNull field => exact boolsAsInts_known field
  | member field values negated =>
    cases negated with
    | false =>
      rw [expression, Expression.boolsAsInts, boolsAsInts_operand]
      rfl
    | true =>
      rw [expression, Expression.boolsAsInts, boolsAsIntsIn_eq_map, List.map_cons, List.map_cons,
        Expression.boolsAsInts, Expression.boolsAsInts, boolsAsInts_operand, boolsAsInts_known]
      rfl
  | and parts ih =>
    rw [expression, Expression.boolsAsInts, boolsAsIntsIn_expressions ih]
    rfl
  | or parts ih =>
    rw [expression, Expression.boolsAsInts, boolsAsIntsIn_expressions ih]
    rfl

end RecordQuery.Predicate
