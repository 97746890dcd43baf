import RecordQuery.Proofs.Predicate.Booleans
import RecordQuery.Proofs.Predicate.Meaning

/-!
Records with their booleans written as integers. Equality is by structure for booleans and by order for
integers, and either way two booleans are equal just if the integers that stand for them are; a boolean
and a number, though, may become equal. So a predicate says of such a record what it says of the record
itself, once it is written so too, as long as it compares booleans with booleans only and orders none.
-/

namespace RecordQuery

def Value.isBool : Value → Bool
  | .bool _ => true
  | _ => false

/-- The record of a store that keeps booleans as integers. What is inside a list or a map stays. -/
def Record.boolsAsInts (record : Record) : Record :=
  { record with bins := record.bins.mapValues Expression.boolAsInt }

namespace Expression

theorem boolAsInt_of_not_bool {value : Value} (not_bool : value.isBool = false) :
    boolAsInt value = value := by
  cases value with
  | bool value => cases not_bool
  | _ => rfl

theorem isBool_boolAsInt (value : Value) : (boolAsInt value).isBool = false := by
  cases value with
  | bool value => cases value <;> rfl
  | _ => rfl

theorem boolAsInt_eq_iff {value : Value} : boolAsInt value = value ↔ value.isBool = false := by
  constructor
  · intro same
    rw [← same, isBool_boolAsInt]
  · exact boolAsInt_of_not_bool

theorem isNil_boolAsInt (value : Value) : (boolAsInt value).isNil = value.isNil := by
  cases value with
  | bool value => cases value <;> rfl
  | _ => rfl

theorem boolAsInt_boolAsInt (value : Value) : boolAsInt (boolAsInt value) = boolAsInt value :=
  boolAsInt_of_not_bool (isBool_boolAsInt value)

/-- Two values that are both booleans, or both none, are equal just if they are when written so. -/
theorem equalTo_boolAsInt {actual value : Value} (alike : actual.isBool = value.isBool) :
    (boolAsInt actual).equalTo (boolAsInt value) = actual.equalTo value := by
  cases is_bool : value.isBool with
  | false =>
    rw [boolAsInt_of_not_bool is_bool, boolAsInt_of_not_bool (alike.trans is_bool)]
  | true =>
    have actual_bool := alike.trans is_bool
    cases value with
    | bool value =>
      cases actual with
      | bool actual => cases actual <;> cases value <;> rfl
      | _ => cases actual_bool
    | _ => cases is_bool

theorem boolsAsInts_boolsAsInts (expression : Expression) :
    expression.boolsAsInts.boolsAsInts = expression.boolsAsInts := by
  have in_parts {parts : List Expression}
      (each : ∀ part ∈ parts, part.boolsAsInts.boolsAsInts = part.boolsAsInts) :
      boolsAsIntsIn (boolsAsIntsIn parts) = boolsAsIntsIn parts := by
    rw [boolsAsIntsIn_eq_map, boolsAsIntsIn_eq_map, List.map_map]
    exact List.map_congr_left each
  induction expression with
  | value operand => rw [boolsAsInts, boolsAsInts, boolAsInt_boolAsInt]
  | compare comparison left right left_ih right_ih =>
    rw [boolsAsInts, boolsAsInts, left_ih, right_ih]
  | oneOf operand values ih =>
    rw [boolsAsInts, boolsAsInts, ih, List.map_map]
    congr 1
    exact List.map_congr_left fun value _ => boolAsInt_boolAsInt value
  | and parts ih => rw [boolsAsInts, boolsAsInts, in_parts ih]
  | or parts ih => rw [boolsAsInts, boolsAsInts, in_parts ih]
  | not part ih => rw [boolsAsInts, boolsAsInts, ih]
  | _ => rfl

end Expression

theorem Fields.get?_mapValues {α β : Type} (fields : Fields α) (change : α → β) (name : String) :
    (fields.mapValues change).get? name = (fields.get? name).map change := by
  induction fields with
  | nil => rfl
  | cons field rest ih =>
    obtain ⟨key, value⟩ := field
    change Fields.get? ((key, change value) :: Fields.mapValues change rest) name = _
    rw [Fields.get?_cons, Fields.get?_cons, ih]
    split <;> rfl

open Expression (boolAsInt)

/-- The user key is never a boolean, and a bin is known just if it was. -/
theorem Record.field?_boolsAsInts (record : Record) (field : String) :
    record.boolsAsInts.field? field = (record.field? field).map boolAsInt := by
  have kept (key : UserKey) : boolAsInt key.value = key.value := by cases key <;> rfl
  rw [field?, field?]
  split
  · have same_key : record.boolsAsInts.userKey? = record.userKey? := rfl
    rw [same_key, userKey?]
    cases record.key with
    | none => rfl
    | some key => exact congrArg some (kept key.user).symm
  · have changed : record.boolsAsInts.bin? field = (record.bin? field).map boolAsInt :=
      Fields.get?_mapValues ..
    rw [knownBin?, knownBin?, changed]
    cases record.bin? field with
    | none => rfl
    | some actual =>
      rw [Option.map_some, Option.filter_some, Option.filter_some, Expression.isNil_boolAsInt]
      split <;> rfl

namespace Predicate

/-- The predicate tests the record for equality of booleans with booleans and of other values with other
values, and orders no booleans. -/
inductive BooleansApart (record : Record) : Predicate → Prop
  | equals (field : String) (value : Value)
    (alike : ∀ actual ∈ record.field? field, actual.isBool = value.isBool) :
    BooleansApart record (.equals field value)
  | notEquals (field : String) (value : Value)
    (alike : ∀ actual ∈ record.field? field, actual.isBool = value.isBool) :
    BooleansApart record (.notEquals field value)
  | range (field : String) (lower upper : Option Limit)
    (actual_ordered : ∀ actual ∈ record.field? field, actual.isBool = false)
    (lower_ordered : ∀ limit ∈ lower, limit.value.isBool = false)
    (upper_ordered : ∀ limit ∈ upper, limit.value.isBool = false) :
    BooleansApart record (.range field lower upper)
  | isNull (field : String) : BooleansApart record (.isNull field)
  | isNotNull (field : String) : BooleansApart record (.isNotNull field)
  | member (field : String) (values : List Value) (negated : Bool)
    (alike : ∀ actual ∈ record.field? field, ∀ value ∈ values, actual.isBool = value.isBool) :
    BooleansApart record (.member field values negated)
  | and (parts : List Predicate) (apart : ∀ part ∈ parts, BooleansApart record part) :
    BooleansApart record (.and parts)
  | or (parts : List Predicate) (apart : ∀ part ∈ parts, BooleansApart record part) :
    BooleansApart record (.or parts)

theorem map_boolAsInt_of_ordered {limit : Option Limit}
    (ordered : ∀ given ∈ limit, given.value.isBool = false) :
    (limit.map fun limit => { limit with value := boolAsInt limit.value }) = limit := by
  cases limit with
  | none => rfl
  | some limit =>
    rw [Option.map_some, Expression.boolAsInt_of_not_bool (ordered limit rfl)]

theorem any_field?_boolsAsInts {record : Record} {field : String} {test test' : Value → Bool}
    (same : ∀ actual ∈ record.field? field, test (boolAsInt actual) = test' actual) :
    (record.boolsAsInts.field? field).any test = (record.field? field).any test' := by
  rw [Record.field?_boolsAsInts]
  cases known : record.field? field with
  | none => rfl
  | some actual => exact same actual known

theorem holds_boolsAsInts {predicate : Predicate} {record : Record}
    (apart : predicate.BooleansApart record) :
    (predicate.mapValues boolAsInt).holds record.boolsAsInts = predicate.holds record := by
  induction apart with
  | equals field value alike =>
    exact any_field?_boolsAsInts fun actual known => Expression.equalTo_boolAsInt (alike actual known)
  | notEquals field value alike =>
    refine any_field?_boolsAsInts fun actual known => ?_
    rw [Expression.equalTo_boolAsInt (alike actual known)]
  | range field lower upper actual_ordered lower_ordered upper_ordered =>
    rw [mapValues, map_boolAsInt_of_ordered lower_ordered, map_boolAsInt_of_ordered upper_ordered]
    refine any_field?_boolsAsInts fun actual known => ?_
    rw [Expression.boolAsInt_of_not_bool (actual_ordered actual known)]
  | isNull field =>
    rw [mapValues, holds, holds, Record.field?_boolsAsInts, Option.isNone_map]
  | isNotNull field =>
    rw [mapValues, holds, holds, Record.field?_boolsAsInts, Option.isSome_map]
  | member field values negated alike =>
    refine any_field?_boolsAsInts fun actual known => ?_
    congr 1
    rw [List.any_map]
    exact any_congr_of_mem fun value mem => Expression.equalTo_boolAsInt (alike actual known value mem)
  | and parts _ ih =>
    rw [mapValues, mapValuesIn_eq_map, holds_and, holds_and, List.all_map]
    exact all_congr_of_mem ih
  | or parts _ ih =>
    rw [mapValues, mapValuesIn_eq_map, holds_or, holds_or, List.any_map]
    exact any_congr_of_mem ih

/-- A store that keeps booleans as integers gives the same answer to a predicate that is written so, unless
the predicate compares a boolean with something else or orders it. Writing an expression so twice is
writing it so once. -/
theorem booleans_written_as_integers_keep_answer :
    (∀ (predicate : Predicate) (record : Record), predicate.BooleansApart record →
      predicate.expression.boolsAsInts.holds record.boolsAsInts = predicate.expression.holds record) ∧
    ∀ expression : Expression, expression.boolsAsInts.boolsAsInts = expression.boolsAsInts := by
  refine ⟨?_, Expression.boolsAsInts_boolsAsInts⟩
  intro predicate record apart
  rw [boolsAsInts_expression, holds_expression, holds_expression]
  exact holds_boolsAsInts apart

/-- The age is no boolean, so it may be ordered; the bins that hold booleans meet booleans only. -/
theorem active_adult_found_either_way :
    let ann : Record :=
      { key := none, generation := 1
        bins := [("active", .bool true), ("age", .int 30), ("vip", .bool false)] }
    let predicate : Predicate := .and [
      .equals "active" (.bool true), .member "vip" [.bool true] true, .atLeast "age" (.int 18),
      .isNull "left"]
    predicate.BooleansApart ann ∧ predicate.expression.holds ann = true ∧
      predicate.expression.boolsAsInts.holds ann.boolsAsInts = true := by
  intro ann predicate
  have apart : predicate.BooleansApart ann := by
    refine .and _ fun part mem => ?_
    simp only [List.mem_cons, List.not_mem_nil, or_false] at mem
    obtain rfl | rfl | rfl | rfl := mem
    · exact .equals _ _ (by decide)
    · exact .member _ _ _ (by decide)
    · exact .range _ _ _ (by decide) (by decide) (by decide)
    · exact .isNull _
  have holds : predicate.expression.holds ann = true := by decide +kernel
  exact ⟨apart, holds, (booleans_written_as_integers_keep_answer.1 predicate ann apart).trans holds⟩

end Predicate

end RecordQuery
