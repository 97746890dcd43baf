import RecordQuery.Predicate.Meaning

/-!
Induction over predicates. A connective holds a list of predicates, and the functions on predicates
have companions that recurse over such lists; here the induction gets one hypothesis for each part,
and every companion is read once as the list operation that it is.
-/

namespace RecordQuery.Predicate

/-- Tests that agree on each part agree on whether all parts pass. -/
theorem all_congr_of_mem {α : Type} {parts : List α} {test test' : α → Bool}
    (same : ∀ part ∈ parts, test part = test' part) : parts.all test = parts.all test' := by
  rw [Bool.eq_iff_iff, List.all_eq_true, List.all_eq_true]
  refine forall₂_congr fun part mem => ?_
  rw [same part mem]

theorem any_congr_of_mem {α : Type} {parts : List α} {test test' : α → Bool}
    (same : ∀ part ∈ parts, test part = test' part) : parts.any test = parts.any test' := by
  rw [Bool.eq_iff_iff, List.any_eq_true, List.any_eq_true]
  refine exists_congr fun part => and_congr_right fun mem => ?_
  rw [same part mem]

@[elab_as_elim, induction_eliminator]
theorem induct {motive : Predicate → Prop}
    (equals : ∀ field value, motive (.equals field value))
    (notEquals : ∀ field value, motive (.notEquals field value))
    (range : ∀ field lower upper, motive (.range field lower upper))
    (isNull : ∀ field, motive (.isNull field))
    (isNotNull : ∀ field, motive (.isNotNull field))
    (member : ∀ field values negated, motive (.member field values negated))
    (and : ∀ parts, (∀ part ∈ parts, motive part) → motive (.and parts))
    (or : ∀ parts, (∀ part ∈ parts, motive part) → motive (.or parts))
    (predicate : Predicate) : motive predicate := by
  refine @Predicate.rec motive (fun parts => ∀ part ∈ parts, motive part)
    equals notEquals range isNull isNotNull member and or ?_ ?_ predicate
  · simp
  · intro first rest first_holds rest_hold
    simpa using ⟨first_holds, rest_hold⟩

theorem expressions_eq_map (parts : List Predicate) : expressions parts = parts.map expression := by
  induction parts with
  | nil => rfl
  | cons part rest ih => rw [expressions, ih, List.map_cons]

theorem allHold_eq_all (record : Record) (parts : List Predicate) :
    allHold record parts = parts.all fun part => part.holds record := by
  induction parts with
  | nil => rfl
  | cons part rest ih => rw [allHold, ih, List.all_cons]

theorem someHolds_eq_any (record : Record) (parts : List Predicate) :
    someHolds record parts = parts.any fun part => part.holds record := by
  induction parts with
  | nil => rfl
  | cons part rest ih => rw [someHolds, ih, List.any_cons]

theorem mapValuesIn_eq_map (change : Value → Value) (parts : List Predicate) :
    mapValuesIn change parts = parts.map fun part => part.mapValues change := by
  induction parts with
  | nil => rfl
  | cons part rest ih => rw [mapValuesIn, ih, List.map_cons]

theorem narrowings_eq_filterMap (bin : String) (parts : List Predicate) :
    narrowings bin parts = parts.filterMap fun part => part.narrow? bin := by
  induction parts with
  | nil => rfl
  | cons part rest ih =>
    rw [narrowings, ih, List.filterMap_cons]
    cases part.narrow? bin <;> rfl

theorem comparedFieldsIn_eq_flatMap (parts : List Predicate) :
    comparedFieldsIn parts = parts.flatMap comparedFields := by
  induction parts with
  | nil => rfl
  | cons part rest ih => rw [comparedFieldsIn, ih, List.flatMap_cons]

theorem mem_binNames_iff {predicate : Predicate} {name : String} :
    name ∈ predicate.binNames ↔ name ∈ predicate.comparedFields ∧ name ≠ keyField := by
  rw [binNames, List.mem_eraseDups, List.mem_filter, bne_iff_ne]

theorem holds_and (parts : List Predicate) (record : Record) :
    (and parts).holds record = parts.all fun part => part.holds record := by
  rw [holds, allHold_eq_all]

theorem holds_or (parts : List Predicate) (record : Record) :
    (or parts).holds record = parts.any fun part => part.holds record := by
  rw [holds, someHolds_eq_any]

end RecordQuery.Predicate
