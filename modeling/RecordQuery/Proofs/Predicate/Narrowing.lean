import RecordQuery.Proofs.Filter.Intersection
import RecordQuery.Proofs.Predicate.Leaves
import RecordQuery.Proofs.Predicate.Meaning

/-!
What narrowing by an index keeps. A filter made from a predicate is on the bin that it was asked for,
and selects every record on which the predicate holds, with one exception: an index keeps integers
and texts, while a predicate also finds an integer's equal among the doubles, so a record that holds a
double in the bin is lost. The argument runs over the predicates that have a filter, first for the
leaves and then for conjunctions, whose filter is the intersection of those of their parts.
-/

namespace RecordQuery

/-- Changes no value that an index can be asked for. -/
structure Value.KeepsAnswerable (change : Value → Value) : Prop where
  int : ∀ n, change (.int n) = .int n
  string : ∀ text, change (.string text) = .string text

theorem Value.KeepsAnswerable.id : KeepsAnswerable (fun value => value) := ⟨fun _ => rfl, fun _ => rfl⟩

theorem Value.KeepsAnswerable.boolAsInt : KeepsAnswerable Expression.boolAsInt :=
  ⟨fun _ => rfl, fun _ => rfl⟩

/-- The record knows the bin, and the filter admits what is there unless it is a double. -/
def Filter.Catches (filter : Filter) (record : Record) (bin : String) : Prop :=
  ∃ actual, record.field? bin = some actual ∧
    (filter.admits actual = true ∨ ∃ x, actual = .float x)

namespace Predicate

/-- The predicates that have a filter on a bin: comparisons of that bin, and conjunctions. -/
@[elab_as_elim]
theorem narrow?_induct {bin : String} {motive : Predicate → Filter → Prop}
    (equals : ∀ value filter, equalFilter? bin value = some filter →
      motive (.equals bin value) filter)
    (range : ∀ lower upper filter, rangeFilter? bin lower upper = some filter →
      motive (.range bin lower upper) filter)
    (member : ∀ values filter, memberFilter? bin values = some filter →
      motive (.member bin values false) filter)
    (and : ∀ parts filters filter, Filter.intersectAll? filters = some filter →
      (∀ narrowed ∈ filters, ∃ part ∈ parts, motive part narrowed) → motive (.and parts) filter)
    {predicate : Predicate} {filter : Filter} (found : predicate.narrow? bin = some filter) :
    motive predicate filter := by
  induction predicate generalizing filter with
  | equals field value =>
    rw [narrow?, Option.ite_none_right_eq_some] at found
    obtain ⟨rfl, found⟩ := found
    exact equals value filter found
  | range field lower upper =>
    rw [narrow?, Option.ite_none_right_eq_some] at found
    obtain ⟨rfl, found⟩ := found
    exact range lower upper filter found
  | member field values negated =>
    cases negated with
    | true => cases found
    | false =>
      rw [narrow?, Option.ite_none_right_eq_some] at found
      obtain ⟨rfl, found⟩ := found
      exact member values filter found
  | and parts ih =>
    rw [narrow?, narrowings_eq_filterMap] at found
    refine and parts _ filter found fun narrowed mem => ?_
    obtain ⟨part, part_mem, part_found⟩ := List.mem_filterMap.1 mem
    exact ⟨part, part_mem, ih part part_mem part_found⟩
  | _ => cases found

/-- A property of the filters of single comparisons that intersections keep is one of all filters
that predicates have. -/
@[elab_as_elim]
theorem narrow?_forms {bin : String} {property : Filter → Prop}
    (int : ∀ n, property (.equal bin (.int n))) (string : ∀ text, property (.equal bin (.string text)))
    (between : ∀ first last, first ≤ last → property (.between bin first last))
    (intersect : ∀ a b c, property a → property b → a.intersect? b = some c → property c)
    {predicate : Predicate} {filter : Filter} (found : predicate.narrow? bin = some filter) :
    property filter := by
  refine narrow?_induct ?equals ?range ?member ?and found
  case equals =>
    intro value filter found
    obtain ⟨n, _, rfl⟩ | ⟨text, _, rfl⟩ := equalFilter?_cases found
    · exact int n
    · exact string text
  case range =>
    intro lower upper filter found
    obtain ⟨_, first, last, _, _, ordered, rfl⟩ := rangeFilter?_cases found
    exact between first last ordered
  case member =>
    intro values filter found
    obtain ⟨first, rest, _, rfl⟩ | ⟨text, _, rfl⟩ := memberFilter?_cases found
    · have first_mem : first ∈ first :: rest := List.mem_cons_self
      exact between _ _ (Int64.le_trans (least_le first_mem) (le_greatest first_mem))
    · exact string text
  case and =>
    intro parts filters filter found parts_have
    refine Filter.intersectAll?_induct intersect ?_ found
    intro narrowed mem
    obtain ⟨_, _, has⟩ := parts_have narrowed mem
    exact has

theorem bin_of_narrow? {predicate : Predicate} {bin : String} {filter : Filter}
    (found : predicate.narrow? bin = some filter) : filter.bin = bin := by
  refine narrow?_forms (fun _ => rfl) (fun _ => rfl) (fun _ _ _ => Filter.bin_between ..) ?_ found
  intro a b c a_bin _ met
  rw [Filter.bin_of_intersect? met, a_bin]

theorem filter?_eq_some_iff {predicate : Predicate} {bin : String} {filter : Filter} :
    predicate.filter? bin = some filter ↔ bin ≠ keyField ∧ predicate.narrow? bin = some filter := by
  rw [filter?, Option.ite_none_left_eq_some]

theorem bin_of_filter? {predicate : Predicate} {bin : String} {filter : Filter}
    (found : predicate.filter? bin = some filter) : filter.bin = bin :=
  bin_of_narrow? (filter?_eq_some_iff.1 found).2

theorem answerable_of_narrow? {predicate : Predicate} {bin : String} {filter : Filter}
    (found : predicate.narrow? bin = some filter) : filter.Answerable := by
  refine narrow?_forms (fun _ => trivial) (fun _ => trivial)
    (fun _ _ _ => Filter.answerable_between ..) ?_ found
  intro a b c a_answerable _ met
  exact a_answerable.of_intersect? met

theorem collapsed_of_narrow? {predicate : Predicate} {bin : String} {filter : Filter}
    (found : predicate.narrow? bin = some filter) : filter.Collapsed := by
  refine narrow?_forms (fun _ => trivial) (fun _ => trivial)
    (fun _ _ ordered => Filter.collapsed_between ordered) ?_ found
  intro a b c _ _ met
  exact Filter.collapsed_of_intersect? met

theorem catches_of_equals {bin : String} {value : Value} {filter : Filter} {record : Record}
    (found : equalFilter? bin value = some filter) (met : (equals bin value).holds record = true) :
    filter.Catches record bin := by
  rw [holds, Option.any_eq_true] at met
  obtain ⟨actual, known, equal⟩ := met
  refine ⟨actual, known, ?_⟩
  obtain ⟨n, rfl, rfl⟩ | ⟨text, rfl, rfl⟩ := equalFilter?_cases found
  · rcases Value.eq_int_or_float_of_equalTo equal with same | float
    · exact Or.inl (Value.beq_int_iff.2 same)
    · exact Or.inr float
  · exact Or.inl (Value.beq_string_iff.2 (Value.eq_string_of_equalTo equal))

theorem catches_of_range {bin : String} {lower upper : Option Limit} {filter : Filter}
    {record : Record} (found : rangeFilter? bin lower upper = some filter)
    (met : (range bin lower upper).holds record = true) : filter.Catches record bin := by
  obtain ⟨limited, first, last, firstFound, lastFound, _, rfl⟩ := rangeFilter?_cases found
  simp only [holds, Option.any_eq_true, Bool.and_eq_true] at met
  obtain ⟨actual, known, above, below⟩ := met
  refine ⟨actual, known, ?_⟩
  have number : (∃ n, actual = .int n) ∨ ∃ x, actual = .float x := by
    rcases limited with limited | limited
    · obtain ⟨limit, rfl⟩ := Option.isSome_iff_exists.1 limited
      obtain ⟨m, integer⟩ := int_of_firstInteger? firstFound limit rfl
      exact number_of_admits integer (Or.inl above)
    · obtain ⟨limit, rfl⟩ := Option.isSome_iff_exists.1 limited
      obtain ⟨m, integer⟩ := int_of_lastInteger? lastFound limit rfl
      exact number_of_admits integer (Or.inr below)
  obtain ⟨n, rfl⟩ | float := number
  · refine Or.inl ((Filter.admits_iff_of_bounds? (Filter.bounds?_between ..) _).2 ⟨n, rfl, ?_, ?_⟩)
    · exact (firstInteger?_le_iff firstFound n).2 above
    · exact (le_lastInteger?_iff lastFound n).2 below
  · exact Or.inr float

theorem catches_of_member {bin : String} {values : List Value} {filter : Filter} {record : Record}
    (found : memberFilter? bin values = some filter)
    (met : (member bin values false).holds record = true) : filter.Catches record bin := by
  simp only [holds, Option.any_eq_true, bne_iff_ne, ne_eq, Bool.not_eq_false, List.any_eq_true] at met
  obtain ⟨actual, known, value, mem, equal⟩ := met
  refine ⟨actual, known, ?_⟩
  obtain ⟨first, rest, rfl, rfl⟩ | ⟨text, rfl, rfl⟩ := memberFilter?_cases found
  · obtain ⟨n, n_mem, rfl⟩ := List.mem_map.1 mem
    rcases Value.eq_int_or_float_of_equalTo equal with rfl | float
    · refine Or.inl ((Filter.admits_iff_of_bounds? (Filter.bounds?_between ..) _).2 ?_)
      exact ⟨n, rfl, least_le n_mem, le_greatest n_mem⟩
    · exact Or.inr float
  · obtain rfl := List.mem_singleton.1 mem
    exact Or.inl (Value.beq_string_iff.2 (Value.eq_string_of_equalTo equal))

section Changed

variable {change : Value → Value} (keeps : Value.KeepsAnswerable change)

include keeps

theorem change_of_equalFilter? {bin : String} {value : Value} {filter : Filter}
    (found : equalFilter? bin value = some filter) : change value = value := by
  obtain ⟨n, rfl, _⟩ | ⟨text, rfl, _⟩ := equalFilter?_cases found
  · exact keeps.int n
  · exact keeps.string text

theorem change_of_limit {limit : Option Limit} (integer : ∀ given ∈ limit, ∃ m, given.value = .int m) :
    (limit.map fun limit => { limit with value := change limit.value }) = limit := by
  cases limit with
  | none => rfl
  | some given =>
    obtain ⟨m, value_eq⟩ := integer given rfl
    rw [Option.map_some, value_eq, keeps.int, ← value_eq]

theorem change_of_memberFilter? {bin : String} {values : List Value} {filter : Filter}
    (found : memberFilter? bin values = some filter) : values.map change = values := by
  obtain ⟨first, rest, rfl, _⟩ | ⟨text, rfl, _⟩ := memberFilter?_cases found
  · rw [List.map_map]
    exact List.map_congr_left fun n _ => keeps.int n
  · rw [List.map_cons, keeps.string, List.map_nil]

/-- The filter finds every record on which the predicate holds, also once its values are changed in
a way that leaves those alone of which a filter is made. -/
theorem catches_of_narrow? {predicate : Predicate} {bin : String} {filter : Filter}
    {record : Record} (found : predicate.narrow? bin = some filter)
    (met : (predicate.mapValues change).holds record = true) : filter.Catches record bin := by
  revert met
  refine narrow?_induct ?equals ?range ?member ?and found
  case equals =>
    intro value filter found met
    rw [mapValues, change_of_equalFilter? keeps found] at met
    exact catches_of_equals found met
  case range =>
    intro lower upper filter found met
    obtain ⟨_, _, _, firstFound, lastFound, _⟩ := rangeFilter?_cases found
    rw [mapValues, change_of_limit keeps (int_of_firstInteger? firstFound),
      change_of_limit keeps (int_of_lastInteger? lastFound)] at met
    exact catches_of_range found met
  case member =>
    intro values filter found met
    rw [mapValues, change_of_memberFilter? keeps found] at met
    exact catches_of_member found met
  case and =>
    intro parts filters filter found parts_catch met
    rw [mapValues, holds_and, mapValuesIn_eq_map, List.all_map, List.all_eq_true] at met
    refine Filter.intersectAll?_induct ?_ ?_ found
    · intro a b c a_catches b_catches met
      obtain ⟨actual, known, a_admits | float⟩ := a_catches
      · obtain ⟨other, other_known, b_admits | float⟩ := b_catches
        · obtain rfl := Option.some.inj (known.symm.trans other_known)
          exact ⟨actual, known, Or.inl (Filter.admits_of_intersect? met a_admits b_admits)⟩
        · exact ⟨other, other_known, Or.inr float⟩
      · exact ⟨actual, known, Or.inr float⟩
    · intro narrowed mem
      obtain ⟨part, part_mem, part_catches⟩ := parts_catch narrowed mem
      exact part_catches (met part part_mem)

/-- An index query loses no record on which the predicate holds but those with a double in the bin. -/
theorem selects_of_filter? {predicate : Predicate} {bin : String} {filter : Filter}
    {record : Record} (found : predicate.filter? bin = some filter)
    (met : (predicate.mapValues change).holds record = true)
    (noDouble : ∀ x, record.bin? bin ≠ some (.float x)) : filter.selects record = true := by
  obtain ⟨no_key, found⟩ := filter?_eq_some_iff.1 found
  obtain ⟨actual, known, admits_or_float⟩ := catches_of_narrow? keeps found met
  rw [Record.field?, if_neg no_key, Record.knownBin?, Option.filter_eq_some_iff] at known
  rw [Filter.selects, bin_of_narrow? found, known.1]
  obtain admitted | ⟨x, rfl⟩ := admits_or_float
  · exact admitted
  · exact absurd known.1 (noDouble x)

end Changed

theorem not_selects_double {predicate : Predicate} {bin : String} {filter : Filter}
    {record : Record} (found : predicate.filter? bin = some filter) {x : Float}
    (double : record.bin? bin = some (.float x)) : filter.selects record = false := by
  obtain ⟨_, found⟩ := filter?_eq_some_iff.1 found
  rw [Filter.selects, bin_of_narrow? found, double]
  change filter.admits (.float x) = false
  rw [Bool.eq_false_iff]
  intro admitted
  obtain ⟨n, same⟩ | ⟨text, same⟩ := (answerable_of_narrow? found).int_or_string admitted
  · cases same
  · cases same

@[simp] theorem mapValues_id (predicate : Predicate) :
    predicate.mapValues (fun value => value) = predicate := by
  induction predicate with
  | range field lower upper => cases lower <;> cases upper <;> rfl
  | member field values negated => rw [mapValues, List.map_id']
  | and parts ih =>
    rw [mapValues, mapValuesIn_eq_map, List.map_congr_left ih, List.map_id']
  | or parts ih =>
    rw [mapValues, mapValuesIn_eq_map, List.map_congr_left ih, List.map_id']
  | _ => rfl

/-- Narrowing loses exactly the records that hold a double in the bin. Where there is none, narrowing
and then testing the expression finds the same records as testing it alone. -/
theorem narrowing_loses_doubles_only {predicate : Predicate} {bin : String} {filter : Filter}
    (narrowed : predicate.filter? bin = some filter) :
    (∀ record, predicate.expression.holds record = true →
      (filter.selects record = true ↔ ∀ x, record.bin? bin ≠ some (.float x))) ∧
    ∀ records : List Record, (∀ record ∈ records, ∀ x, record.bin? bin ≠ some (.float x)) →
      (records.filter fun record => filter.selects record && predicate.expression.holds record) =
        records.filter fun record => predicate.expression.holds record := by
  have selects : ∀ record, predicate.expression.holds record = true →
      (∀ x, record.bin? bin ≠ some (.float x)) → filter.selects record = true := by
    intro record met noDouble
    rw [holds_expression, ← mapValues_id predicate] at met
    exact selects_of_filter? .id narrowed met noDouble
  refine ⟨fun record met => ⟨fun selected x double => ?_, selects record met⟩, ?_⟩
  · rw [not_selects_double narrowed double] at selected
    cases selected
  · intro records noDouble
    refine List.filter_congr fun record mem => ?_
    cases met : predicate.expression.holds record with
    | false => rw [Bool.and_false]
    | true => rw [selects record met (noDouble record mem), Bool.and_true]

theorem narrowing_between_loses_doubles_only :
    let predicate := Predicate.and [atLeast "age" (.int 18), lessThan "age" (.int 65)]
    let whole : Record := { key := none, bins := [("age", .int 30)], generation := 1 }
    let double : Record := { key := none, bins := [("age", .float 30)], generation := 1 }
    predicate.filter? "age" = some (.range "age" 18 64) ∧
      (predicate.expression.holds whole = true ∧ (Filter.range "age" 18 64).selects whole = true) ∧
      predicate.expression.holds double = true ∧ (Filter.range "age" 18 64).selects double ≠ true := by
  intro predicate whole double
  have narrowed : predicate.filter? "age" = some (.range "age" 18 64) := rfl
  have whole_met : predicate.expression.holds whole = true := by decide
  have double_met : predicate.expression.holds double = true := by decide
  obtain ⟨selects, _⟩ := narrowing_loses_doubles_only narrowed
  refine ⟨narrowed, ⟨whole_met, (selects whole whole_met).2 ?_⟩, double_met, ?_⟩
  · intro x same
    cases same
  · intro selected
    exact (selects double double_met).1 selected _ rfl

/-- The double five equals the integer five in a predicate and not in an index. -/
theorem equal_double_lost_by_narrowing :
    ¬ ∀ (predicate : Predicate) (bin : String) (filter : Filter) (record : Record),
      predicate.filter? bin = some filter → predicate.expression.holds record = true →
        filter.selects record = true := by
  intro keeps
  have lost := keeps (.equals "age" (.int 5)) "age" (.equal "age" (.int 5))
    { key := none, bins := [("age", .float 5)], generation := 1 } rfl (by decide)
  revert lost
  decide

end Predicate

end RecordQuery
