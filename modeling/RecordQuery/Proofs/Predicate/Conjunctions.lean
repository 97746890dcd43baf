import RecordQuery.Proofs.Predicate.Narrowing

/-!
Conjunctions of comparisons of one bin with integers. If some integer satisfies such a conjunction, its
filter is exact: it selects the records with an integer in the bin that satisfy the conjunction, and no
others. If none does, there is no filter as long as the contradiction lies between the parts. A part that
is contradictory on its own has no filter and is passed over, so that the other parts make a filter for
the whole although no record satisfies it.
-/

namespace RecordQuery.Predicate

/-- Comparisons of the bin with integers, and conjunctions of them in any nesting. -/
inductive IntegerConjunction (bin : String) : Predicate → Prop
  | equals (n : Int64) : IntegerConjunction bin (.equals bin (.int n))
  | range (lower upper : Option Limit) (limited : lower.isSome = true ∨ upper.isSome = true)
    (lower_integer : ∀ limit ∈ lower, ∃ m, limit.value = .int m)
    (upper_integer : ∀ limit ∈ upper, ∃ m, limit.value = .int m) :
    IntegerConjunction bin (.range bin lower upper)
  | and (parts : List Predicate) (some_part : parts ≠ [])
    (conjunctions : ∀ part ∈ parts, IntegerConjunction bin part) : IntegerConjunction bin (.and parts)

/-- Some integer in the bin satisfies the predicate. -/
def SatisfiableAt (predicate : Predicate) (bin : String) : Prop :=
  ∃ (record : Record) (n : Int64), record.bin? bin = some (.int n) ∧
    predicate.expression.holds record = true

/-- Of the integers in its bin the filter admits just those that satisfy the predicate. -/
def ExactOn (filter : Filter) (bin : String) (predicate : Predicate) : Prop :=
  ∀ (record : Record) (n : Int64), record.bin? bin = some (.int n) →
    (filter.admits (.int n) = true ↔ predicate.holds record = true)

variable {bin : String}

/-- If the filters that the parts have admit one integer in common, there is a filter for the whole. -/
theorem narrow?_and_of_admits_int {parts : List Predicate} {n : Int64}
    (some_filter : ∃ part ∈ parts, ∃ filter, part.narrow? bin = some filter)
    (admitted : ∀ part ∈ parts, ∀ filter, part.narrow? bin = some filter →
      filter.admits (.int n) = true) :
    ∃ filter, (and parts).narrow? bin = some filter := by
  rw [narrow?, narrowings_eq_filterMap]
  apply Filter.intersectAll?_of_admits
  case some_filter =>
    obtain ⟨part, mem, each, narrowed⟩ := some_filter
    exact List.ne_nil_of_mem (List.mem_filterMap.2 ⟨part, mem, narrowed⟩)
  case answerable =>
    intro each mem
    obtain ⟨part, _, narrowed⟩ := List.mem_filterMap.1 mem
    exact answerable_of_narrow? narrowed
  case on_bin =>
    intro each mem
    obtain ⟨part, _, narrowed⟩ := List.mem_filterMap.1 mem
    exact bin_of_narrow? narrowed
  case admitted =>
    intro each mem
    obtain ⟨part, part_mem, narrowed⟩ := List.mem_filterMap.1 mem
    exact admitted part part_mem each narrowed

theorem part_of_narrow?_and {parts : List Predicate} {filter : Filter}
    (found : (and parts).narrow? bin = some filter) :
    ∃ part ∈ parts, ∃ each, part.narrow? bin = some each := by
  rw [narrow?, narrowings_eq_filterMap] at found
  cases listed : parts.filterMap fun part => part.narrow? bin with
  | nil =>
    rw [listed] at found
    cases found
  | cons each rest =>
    have mem : each ∈ parts.filterMap fun part => part.narrow? bin := listed ▸ List.mem_cons_self
    obtain ⟨part, part_mem, narrowed⟩ := List.mem_filterMap.1 mem
    exact ⟨part, part_mem, each, narrowed⟩

/-- What the filter for the whole admits is what the filters that the parts have admit. -/
theorem admits_narrow?_and_iff {parts : List Predicate} {filter : Filter}
    (found : (and parts).narrow? bin = some filter) (actual : Value) :
    filter.admits actual = true ↔ ∀ part ∈ parts, ∀ each, part.narrow? bin = some each →
      each.admits actual = true := by
  rw [narrow?, narrowings_eq_filterMap] at found
  have answerable : ∀ each ∈ parts.filterMap fun part => part.narrow? bin, each.Answerable := by
    intro each mem
    obtain ⟨part, _, narrowed⟩ := List.mem_filterMap.1 mem
    exact answerable_of_narrow? narrowed
  rw [Filter.admits_intersectAll?_iff answerable found]
  simp only [List.mem_filterMap]
  constructor
  · exact fun admitted part mem each narrowed => admitted each ⟨part, mem, narrowed⟩
  · rintro admitted each ⟨part, mem, narrowed⟩
    exact admitted part mem each narrowed

/-- A conjunction whose parts all have exact filters has none but an exact one. -/
theorem exactOn_and {parts : List Predicate}
    (exact : ∀ part ∈ parts, ∃ filter, part.narrow? bin = some filter ∧ ExactOn filter bin part)
    {filter : Filter} (found : (and parts).narrow? bin = some filter) :
    ExactOn filter bin (.and parts) := by
  intro record n there
  rw [admits_narrow?_and_iff found, holds_and, List.all_eq_true]
  constructor
  · intro admitted part mem
    obtain ⟨each, narrowed, each_exact⟩ := exact part mem
    exact (each_exact record n there).1 (admitted part mem each narrowed)
  · intro met part mem each narrowed
    obtain ⟨_, narrowed', each_exact⟩ := exact part mem
    cases narrowed.symm.trans narrowed'
    exact (each_exact record n there).2 (met part mem)

/-- Of a filter that is exact for integers nothing but these is selected. -/
theorem selects_iff_of_exactOn {predicate : Predicate} {filter : Filter} (on_bin : filter.bin = bin)
    (exact : ExactOn filter bin predicate) (selective : ∃ n, filter.admits (.int n) = true)
    (record : Record) :
    filter.selects record = true ↔
      (∃ n, record.bin? bin = some (.int n)) ∧ predicate.expression.holds record = true := by
  obtain ⟨m, admitted⟩ := selective
  obtain ⟨_, _, bounded, _⟩ := Filter.bounds?_of_admits_int admitted
  rw [Filter.selects, on_bin, holds_expression]
  cases there : record.bin? bin with
  | none => simp
  | some actual =>
    constructor
    · intro admitted
      obtain ⟨n, rfl, _⟩ := (Filter.admits_iff_of_bounds? bounded actual).1 admitted
      exact ⟨⟨n, rfl⟩, (exact record n there).1 admitted⟩
    · rintro ⟨⟨n, same⟩, met⟩
      cases same
      exact (exact record n there).2 met

section

variable (no_key : bin ≠ keyField)

include no_key

theorem field?_of_int {record : Record} {n : Int64} (there : record.bin? bin = some (.int n)) :
    record.field? bin = some (.int n) := by
  rw [Record.field?, if_neg no_key, Record.knownBin?, there]
  rfl

theorem exactOn_equals (n : Int64) : ExactOn (.equal bin (.int n)) bin (.equals bin (.int n)) := by
  intro record m there
  rw [holds, field?_of_int no_key there, Option.any_some, Value.int_equalTo_int_iff, Filter.admits,
    Value.beq_int_iff, Value.int.injEq]

theorem exactOn_range {lower upper : Option Limit} {filter : Filter}
    (found : rangeFilter? bin lower upper = some filter) :
    ExactOn filter bin (.range bin lower upper) := by
  obtain ⟨_, first, last, first_found, last_found, _, rfl⟩ := rangeFilter?_cases found
  intro record n there
  rw [holds, field?_of_int no_key there, Option.any_some, Bool.and_eq_true,
    ← firstInteger?_le_iff first_found, ← le_lastInteger?_iff last_found,
    Filter.admits_iff_of_bounds? (Filter.bounds?_between ..)]
  constructor
  · rintro ⟨_, same, inside⟩
    cases same
    exact inside
  · exact fun inside => ⟨n, rfl, inside⟩

/-- A conjunction that some integer satisfies has an exact filter. -/
theorem IntegerConjunction.exact_of_met {predicate : Predicate}
    (conjunction : IntegerConjunction bin predicate) {record : Record} {n : Int64}
    (there : record.bin? bin = some (.int n)) (met : predicate.holds record = true) :
    ∃ filter, predicate.narrow? bin = some filter ∧ ExactOn filter bin predicate := by
  induction conjunction with
  | equals m => exact ⟨_, if_pos rfl, exactOn_equals no_key m⟩
  | range lower upper limited lower_integer upper_integer =>
    rw [holds, field?_of_int no_key there, Option.any_some, Bool.and_eq_true] at met
    obtain ⟨first, first_found⟩ := firstInteger?_of_admits lower_integer met.1
    obtain ⟨last, last_found⟩ := lastInteger?_of_admits upper_integer met.2
    have ordered : first ≤ last :=
      Int64.le_trans ((firstInteger?_le_iff first_found n).2 met.1)
        ((le_lastInteger?_iff last_found n).2 met.2)
    have found : rangeFilter? bin lower upper = some (.between bin first last) :=
      rangeFilter?_of_ordered limited first_found last_found ordered
    exact ⟨_, (if_pos rfl).trans found, exactOn_range no_key found⟩
  | and parts some_part _ ih =>
    rw [holds_and, List.all_eq_true] at met
    have exact := fun part mem => ih part mem (met part mem)
    have some_filter : ∃ part ∈ parts, ∃ filter, part.narrow? bin = some filter := by
      obtain ⟨part, mem⟩ := List.exists_mem_of_ne_nil parts some_part
      obtain ⟨each, narrowed, _⟩ := exact part mem
      exact ⟨part, mem, each, narrowed⟩
    have admitted : ∀ part ∈ parts, ∀ each, part.narrow? bin = some each →
        each.admits (.int n) = true := by
      intro part mem each narrowed
      obtain ⟨_, narrowed', each_exact⟩ := exact part mem
      cases narrowed.symm.trans narrowed'
      exact (each_exact record n there).2 (met part mem)
    obtain ⟨filter, found⟩ := narrow?_and_of_admits_int some_filter admitted
    exact ⟨filter, found, exactOn_and exact found⟩

end

namespace IntegerConjunction

variable {bin : String} {predicate : Predicate}

/-- The filter of a conjunction selects some integer, whether or not one satisfies the conjunction. -/
theorem admits_int (conjunction : IntegerConjunction bin predicate) {filter : Filter}
    (found : predicate.narrow? bin = some filter) : ∃ n, filter.admits (.int n) = true := by
  induction conjunction generalizing filter with
  | equals n =>
    cases (if_pos rfl).symm.trans found
    exact ⟨n, Value.beq_int_iff.2 rfl⟩
  | range lower upper =>
    obtain ⟨_, first, last, _, _, ordered, rfl⟩ := rangeFilter?_cases ((if_pos rfl).symm.trans found)
    exact ⟨first, (Filter.admits_iff_of_bounds? (Filter.bounds?_between ..) _).2
      ⟨first, rfl, Int64.le_refl first, ordered⟩⟩
  | and parts _ _ ih =>
    rw [narrow?, narrowings_eq_filterMap] at found
    refine @Filter.intersectAll?_induct (fun filter => ∃ n, filter.admits (.int n) = true)
      (fun _ _ _ first_admits _ met => Filter.admits_int_of_intersect? met first_admits) _ ?_ _ found
    intro each mem
    obtain ⟨part, part_mem, narrowed⟩ := List.mem_filterMap.1 mem
    exact ih part part_mem narrowed

theorem mem_comparedFields_iff (conjunction : IntegerConjunction bin predicate) (field : String) :
    field ∈ predicate.comparedFields ↔ field = bin := by
  induction conjunction with
  | equals n => exact List.mem_singleton
  | range lower upper => exact List.mem_singleton
  | and parts some_part _ ih =>
    rw [comparedFields, comparedFieldsIn_eq_flatMap, List.mem_flatMap]
    constructor
    · rintro ⟨part, mem, compared⟩
      exact (ih part mem).1 compared
    · rintro rfl
      obtain ⟨part, mem⟩ := List.exists_mem_of_ne_nil parts some_part
      exact ⟨part, mem, (ih part mem).2 rfl⟩

/-- Indexable means to have a filter on the one bin that is compared. -/
theorem isIndexable_eq (no_key : bin ≠ keyField) (conjunction : IntegerConjunction bin predicate) :
    predicate.isIndexable = (predicate.filter? bin).isSome := by
  have mem_binNames : ∀ name, name ∈ predicate.binNames ↔ name = bin := by
    intro name
    rw [mem_binNames_iff, conjunction.mem_comparedFields_iff]
    exact and_iff_left_of_imp fun same => same ▸ no_key
  rw [isIndexable, Bool.eq_iff_iff, List.any_eq_true]
  constructor
  · rintro ⟨name, mem, found⟩
    rw [(mem_binNames name).1 mem] at found
    exact found
  · exact fun found => ⟨bin, (mem_binNames bin).2 rfl, found⟩

theorem filter?_eq_narrow? (no_key : bin ≠ keyField) (predicate : Predicate) :
    predicate.filter? bin = predicate.narrow? bin := if_neg no_key

/-- A conjunction that has a filter can be satisfied, if its parts can. -/
theorem satisfiableAt_of_narrow? (no_key : bin ≠ keyField)
    (conjunction : IntegerConjunction bin predicate)
    (parts_satisfiable : ∀ parts, predicate = .and parts → ∀ part ∈ parts, part.SatisfiableAt bin)
    {filter : Filter} (found : predicate.narrow? bin = some filter) : predicate.SatisfiableAt bin := by
  have exact : ExactOn filter bin predicate := by
    cases conjunction with
    | equals n =>
      cases (if_pos rfl).symm.trans found
      exact exactOn_equals no_key n
    | range lower upper => exact exactOn_range no_key ((if_pos rfl).symm.trans found)
    | and parts _ conjunctions =>
      refine exactOn_and ?_ found
      intro part mem
      obtain ⟨record, n, there, met⟩ := parts_satisfiable parts rfl part mem
      rw [holds_expression] at met
      exact (conjunctions part mem).exact_of_met no_key there met
  obtain ⟨n, admitted⟩ := conjunction.admits_int found
  let record : Record := { key := none, bins := [(bin, .int n)], generation := 1 }
  have there : record.bin? bin = some (.int n) := by
    rw [Record.bin?, Fields.get?_cons, if_pos rfl]
  refine ⟨record, n, there, ?_⟩
  rw [holds_expression]
  exact (exact record n there).1 admitted

/-- A conjunction that some integer satisfies is indexable, and its filter selects the records with an
integer in the bin that satisfy it. One that no integer satisfies is not indexable, unless one of its
parts is contradictory on its own: a conjunction has a filter as soon as the filters that its parts have
admit an integer in common, and a part without one is passed over. -/
theorem exact_index_filter (no_key : bin ≠ keyField) (conjunction : IntegerConjunction bin predicate) :
    (predicate.SatisfiableAt bin → predicate.isIndexable = true ∧
      ∃ filter, predicate.filter? bin = some filter ∧ ∀ record, filter.selects record = true ↔
        (∃ n, record.bin? bin = some (.int n)) ∧ predicate.expression.holds record = true) ∧
    ((∀ parts, predicate = .and parts → ∀ part ∈ parts, part.SatisfiableAt bin) →
      ((∃ filter, predicate.filter? bin = some filter) ↔ predicate.SatisfiableAt bin) ∧
      (predicate.isIndexable = true ↔ predicate.SatisfiableAt bin)) ∧
    ∀ parts, predicate = .and parts →
      ((∃ filter, predicate.filter? bin = some filter) ↔
        (∃ part ∈ parts, ∃ filter, part.filter? bin = some filter) ∧
          ∃ n, ∀ part ∈ parts, ∀ filter, part.filter? bin = some filter →
            filter.admits (.int n) = true) := by
  rw [conjunction.isIndexable_eq no_key, Option.isSome_iff_exists]
  simp only [filter?_eq_narrow? no_key]
  have of_satisfiable : predicate.SatisfiableAt bin → ∃ filter, predicate.narrow? bin = some filter ∧
      ExactOn filter bin predicate := by
    rintro ⟨record, n, there, met⟩
    rw [holds_expression] at met
    exact conjunction.exact_of_met no_key there met
  refine ⟨?satisfiable, ?unless_a_part, ?parts⟩
  case satisfiable =>
    intro satisfiable
    obtain ⟨filter, found, exact⟩ := of_satisfiable satisfiable
    exact ⟨⟨filter, found⟩, filter, found,
      selects_iff_of_exactOn (bin_of_narrow? found) exact (conjunction.admits_int found)⟩
  case unless_a_part =>
    intro parts_satisfiable
    have found_iff : (∃ filter, predicate.narrow? bin = some filter) ↔ predicate.SatisfiableAt bin := by
      constructor
      · rintro ⟨filter, found⟩
        exact conjunction.satisfiableAt_of_narrow? no_key parts_satisfiable found
      · intro satisfiable
        obtain ⟨filter, found, _⟩ := of_satisfiable satisfiable
        exact ⟨filter, found⟩
    exact ⟨found_iff, found_iff⟩
  case parts =>
    rintro parts rfl
    constructor
    · rintro ⟨filter, found⟩
      obtain ⟨n, admitted⟩ := conjunction.admits_int found
      exact ⟨part_of_narrow?_and found, n, (admits_narrow?_and_iff found _).1 admitted⟩
    · rintro ⟨some_filter, n, admitted⟩
      exact narrow?_and_of_admits_int some_filter admitted

theorem lowerLimited (bin : String) (n : Int64) (inclusive : Bool) :
    IntegerConjunction bin (.range bin (some ⟨.int n, inclusive⟩) none) :=
  .range _ _ (Or.inl rfl) (fun limit given => ⟨n, by cases given; rfl⟩) nofun

theorem upperLimited (bin : String) (n : Int64) (inclusive : Bool) :
    IntegerConjunction bin (.range bin none (some ⟨.int n, inclusive⟩)) :=
  .range _ _ (Or.inr rfl) nofun (fun limit given => ⟨n, by cases given; rfl⟩)

theorem both {bin : String} {first second : Predicate} (first_conjunction : IntegerConjunction bin first)
    (second_conjunction : IntegerConjunction bin second) :
    IntegerConjunction bin (.and [first, second]) := by
  refine .and _ (List.cons_ne_nil _ _) ?_
  simp [first_conjunction, second_conjunction]

/-- Nested conjunctions narrow to the years that are left, and two that exclude each other to nothing. -/
theorem ages_narrow_exactly :
    let inside : Predicate :=
      .and [.greaterThan "age" (.int 17), .and [.lessThan "age" (.int 65), .atMost "age" (.int 70)]]
    let apart : Predicate := .and [.greaterThan "age" (.int 50), .lessThan "age" (.int 10)]
    "age" ≠ keyField ∧ IntegerConjunction "age" inside ∧ inside.SatisfiableAt "age" ∧
      inside.isIndexable = true ∧
      (∃ filter, inside.filter? "age" = some filter ∧ ∀ record, filter.selects record = true ↔
        (∃ n, record.bin? "age" = some (.int n)) ∧ inside.expression.holds record = true) ∧
      IntegerConjunction "age" apart ∧
      (∀ parts, apart = .and parts → ∀ part ∈ parts, part.SatisfiableAt "age") ∧
      (apart.isIndexable = true ↔ apart.SatisfiableAt "age") := by
  intro inside apart
  have no_key : "age" ≠ keyField := by decide
  have inside_conjunction : IntegerConjunction "age" inside :=
    both (lowerLimited ..) (both (upperLimited ..) (upperLimited ..))
  have apart_conjunction : IntegerConjunction "age" apart := both (lowerLimited ..) (upperLimited ..)
  let aged : Int64 → Record := fun n => { key := none, bins := [("age", .int n)], generation := 1 }
  have satisfiable : inside.SatisfiableAt "age" := ⟨aged 30, 30, rfl, by decide⟩
  have parts_satisfiable : ∀ parts, apart = .and parts → ∀ part ∈ parts, part.SatisfiableAt "age" := by
    intro parts same part mem
    rw [← Predicate.and.inj same] at mem
    simp only [List.mem_cons, List.not_mem_nil, or_false] at mem
    obtain rfl | rfl := mem
    · exact ⟨aged 60, 60, rfl, by decide⟩
    · exact ⟨aged 5, 5, rfl, by decide⟩
  obtain ⟨of_satisfiable, _⟩ := exact_index_filter no_key inside_conjunction
  obtain ⟨_, unless_a_part, _⟩ := exact_index_filter no_key apart_conjunction
  obtain ⟨indexable, exact⟩ := of_satisfiable satisfiable
  exact ⟨no_key, inside_conjunction, satisfiable, indexable, exact, apart_conjunction,
    parts_satisfiable, (unless_a_part parts_satisfiable).2⟩

/-- Nobody is both above fifty and below ten, but with a third comparison beside these two the index is
asked for everybody whom that one admits. -/
theorem contradictory_part_passed_over :
    let apart : Predicate := .and [.greaterThan "age" (.int 50), .lessThan "age" (.int 10)]
    let predicate : Predicate := .and [apart, .atLeast "age" (.int 18)]
    IntegerConjunction "age" predicate ∧ ¬predicate.SatisfiableAt "age" ∧
      predicate.filter? "age" = some (.range "age" 18 Int64.maxValue) ∧ predicate.isIndexable = true := by
  intro apart predicate
  have no_key : "age" ≠ keyField := by decide
  have conjunction : IntegerConjunction "age" predicate :=
    both (both (lowerLimited ..) (upperLimited ..)) (lowerLimited ..)
  refine ⟨conjunction, ?_, rfl, by decide +kernel⟩
  rintro ⟨record, n, there, met⟩
  rw [holds_expression, holds_and, List.all_eq_true] at met
  have met_apart := met apart List.mem_cons_self
  rw [holds_and, List.all_eq_true] at met_apart
  have above : (Filter.range "age" 51 Int64.maxValue).admits (.int n) = true :=
    (exactOn_range no_key rfl record n there).2 (met_apart (.greaterThan "age" (.int 50)) (by simp))
  have below : (Filter.range "age" Int64.minValue 9).admits (.int n) = true :=
    (exactOn_range no_key rfl record n there).2 (met_apart (.lessThan "age" (.int 10)) (by simp))
  simp only [Filter.admits, Bool.and_eq_true, decide_eq_true_eq] at above below
  exact absurd (Int64.le_trans above.1 below.2) (by decide)

end IntegerConjunction

end RecordQuery.Predicate
