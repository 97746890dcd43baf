import RecordQuery.Proofs.Filter.Bounds

/-!
Intersections of filters, read as sets of values. An intersection that succeeds selects what both
filters select, and one that fails on a common bin leaves no record that both select; it does not matter
which of the two filters comes first. All this follows from what a filter admits, since a filter that
can be asked and that is no degenerate range is told by its bin and the values that it admits. So is the
one filter for several, for which it counts which filters they are and not how they are listed.
-/

namespace RecordQuery.Filter

/-- No range of one integer or of none: the former is written as an equality. -/
def Collapsed : Filter → Prop
  | .equal _ _ => True
  | .range _ first last => first < last

theorem collapsed_between {bin : String} {first last : Int64} (ordered : first ≤ last) :
    (between bin first last).Collapsed := by
  unfold between
  split
  · trivial
  · next apart =>
    change first < last
    grind

theorem collapsed_of_intersect? {a b c : Filter} (found : a.intersect? b = some c) : c.Collapsed := by
  obtain ⟨_, ⟨_, _, _, _, _, _, _, _, rfl, meets, _⟩ | ⟨unbounded, _, _, rfl⟩⟩ :=
    intersect?_cases found
  · exact collapsed_between meets
  · cases c with
    | equal => trivial
    | range => cases unbounded

/-- A filter that can be asked and is collapsed admits something. -/
theorem exists_admits {filter : Filter} (answerable : filter.Answerable) (collapsed : filter.Collapsed) :
    ∃ actual, filter.admits actual = true := by
  match filter, answerable with
  | .equal _ (.int n), _ => exact ⟨.int n, Value.beq_int_iff.2 rfl⟩
  | .equal _ (.string text), _ => exact ⟨.string text, Value.beq_string_iff.2 rfl⟩
  | .range bin first last, _ =>
    have bounded : (Filter.range bin first last).bounds? = some (first, last) := rfl
    exact ⟨.int first, (admits_iff_of_bounds? bounded _).2
      ⟨first, rfl, Int64.le_refl first, Int64.le_of_lt collapsed⟩⟩

theorem eq_between_of_bounds? {filter : Filter} {first last : Int64}
    (bounded : filter.bounds? = some (first, last)) (collapsed : filter.Collapsed) :
    filter = between filter.bin first last := by
  unfold bounds? at bounded
  split at bounded
  · cases bounded
    exact (if_pos rfl).symm
  · cases bounded
  · cases bounded
    have apart : first ≠ last := by
      rintro rfl
      exact Int64.lt_irrefl collapsed
    exact (if_neg apart).symm

/-- Bounds that the same integers keep are the same, if some integer keeps them. -/
theorem bounds_eq_of_between_iff {first last first' last' : Int64} (ordered : first ≤ last)
    (same : ∀ n, (first ≤ n ∧ n ≤ last) ↔ (first' ≤ n ∧ n ≤ last')) : first = first' ∧ last = last' := by
  have ends := (same first).1 ⟨Int64.le_refl first, ordered⟩
  have ends' := (same first').2 ⟨Int64.le_refl first', Int64.le_trans ends.1 ends.2⟩
  have tops := (same last).1 ⟨ordered, Int64.le_refl last⟩
  have tops' := (same last').2 ⟨Int64.le_trans tops.1 tops.2, Int64.le_refl last'⟩
  exact ⟨Int64.le_antisymm ends'.1 ends.1, Int64.le_antisymm tops.2 tops'.2⟩

/-- Collapsed filters on one bin that admit the same values are the same filter. -/
theorem eq_of_admits_iff {a b : Filter} (a_answerable : a.Answerable) (a_collapsed : a.Collapsed)
    (b_collapsed : b.Collapsed) (same_bin : a.bin = b.bin)
    (same : ∀ actual, a.admits actual = true ↔ b.admits actual = true) : a = b := by
  obtain ⟨actual, admitted⟩ := exists_admits a_answerable a_collapsed
  obtain ⟨n, rfl⟩ | ⟨text, rfl⟩ := a_answerable.int_or_string admitted
  · obtain ⟨first, last, bounded, above, below⟩ := bounds?_of_admits_int admitted
    obtain ⟨first', last', bounded', _⟩ := bounds?_of_admits_int ((same _).1 admitted)
    have same_integers : ∀ m, (first ≤ m ∧ m ≤ last) ↔ (first' ≤ m ∧ m ≤ last') := by
      intro m
      have admits_iff := same (.int m)
      rw [admits_iff_of_bounds? bounded, admits_iff_of_bounds? bounded'] at admits_iff
      simpa using admits_iff
    obtain ⟨rfl, rfl⟩ := bounds_eq_of_between_iff (Int64.le_trans above below) same_integers
    rw [eq_between_of_bounds? bounded a_collapsed, eq_between_of_bounds? bounded' b_collapsed, same_bin]
  · rw [eq_equal_of_admits_string admitted, eq_equal_of_admits_string ((same _).1 admitted), same_bin]

theorem intersect?_comm {a b : Filter} (a_answerable : a.Answerable) (b_answerable : b.Answerable) :
    a.intersect? b = b.intersect? a := by
  -- what one side finds, the other finds as well
  have exchanged : ∀ {a b c : Filter}, a.Answerable → b.Answerable → a.intersect? b = some c →
      b.intersect? a = some c := by
    intro a b c a_answerable b_answerable found
    have c_answerable := a_answerable.of_intersect? found
    obtain ⟨actual, admitted⟩ := exists_admits c_answerable (collapsed_of_intersect? found)
    obtain ⟨a_admits, b_admits⟩ := (admits_intersect?_iff b_answerable found actual).1 admitted
    obtain ⟨same_bin, _⟩ := intersect?_cases found
    obtain ⟨d, found'⟩ := intersect?_of_admits b_answerable same_bin.symm b_admits a_admits
    have same : c = d := by
      refine eq_of_admits_iff c_answerable (collapsed_of_intersect? found) (collapsed_of_intersect? found')
        ?_ fun actual => ?_
      · rw [bin_of_intersect? found, bin_of_intersect? found', same_bin]
      · rw [admits_intersect?_iff b_answerable found, admits_intersect?_iff a_answerable found', and_comm]
    rw [found', same]
  apply Option.ext
  intro c
  exact ⟨exchanged a_answerable b_answerable, exchanged b_answerable a_answerable⟩

theorem selects_iff {filter : Filter} {bin : String} (on_bin : filter.bin = bin) (record : Record) :
    filter.selects record = true ↔
      ∃ actual, record.bin? bin = some actual ∧ filter.admits actual = true := by
  rw [selects, on_bin]
  cases record.bin? bin <;> simp

theorem bin_of_intersectAll? {filters : List Filter} {bin : String}
    (on_bin : ∀ filter ∈ filters, filter.bin = bin) {filter : Filter}
    (found : intersectAll? filters = some filter) : filter.bin = bin := by
  refine @intersectAll?_induct (fun filter => filter.bin = bin) ?_ _ on_bin _ found
  intro a b c a_bin _ met
  exact (bin_of_intersect? met).trans a_bin

/-- Of filters on one bin the one filter for all is the collapsed one there that admits what all admit. -/
theorem intersectAll?_eq_some_iff {filters : List Filter} {bin : String}
    (answerable : ∀ filter ∈ filters, filter.Answerable)
    (collapsed : ∀ filter ∈ filters, filter.Collapsed) (on_bin : ∀ filter ∈ filters, filter.bin = bin)
    {filter : Filter} :
    intersectAll? filters = some filter ↔
      filters ≠ [] ∧ filter.bin = bin ∧ filter.Answerable ∧ filter.Collapsed ∧
        ∀ actual, filter.admits actual = true ↔ ∀ each ∈ filters, each.admits actual = true := by
  have properties : ∀ {filter}, intersectAll? filters = some filter →
      filter.bin = bin ∧ filter.Answerable ∧ filter.Collapsed ∧
        ∀ actual, filter.admits actual = true ↔ ∀ each ∈ filters, each.admits actual = true := by
    intro filter found
    refine ⟨bin_of_intersectAll? on_bin found, ?_, ?_, admits_intersectAll?_iff answerable found⟩
    · exact intersectAll?_induct (fun _ _ _ a_answerable _ met => a_answerable.of_intersect? met)
        answerable found
    · exact intersectAll?_induct (fun _ _ _ _ _ met => collapsed_of_intersect? met) collapsed found
  constructor
  · intro found
    refine ⟨?_, properties found⟩
    rintro rfl
    cases found
  · rintro ⟨some_filter, filter_bin, filter_answerable, filter_collapsed, admits_iff⟩
    obtain ⟨actual, admitted⟩ := exists_admits filter_answerable filter_collapsed
    obtain ⟨other, found⟩ :=
      intersectAll?_of_admits some_filter answerable on_bin ((admits_iff actual).1 admitted)
    obtain ⟨other_bin, _, other_collapsed, other_admits_iff⟩ := properties found
    rw [found, eq_of_admits_iff filter_answerable filter_collapsed other_collapsed
      (filter_bin.trans other_bin.symm) fun actual => (admits_iff actual).trans (other_admits_iff actual).symm]

/-- The one filter for several depends on which filters they are only. -/
theorem intersectAll?_congr {filters others : List Filter} {bin : String}
    (answerable : ∀ filter ∈ filters, filter.Answerable)
    (collapsed : ∀ filter ∈ filters, filter.Collapsed) (on_bin : ∀ filter ∈ filters, filter.bin = bin)
    (same : ∀ filter, filter ∈ filters ↔ filter ∈ others) : intersectAll? filters = intersectAll? others := by
  have same_nil : filters = [] ↔ others = [] := by
    simp only [List.eq_nil_iff_forall_not_mem, same]
  apply Option.ext
  intro filter
  rw [intersectAll?_eq_some_iff answerable collapsed on_bin]
  simp only [same] at answerable collapsed on_bin ⊢
  rw [intersectAll?_eq_some_iff answerable collapsed on_bin, ne_eq, same_nil]

/-- An intersection selects the records that both filters select and no others, is never a degenerate
range, and is on their common bin; on one bin there is none only if no record is selected by both; and
it is the same from either side. -/
theorem intersection_is_exact {a b : Filter} (a_answerable : a.Answerable)
    (b_answerable : b.Answerable) :
    (∀ c, a.intersect? b = some c →
      (∀ record, c.selects record = true ↔ a.selects record = true ∧ b.selects record = true) ∧
        (∀ bin first last, c = .range bin first last → first < last) ∧ c.bin = a.bin ∧ c.bin = b.bin) ∧
    (a.bin = b.bin → a.intersect? b = none →
      ∀ record, ¬(a.selects record = true ∧ b.selects record = true)) ∧
    a.intersect? b = b.intersect? a := by
  refine ⟨?found, ?missing, intersect?_comm a_answerable b_answerable⟩
  case found =>
    intro c found
    obtain ⟨same_bin, _⟩ := intersect?_cases found
    have c_bin := bin_of_intersect? found
    refine ⟨fun record => ?_, ?_, c_bin, c_bin.trans same_bin⟩
    · rw [selects_iff c_bin, selects_iff rfl, selects_iff same_bin.symm]
      simp only [admits_intersect?_iff b_answerable found]
      constructor
      · rintro ⟨actual, there, a_admits, b_admits⟩
        exact ⟨⟨actual, there, a_admits⟩, actual, there, b_admits⟩
      · rintro ⟨⟨actual, there, a_admits⟩, other, there', b_admits⟩
        cases there.symm.trans there'
        exact ⟨actual, there, a_admits, b_admits⟩
    · rintro bin first last rfl
      exact collapsed_of_intersect? found
  case missing =>
    intro same_bin missing record
    rw [selects_iff same_bin, selects_iff rfl]
    rintro ⟨⟨actual, there, a_admits⟩, other, there', b_admits⟩
    cases there.symm.trans there'
    obtain ⟨c, found⟩ := intersect?_of_admits a_answerable same_bin a_admits b_admits
    cases missing.symm.trans found

/-- Two ranges that meet in one integer, which is then asked for alone; a range from its end to its
beginning, of which nothing is left; and a text, which no range admits. -/
theorem ages_meet_at_twenty :
    let until_twenty : Filter := .range "age" 10 20
    let from_twenty : Filter := .range "age" 20 30
    let inverted : Filter := .range "age" 30 20
    let text : Filter := .equal "age" (.string "20")
    let aged : Record := { key := none, bins := [("age", .int 20)], generation := 1 }
    (until_twenty.Answerable ∧ from_twenty.Answerable ∧ inverted.Answerable ∧ text.Answerable) ∧
      until_twenty.intersect? from_twenty = some (.equal "age" (.int 20)) ∧
      from_twenty.intersect? until_twenty = some (.equal "age" (.int 20)) ∧
      (until_twenty.selects aged = true ∧ from_twenty.selects aged = true) ∧
      (∀ record, ¬(inverted.selects record = true ∧ from_twenty.selects record = true)) ∧
      ∀ record, ¬(text.selects record = true ∧ until_twenty.selects record = true) := by
  intro until_twenty from_twenty inverted text aged
  obtain ⟨found, _, same⟩ := intersection_is_exact (a := until_twenty) (b := from_twenty) trivial trivial
  obtain ⟨_, emptied, _⟩ := intersection_is_exact (a := inverted) (b := from_twenty) trivial trivial
  obtain ⟨_, apart, _⟩ := intersection_is_exact (a := text) (b := until_twenty) trivial trivial
  have meet : until_twenty.intersect? from_twenty = some (.equal "age" (.int 20)) := rfl
  have selected : (Filter.equal "age" (.int 20)).selects aged = true := by decide
  exact ⟨⟨trivial, trivial, trivial, trivial⟩, meet, same.symm.trans meet,
    ((found _ meet).1 aged).1 selected, emptied rfl rfl, apart rfl rfl⟩

end RecordQuery.Filter
