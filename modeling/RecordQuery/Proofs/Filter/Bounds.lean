import RecordQuery.Filter
import RecordQuery.Proofs.Value.Equality

/-!
Filters by their bounds. A filter with bounds selects the integers between them and nothing else, and
an intersection that succeeds selects what both filters select. Both facts are about `admits`, on any
value that a bin may hold.
-/

namespace RecordQuery.Filter

/-- What an index can be asked: for an integer, for a text, or for a range of integers. -/
def Answerable : Filter → Prop
  | .equal _ (.int _) => True
  | .equal _ (.string _) => True
  | .equal _ _ => False
  | .range _ _ _ => True

@[simp] theorem bin_between (bin : String) (first last : Int64) :
    (between bin first last).bin = bin := by
  unfold between
  split <;> rfl

@[simp] theorem bounds?_between (bin : String) (first last : Int64) :
    (between bin first last).bounds? = some (first, last) := by
  unfold between
  split
  · next same => rw [same]; rfl
  · rfl

theorem answerable_between (bin : String) (first last : Int64) :
    (between bin first last).Answerable := by
  unfold between
  split <;> trivial

theorem admits_iff_of_bounds? {filter : Filter} {first last : Int64}
    (bounded : filter.bounds? = some (first, last)) (actual : Value) :
    filter.admits actual = true ↔ ∃ n, actual = .int n ∧ first ≤ n ∧ n ≤ last := by
  unfold bounds? at bounded
  split at bounded
  · cases bounded
    rw [admits, Value.beq_int_iff]
    constructor
    · rintro rfl
      exact ⟨_, rfl, Int64.le_refl _, Int64.le_refl _⟩
    · rintro ⟨n, rfl, above, below⟩
      rw [Int64.le_antisymm below above]
  · cases bounded
  · cases bounded
    cases actual <;> simp [admits]

/-- No value that is not an integer or a text is admitted. -/
theorem Answerable.int_or_string {filter : Filter} (answerable : filter.Answerable) {actual : Value}
    (admitted : filter.admits actual = true) :
    (∃ n, actual = .int n) ∨ ∃ text, actual = .string text := by
  match filter, answerable with
  | .equal _ (.int n), _ => exact Or.inl ⟨n, Value.beq_int_iff.1 admitted⟩
  | .equal _ (.string text), _ => exact Or.inr ⟨text, Value.beq_string_iff.1 admitted⟩
  | .range bin first last, _ =>
    have bounded : (Filter.range bin first last).bounds? = some (first, last) := rfl
    obtain ⟨n, same, _⟩ := (admits_iff_of_bounds? bounded actual).1 admitted
    exact Or.inl ⟨n, same⟩

/-- How an intersection comes about: both filters have bounds, which meet in a range that is not
empty, or neither has and they are the same filter. -/
theorem intersect?_cases {a b c : Filter} (found : a.intersect? b = some c) :
    a.bin = b.bin ∧
      ((∃ first last first' last' low high,
        a.bounds? = some (first, last) ∧ b.bounds? = some (first', last') ∧
          c = between a.bin low high ∧ low ≤ high ∧
          ∀ n, (low ≤ n ∧ n ≤ high) ↔ (first ≤ n ∧ n ≤ last) ∧ (first' ≤ n ∧ n ≤ last')) ∨
        (a.bounds? = none ∧ b.bounds? = none ∧ a.beq b = true ∧ c = a)) := by
  rw [intersect?, Option.ite_none_left_eq_some] at found
  obtain ⟨same, found⟩ := found
  refine ⟨Classical.not_not.1 same, ?_⟩
  cases bounded : a.bounds? with
  | some bounds =>
    obtain ⟨first, last⟩ := bounds
    cases bounded' : b.bounds? with
    | some bounds' =>
      obtain ⟨first', last'⟩ := bounds'
      rw [bounded, bounded'] at found
      simp only [Option.ite_none_right_eq_some, Option.some.injEq] at found
      obtain ⟨meets, rfl⟩ := found
      exact Or.inl ⟨first, last, first', last', _, _, rfl, rfl, rfl, meets, by grind⟩
    | none =>
      rw [bounded, bounded'] at found
      cases found
  | none =>
    cases bounded' : b.bounds? with
    | some bounds' =>
      rw [bounded, bounded'] at found
      cases found
    | none =>
      rw [bounded, bounded'] at found
      simp only [Option.ite_none_right_eq_some, Option.some.injEq] at found
      obtain ⟨equal, rfl⟩ := found
      exact Or.inr ⟨rfl, rfl, equal, rfl⟩

theorem bin_of_intersect? {a b c : Filter} (found : a.intersect? b = some c) : c.bin = a.bin := by
  obtain ⟨_, ⟨_, _, _, _, _, _, _, _, rfl, _⟩ | ⟨_, _, _, rfl⟩⟩ := intersect?_cases found
  · exact bin_between ..
  · rfl

theorem Answerable.of_intersect? {a b c : Filter} (answerable : a.Answerable)
    (found : a.intersect? b = some c) : c.Answerable := by
  obtain ⟨_, ⟨_, _, _, _, _, _, _, _, rfl, _⟩ | ⟨_, _, _, rfl⟩⟩ := intersect?_cases found
  · exact answerable_between ..
  · exact answerable

/-- What both filters admit their intersection admits. -/
theorem admits_of_intersect? {a b c : Filter} (found : a.intersect? b = some c) {actual : Value}
    (first_admits : a.admits actual = true) (second_admits : b.admits actual = true) :
    c.admits actual = true := by
  obtain ⟨_, ⟨_, _, _, _, _, _, bounded, bounded', rfl, _, meet⟩ | ⟨_, _, _, rfl⟩⟩ :=
    intersect?_cases found
  · obtain ⟨n, rfl, inside⟩ := (admits_iff_of_bounds? bounded actual).1 first_admits
    obtain ⟨n', same, inside'⟩ := (admits_iff_of_bounds? bounded' _).1 second_admits
    cases same
    exact (admits_iff_of_bounds? (bounds?_between ..) _).2 ⟨n, rfl, (meet n).2 ⟨inside, inside'⟩⟩
  · exact first_admits

/-- A filter that an index can be asked and that has no bounds asks for a text. -/
theorem Answerable.string_of_bounds?_none {filter : Filter} (answerable : filter.Answerable)
    (unbounded : filter.bounds? = none) : ∃ bin text, filter = .equal bin (.string text) := by
  match filter, answerable with
  | .equal bin (.int n), _ => cases unbounded
  | .equal bin (.string text), _ => exact ⟨bin, text, rfl⟩
  | .range bin first last, _ => cases unbounded

/-- The intersection of filters that an index can be asked admits no more than both of them admit. -/
theorem admits_intersect?_iff {a b c : Filter} (answerable : b.Answerable)
    (found : a.intersect? b = some c) (actual : Value) :
    c.admits actual = true ↔ a.admits actual = true ∧ b.admits actual = true := by
  refine ⟨?_, fun both => admits_of_intersect? found both.1 both.2⟩
  intro admitted
  obtain ⟨_, ⟨_, _, _, _, _, _, bounded, bounded', rfl, _, meet⟩ | ⟨_, unbounded, equal, rfl⟩⟩ :=
    intersect?_cases found
  · obtain ⟨n, rfl, inside⟩ := (admits_iff_of_bounds? (bounds?_between ..) actual).1 admitted
    obtain ⟨first, second⟩ := (meet n).1 inside
    exact ⟨(admits_iff_of_bounds? bounded _).2 ⟨n, rfl, first⟩,
      (admits_iff_of_bounds? bounded' _).2 ⟨n, rfl, second⟩⟩
  · refine ⟨admitted, ?_⟩
    obtain ⟨bin, text, rfl⟩ := answerable.string_of_bounds?_none unbounded
    cases c with
    | equal bin' value =>
      rw [beq, Bool.and_eq_true, Value.beq_string_iff] at equal
      rw [equal.2] at admitted
      exact admitted
    | range => cases equal

theorem bounds?_of_admits_int {filter : Filter} {n : Int64} (admitted : filter.admits (.int n) = true) :
    ∃ first last, filter.bounds? = some (first, last) ∧ first ≤ n ∧ n ≤ last := by
  cases filter with
  | equal bin value =>
    obtain rfl := Value.int_beq_iff.1 admitted
    exact ⟨n, n, rfl, Int64.le_refl n, Int64.le_refl n⟩
  | range bin first last =>
    rw [admits, Bool.and_eq_true, decide_eq_true_eq, decide_eq_true_eq] at admitted
    exact ⟨first, last, rfl, admitted⟩

/-- Filters on one bin that both admit an integer have an intersection. -/
theorem intersect?_of_admits_int {a b : Filter} (same_bin : a.bin = b.bin) {n : Int64}
    (first_admits : a.admits (.int n) = true) (second_admits : b.admits (.int n) = true) :
    ∃ c, a.intersect? b = some c := by
  obtain ⟨first, last, bounded, above, below⟩ := bounds?_of_admits_int first_admits
  obtain ⟨first', last', bounded', above', below'⟩ := bounds?_of_admits_int second_admits
  have meets : (if first < first' then first' else first) ≤ (if last < last' then last else last') := by
    grind
  rw [intersect?, if_neg (not_not_intro same_bin), bounded, bounded']
  exact ⟨_, if_pos meets⟩

/-- A filter that admits a text asks for it. -/
theorem eq_equal_of_admits_string {filter : Filter} {text : String}
    (admitted : filter.admits (.string text) = true) : filter = .equal filter.bin (.string text) := by
  cases filter with
  | equal bin value => rw [Value.string_beq_iff.1 admitted, Filter.bin]
  | range bin first last => cases admitted

/-- Filters on one bin that both admit a value have an intersection. -/
theorem intersect?_of_admits {a b : Filter} (answerable : a.Answerable) (same_bin : a.bin = b.bin)
    {actual : Value} (first_admits : a.admits actual = true) (second_admits : b.admits actual = true) :
    ∃ c, a.intersect? b = some c := by
  obtain ⟨n, rfl⟩ | ⟨text, rfl⟩ := answerable.int_or_string first_admits
  · exact intersect?_of_admits_int same_bin first_admits second_admits
  · rw [eq_equal_of_admits_string first_admits, eq_equal_of_admits_string second_admits, same_bin]
    refine ⟨_, (if_neg (not_not_intro rfl)).trans (if_pos ?_)⟩
    rw [beq, Bool.and_eq_true, beq_self_eq_true, Value.beq_string_iff]
    exact ⟨rfl, rfl⟩

/-- An intersection of filters that select integers only selects one. -/
theorem admits_int_of_intersect? {a b c : Filter} (found : a.intersect? b = some c)
    (first_admits : ∃ n, a.admits (.int n) = true) : ∃ n, c.admits (.int n) = true := by
  obtain ⟨n, admitted⟩ := first_admits
  obtain ⟨_, _, bounded, _⟩ := bounds?_of_admits_int admitted
  obtain ⟨_, ⟨_, _, _, _, low, high, _, _, rfl, meets, _⟩ | ⟨unbounded, _⟩⟩ := intersect?_cases found
  · exact ⟨low, (admits_iff_of_bounds? (bounds?_between ..) _).2 ⟨low, rfl, Int64.le_refl low, meets⟩⟩
  · rw [bounded] at unbounded
    cases unbounded

/-- A property of filters that intersections keep passes from several filters to the one filter for
all of them. -/
@[elab_as_elim]
theorem intersectAll?_induct {property : Filter → Prop}
    (step : ∀ a b c, property a → property b → a.intersect? b = some c → property c)
    {filters : List Filter} (all : ∀ filter ∈ filters, property filter) {filter : Filter}
    (found : intersectAll? filters = some filter) : property filter := by
  cases filters with
  | nil => cases found
  | cons first rest =>
    rw [intersectAll?] at found
    induction rest generalizing first with
    | nil =>
      cases found
      exact all _ List.mem_cons_self
    | cons second rest ih =>
      rw [List.foldlM_cons, Option.bind_eq_bind, Option.bind_eq_some_iff] at found
      obtain ⟨both, met, found⟩ := found
      refine ih both ?_ found
      intro filter mem
      rcases List.mem_cons.1 mem with rfl | mem
      · exact step _ _ _ (all _ (by simp)) (all _ (by simp)) met
      · exact all _ (by simp [mem])

/-- The one filter for several that an index can be asked admits what all of them admit. -/
theorem admits_intersectAll?_iff {filters : List Filter}
    (answerable : ∀ filter ∈ filters, filter.Answerable) {filter : Filter}
    (found : intersectAll? filters = some filter) (actual : Value) :
    filter.admits actual = true ↔ ∀ each ∈ filters, each.admits actual = true := by
  cases filters with
  | nil => cases found
  | cons first rest =>
    rw [intersectAll?] at found
    induction rest generalizing first with
    | nil =>
      cases found
      rw [List.forall_mem_singleton]
    | cons second rest ih =>
      rw [List.foldlM_cons, Option.bind_eq_bind, Option.bind_eq_some_iff] at found
      obtain ⟨both, met, found⟩ := found
      simp only [List.forall_mem_cons] at answerable ih ⊢
      obtain ⟨first_answerable, second_answerable, rest_answerable⟩ := answerable
      rw [ih both ⟨first_answerable.of_intersect? met, rest_answerable⟩ found,
        admits_intersect?_iff second_answerable met, and_assoc]

/-- Several filters on one bin that all admit a value have one filter for all of them. -/
theorem intersectAll?_of_admits {filters : List Filter} (some_filter : filters ≠ []) {bin : String}
    (answerable : ∀ filter ∈ filters, filter.Answerable) (on_bin : ∀ filter ∈ filters, filter.bin = bin)
    {actual : Value} (admitted : ∀ filter ∈ filters, filter.admits actual = true) :
    ∃ filter, intersectAll? filters = some filter := by
  cases filters with
  | nil => exact absurd rfl some_filter
  | cons first rest =>
    rw [intersectAll?]
    induction rest generalizing first with
    | nil => exact ⟨first, rfl⟩
    | cons second rest ih =>
      simp only [List.forall_mem_cons] at answerable on_bin admitted ih
      obtain ⟨both, met⟩ := intersect?_of_admits answerable.1 (on_bin.1.trans on_bin.2.1.symm) admitted.1
        admitted.2.1
      obtain ⟨filter, found⟩ := ih both (List.cons_ne_nil _ _)
        ⟨answerable.1.of_intersect? met, answerable.2.2⟩
        ⟨(bin_of_intersect? met).trans on_bin.1, on_bin.2.2⟩
        ⟨admits_of_intersect? met admitted.1 admitted.2.1, admitted.2.2⟩
      refine ⟨filter, ?_⟩
      rw [List.foldlM_cons, met]
      exact found

end RecordQuery.Filter
