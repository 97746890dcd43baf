import RecordQuery.Proofs.Value.Nearest

/-!
Integers beside doubles. The order of an integer and a finite double is the order of their exact numbers,
except that the double nearest to the integer is taken for equal to it. Up to two to the power of 53, and
wherever else an integer is the number of a double, nothing is lost by this; between two doubles that are
farther apart than one, all integers count as one of the two.
-/

namespace RecordQuery

open Double

/-- The number of some finite double. -/
def IsDouble (number : ℚ) : Prop := ∃ x, exactly? x = some number

/-- No finite double is nearer to the number than this one, and its significand is even where another is
as near. -/
structure NearestDouble (number : ℚ) (x : Float) (p : ℚ) : Prop where
  exactly_eq : exactly? x = some p
  near : ∀ y q, exactly? y = some q → |number - p| ≤ |number - q|
  even : ∀ y q, exactly? y = some q → q ≠ p → |number - p| = |number - q| →
    significand x.toModel.unpack % 2 = 0

/-- A number that is nearer than another one, or as near, lies on the same side of it. -/
theorem compare_eq_of_near {number p q : ℚ} (near : |number - p| ≤ |number - q|) (differs : q ≠ p) :
    compare p q = compare number q := by
  obtain less | rfl | more := lt_trichotomy p q
  · have side : number < q := by
      by_contra beyond
      rw [not_lt] at beyond
      rw [abs_of_nonneg (by linarith), abs_of_nonneg (by linarith)] at near
      linarith
    rw [compare_lt_iff_lt.2 less, compare_lt_iff_lt.2 side]
  · exact absurd rfl differs
  · have side : q < number := by
      by_contra beyond
      rw [not_lt] at beyond
      rw [abs_of_nonpos (by linarith), abs_of_nonpos (by linarith)] at near
      linarith
    rw [compare_gt_iff_gt.2 more, compare_gt_iff_gt.2 side]

/-- A number that is as near to another one as that is to itself. -/
theorem eq_of_near_self {number p : ℚ} (near : |number - p| ≤ |number - number|) : p = number := by
  rw [sub_self, abs_zero, abs_nonpos_iff, sub_eq_zero] at near
  exact near.symm

theorem NearestDouble.eq_of_isDouble {number p : ℚ} {x : Float} (best : NearestDouble number x p)
    (isDouble : IsDouble number) : p = number := by
  obtain ⟨y, finite⟩ := isDouble
  exact eq_of_near_self (best.near y number finite)

/-- There is one nearest number, and every double that stands for it is a nearest one. -/
theorem nearestDouble_iff {number p q : ℚ} {x y : Float} (denotes : Denotes y.toModel.unpack p)
    (nearest : Nearest number y.toModel.unpack p) (finite : exactly? x = some q) :
    NearestDouble number x q ↔ p = q := by
  have finite' : exactly? y = some p := denotes.number?_eq
  constructor
  · intro best
    by_contra differs
    obtain farther | ⟨tie, _, odd⟩ := nearest _ q (denotes_of_exactly? finite) (Ne.symm differs)
    · exact absurd (best.near y p finite') farther.not_ge
    · have even := best.even y p finite' differs tie.symm
      omega
  · rintro rfl
    refine ⟨finite, fun z r other => nearest.le (denotes_of_exactly? other), ?_⟩
    intro z r other differs tie
    obtain farther | ⟨_, even, _⟩ := nearest _ r (denotes_of_exactly? other) differs
    · exact absurd tie farther.ne
    · rwa [(denotes_of_exactly? finite).significand_eq denotes]

namespace Value

variable (n : Int64) {x : Float} {q : ℚ}

theorem compare?_double (finite : exactly? x = some q) :
    ∃ order, (Value.int n).compare? (.float x) = some order ∧
      (Value.float x).compare? (.int n) = some order.swap ∧
      (order = .eq ↔ NearestDouble n.toInt x q) ∧
      (¬NearestDouble n.toInt x q ∨ IsDouble n.toInt → order = compare (n.toInt : ℚ) q) := by
  obtain ⟨p, denotes, nearest⟩ := nearest_nearestFloat n
  have denotes' := denotes_of_exactly? finite
  have best_iff := nearestDouble_iff denotes nearest finite
  have swapped : compare q p = (compare p q).swap := Std.OrientedOrd.eq_swap
  refine ⟨compare p q, floatOrder?_eq denotes denotes', ?_, ?_, ?_⟩
  · rw [← swapped]
    exact floatOrder?_eq denotes' denotes
  · rw [best_iff, compare_eq_iff_eq]
  · rintro (other | ⟨y, exact_eq⟩)
    · exact compare_eq_of_near (nearest.le denotes') fun same => other (best_iff.2 same.symm)
    · rw [eq_of_near_self (nearest.le (denotes_of_exactly? exact_eq))]

theorem equalTo_iff_of_compare? {a b : Value} {order : Ordering} (ordered : a.compare? b = some order) :
    a.equalTo b = true ↔ order = .eq := by
  rw [equalTo, ordered]
  exact beq_iff_eq

theorem int_equalTo_float_iff (finite : exactly? x = some q) :
    (Value.int n).equalTo (.float x) = true ↔ NearestDouble n.toInt x q := by
  obtain ⟨order, ordered, _, best_iff, _⟩ := compare?_double n finite
  rw [equalTo_iff_of_compare? ordered, best_iff]

theorem float_equalTo_int_iff (finite : exactly? x = some q) :
    (Value.float x).equalTo (.int n) = true ↔ NearestDouble n.toInt x q := by
  obtain ⟨order, _, ordered, best_iff, _⟩ := compare?_double n finite
  rw [equalTo_iff_of_compare? ordered, ← best_iff, Ordering.swap_eq_eq]

theorem isDouble_of_le (le : n.toInt.natAbs ≤ 2 ^ 53) : IsDouble n.toInt := by
  obtain ⟨b, exact_denotes⟩ := exists_denotes le
  obtain ⟨p, denotes, nearest⟩ := nearest_nearestFloat n
  rw [eq_of_near_self (nearest.le exact_denotes)] at denotes
  exact ⟨nearestFloat n, denotes.number?_eq⟩

/-- An integer and a finite double are ordered both ways round, as equal just if the double is the nearest
one, and else as their numbers are. The numbers decide for every integer that is itself the number of a
double, so for all up to two to the power of 53. Of two integers that equal one double at least one is not. -/
theorem order_with_double_is_that_of_nearest (finite : exactly? x = some q) :
    (∃ order, (Value.int n).compare? (.float x) = some order ∧
      (Value.float x).compare? (.int n) = some order.swap ∧
      (order = .eq ↔ NearestDouble n.toInt x q) ∧
      (¬NearestDouble n.toInt x q ∨ IsDouble n.toInt → order = compare (n.toInt : ℚ) q)) ∧
    (n.toInt.natAbs ≤ 2 ^ 53 → IsDouble n.toInt) ∧
    ((Value.int n).equalTo (.float x) = true ↔ NearestDouble n.toInt x q) ∧
    ((Value.float x).equalTo (.int n) = true ↔ NearestDouble n.toInt x q) ∧
    ∀ m : Int64, m ≠ n → (Value.int m).equalTo (.float x) = true →
      (Value.int n).equalTo (.float x) = true → ¬(IsDouble m.toInt ∧ IsDouble n.toInt) := by
  refine ⟨compare?_double n finite, isDouble_of_le n, int_equalTo_float_iff n finite,
    float_equalTo_int_iff n finite, ?_⟩
  rintro m differs equal equal' ⟨isDouble, isDouble'⟩
  have here := ((int_equalTo_float_iff m finite).1 equal).eq_of_isDouble isDouble
  have there := ((int_equalTo_float_iff n finite).1 equal').eq_of_isDouble isDouble'
  exact differs (Int64.toInt_inj.1 (Int.cast_injective (here.symm.trans there)))

/-- Two to the power of 53, as a double. -/
def gapStart : Float := Float.ofBits 0x4340000000000000

theorem exactly?_gapStart : exactly? gapStart = some (2 ^ 53) := by
  have value_eq : (2 ^ 53 : ℚ) = (2 ^ 52 : Nat) * 2 ^ (1 : Int) := by norm_num
  have canonical : Canonical (2 ^ 52) 1 := ⟨by norm_num, by norm_num, by decide, Or.inl le_rfl⟩
  rw [value_eq]
  exact (Denotes.positive (Nat.two_pow_pos 52) canonical).number?_eq

/-- The first integer that is no double counts as the one below it. -/
theorem integer_in_first_gap :
    exactly? gapStart = some (2 ^ 53) ∧ NearestDouble 9007199254740993 gapStart (2 ^ 53) ∧
      ¬IsDouble 9007199254740993 := by
  have below : (Value.int 9007199254740992).equalTo (.float gapStart) = true := by decide +kernel
  have inside : (Value.int 9007199254740993).equalTo (.float gapStart) = true := by decide +kernel
  obtain ⟨_, _, equal_iff, _, apart⟩ :=
    order_with_double_is_that_of_nearest 9007199254740993 exactly?_gapStart
  obtain ⟨_, isDouble, _⟩ := order_with_double_is_that_of_nearest 9007199254740992 exactly?_gapStart
  refine ⟨exactly?_gapStart, equal_iff.1 inside, fun other => ?_⟩
  exact apart 9007199254740992 (by decide) below inside ⟨isDouble (by decide), other⟩

/-- The order of the exact numbers is lost there, and two different integers equal one double. -/
theorem integers_around_gap_equal_one_double :
    (¬∀ (n : Int64) (x : Float) (q : ℚ), exactly? x = some q →
      (Value.int n).compare? (.float x) = some (compare (n.toInt : ℚ) q)) ∧
    ¬∀ (m n : Int64) (x : Float), (Value.int m).equalTo (.float x) = true →
      (Value.int n).equalTo (.float x) = true → m = n := by
  constructor
  · intro by_numbers
    have inside : (Value.int 9007199254740993).compare? (.float gapStart) = some .eq := by
      decide +kernel
    rw [by_numbers _ _ _ exactly?_gapStart, Option.some.injEq, compare_eq_iff_eq] at inside
    have number : (9007199254740993 : Int64).toInt = 9007199254740993 := by decide
    rw [number] at inside
    norm_num at inside
  · intro told_apart
    have same := told_apart 9007199254740992 9007199254740993 gapStart (by decide +kernel)
      (by decide +kernel)
    exact absurd same (by decide)

end Value

end RecordQuery
