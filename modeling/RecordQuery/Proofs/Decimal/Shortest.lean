import RecordQuery.Decimal.Shortest
import RecordQuery.Proofs.Value.Conversion

/-!
The shortest decimal of a double rounds to it. The numbers that round to a double reach half-way to its
neighbours, and every decimal that is taken has been tested for lying there. With seventeen digits the
grid is finer than that interval is wide, so that one of the double's two neighbours on it lies inside.
-/

namespace RecordQuery.Decimal

open Double

/-- The number of a decimal. -/
def number (decimal : Decimal) : ℚ := decimal.significand * 10 ^ decimal.exponent

namespace Ratio

/-- The ratio is that of a number. -/
structure Is (ratio : Ratio) (number : ℚ) : Prop where
  denominator_pos : 0 < ratio.denominator
  numerator_eq : (ratio.numerator : ℚ) = number * ratio.denominator

variable {a b : Ratio} {p q : ℚ}

theorem is_scaled (factor : Nat) {base : Nat} (pos : 0 < base) (exponent : Int) :
    (scaled factor base exponent).Is (factor * base ^ exponent) := by
  rw [scaled]
  split
  · next nonneg =>
    obtain ⟨n, rfl⟩ := Int.eq_ofNat_of_zero_le nonneg
    exact ⟨one_pos, by simp⟩
  · next negative =>
    obtain ⟨n, rfl⟩ : ∃ n : Nat, exponent = -n := ⟨(-exponent).toNat, by omega⟩
    have base_ne : (base : ℚ) ≠ 0 := by exact_mod_cast pos.ne'
    exact ⟨Nat.pow_pos pos, by simp [base_ne]⟩

theorem le_iff (left : a.Is p) (right : b.Is q) : a.le b = true ↔ p ≤ q := by
  have pos : (0 : ℚ) < a.denominator * b.denominator := by
    exact_mod_cast Nat.mul_pos left.denominator_pos right.denominator_pos
  rw [le, decide_eq_true_iff, ← mul_le_mul_iff_left₀ pos, ← Nat.cast_le (α := ℚ), Nat.cast_mul, Nat.cast_mul,
    left.numerator_eq, right.numerator_eq]
  ring_nf

theorem lt_iff (left : a.Is p) (right : b.Is q) : a.lt b = true ↔ p < q := by
  rw [← not_le, ← le_iff right left, le, lt, decide_eq_true_iff, decide_eq_true_iff, not_le]

end Ratio

section Interval

variable {m : Nat} {e : Int} {q : ℚ}

/-- How far below a double the next one stands; below a power of two they stand twice as close. -/
def gapBelow (m : Nat) (e : Int) : ℚ := if m = 2 ^ 52 ∧ -1074 < e then 2 ^ e / 2 else 2 ^ e

theorem gapBelow_le (m : Nat) (e : Int) : gapBelow m e ≤ 2 ^ e := by
  have pos : (0 : ℚ) < 2 ^ e := by positivity
  rw [gapBelow]
  split <;> linarith

theorem gapBelow_pos (m : Nat) (e : Int) : 0 < gapBelow m e := by
  rw [gapBelow]
  split <;> positivity

/-- Not farther from a double than half-way to its neighbours, and half-way only if it is even. -/
structure Within (m : Nat) (e : Int) (q : ℚ) : Prop where
  low_le : m * 2 ^ e - gapBelow m e / 2 ≤ q
  le_high : q ≤ m * 2 ^ e + 2 ^ e / 2
  even : q = m * 2 ^ e - gapBelow m e / 2 ∨ q = m * 2 ^ e + 2 ^ e / 2 → m % 2 = 0

theorem Within.of_lt (above : m * 2 ^ e - gapBelow m e / 2 < q) (below : q < m * 2 ^ e + 2 ^ e / 2) :
    Within m e q :=
  ⟨above.le, below.le, fun ends => (ends.elim above.ne' below.ne).elim⟩

theorem Within.pos (within : Within m e q) (positive : 0 < m) : 0 < q := by
  have unit : (0 : ℚ) < 2 ^ e := by positivity
  have one_le : (1 : ℚ) ≤ m := by exact_mod_cast positive
  have product : (2 ^ e : ℚ) ≤ m * 2 ^ e := le_mul_of_one_le_left unit.le one_le
  linarith [within.low_le, gapBelow_le m e]

theorem quarter_units (count : Nat) (e : Int) : (count * (2 : Nat) ^ (e - 2) : ℚ) = count / 4 * 2 ^ e := by
  rw [Nat.cast_ofNat, zpow_sub₀ two_ne_zero]
  ring

theorem is_low (positive : 0 < m) : (Interval.around (m, e)).low.Is (m * 2 ^ e - gapBelow m e / 2) := by
  have full : leastFullMantissa = 2 ^ 52 := by decide
  have value_eq : (m * 2 ^ e - gapBelow m e / 2 : ℚ) =
      (4 * m - if m = leastFullMantissa ∧ -1074 < e then 1 else 2 : Nat) / 4 * 2 ^ e := by
    rw [full, gapBelow]
    split
    · rw [Nat.cast_sub (by omega)]
      push_cast
      ring
    · rw [Nat.cast_sub (by omega)]
      push_cast
      ring
  rw [value_eq, ← quarter_units]
  exact Ratio.is_scaled _ two_pos _

theorem is_high : (Interval.around (m, e)).high.Is (m * 2 ^ e + 2 ^ e / 2) := by
  have value_eq : (m * 2 ^ e + 2 ^ e / 2 : ℚ) = (4 * m + 2 : Nat) / 4 * 2 ^ e := by
    push_cast
    ring
  rw [value_eq, ← quarter_units]
  exact Ratio.is_scaled _ two_pos _

theorem closed_iff : (Interval.around (m, e)).closed = true ↔ m % 2 = 0 := decide_eq_true_iff

theorem contains_iff (positive : 0 < m) {ratio : Ratio} (is : ratio.Is q) :
    (Interval.around (m, e)).contains ratio = true ↔ Within m e q := by
  have low := is_low (e := e) positive
  have high := is_high (m := m) (e := e)
  rw [Interval.contains]
  split
  · next closed =>
    rw [Bool.and_eq_true, Ratio.le_iff low is, Ratio.le_iff is high]
    exact ⟨fun ⟨above, below⟩ => ⟨above, below, fun _ => closed_iff.1 closed⟩,
      fun within => ⟨within.low_le, within.le_high⟩⟩
  · next is_open =>
    rw [closed_iff] at is_open
    rw [Bool.and_eq_true, Ratio.lt_iff low is, Ratio.lt_iff is high]
    constructor
    · exact fun ⟨above, below⟩ => .of_lt above below
    · rintro ⟨above, below, even⟩
      exact ⟨above.lt_of_ne fun same => is_open (even (Or.inl same.symm)),
        below.lt_of_ne fun same => is_open (even (Or.inr same))⟩

end Interval

section Grid

variable {tie : Tie} {m : Nat} {e exponent : Int} {value : Ratio} {q : ℚ}

/-- The quotient finds the neighbour below on a grid. -/
theorem below_le (is : value.Is q) {grid : Ratio} {unit : ℚ} (is_unit : grid.Is unit) (pos : 0 < unit) :
    let below := value.numerator * grid.denominator / (value.denominator * grid.numerator)
    below * unit ≤ q ∧ q < (below + 1) * unit := by
  intro below
  have value_pos : (0 : ℚ) < value.denominator := by exact_mod_cast is.denominator_pos
  have grid_pos : (0 : ℚ) < grid.denominator := by exact_mod_cast is_unit.denominator_pos
  have bottom_eq : ((value.denominator * grid.numerator : Nat) : ℚ) =
      unit * (value.denominator * grid.denominator) := by
    rw [Nat.cast_mul, is_unit.numerator_eq]
    ring
  have top_eq : ((value.numerator * grid.denominator : Nat) : ℚ) =
      q * (value.denominator * grid.denominator) := by
    rw [Nat.cast_mul, is.numerator_eq]
    ring
  have both_pos : (0 : ℚ) < value.denominator * grid.denominator := by positivity
  have bottom_pos : 0 < value.denominator * grid.numerator := by
    rw [← Nat.cast_pos (α := ℚ), bottom_eq]
    positivity
  constructor
  · rw [← mul_le_mul_iff_left₀ both_pos, mul_assoc, ← bottom_eq, ← top_eq]
    exact_mod_cast Nat.div_mul_le_self _ _
  · rw [← mul_lt_mul_iff_left₀ both_pos, mul_assoc, ← bottom_eq, ← top_eq]
    have lt_above := Nat.lt_div_mul_add (a := value.numerator * grid.denominator) bottom_pos
    rw [← Nat.add_one_mul] at lt_above
    exact_mod_cast lt_above

theorem within_of_onGrid (positive : 0 < m) {decimal : Decimal}
    (found : onGrid tie (Interval.around (m, e)) value exponent = some decimal) :
    Within m e decimal.number := by
  have tested (count : Nat)
      (inside : (Interval.around (m, e)).contains (.scaled count 10 exponent) = true) :
      Within m e (number ⟨count, exponent⟩) := by
    have is := Ratio.is_scaled count (show 0 < 10 by decide) exponent
    rw [Nat.cast_ofNat] at is
    exact (contains_iff positive is).1 inside
  rw [onGrid] at found
  dsimp only at found
  split at found
  · next inside =>
    rw [← Option.some.inj found]
    exact tested _ (Bool.and_eq_true_iff.1 inside).1
  · split at found
    · next inside =>
      rw [← Option.some.inj found]
      exact tested _ inside
    · cases found

/-- A grid that is finer than the interval has a point in it, below or above the double. -/
theorem isSome_onGrid (positive : 0 < m) (is : value.Is (m * 2 ^ e))
    (fine : (10 ^ exponent : ℚ) < gapBelow m e / 2 + 2 ^ e / 2) :
    (onGrid tie (Interval.around (m, e)) value exponent).isSome = true := by
  have unit_pos : (0 : ℚ) < 10 ^ exponent := by positivity
  have is_unit := Ratio.is_scaled 1 (show 0 < 10 by decide) exponent
  rw [Nat.cast_one, one_mul, Nat.cast_ofNat] at is_unit
  have neighbours := below_le is is_unit unit_pos
  rw [onGrid]
  dsimp only at neighbours ⊢
  generalize value.numerator * _ / _ = below at neighbours ⊢
  obtain ⟨below_le, lt_above⟩ := neighbours
  have inside_iff (count : Nat) : (Interval.around (m, e)).contains (.scaled count 10 exponent) = true ↔
      Within m e (count * 10 ^ exponent) := by
    have is_count := Ratio.is_scaled count (show 0 < 10 by decide) exponent
    rw [Nat.cast_ofNat] at is_count
    exact contains_iff positive is_count
  have pos : (0 : ℚ) < 2 ^ e := by positivity
  have gap_pos := gapBelow_pos m e
  by_contra none_inside
  -- Outside, the two neighbours stand on either side of the interval.
  have not_below : ¬Within m e (below * 10 ^ exponent) := by
    rw [← inside_iff]
    intro inside
    refine none_inside ?_
    simp only [inside, Bool.true_and]
    split_ifs <;> simp_all
  have not_above : ¬Within m e ((below + 1 : Nat) * 10 ^ exponent) := by
    rw [← inside_iff]
    intro inside
    refine none_inside ?_
    simp only [inside, if_true]
    split_ifs <;> rfl
  have low : (below * 10 ^ exponent : ℚ) ≤ m * 2 ^ e - gapBelow m e / 2 := by
    by_contra inside
    exact not_below (.of_lt (not_le.1 inside) (by linarith))
  have high : (m * 2 ^ e + 2 ^ e / 2 : ℚ) ≤ (below + 1 : Nat) * 10 ^ exponent := by
    by_contra inside
    rw [Nat.cast_add_one] at inside not_above
    exact not_above (.of_lt (by linarith) (not_le.1 inside))
  rw [Nat.cast_add_one, add_one_mul] at high
  linarith

end Grid

section Magnitude

/-- A power of ten is compared with a power of two by comparing one power of each. -/
theorem ten_zpow_le {a b : Nat} {k l : Int} (b_pos : b ≠ 0) (le : b * k ≤ a * l)
    (powers : ((10 ^ a) ^ l : ℚ) ≤ (2 ^ b) ^ l) : (10 ^ k : ℚ) ≤ 2 ^ l := by
  rw [← pow_le_pow_iff_left₀ (by positivity) (by positivity) b_pos]
  calc ((10 ^ k) ^ b : ℚ) = 10 ^ (b * k) := by rw [← zpow_natCast, ← zpow_mul, mul_comm]
    _ ≤ 10 ^ (a * l) := zpow_le_zpow_right₀ (by norm_num) le
    _ = (10 ^ a) ^ l := by rw [zpow_mul, zpow_natCast]
    _ ≤ (2 ^ b) ^ l := powers
    _ = (2 ^ l) ^ b := by rw [← zpow_natCast, ← zpow_natCast, ← zpow_mul, ← zpow_mul, mul_comm]

/-- The guess is at most two too great for the binary exponents of the doubles. -/
theorem guess_le {l : Int} (least : -1100 ≤ l) (greatest : l ≤ 1100) :
    (10 ^ (l * 30103 / 100000 - 2) : ℚ) ≤ 2 ^ l := by
  obtain nonneg | negative := le_or_gt 0 l
  · refine ten_zpow_le (a := 59) (b := 196) (by decide) (by push_cast; omega) ?_
    obtain ⟨n, rfl⟩ := Int.eq_ofNat_of_zero_le nonneg
    rw [zpow_natCast, zpow_natCast]
    gcongr
    norm_num
  · refine ten_zpow_le (a := 28) (b := 93) (by decide) (by push_cast; omega) ?_
    obtain ⟨n, rfl⟩ : ∃ n : Nat, l = -n := ⟨(-l).toNat, by omega⟩
    rw [zpow_neg, zpow_neg, zpow_natCast, zpow_natCast]
    gcongr
    norm_num

theorem log2_scaled {m : Nat} (positive : 0 < m) (e : Int) :
    ((Ratio.scaled m 2 e).numerator.log2 : Int) - (Ratio.scaled m 2 e).denominator.log2 = m.log2 + e := by
  rw [Ratio.scaled]
  split
  · next nonneg =>
    obtain ⟨n, rfl⟩ := Int.eq_ofNat_of_zero_le nonneg
    have shifted : m * Nat.pow 2 n = m <<< n := (Nat.shiftLeft_eq m n).symm
    change ((m * Nat.pow 2 n).log2 : Int) - (Nat.log2 1 : Nat) = _
    have log_one : Nat.log2 1 = 0 := Nat.log2_two_pow (n := 0)
    rw [shifted, log2_shiftLeft positive, log_one]
    simp
  · next negative =>
    obtain ⟨n, rfl⟩ : ∃ n : Nat, e = -n := ⟨(-e).toNat, by omega⟩
    change (m.log2 : Int) - (Nat.log2 (2 ^ (- -(n : Int)).toNat) : Nat) = _
    rw [Nat.log2_two_pow]
    omega

/-- A search through consecutive numbers ends with the first one, or after one that was passed over. -/
theorem find?_consecutive (p : Int → Bool) (first : Int) (count : Nat) :
    let found := (((List.range count).map fun (n : Nat) => first + n).find? p).getD (first + count)
    found = first ∨ p (found - 1) = false := by
  induction count with
  | zero => exact Or.inl (add_zero first)
  | succ count ih =>
    rw [List.range_succ, List.map_append, List.find?_append]
    cases earlier : ((List.range count).map fun (n : Nat) => first + n).find? p with
    | some k =>
      rw [earlier, Option.getD_some] at ih
      exact ih
    | none =>
      rw [earlier, Option.getD_none] at ih
      cases here : p (first + count) with
      | true => simpa [here] using ih
      | false => exact Or.inr (by simp [here, ← add_assoc])

/-- The power of ten that is found has the one before it below the number. -/
theorem magnitude_le {m : Nat} {e : Int} (canonical : Canonical m e) (greatest : e ≤ 1000) :
    (10 ^ (magnitude (.scaled m 2 e) - 1) : ℚ) ≤ m * 2 ^ e := by
  have is := Ratio.is_scaled m two_pos e
  rw [Nat.cast_ofNat] at is
  have power_le (k : Int) (beyond : (Ratio.scaled m 2 e).lt (.scaled 1 10 k) = false) :
      (10 ^ k : ℚ) ≤ m * 2 ^ e := by
    have is_power := Ratio.is_scaled 1 (show 0 < 10 by decide) k
    rw [Nat.cast_one, one_mul, Nat.cast_ofNat] at is_power
    rwa [← Bool.not_eq_true, Ratio.lt_iff is is_power, not_lt] at beyond
  have least_le := canonical.least_le
  have log_le : m.log2 ≤ 52 := Nat.lt_succ_iff.1 ((Nat.log2_lt canonical.pos.ne').2 canonical.fits)
  have first : (10 ^ (((m.log2 : Int) + e - 1) * 30103 / 100000 - 2) : ℚ) ≤ m * 2 ^ e :=
    calc (10 ^ (((m.log2 : Int) + e - 1) * 30103 / 100000 - 2) : ℚ) ≤ 2 ^ ((m.log2 : Int) + e - 1) :=
          guess_le (by omega) (by omega)
      _ ≤ 2 ^ ((m.log2 : Int) + e) := zpow_le_zpow_right₀ one_le_two (by omega)
      _ = (2 ^ m.log2 : Nat) * 2 ^ e := by
          rw [zpow_add₀ two_ne_zero, zpow_natCast, Nat.cast_pow, Nat.cast_ofNat]
      _ ≤ m * 2 ^ e := by
          gcongr
          exact Nat.log2_self_le canonical.pos.ne'
  rw [magnitude, log2_scaled canonical.pos]
  generalize ((m.log2 : Int) + e - 1) * 30103 / 100000 = guess at first
  have consecutive : ([-1, 0, 1, 2, 3] : List Int).map (guess + ·) =
      (List.range 5).map fun (n : Nat) => guess - 1 + n := by
    simp only [List.range_succ, List.range_zero, List.map_cons, List.map_nil, List.nil_append,
      List.cons_append]
    grind
  have last : guess + 4 = guess - 1 + (5 : Nat) := by omega
  rw [consecutive, last]
  obtain found | passed := find?_consecutive (fun k => (Ratio.scaled m 2 e).lt (.scaled 1 10 k)) (guess - 1) 5
  · rwa [found, sub_sub]
  · exact power_le _ passed

end Magnitude

theorem number_normalize (fuel : Nat) (decimal : Decimal) :
    (normalize fuel decimal).number = decimal.number := by
  induction fuel generalizing decimal with
  | zero => rfl
  | succ fuel ih =>
    rw [normalize]
    split
    · next zero =>
      obtain ⟨significand, exponent⟩ := decimal
      obtain ⟨tenth, rfl⟩ := Nat.dvd_of_mod_eq_zero zero
      rw [ih, number, number, Nat.mul_div_cancel_left tenth (by decide), zpow_add_one₀ (by norm_num)]
      push_cast
      ring
    · rfl

/-- Seventeen digits are always enough. -/
theorem fine_of_canonical {m : Nat} {e point : Int} (canonical : Canonical m e)
    (le : (10 ^ (point - 1) : ℚ) ≤ m * 2 ^ e) :
    (10 ^ (point - 17) : ℚ) < gapBelow m e / 2 + 2 ^ e / 2 := by
  have pos : (0 : ℚ) < 2 ^ e := by positivity
  have unit : (10 ^ (point - 1) : ℚ) = 10 ^ 16 * 10 ^ (point - 17) := by
    rw [← zpow_natCast, ← zpow_add₀ (by norm_num)]
    congr 1
    push_cast
    ring
  rw [unit] at le
  rw [gapBelow]
  split
  · next nearer =>
    rw [nearer.1] at le
    push_cast at le
    linarith
  · have fits : (m * 2 ^ e : ℚ) ≤ 2 ^ 53 * 2 ^ e := by
      gcongr
      exact_mod_cast canonical.fits.le
    linarith

/-- The shortest decimal is one of the numbers that round to the double. -/
theorem within_shortest {x : Float} {m : Nat} {e : Int} (tie : Tie) (parts : binaryParts x = (m, e))
    (canonical : Canonical m e) (greatest : e ≤ 1000) : Within m e (shortest tie x).number := by
  have is := Ratio.is_scaled m two_pos e
  rw [Nat.cast_ofNat] at is
  have fine := fine_of_canonical canonical (magnitude_le canonical greatest)
  rw [shortest, parts]
  dsimp only
  rw [number_normalize]
  generalize magnitude (.scaled m 2 e) = point at fine
  have reached : ((List.range 17).findSome? fun (n : Nat) =>
      onGrid tie (Interval.around (m, e)) (.scaled m 2 e) (point - (n + 1))).isSome = true := by
    rw [List.findSome?_isSome_iff]
    exact ⟨16, by decide, isSome_onGrid canonical.pos is fine⟩
  obtain ⟨decimal, found⟩ := Option.isSome_iff_exists.1 reached
  obtain ⟨n, -, taken⟩ := List.exists_of_findSome?_eq_some found
  rw [found, Option.getD_some]
  exact within_of_onGrid canonical.pos taken

end RecordQuery.Decimal
