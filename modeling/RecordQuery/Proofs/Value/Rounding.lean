import Mathlib.Tactic.Linarith
import Mathlib.Tactic.NormNum
import RecordQuery.Proofs.Value.Double

/-!
How a number is rounded to a significand of 53 bits. The bits that are cut off one by one leave a bit for
the half and a bit for the rest, by which the nearest multiple of a power of two is found, of two equally
near ones the even one. Where that multiple has become a bit too long it is halved, which is exact.
-/

namespace RecordQuery.Double

open Float.Model Float.Model.UnpackedFloat

/-- The multiple of a unit that is nearest to a number, of two equally near ones the even one. -/
structure NearestMultiple (number unit : ℚ) (multiple : Nat) : Prop where
  near : 2 * |number - multiple * unit| ≤ unit
  even : 2 * |number - multiple * unit| = unit → multiple % 2 = 0

namespace NearestMultiple

section Cut

variable {multiple unit rest : Nat}

theorem of_below (half : 2 * rest ≤ unit) (even : 2 * rest = unit → multiple % 2 = 0) :
    NearestMultiple (multiple * unit + rest : Nat) unit multiple := by
  have distance : |((multiple * unit + rest : Nat) : ℚ) - multiple * unit| = rest := by
    rw [Nat.cast_add, Nat.cast_mul, add_sub_cancel_left, Nat.abs_cast]
  constructor <;> rw [distance]
  · exact_mod_cast half
  · exact_mod_cast even

theorem of_above (half : unit ≤ 2 * rest) (rest_le : rest ≤ unit)
    (even : 2 * rest = unit → (multiple + 1) % 2 = 0) :
    NearestMultiple (multiple * unit + rest : Nat) unit (multiple + 1) := by
  have distance : |((multiple * unit + rest : Nat) : ℚ) - (multiple + 1 : Nat) * unit| =
      (unit - rest : Nat) := by
    rw [Nat.cast_add, Nat.cast_mul, Nat.cast_add_one, add_one_mul, add_sub_add_left_eq_sub, abs_sub_comm,
      ← Nat.cast_sub rest_le, Nat.abs_cast]
  have tie_iff : 2 * (unit - rest) = unit ↔ 2 * rest = unit := by omega
  constructor <;> rw [distance]
  · exact_mod_cast (by omega : 2 * (unit - rest) ≤ unit)
  · exact_mod_cast fun tie => even (tie_iff.1 tie)

end Cut

variable {number unit factor : ℚ} {multiple count : Nat}

theorem scaled (positive : 0 < factor) (nearest : NearestMultiple number unit multiple) :
    NearestMultiple (number * factor) (unit * factor) multiple := by
  have distance : 2 * |number * factor - multiple * (unit * factor)| =
      2 * |number - multiple * unit| * factor := by
    rw [← mul_assoc, ← sub_mul, abs_mul, abs_of_pos positive, mul_assoc]
  constructor <;> rw [distance]
  · gcongr
    exact nearest.near
  · rw [mul_left_inj' positive.ne']
    exact nearest.even

/-- Another multiple is farther away, or as far and odd while the nearest one is even. -/
theorem of_ne (positive : 0 < unit) (nearest : NearestMultiple number unit multiple)
    (differs : count ≠ multiple) :
    |number - multiple * unit| < |number - count * unit| ∨
      (|number - multiple * unit| = |number - count * unit| ∧ multiple % 2 = 0 ∧ count % 2 = 1) := by
  have apart : ∀ steps : Nat, steps ≤ ((count : Int) - multiple).natAbs →
      steps * unit ≤ |number - multiple * unit| + |number - count * unit| := by
    intro steps le
    calc (steps * unit : ℚ) ≤ ((count : Int) - multiple).natAbs * unit := by gcongr
      _ = |(number - multiple * unit) - (number - count * unit)| := by
          rw [Nat.cast_natAbs, Int.cast_abs, sub_sub_sub_cancel_left, ← sub_mul, abs_mul,
            abs_of_pos positive]
          push_cast
          rfl
      _ ≤ |number - multiple * unit| + |number - count * unit| := abs_sub _ _
  have near := nearest.near
  have one := apart 1 (by omega)
  rw [Nat.cast_one, one_mul] at one
  obtain farther | tie := (by linarith : |number - multiple * unit| ≤ |number - count * unit|).lt_or_eq
  · exact Or.inl farther
  · by_cases adjacent : ((count : Int) - multiple).natAbs = 1
    · have even := nearest.even (by linarith)
      exact Or.inr ⟨tie, even, by omega⟩
    · have two := apart 2 (by omega)
      rw [Nat.cast_ofNat] at two
      linarith

theorem near_count (positive : 0 < unit) (nearest : NearestMultiple number unit multiple)
    (count : Nat) : |number - multiple * unit| ≤ |number - count * unit| := by
  by_cases same : count = multiple
  · rw [same]
  · obtain farther | ⟨tie, _⟩ := nearest.of_ne positive same
    · exact farther.le
    · exact tie.le

/-- What lies below a multiple that the number reaches is farther away. -/
theorem near_of_lt (positive : 0 < unit) (nearest : NearestMultiple number unit multiple) {q : ℚ}
    (reaches : count * unit ≤ number) (less : q < count * unit) :
    |number - multiple * unit| < |number - q| :=
  calc |number - multiple * unit| ≤ |number - count * unit| := nearest.near_count positive count
    _ = number - count * unit := abs_of_nonneg (sub_nonneg.2 reaches)
    _ < number - q := sub_lt_sub_left less number
    _ ≤ |number - q| := le_abs_self _

theorem le_multiple (positive : 0 < unit) (nearest : NearestMultiple number unit multiple)
    (le : count * unit ≤ number) : count ≤ multiple := by
  by_contra less
  have gap : ((multiple + 1 : Nat) : ℚ) * unit ≤ number := by
    refine le_trans ?_ le
    gcongr
    exact not_le.1 less
  rw [Nat.cast_add_one, add_one_mul] at gap
  linarith [nearest.near, le_abs_self (number - multiple * unit)]

theorem multiple_le (positive : 0 < unit) (nearest : NearestMultiple number unit multiple)
    (le : number ≤ count * unit) : multiple ≤ count := by
  by_contra less
  have gap : ((count + 1 : Nat) : ℚ) * unit ≤ multiple * unit := by
    gcongr
    exact not_le.1 less
  rw [Nat.cast_add_one, add_one_mul] at gap
  linarith [nearest.near, neg_abs_le (number - multiple * unit)]

end NearestMultiple

/-- What is kept of a number that is cut at a unit: how many units there are, whether half a unit or more
is left, and whether what is left is neither nothing nor half a unit. -/
structure Keeps (extended : ExtendedMantissa) (number unit rest : Nat) : Prop where
  rest_lt : rest < unit
  number_eq : number = extended.mantissa * unit + rest
  round_iff : extended.roundBit = true ↔ unit ≤ 2 * rest
  sticky_iff : extended.stickyBit = true ↔ rest ≠ 0 ∧ 2 * rest ≠ unit

namespace Keeps

variable {extended : ExtendedMantissa} {number unit rest : Nat}

theorem start (number : Nat) : Keeps (.ofMantissaAndAccuracy number .exact) number 1 0 where
  rest_lt := one_pos
  number_eq := by rw [mul_one, add_zero, ExtendedMantissa.ofMantissaAndAccuracy]
  round_iff := by simp [ExtendedMantissa.ofMantissaAndAccuracy]
  sticky_iff := by simp [ExtendedMantissa.ofMantissaAndAccuracy]

theorem shiftRightOne (keeps : Keeps extended number unit rest) :
    Keeps extended.shiftRightOne number (2 * unit) (extended.mantissa % 2 * unit + rest) := by
  obtain ⟨rest_lt, number_eq, round_iff, sticky_iff⟩ := keeps
  have halves : number = extended.mantissa / 2 * (2 * unit) + (extended.mantissa % 2 * unit + rest) := by
    rw [number_eq, ← add_assoc, ← mul_assoc, ← add_mul, Nat.div_add_mod']
  have odd_iff : (extended.mantissa % 2 != 0) = true ↔ extended.mantissa % 2 = 1 := by
    rw [bne_iff_ne, Nat.mod_two_ne_zero]
  have left_iff : (extended.roundBit || extended.stickyBit) = true ↔ rest ≠ 0 := by
    rw [Bool.or_eq_true, round_iff, sticky_iff]
    omega
  obtain even | odd := Nat.mod_two_eq_zero_or_one extended.mantissa
  · refine ⟨?_, halves, odd_iff.trans ?_, left_iff.trans ?_⟩ <;> rw [even, zero_mul] <;> omega
  · refine ⟨?_, halves, odd_iff.trans ?_, left_iff.trans ?_⟩ <;> rw [odd, one_mul] <;> omega

theorem shiftRight (number shift : Nat) :
    ∃ rest, Keeps (ExtendedMantissa.ofMantissaAndAccuracy number .exact >>> shift) number (2 ^ shift)
      rest := by
  induction shift with
  | zero => exact ⟨0, start number⟩
  | succ shift ih =>
    obtain ⟨rest, keeps⟩ := ih
    rw [pow_succ']
    exact ⟨_, keeps.shiftRightOne⟩

theorem nearest (keeps : Keeps extended number unit rest) :
    NearestMultiple number unit extended.roundedMantissa := by
  obtain ⟨rest_lt, rfl, round_iff, sticky_iff⟩ := keeps
  obtain ⟨mantissa, round, sticky⟩ := extended
  dsimp only at round_iff sticky_iff
  cases round with
  | false =>
    have less : 2 * rest < unit := not_le.1 fun half => Bool.false_ne_true (round_iff.2 half)
    have rounded : ExtendedMantissa.roundedMantissa ⟨mantissa, false, sticky⟩ = mantissa := by
      cases sticky <;> rfl
    rw [rounded]
    exact .of_below less.le fun tie => absurd tie less.ne
  | true =>
    have half := round_iff.1 rfl
    cases sticky with
    | false =>
      change NearestMultiple _ _ (mantissa + mantissa % 2)
      obtain even | odd := Nat.mod_two_eq_zero_or_one mantissa
      · have tie : 2 * rest = unit := by
          by_contra apart
          exact Bool.false_ne_true (sticky_iff.2 ⟨by omega, apart⟩)
        rw [even]
        exact .of_below tie.le fun _ => even
      · rw [odd]
        exact .of_above half rest_lt.le fun _ => by rw [Nat.add_mod, odd]
    | true => exact .of_above half rest_lt.le fun tie => absurd tie (sticky_iff.1 rfl).2

end Keeps

theorem shiftToTargetExponent_eq {number shift : Nat} {e : Int} (bits : number.log2 = 52 + shift)
    (least : -1074 ≤ e + shift) :
    shiftToTargetExponent Format.binary64 number e .exact =
      (ExtendedMantissa.ofMantissaAndAccuracy number .exact >>> shift, e + shift) := by
  have target : Format.binary64.targetExponent (totalExponent number e) = e + shift := by
    rw [Format.targetExponent, totalExponent, bits]
    have width : ((Format.binary64.mantissaBits : Nat) : Int) = 53 := rfl
    have minimum : Format.binary64.minExponent = -1074 := rfl
    omega
  have amount : (e + shift - e).toNat = shift := by omega
  unfold shiftToTargetExponent shiftToExponent
  dsimp only
  rw [target, amount]

/-- A multiple of 53 bits stays; one that has reached the next power of two is halved. -/
inductive Carried : Nat → Int → Nat → Int → Prop
  | fits {m : Nat} {e : Int} (low : 2 ^ 52 ≤ m) (high : m < 2 ^ 53) : Carried m e m e
  | carries (e : Int) : Carried (2 ^ 53) e (2 ^ 52) (e + 1)

namespace Carried

variable {multiple m : Nat} {unit e : Int}

theorem of_shift (low : 2 ^ 52 ≤ multiple) (high : multiple ≤ 2 ^ 53) (least : -1074 ≤ unit) :
    Carried multiple unit (shiftToTargetExponent Format.binary64 multiple unit .exact).1.mantissa
      (shiftToTargetExponent Format.binary64 multiple unit .exact).2 := by
  obtain full | rfl := Nat.lt_or_eq_of_le high
  · have bits : multiple.log2 = 52 + 0 := (Nat.log2_eq_iff (by omega)).2 ⟨low, full⟩
    rw [shiftToTargetExponent_eq bits (by omega), Nat.cast_zero, add_zero]
    exact .fits low full
  · have bits : (2 ^ 53).log2 = 52 + 1 := Nat.log2_two_pow
    rw [shiftToTargetExponent_eq bits (by omega)]
    exact .carries unit

theorem full (carried : Carried multiple unit m e) :
    2 ^ 52 ≤ m ∧ m < 2 ^ 53 ∧ (e = unit ∨ e = unit + 1) := by
  cases carried with
  | fits low high => exact ⟨low, high, Or.inl rfl⟩
  | carries => exact ⟨by norm_num, by norm_num, Or.inr rfl⟩

theorem pos (carried : Carried multiple unit m e) : 0 < m := by
  cases carried <;> omega

theorem value_eq (carried : Carried multiple unit m e) : (m * 2 ^ e : ℚ) = multiple * 2 ^ unit := by
  cases carried with
  | fits => rfl
  | carries =>
    rw [zpow_add_one₀ two_ne_zero]
    push_cast
    ring

theorem even (carried : Carried multiple unit m e) (even : multiple % 2 = 0) : m % 2 = 0 := by
  cases carried with
  | fits => exact even
  | carries => norm_num

end Carried

/-- What a positive number is rounded to: the multiple nearest to it of a power of two that is contained
in it with 53 bits at least. -/
inductive RoundsTo (sign : Sign) (number : ℚ) (unit : Int) : UnpackedFloat → Prop
  | intro {multiple m : Nat} {e : Int} (pos : 0 < m) (reaches : 2 ^ 52 * 2 ^ unit ≤ number)
    (nearest : NearestMultiple number (2 ^ unit) multiple) (carried : Carried multiple unit m e) :
    RoundsTo sign number unit (.finite sign m e pos)

theorem roundsTo_roundWithAccuracy (sign : Sign) {number shift : Nat} {e unit : Int} {value : ℚ}
    (bits : number.log2 = 52 + shift) (value_eq : number * 2 ^ e = value) (unit_eq : e + shift = unit)
    (least : -1074 ≤ unit) :
    RoundsTo sign value unit (roundWithAccuracy Format.binary64 sign number e .exact) := by
  subst value_eq unit_eq
  have number_ne : number ≠ 0 := by
    rintro rfl
    rw [Nat.log2_zero] at bits
    omega
  obtain ⟨low, high⟩ := (Nat.log2_eq_iff number_ne).1 bits
  rw [pow_add] at low
  rw [add_right_comm, pow_add] at high
  obtain ⟨rest, keeps⟩ := Keeps.shiftRight number shift
  have nearest := keeps.nearest
  rw [Nat.cast_pow, Nat.cast_ofNat] at nearest
  have positive : (0 : ℚ) < 2 ^ shift := by positivity
  have carried := Carried.of_shift (nearest.le_multiple positive (by exact_mod_cast low))
    (nearest.multiple_le positive (by exact_mod_cast high.le)) least
  have units : (2 ^ (e + shift) : ℚ) = 2 ^ shift * 2 ^ e := by
    rw [zpow_add₀ two_ne_zero, zpow_natCast, mul_comm]
  unfold roundWithAccuracy
  rw [shiftToTargetExponent_eq bits least]
  dsimp only
  rw [dif_neg carried.pos.ne']
  refine .intro carried.pos ?_ ?_ carried
  · rw [units, ← mul_assoc]
    gcongr
    exact_mod_cast low
  · rw [units]
    exact nearest.scaled (by positivity)

end RecordQuery.Double
