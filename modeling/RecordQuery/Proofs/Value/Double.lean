import Mathlib.Algebra.Order.Field.Power
import Mathlib.Algebra.Order.Field.Rat
import Mathlib.Tactic.Positivity
import Mathlib.Tactic.Ring
import RecordQuery.Value.Basic

/-!
The finite doubles as numbers. A finite double other than zero is a sign, a significand and a power of
two in one form only: the significand has 53 bits, or fewer where the exponent is the least. In this form
exponents are compared before significands, and the order of doubles is the order of their numbers.
-/

namespace RecordQuery.Double

open Float.Model Float.Model.UnpackedFloat

/-- A significand of 53 bits, or a shorter one with the least exponent. -/
structure Canonical (significand : Nat) (exponent : Int) : Prop where
  pos : 0 < significand
  fits : significand < 2 ^ 53
  least_le : -1074 ≤ exponent
  full : 2 ^ 52 ≤ significand ∨ exponent = -1074

namespace Canonical

variable {m m' : Nat} {e e' : Int}

/-- No significand with a lower exponent reaches the least full one. -/
theorem lt_full (canonical : Canonical m e) (lower : e < e') : (m * 2 ^ e : ℚ) < 2 ^ 52 * 2 ^ e' :=
  calc (m * 2 ^ e : ℚ) < 2 ^ 53 * 2 ^ e := by
        gcongr
        exact_mod_cast canonical.fits
    _ = 2 ^ 52 * 2 ^ (e + 1) := by
        rw [zpow_add_one₀ two_ne_zero]
        ring
    _ ≤ 2 ^ 52 * 2 ^ e' := by
        gcongr
        · exact one_le_two
        · exact lower

theorem lt_of_exponent_lt (left : Canonical m e) (right : Canonical m' e') (lower : e < e') :
    (m * 2 ^ e : ℚ) < m' * 2 ^ e' := by
  have full : 2 ^ 52 ≤ m' := right.full.resolve_right (left.least_le.trans_lt lower).ne'
  refine (left.lt_full lower).trans_le ?_
  gcongr
  exact_mod_cast full

theorem compare_magnitudes (left : Canonical m e) (right : Canonical m' e') :
    (compare e e').then (compare m m') = compare (m * 2 ^ e : ℚ) (m' * 2 ^ e') := by
  obtain lower | rfl | higher := lt_trichotomy e e'
  · rw [compare_lt_iff_lt.2 lower, compare_lt_iff_lt.2 (left.lt_of_exponent_lt right lower)]
    rfl
  · rw [compare_eq_iff_eq.2 rfl, Ordering.then]
    obtain less | rfl | more := lt_trichotomy m m'
    · rw [compare_lt_iff_lt.2 less, eq_comm, compare_lt_iff_lt]
      gcongr
    · rw [compare_eq_iff_eq.2 rfl, compare_eq_iff_eq.2 rfl]
    · rw [compare_gt_iff_gt.2 more, eq_comm, compare_gt_iff_gt]
      gcongr
  · rw [compare_gt_iff_gt.2 higher, compare_gt_iff_gt.2 (right.lt_of_exponent_lt left higher)]
    rfl

theorem eq_of_magnitude_eq (left : Canonical m e) (right : Canonical m' e')
    (same : (m * 2 ^ e : ℚ) = m' * 2 ^ e') : m = m' := by
  have order := left.compare_magnitudes right
  rw [compare_eq_iff_eq.2 same, Ordering.then_eq_eq] at order
  exact compare_eq_iff_eq.1 order.2

end Canonical

/-- The number that a double stands for, if it is finite. -/
def number? : UnpackedFloat → Option ℚ
  | .zero _ => some 0
  | .finite sign significand exponent _ => some (sign.apply significand * 2 ^ exponent)
  | .infinity _ => none
  | .notANumber => none

/-- The significand of a double, zero where there is none. -/
def significand : UnpackedFloat → Nat
  | .finite _ significand _ _ => significand
  | _ => 0

/-- The exact number of a finite double. -/
def exactly? (x : Float) : Option ℚ := number? x.toModel.unpack

/-- How a finite double stands for a number. -/
inductive Denotes : UnpackedFloat → ℚ → Prop
  | zero (sign : Sign) : Denotes (.zero sign) 0
  | positive {m : Nat} {e : Int} (pos : 0 < m) (canonical : Canonical m e) :
    Denotes (.finite .positive m e pos) (m * 2 ^ e)
  | negative {m : Nat} {e : Int} (pos : 0 < m) (canonical : Canonical m e) :
    Denotes (.finite .negative m e pos) (-(m * 2 ^ e))

theorem Denotes.number?_eq {a : UnpackedFloat} {p : ℚ} (denotes : Denotes a p) : number? a = some p := by
  cases denotes with
  | zero => rfl
  | @positive m e =>
    change some (((m : Int) : ℚ) * 2 ^ e) = some (m * 2 ^ e : ℚ)
    rw [Int.cast_natCast]
  | @negative m e =>
    change some (((-m : Int) : ℚ) * 2 ^ e) = some (-(m * 2 ^ e) : ℚ)
    rw [Int.cast_neg, Int.cast_natCast, neg_mul]

theorem denotes_finite (sign : Sign) {m : Nat} {e : Int} (pos : 0 < m) (canonical : Canonical m e) :
    Denotes (.finite sign m e pos) (sign.apply m * 2 ^ e) := by
  cases sign with
  | positive =>
    rw [Sign.apply, Int.cast_natCast]
    exact .positive pos canonical
  | negative =>
    rw [Sign.apply, Int.cast_neg, Int.cast_natCast, neg_mul]
    exact .negative pos canonical

/-- Doubles that are finite and other than zero are in their one form. -/
def Proper : UnpackedFloat → Prop
  | .finite _ significand exponent _ => Canonical significand exponent
  | _ => True

/-- The leading bit of a full significand is not stored. -/
theorem toNat_leading_append (fraction : BitVec 52) :
    (1#1 ++ fraction).toNat = 2 ^ 52 + fraction.toNat := by
  rw [BitVec.toNat_append, ← Nat.shiftLeft_add_eq_or_of_lt fraction.isLt]
  rfl

theorem proper_unpack (x : Float.Model) : Proper x.unpack := by
  unfold Float.Model.unpack UnpackedFloat.unpack
  dsimp only
  have exponent_lt : (@unpackExponent Format.binary64 x.toBits.toBitVec).toNat < 2 ^ 11 := BitVec.isLt _
  have fraction_lt : (@unpackMantissa Format.binary64 x.toBits.toBitVec).toNat < 2 ^ 52 := BitVec.isLt _
  have bias : ((Format.binary64.exponentBias : Nat) : Int) = 1023 := rfl
  by_cases top : @unpackExponent Format.binary64 x.toBits.toBitVec = -1#11
  · rw [if_pos top]
    split <;> trivial
  · rw [if_neg top]
    by_cases bottom : @unpackExponent Format.binary64 x.toBits.toBitVec = 0#11
    · rw [if_pos bottom]
      by_cases empty : @unpackMantissa Format.binary64 x.toBits.toBitVec = 0#52
      · rw [dif_pos empty]
        trivial
      · rw [dif_neg empty, bottom, bias]
        rw [← ne_eq, BitVec.toNat_ne] at empty
        exact ⟨Nat.pos_of_ne_zero empty, by omega, by decide, Or.inr (by decide)⟩
    · rw [if_neg bottom]
      rw [← ne_eq, BitVec.toNat_ne, BitVec.toNat_zero] at bottom
      have leading := toNat_leading_append (@unpackMantissa Format.binary64 x.toBits.toBitVec)
      change Canonical _ _
      rw [leading, bias]
      exact ⟨by omega, by omega, by omega, Or.inl (by omega)⟩

theorem denotes_of_exactly? {x : Float} {p : ℚ} (number : exactly? x = some p) :
    Denotes x.toModel.unpack p := by
  have proper := proper_unpack x.toModel
  unfold exactly? at number
  generalize x.toModel.unpack = a at number proper
  cases a with
  | infinity => cases number
  | notANumber => cases number
  | zero sign =>
    rw [← Option.some.inj number]
    exact .zero sign
  | finite sign m e pos =>
    rw [← Option.some.inj number]
    exact denotes_finite sign pos proper

theorem compare_neg (p q : ℚ) : compare (-p) (-q) = compare q p := by
  obtain less | rfl | more := lt_trichotomy q p
  · rw [compare_lt_iff_lt.2 less, compare_lt_iff_lt.2 (neg_lt_neg less)]
  · rw [compare_eq_iff_eq.2 rfl, compare_eq_iff_eq.2 rfl]
  · rw [compare_gt_iff_gt.2 more, compare_gt_iff_gt.2 (neg_lt_neg more)]

namespace Denotes

variable {a b : UnpackedFloat} {p q : ℚ}

theorem compare_eq (left : Denotes a p) (right : Denotes b q) : a.compare b = some (compare p q) := by
  have above : ∀ {m : Nat} (e : Int), 0 < m → (0 : ℚ) < m * 2 ^ e := by
    intro m e pos
    positivity
  have below : ∀ {m : Nat} (e : Int), 0 < m → -(m * 2 ^ e : ℚ) < 0 := fun e pos =>
    neg_lt_zero.2 (above e pos)
  cases left with
  | zero =>
    cases right with
    | zero => rfl
    | @positive m e pos =>
      rw [compare_lt_iff_lt.2 (above e pos)]
      rfl
    | @negative m e pos =>
      rw [compare_gt_iff_gt.2 (below e pos)]
      rfl
  | @positive m e pos canonical =>
    cases right with
    | zero =>
      rw [compare_gt_iff_gt.2 (above e pos)]
      rfl
    | positive _ canonical' => exact congrArg some (canonical.compare_magnitudes canonical')
    | @negative m' e' pos' =>
      rw [compare_gt_iff_gt.2 ((below e' pos').trans (above e pos))]
      rfl
  | @negative m e pos canonical =>
    cases right with
    | zero =>
      rw [compare_lt_iff_lt.2 (below e pos)]
      rfl
    | @positive m' e' pos' =>
      rw [compare_lt_iff_lt.2 ((below e pos).trans (above e' pos'))]
      rfl
    | @negative m' e' pos' canonical' =>
      have swapped : compare (m' * 2 ^ e' : ℚ) (m * 2 ^ e) =
          (compare (m * 2 ^ e : ℚ) (m' * 2 ^ e')).swap := Std.OrientedOrd.eq_swap
      rw [compare_neg, swapped, ← canonical.compare_magnitudes canonical']
      rfl

theorem neg (denotes : Denotes a p) : Denotes a.neg (-p) := by
  cases denotes with
  | zero sign =>
    rw [neg_zero]
    exact .zero _
  | positive pos canonical => exact .negative pos canonical
  | negative pos canonical =>
    rw [neg_neg]
    exact .positive pos canonical

theorem magnitude (denotes : Denotes a p) :
    (p = 0 ∧ significand a = 0) ∨ ∃ e, Canonical (significand a) e ∧ |p| = significand a * 2 ^ e := by
  cases denotes with
  | zero => exact Or.inl ⟨rfl, rfl⟩
  | @positive m e pos canonical => exact Or.inr ⟨e, canonical, abs_of_pos (by positivity)⟩
  | @negative m e pos canonical =>
    rw [abs_neg]
    exact Or.inr ⟨e, canonical, abs_of_pos (by positivity)⟩

theorem significand_eq (left : Denotes a p) (right : Denotes b p) : significand a = significand b := by
  have ne_zero : ∀ {m : Nat} {e : Int}, Canonical m e → |p| = m * 2 ^ e → p ≠ 0 := by
    intro m e canonical magnitude
    rw [← abs_pos, magnitude]
    have := canonical.pos
    positivity
  obtain ⟨rfl, zero⟩ | ⟨e, canonical, magnitude⟩ := left.magnitude <;>
    obtain ⟨same, zero'⟩ | ⟨e', canonical', magnitude'⟩ := right.magnitude
  · rw [zero, zero']
  · exact absurd rfl (ne_zero canonical' magnitude')
  · exact absurd same (ne_zero canonical magnitude)
  · exact canonical.eq_of_magnitude_eq canonical' (magnitude.symm.trans magnitude')

end Denotes

/-- The order of two finite doubles is that of their numbers. -/
theorem floatOrder?_eq {x y : Float} {p q : ℚ} (left : Denotes x.toModel.unpack p)
    (right : Denotes y.toModel.unpack q) : floatOrder? x y = some (compare p q) := by
  have lt_iff : ∀ x y : Float, x < y ↔ x.toModel.unpack.compare y.toModel.unpack = some .lt := by
    intro x y
    have model_iff : x < y ↔ x.toModel < y.toModel := decide_eq_true_iff
    exact model_iff.trans beq_iff_eq
  have eq_iff : (x == y) = true ↔ x.toModel.unpack.compare y.toModel.unpack = some .eq := by
    change (x.toModel.unpack.compare y.toModel.unpack == some .eq) = true ↔ _
    exact beq_iff_eq
  rw [floatOrder?]
  simp only [lt_iff, eq_iff, left.compare_eq right, right.compare_eq left]
  obtain less | rfl | more := lt_trichotomy p q
  · rw [compare_lt_iff_lt.2 less]
    rfl
  · rw [compare_eq_iff_eq.2 rfl]
    rfl
  · rw [compare_lt_iff_lt.2 more, compare_gt_iff_gt.2 more]
    rfl

end RecordQuery.Double
