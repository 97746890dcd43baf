import RecordQuery.Decimal.Layout
import RecordQuery.Proofs.Decimal.Shortest
import RecordQuery.Proofs.Value.MixedOrder

/-!
A double is the nearest one to its shortest decimal. Its significand and exponent are read off its bits,
and no other double stands between it and its neighbours, so whatever lies within half of the way to them
is nearest to it.
-/

namespace RecordQuery.Decimal

open Double Float.Model Float.Model.UnpackedFloat

section Bits

variable (x : Float)

theorem toNat_exponent :
    (@unpackExponent Format.binary64 x.toModel.toBits.toBitVec).toNat =
      ((x.toBits >>> 52) &&& 0x7ff).toNat := by
  have masked := Nat.and_two_pow_sub_one_eq_mod (x.toBits.toNat >>> 52) 11
  rw [UInt64.toNat_and, UInt64.toNat_shiftRight]
  simp only [unpackExponent, BitVec.toNat_cast, BitVec.extractLsb_toNat]
  exact masked.symm

theorem toNat_mantissa :
    (@unpackMantissa Format.binary64 x.toModel.toBits.toBitVec).toNat =
      (x.toBits &&& 0xfffffffffffff).toNat := by
  have masked := Nat.and_two_pow_sub_one_eq_mod x.toBits.toNat 52
  rw [UInt64.toNat_and]
  simp only [unpackMantissa, BitVec.toNat_cast, BitVec.extractLsb_toNat]
  exact masked.symm

theorem toNat_sign :
    (@unpackSign Format.binary64 x.toModel.toBits.toBitVec).toNat = (x.toBits >>> 63).toNat := by
  have bound := x.toBits.toNat_lt
  rw [UInt64.toNat_shiftRight]
  unfold unpackSign
  rw [BitVec.toNat_cast, BitVec.extractLsb_toNat]
  refine Nat.mod_eq_of_lt ?_
  rw [Nat.shiftRight_eq_div_pow]
  change x.toBits.toNat / 2 ^ 63 < 2
  omega

theorem isNegative_iff :
    FloatLayout.isNegative x = true ↔
      Sign.ofBitVec (@unpackSign Format.binary64 x.toModel.toBits.toBitVec) = .negative := by
  have bit := toNat_sign x
  have bound : (@unpackSign Format.binary64 x.toModel.toBits.toBitVec).toNat < 2 := BitVec.isLt _
  have one : (1 : UInt64).toNat = 1 := rfl
  rw [FloatLayout.isNegative, beq_iff_eq, ← UInt64.toNat_inj, ← bit, one, Sign.ofBitVec]
  split
  · next positive =>
    rw [positive]
    exact iff_of_false (by decide) Sign.noConfusion
  · next negative =>
    rw [← ne_eq, BitVec.toNat_ne, BitVec.toNat_zero] at negative
    exact iff_of_true (by omega) rfl

variable {x} in
/-- A finite double other than zero is taken apart as it stands in its bits. -/
theorem binaryParts_of_unpack {sign : Sign} {m : Nat} {e : Int} {pos : 0 < m}
    (unpacked : x.toModel.unpack = .finite sign m e pos) :
    binaryParts x = (m, e) ∧ (FloatLayout.isNegative x = true ↔ sign = .negative) ∧ e ≤ 1000 := by
  have exponent := toNat_exponent x
  have mantissa := toNat_mantissa x
  have negative := isNegative_iff x
  have exponent_lt : (@unpackExponent Format.binary64 x.toModel.toBits.toBitVec).toNat < 2 ^ 11 :=
    BitVec.isLt _
  have bias : ((Format.binary64.exponentBias : Nat) : Int) = 1023 := rfl
  unfold Float.Model.unpack UnpackedFloat.unpack at unpacked
  dsimp only at unpacked
  rw [negative, binaryParts, ← exponent, ← mantissa]
  by_cases top : @unpackExponent Format.binary64 x.toModel.toBits.toBitVec = -1#11
  · rw [if_pos top] at unpacked
    by_cases empty : @unpackMantissa Format.binary64 x.toModel.toBits.toBitVec = 0#52
    · rw [if_pos empty] at unpacked
      cases unpacked
    · rw [if_neg empty] at unpacked
      cases unpacked
  · rw [if_neg top] at unpacked
    by_cases bottom : @unpackExponent Format.binary64 x.toModel.toBits.toBitVec = 0#11
    · rw [if_pos bottom] at unpacked
      by_cases empty : @unpackMantissa Format.binary64 x.toModel.toBits.toBitVec = 0#52
      · rw [dif_pos empty] at unpacked
        cases unpacked
      · rw [dif_neg empty, bottom, bias] at unpacked
        cases unpacked
        rw [bottom]
        exact ⟨rfl, Iff.rfl, by decide⟩
    · rw [if_neg bottom] at unpacked
      have leading := toNat_leading_append (@unpackMantissa Format.binary64 x.toModel.toBits.toBitVec)
      rw [← ne_eq, BitVec.toNat_ne, BitVec.toNat_zero] at bottom
      cases unpacked
      rw [leading, if_neg bottom, bias]
      have full : leastFullMantissa = 2 ^ 52 := by decide
      refine ⟨?_, Iff.rfl, by omega⟩
      rw [full]
      rfl

end Bits

section Gap

variable {m : Nat} {e : Int} {q r : ℚ} {b : UnpackedFloat}

/-- The greatest double with a lower exponent is one lower unit below the least full one. -/
theorem le_sub_gapBelow {m' : Nat} {e' : Int} (canonical : Canonical m e) (canonical' : Canonical m' e')
    (lower : e' < e) : (m' * 2 ^ e' : ℚ) ≤ m * 2 ^ e - gapBelow m e := by
  have unit : (0 : ℚ) < 2 ^ e := by positivity
  have least_le := canonical'.least_le
  have full : 2 ^ 52 ≤ m := canonical.full.resolve_right (least_le.trans_lt lower).ne'
  have fits : (m' : ℚ) ≤ 2 ^ 53 - 1 := by
    have := canonical'.fits
    rw [le_sub_iff_add_le]
    exact_mod_cast this
  have halved : (2 ^ e' : ℚ) ≤ 2 ^ e / 2 := by
    rw [div_eq_mul_inv, ← zpow_sub_one₀ (two_ne_zero (α := ℚ))]
    exact zpow_le_zpow_right₀ one_le_two (by omega)
  have le : (m' * 2 ^ e' : ℚ) ≤ (2 ^ 53 - 1) * (2 ^ e / 2) := by gcongr
  rw [gapBelow]
  split
  · next nearer =>
    rw [nearer.1]
    push_cast
    linarith
  · next not_nearer =>
    have above : 2 ^ 52 + 1 ≤ m := by omega
    have far : ((2 ^ 52 + 1) * 2 ^ e : ℚ) ≤ m * 2 ^ e := by
      gcongr
      exact_mod_cast above
    linarith

/-- Multiples of the unit that differ are a unit apart. -/
theorem apart_of_multiple {count : Nat} (differs : (count * 2 ^ e : ℚ) ≠ m * 2 ^ e) :
    (count * 2 ^ e : ℚ) ≤ m * 2 ^ e - 2 ^ e ∨ (m * 2 ^ e + 2 ^ e : ℚ) ≤ count * 2 ^ e := by
  obtain less | rfl | more := lt_trichotomy count m
  · have step : ((count + 1 : Nat) * 2 ^ e : ℚ) ≤ m * 2 ^ e := by
      gcongr
      exact less
    push_cast at step
    exact Or.inl (by linarith)
  · exact absurd rfl differs
  · have step : ((m + 1 : Nat) * 2 ^ e : ℚ) ≤ count * 2 ^ e := by
      gcongr
      exact more
    push_cast at step
    exact Or.inr (by linarith)

/-- No double stands between a double and its neighbours. -/
theorem apart (canonical : Canonical m e) (denotes : Denotes b r) (differs : r ≠ m * 2 ^ e) :
    r ≤ m * 2 ^ e - gapBelow m e ∨ m * 2 ^ e + 2 ^ e ≤ r := by
  have unit : (0 : ℚ) < 2 ^ e := by positivity
  have gap_le := gapBelow_le m e
  have one_le : (1 : ℚ) ≤ m := by exact_mod_cast canonical.pos
  have reaches : (2 ^ e : ℚ) ≤ m * 2 ^ e := le_mul_of_one_le_left unit.le one_le
  cases denotes with
  | zero => exact Or.inl (by linarith)
  | @negative m' e' =>
    have below : (0 : ℚ) ≤ m' * 2 ^ e' := by positivity
    exact Or.inl (by linarith)
  | @positive m' e' pos' canonical' =>
    obtain lower | reached := lt_or_ge e' e
    · exact Or.inl (le_sub_gapBelow canonical canonical' lower)
    · obtain ⟨steps, rfl⟩ := Int.le.dest reached
      have count_eq : (m' * 2 ^ (e + steps) : ℚ) = (m' * 2 ^ steps : Nat) * 2 ^ e := by
        rw [zpow_add₀ two_ne_zero, zpow_natCast]
        push_cast
        ring
      rw [count_eq] at differs ⊢
      exact (apart_of_multiple differs).imp_left fun below => by linarith

/-- What lies within half of the way to the neighbours is nearer to the double than to any other, or as
near and the double is even. -/
theorem Within.nearest (within : Within m e q) (canonical : Canonical m e) (denotes : Denotes b r)
    (differs : r ≠ m * 2 ^ e) :
    |q - m * 2 ^ e| ≤ |q - r| ∧ (|q - m * 2 ^ e| = |q - r| → m % 2 = 0) := by
  obtain ⟨low_le, le_high, even⟩ := within
  have unit : (0 : ℚ) < 2 ^ e := by positivity
  have gap_pos := gapBelow_pos m e
  have gap_le := gapBelow_le m e
  obtain below | above := apart canonical denotes differs
  · rw [abs_of_nonneg (by linarith : 0 ≤ q - r)]
    refine ⟨abs_le.2 ⟨by linarith, by linarith⟩, fun tie => even (Or.inl ?_)⟩
    obtain side | side := abs_cases (q - m * 2 ^ e) <;> linarith
  · rw [abs_of_nonpos (by linarith : q - r ≤ 0)]
    refine ⟨abs_le.2 ⟨by linarith, by linarith⟩, fun tie => even (Or.inr ?_)⟩
    obtain side | side := abs_cases (q - m * 2 ^ e) <;> linarith

end Gap

/-- The number with the sign that is written for it. -/
def signed (negative : Bool) (number : ℚ) : ℚ := if negative then -number else number

theorem signed_signed (negative : Bool) (number : ℚ) : signed negative (signed negative number) = number := by
  cases negative
  · rfl
  · exact neg_neg number

theorem distance_signed (negative : Bool) (p q : ℚ) : |signed negative p - q| = |p - signed negative q| := by
  cases negative
  · rfl
  · change |-p - q| = |p - -q|
    rw [← abs_neg, neg_sub, sub_neg_eq_add, sub_neg_eq_add, add_comm]

theorem exists_denotes_signed (negative : Bool) {b : UnpackedFloat} {r : ℚ} (denotes : Denotes b r) :
    ∃ b', Denotes b' (signed negative r) := by
  cases negative
  · exact ⟨b, denotes⟩
  · exact ⟨b.neg, denotes.neg⟩

theorem exactly?_eq_signed {x : Float} {sign : Sign} {m : Nat} {e : Int} {pos : 0 < m}
    (unpacked : x.toModel.unpack = .finite sign m e pos) :
    exactly? x = some (signed (FloatLayout.isNegative x) (m * 2 ^ e)) := by
  obtain ⟨-, negative, -⟩ := binaryParts_of_unpack unpacked
  rw [exactly?, unpacked, signed]
  change some ((sign.apply m : Int) * 2 ^ e : ℚ) = _
  cases sign with
  | negative =>
    rw [if_pos (negative.2 rfl), Sign.apply, Int.cast_neg, Int.cast_natCast, neg_mul]
  | positive =>
    have not_negative : ¬FloatLayout.isNegative x = true := by
      rw [negative]
      exact Sign.noConfusion
    rw [if_neg not_negative, Sign.apply, Int.cast_natCast]

/-- A double is the nearest one to its shortest decimal. -/
theorem nearestDouble_shortest {x : Float} {sign : Sign} {m : Nat} {e : Int} {pos : 0 < m} (tie : Tie)
    (unpacked : x.toModel.unpack = .finite sign m e pos) :
    0 < (shortest tie x).number ∧ ∃ p,
      NearestDouble (signed (FloatLayout.isNegative x) (shortest tie x).number) x p := by
  obtain ⟨parts, -, greatest⟩ := binaryParts_of_unpack unpacked
  have canonical : Canonical m e := by
    have proper := proper_unpack x.toModel
    rwa [unpacked] at proper
  have within := within_shortest tie parts canonical greatest
  generalize (shortest tie x).number = q at within
  generalize same_sign : FloatLayout.isNegative x = negative
  have distances (r : ℚ) : |signed negative q - r| = |q - signed negative r| := distance_signed negative q r
  have nearest (y : Float) (r : ℚ) (finite : exactly? y = some r)
      (differs : r ≠ signed negative (m * 2 ^ e)) :
      |q - m * 2 ^ e| ≤ |q - signed negative r| ∧
        (|q - m * 2 ^ e| = |q - signed negative r| → m % 2 = 0) := by
    obtain ⟨b, denotes⟩ := exists_denotes_signed negative (denotes_of_exactly? finite)
    refine within.nearest canonical denotes fun same => differs ?_
    rw [← same, signed_signed]
  refine ⟨within.pos pos, signed negative (m * 2 ^ e), ?exactly, ?near, ?even⟩
  case exactly =>
    rw [exactly?_eq_signed unpacked, same_sign]
  case near =>
    intro y r finite
    by_cases same : r = signed negative (m * 2 ^ e)
    · rw [same]
    · rw [distances, distances, signed_signed]
      exact (nearest y r finite same).1
  case even =>
    intro y r finite differs tied
    rw [distances, distances, signed_signed] at tied
    rw [unpacked]
    exact (nearest y r finite differs).2 tied

end RecordQuery.Decimal
