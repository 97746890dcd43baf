import Mathlib.Tactic.FieldSimp
import RecordQuery.Proofs.Value.Rounding

/-!
How a natural number becomes a double. It is rounded, below two to the power of 53 even twice, and packed
into bits, from which the same significand and exponent are read again.
-/

namespace RecordQuery.Double

open Float.Model Float.Model.UnpackedFloat

theorem unpackSign_packComponents (sign : Sign) (exponent : BitVec 11) (fraction : BitVec 52) :
    unpackSign (packComponents Format.binary64 sign exponent fraction) = sign.toBitVec := by
  ext i hi
  obtain rfl : i = 0 := by omega
  have bit : (unpackSign (packComponents Format.binary64 sign exponent fraction))[0] =
      (sign.toBitVec ++ exponent ++ fraction).getLsbD 63 := by
    change (BitVec.cast _ (BitVec.extractLsb' 63 1 (sign.toBitVec ++ exponent ++ fraction)))[0] = _
    rw [BitVec.getElem_cast, BitVec.getElem_extractLsb']
  rw [bit, BitVec.getLsbD_append, if_neg (by decide), BitVec.getLsbD_append, if_neg (by decide)]
  exact BitVec.getLsbD_eq_getElem (by decide)

theorem unpack_packComponents {sign : Sign} {exponent : BitVec 11} {fraction : BitVec 52}
    (not_top : exponent ≠ -1#11) (not_bottom : exponent ≠ 0#11) :
    UnpackedFloat.unpack Format.binary64 (packComponents Format.binary64 sign exponent fraction) =
      .finite sign (2 ^ 52 + fraction.toNat) (exponent.toNat - 1075)
        (Nat.add_pos_left (Nat.two_pow_pos 52) _) := by
  have sign_eq : Sign.ofBitVec sign.toBitVec = sign := by cases sign <;> rfl
  unfold UnpackedFloat.unpack
  dsimp only
  rw [unpackExponent_packComponents, if_neg not_top, if_neg not_bottom]
  congr 1
  · rw [unpackSign_packComponents, sign_eq]
  · rw [unpackMantissa_packComponents, toNat_leading_append]

theorem log2_shiftLeft {n : Nat} (pos : 0 < n) (shift : Nat) : (n <<< shift).log2 = n.log2 + shift := by
  induction shift with
  | zero => rfl
  | succ shift ih =>
    have shifted_ne : n <<< shift ≠ 0 := by
      rw [Nat.shiftLeft_eq]
      positivity
    rw [Nat.shiftLeft_succ, Nat.log2_two_mul shifted_ne, ih, add_assoc]

/-- A shift is undone by the exponent. -/
theorem shiftLeft_value (n shift : Nat) : ((n <<< shift : Nat) * 2 ^ (-(shift : Int)) : ℚ) = n := by
  rw [Nat.shiftLeft_eq, zpow_neg, zpow_natCast]
  push_cast
  field_simp

section Full

variable {sign : Sign} {m : Nat} {e : Int} (pos : 0 < m) (low : 2 ^ 52 ≤ m) (high : m < 2 ^ 53)
  (least : -1074 ≤ e) (greatest : e ≤ 971)

include low high greatest in
theorem pack_of_full :
    UnpackedFloat.pack Format.binary64 (.finite sign m e pos) =
      packComponents Format.binary64 sign (BitVec.ofNat 11 (e + 1075).toNat) (BitVec.ofNat 52 m) := by
  have bits : m.log2 + 1 = Format.binary64.mantissaBits :=
    congrArg (· + 1) ((Nat.log2_eq_iff pos.ne').2 ⟨low, high⟩)
  have biased : (e + Format.binary64.exponentBias + Format.binary64.mantissaBitsWithoutImplicit).toNat =
      (e + 1075).toNat := by
    have bias : ((Format.binary64.exponentBias : Nat) : Int) = 1023 := rfl
    have width : ((Format.binary64.mantissaBitsWithoutImplicit : Nat) : Int) = 52 := rfl
    omega
  change (if 2 ^ 11 ≤ (e + _ + _).toNat + 1 then _ else if m.log2 + 1 = _ then _ else _) = _
  rw [biased, if_neg (by omega), if_pos bits]

include low high least greatest in
/-- A full significand is read back from the bits. -/
theorem unpack_pack_of_full : (Float.Model.pack (.finite sign m e pos)).unpack = .finite sign m e pos := by
  have exponent_eq : (BitVec.ofNat 11 (e + 1075).toNat).toNat = (e + 1075).toNat := by
    rw [BitVec.toNat_ofNat]
    omega
  have not_top : BitVec.ofNat 11 (e + 1075).toNat ≠ -1#11 := by
    have top : (-1#11).toNat = 2047 := rfl
    rw [BitVec.toNat_ne, exponent_eq, top]
    omega
  have not_bottom : BitVec.ofNat 11 (e + 1075).toNat ≠ 0#11 := by
    rw [BitVec.toNat_ne, exponent_eq, BitVec.toNat_zero]
    omega
  change UnpackedFloat.unpack Format.binary64 (UnpackedFloat.pack Format.binary64 _) = _
  rw [pack_of_full pos low high greatest, unpack_packComponents not_top not_bottom]
  congr 1
  · rw [BitVec.toNat_ofNat]
    omega
  · omega

end Full

namespace RoundsTo

variable {sign : Sign} {number : ℚ} {unit : Int} {a : UnpackedFloat}

theorem unpack_pack (rounds : RoundsTo sign number unit a) (least : -1074 ≤ unit) (greatest : unit < 971) :
    (Float.Model.pack a).unpack = a := by
  cases rounds with
  | intro pos _ _ carried =>
    obtain ⟨low, high, exponent⟩ := carried.full
    exact unpack_pack_of_full pos low high (by omega) (by omega)

theorem neg (rounds : RoundsTo sign number unit a) : RoundsTo (-sign) number unit a.neg := by
  cases rounds with
  | intro pos reaches nearest carried => exact .intro pos reaches nearest carried

/-- A number that is a multiple of the unit is not changed. -/
theorem denotes_of_whole (rounds : RoundsTo .positive number unit a) {count : Nat}
    (whole : number = count * 2 ^ unit) (least : -1074 ≤ unit) : Denotes a number := by
  cases rounds with
  | intro pos _ nearest carried =>
    obtain ⟨low, high, exponent⟩ := carried.full
    have positive : (0 : ℚ) < 2 ^ unit := by positivity
    have same := le_antisymm (nearest.multiple_le positive whole.le) (nearest.le_multiple positive whole.ge)
    rw [whole, ← same, ← carried.value_eq]
    exact .positive pos ⟨pos, high, by omega, Or.inl low⟩

/-- The product with one is rounded once more, which changes nothing. -/
theorem mul_by_one (rounds : RoundsTo .positive number unit a) {count : Nat}
    (whole : number = count * 2 ^ unit) (least : -1074 ≤ unit) :
    ∃ unit', (unit' = unit ∨ unit' = unit + 1) ∧ RoundsTo .positive number unit'
      (UnpackedFloat.mul Format.binary64 a (.finite .positive (2 ^ 52) (-52) (Nat.two_pow_pos 52))) := by
  have denotes := rounds.denotes_of_whole whole least
  cases rounds with
  | @intro _ m e pos _ _ carried =>
    obtain ⟨low, high, exponent⟩ := carried.full
    have bits : (m * 2 ^ 52).log2 = 52 + 52 := by
      rw [← Nat.shiftLeft_eq, log2_shiftLeft pos, (Nat.log2_eq_iff pos.ne').2 ⟨low, high⟩]
    have value_eq : ((m * 2 ^ 52 : Nat) : ℚ) * 2 ^ (e + -52) = number := by
      rw [← Option.some.inj denotes.number?_eq, zpow_add₀ two_ne_zero, Sign.apply]
      push_cast
      field_simp
      norm_num
    exact ⟨e, exponent, roundsTo_roundWithAccuracy _ bits value_eq (by omega) (by omega)⟩

end RoundsTo

theorem roundsTo_toFloat {n : UInt64} (pos : 0 < n.toNat) (small : n.toNat < 2 ^ 53) :
    ∃ shift : Nat, shift ≤ 52 ∧ RoundsTo .positive n.toNat (-shift) n.toFloat.toModel.unpack := by
  have log : n.toNat.log2 ≤ 52 := Nat.lt_succ_iff.1 ((Nat.log2_lt pos.ne').2 small)
  obtain ⟨shift, total⟩ := Nat.exists_eq_add_of_le log
  have target : Format.binary64.targetExponent (totalExponent n.toNat 0) = -shift := by
    rw [Format.targetExponent, totalExponent]
    have width : ((Format.binary64.mantissaBits : Nat) : Int) = 53 := rfl
    have minimum : Format.binary64.minExponent = -1074 := rfl
    omega
  have shifted : UnpackedFloat.normalize Format.binary64 n.toNat 0 .positive =
      roundWithAccuracy Format.binary64 .positive (n.toNat <<< shift) (-shift) .exact := by
    have above : compare (n.toNat : Int) 0 = .gt := compare_gt_iff_gt.2 (by exact_mod_cast pos)
    unfold UnpackedFloat.normalize UnpackedFloat.round decreaseExponent
    dsimp only
    rw [above, Int.toNat_natCast, target]
    simp only [zero_sub, neg_neg, Int.toNat_natCast]
  have bits : (n.toNat <<< shift).log2 = 52 + 0 := by
    rw [log2_shiftLeft pos, ← total]
  have rounds : RoundsTo .positive n.toNat (-shift) _ :=
    roundsTo_roundWithAccuracy .positive bits (shiftLeft_value _ shift) (by omega) (by omega)
  refine ⟨shift, by omega, ?_⟩
  change RoundsTo _ _ _ (Float.Model.pack (UnpackedFloat.normalize Format.binary64 n.toNat 0 .positive)).unpack
  rwa [shifted, rounds.unpack_pack (by omega) (by omega)]

section Natural

variable {n : Nat} (pos : 0 < n)

include pos in
/-- Below two to the power of 53 a natural number is converted as a word and multiplied by one. -/
theorem roundsTo_ofNat_of_small (small : n < 2 ^ 53) :
    ∃ unit, -1074 ≤ unit ∧ unit < 971 ∧ RoundsTo .positive n unit (Float.ofNat n).toModel.unpack := by
  have same : n.toUInt64.toNat = n := UInt64.toNat_ofNat_of_lt (small.trans (by norm_num))
  have product : Float.ofNat n = n.toUInt64.toFloat * Float.ofBits 0x3FF0000000000000 := by
    change Float.ofScientific n false 0 = _
    rw [Float.ofScientific, dif_pos ⟨small, by decide⟩]
    rfl
  have one : (Float.ofBits 0x3FF0000000000000).toModel.unpack =
      .finite .positive (2 ^ 52) (-52) (Nat.two_pow_pos 52) := rfl
  obtain ⟨shift, shift_le, rounds⟩ := roundsTo_toFloat (same.symm ▸ pos) (same.symm ▸ small)
  rw [same] at rounds
  obtain ⟨unit, unit_eq, rounds'⟩ := rounds.mul_by_one (shiftLeft_value n shift).symm (by omega)
  refine ⟨unit, by omega, by omega, ?_⟩
  rw [product]
  change RoundsTo _ _ _ (Float.Model.pack (UnpackedFloat.mul Format.binary64 _
    (Float.ofBits 0x3FF0000000000000).toModel.unpack)).unpack
  rwa [one, rounds'.unpack_pack (by omega) (by omega)]

include pos in
/-- From there on it is rounded once, as a decimal without fraction. -/
theorem roundsTo_ofNat_of_large (large : ¬n < 2 ^ 53) (bound : n < 2 ^ 64) :
    ∃ unit, -1074 ≤ unit ∧ unit < 971 ∧ RoundsTo .positive n unit (Float.ofNat n).toModel.unpack := by
  have decimal : Float.ofNat n = .ofModel (.ofScientific n 0) := by
    change Float.ofScientific n false 0 = _
    rw [Float.ofScientific, dif_neg fun both => large both.1]
    rfl
  have log : n.log2 ≤ 63 := Nat.lt_succ_iff.1 ((Nat.log2_lt pos.ne').2 bound)
  have rounded : UnpackedFloat.ofScientific Format.binary64 n 0 =
      roundWithAccuracy Format.binary64 .positive (n <<< 53 * 10 ^ 0) (-53) .exact := by
    have not_tiny : ¬(0 : Int) < -(2 ^ 11 + n.log2) := by omega
    unfold UnpackedFloat.ofScientific
    rw [dif_neg pos.ne', if_neg (by decide), if_neg not_tiny, if_pos le_rfl]
    rfl
  have bits : (n <<< 53 * 10 ^ 0).log2 = 52 + (n.log2 + 1) := by
    rw [pow_zero, mul_one, log2_shiftLeft pos]
    omega
  have value_eq : ((n <<< 53 * 10 ^ 0 : Nat) : ℚ) * 2 ^ (-53 : Int) = n := by
    rw [pow_zero, mul_one]
    exact shiftLeft_value n 53
  have rounds : RoundsTo .positive n (n.log2 - 52) _ :=
    roundsTo_roundWithAccuracy .positive bits value_eq (by push_cast; omega) (by omega)
  refine ⟨n.log2 - 52, by omega, by omega, ?_⟩
  rw [decimal]
  change RoundsTo _ _ _ (Float.Model.pack (UnpackedFloat.ofScientific Format.binary64 n 0)).unpack
  rwa [rounded, rounds.unpack_pack (by omega) (by omega)]

include pos in
theorem roundsTo_ofNat (bound : n < 2 ^ 64) :
    ∃ unit, -1074 ≤ unit ∧ unit < 971 ∧ RoundsTo .positive n unit (Float.ofNat n).toModel.unpack := by
  by_cases small : n < 2 ^ 53
  · exact roundsTo_ofNat_of_small pos small
  · exact roundsTo_ofNat_of_large pos small bound

end Natural

end RecordQuery.Double
