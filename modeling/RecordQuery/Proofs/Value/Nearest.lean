import RecordQuery.Proofs.Value.Conversion

/-!
The double that an integer counts as is the nearest one. Every other finite double is farther away, or it
is as far and has an odd significand while the one taken has an even one.
-/

namespace RecordQuery.Double

open Float.Model Float.Model.UnpackedFloat

/-- Every other finite double is farther from the number, or as far with an odd significand while the
one here is even. -/
def Nearest (number : ℚ) (a : UnpackedFloat) (p : ℚ) : Prop :=
  ∀ (b : UnpackedFloat) (q : ℚ), Denotes b q → q ≠ p →
    |number - p| < |number - q| ∨
      (|number - p| = |number - q| ∧ significand a % 2 = 0 ∧ significand b % 2 = 1)

theorem Nearest.neg {number p : ℚ} {a : UnpackedFloat} (nearest : Nearest number a p) :
    Nearest (-number) a.neg (-p) := by
  intro b q denotes differs
  have significand_neg : ∀ c : UnpackedFloat, significand c.neg = significand c := by
    intro c
    cases c <;> rfl
  have distance : ∀ r : ℚ, |-number - r| = |number - -r| := by
    intro r
    rw [← abs_neg, neg_sub, sub_neg_eq_add, sub_neg_eq_add, add_comm]
  have mirrored := nearest b.neg (-q) denotes.neg fun same => differs (by rw [← same, neg_neg])
  rw [significand_neg] at mirrored
  rwa [significand_neg, distance, distance, neg_neg]

theorem Nearest.le {number p q : ℚ} {a b : UnpackedFloat} (nearest : Nearest number a p)
    (denotes : Denotes b q) : |number - p| ≤ |number - q| := by
  by_cases same : q = p
  · rw [same]
  · obtain farther | ⟨tie, _⟩ := nearest b q denotes same
    · exact farther.le
    · exact tie.le

theorem RoundsTo.nearest {number : ℚ} {unit : Int} {a : UnpackedFloat}
    (rounds : RoundsTo .positive number unit a) (least : -1074 ≤ unit) :
    ∃ p, Denotes a p ∧ Nearest number a p := by
  cases rounds with
  | @intro multiple m e pos reaches nearest carried =>
    obtain ⟨low, high, exponent⟩ := carried.full
    have positive : (0 : ℚ) < 2 ^ unit := by positivity
    refine ⟨m * 2 ^ e, .positive pos ⟨pos, high, by omega, Or.inl low⟩, ?_⟩
    rw [carried.value_eq]
    have below : ∀ q : ℚ, q < 2 ^ 52 * 2 ^ unit →
        |number - multiple * 2 ^ unit| < |number - q| := by
      intro q less
      have full : (2 ^ 52 : ℚ) = (2 ^ 52 : Nat) := by norm_num
      rw [full] at reaches less
      exact nearest.near_of_lt positive reaches less
    intro b q denotes differs
    cases denotes with
    | zero => exact Or.inl (below 0 (by positivity))
    | @negative m' e' =>
      have negative : -(m' * 2 ^ e' : ℚ) ≤ 0 := neg_nonpos.2 (by positivity)
      exact Or.inl (below _ (negative.trans_lt (by positivity)))
    | @positive m' e' pos' canonical =>
      obtain lower | reached := lt_or_ge e' unit
      · exact Or.inl (below _ (canonical.lt_full lower))
      · obtain ⟨steps, rfl⟩ := Int.le.dest reached
        have count_eq : (m' * 2 ^ (unit + steps) : ℚ) = (m' * 2 ^ steps : Nat) * 2 ^ unit := by
          rw [zpow_add₀ two_ne_zero, zpow_natCast]
          push_cast
          ring
        rw [count_eq] at differs ⊢
        have count_ne : m' * 2 ^ steps ≠ multiple := fun same => differs (by rw [same])
        obtain farther | ⟨tie, even, odd⟩ := nearest.of_ne positive count_ne
        · exact Or.inl farther
        · exact Or.inr ⟨tie, carried.even even, Nat.odd_iff.1 (Nat.odd_mul.1 (Nat.odd_iff.2 odd)).1⟩

/-- Up to two to the power of 53 every natural number is the number of a double. -/
theorem exists_denotes_nat {n : Nat} (le : n ≤ 2 ^ 53) : ∃ b, Denotes b n := by
  obtain rfl | pos := n.eq_zero_or_pos
  · rw [Nat.cast_zero]
    exact ⟨_, .zero .positive⟩
  · obtain less | rfl := le.lt_or_eq
    · have log : n.log2 ≤ 52 := Nat.lt_succ_iff.1 ((Nat.log2_lt pos.ne').2 less)
      obtain ⟨shift, total⟩ := Nat.exists_eq_add_of_le log
      have shifted_pos : 0 < n <<< shift := by
        rw [Nat.shiftLeft_eq]
        positivity
      have bits : (n <<< shift).log2 = 52 := by rw [log2_shiftLeft pos, ← total]
      obtain ⟨low, high⟩ := (Nat.log2_eq_iff shifted_pos.ne').1 bits
      rw [← shiftLeft_value n shift]
      exact ⟨_, .positive shifted_pos ⟨shifted_pos, high, by omega, Or.inl low⟩⟩
    · have value_eq : ((2 ^ 53 : Nat) : ℚ) = (2 ^ 52 : Nat) * 2 ^ (1 : Int) := by norm_num
      rw [value_eq]
      exact ⟨_, .positive (by norm_num) ⟨by norm_num, by norm_num, by decide, Or.inl le_rfl⟩⟩

theorem exists_denotes {n : Int} (le : n.natAbs ≤ 2 ^ 53) : ∃ b, Denotes b n := by
  obtain ⟨b, denotes⟩ := exists_denotes_nat le
  obtain same | opposite := n.natAbs_eq
  · rw [same, Int.cast_natCast]
    exact ⟨b, denotes⟩
  · rw [opposite, Int.cast_neg, Int.cast_natCast]
    exact ⟨b.neg, denotes.neg⟩

theorem nearest_nearestFloat (n : Int64) :
    ∃ p, Denotes (nearestFloat n).toModel.unpack p ∧
      Nearest n.toInt (nearestFloat n).toModel.unpack p := by
  have bound : n.toInt.natAbs < 2 ^ 64 := by
    have := n.le_toInt
    have := n.toInt_lt
    omega
  unfold nearestFloat
  cases number : n.toInt with
  | ofNat magnitude =>
    rw [number] at bound
    obtain rfl | pos := magnitude.eq_zero_or_pos
    · refine ⟨0, .zero .positive, fun b q _ differs => Or.inl ?_⟩
      simp [differs]
    · obtain ⟨unit, least, greatest, rounds⟩ := roundsTo_ofNat pos bound
      exact rounds.nearest least
  | negSucc less =>
    rw [number] at bound
    obtain ⟨unit, least, greatest, rounds⟩ := roundsTo_ofNat less.succ_pos bound
    obtain ⟨p, denotes, nearest⟩ := rounds.nearest least
    have unpacked : (Float.ofNat (less + 1)).neg.toModel.unpack =
        (Float.ofNat (less + 1)).toModel.unpack.neg := rounds.neg.unpack_pack least greatest
    refine ⟨-p, ?_⟩
    have mirrored := nearest.neg
    rw [Float.ofInt, unpacked, Int.negSucc_eq]
    push_cast at mirrored ⊢
    exact ⟨denotes.neg, mirrored⟩

end RecordQuery.Double
