import RecordQuery.Json.Writer
import RecordQuery.Proofs.Decimal.Nearest
import RecordQuery.Proofs.Json.Numeral

/-!
Doubles as they are written. The digits of the shortest decimal stand in place, with zeros around them, or
in front of an exponent. Either way the text is a numeral for exactly this decimal, and never one for an
integer, so that the double is the nearest one to what has been written.
-/

namespace RecordQuery

open Json Double

/-- The exact number of a numeral. -/
def Json.Numeral.number (numeral : Numeral) : ℚ :=
  Decimal.signed numeral.negative <| ofDigits (numeral.whole ++ numeral.fraction) *
    10 ^ (numeral.exponent.getD 0 - numeral.fraction.length)

namespace Decimal

/-- A text that stands for a number without a sign, written with a fraction or an exponent. -/
inductive Stands (number : ℚ) : List Char → Prop
  | intro {whole fraction : List Char} {exponent : Option Int} (some_digit : whole ≠ [])
    (whole_digits : AllDigits whole) (no_needless_zero : whole.head? = some '0' → whole.length = 1)
    (fraction_digits : AllDigits fraction) (no_integer : fraction ≠ [] ∨ exponent.isSome = true)
    (number_eq : number =
      Nat.ofDigitChars 10 (whole ++ fraction) 0 * 10 ^ (exponent.getD 0 - fraction.length)) :
    Stands number (whole ++ (fractionText fraction ++ exponentText exponent))

/-- The text is read as a numeral for the number. -/
theorem Stands.numeral {number : ℚ} {text : List Char} (stands : Stands number text) (negative : Bool)
    {rest : List Char} (ends : EndsNumeral rest) :
    ∃ numeral : Numeral,
      Reader.numeral ((if negative then ['-'] else []) ++ text ++ rest) = some (numeral, rest) ∧
      numeral.negative = negative ∧ numeral.integer? = none ∧ numeral.number = signed negative number := by
  obtain @⟨whole, fraction, exponent, some_digit, whole_digits, no_needless_zero, fraction_digits,
    no_integer, rfl⟩ := stands
  have read := Reader.numeral_text negative exponent some_digit whole_digits no_needless_zero
    fraction_digits ends
  refine ⟨⟨negative, values whole, values fraction, exponent⟩, ?_, rfl, ?_, ?_⟩
  · rw [← read]
    simp only [List.append_assoc]
  · rw [Numeral.integer?]
    refine if_pos ?_
    obtain some_fraction | some_exponent := no_integer
    · rw [isEmpty_values some_fraction fraction_digits]
      rfl
    · rw [some_exponent, Bool.or_true]
  · rw [Numeral.number]
    dsimp only
    rw [← values_append, ofDigits_values (List.forall_mem_append.2 ⟨whole_digits, fraction_digits⟩),
      length_values fraction_digits]

theorem zero_digit : AllDigits ['0'] := by
  rintro c (_ | ⟨_, ⟨⟩⟩)
  rfl

theorem allDigits_replicate_zero (count : Nat) : AllDigits (List.replicate count '0') := by
  intro c mem
  rw [List.eq_of_mem_replicate mem]
  rfl

theorem toList_zeros (count : Nat) : (zeros count).toList = List.replicate count '0' := String.toList_ofList

section Digits

variable {digits : List Char} (some_digit : digits ≠ []) (all : AllDigits digits)
  (no_zero : digits.head? ≠ some '0')

include some_digit all in
/-- The digits behind the point, after zeros. -/
theorem stands_behind (count : Nat) :
    Stands (Nat.ofDigitChars 10 digits 0 * 10 ^ (-(count : Int) - digits.length))
      (['0', '.'] ++ List.replicate count '0' ++ digits) := by
  have some_fraction : List.replicate count '0' ++ digits ≠ [] :=
    List.append_ne_nil_of_right_ne_nil _ some_digit
  have text : ['0', '.'] ++ List.replicate count '0' ++ digits =
      ['0'] ++ (fractionText (List.replicate count '0' ++ digits) ++ exponentText none) := by
    rw [fractionText_of_ne_nil some_fraction, exponentText, List.append_nil, List.append_assoc]
    rfl
  rw [text]
  refine .intro (List.cons_ne_nil _ _) zero_digit (fun _ => rfl)
    (List.forall_mem_append.2 ⟨allDigits_replicate_zero _, all⟩) (Or.inl some_fraction) ?_
  have zero : Nat.ofDigitChars 10 ['0'] 0 = 0 := rfl
  rw [Nat.ofDigitChars_append, Nat.ofDigitChars_append, Nat.ofDigitChars_replicate_zero, zero, Nat.mul_zero,
    List.length_append, List.length_replicate, Option.getD_none, zero_sub, Nat.cast_add, neg_add,
    sub_eq_add_neg]

include some_digit all no_zero in
/-- The digits and further zeros in front of the point. -/
theorem stands_before (count : Nat) :
    Stands (Nat.ofDigitChars 10 digits 0 * 10 ^ (count : Int))
      (digits ++ List.replicate count '0' ++ ['.', '0']) := by
  have text : digits ++ List.replicate count '0' ++ ['.', '0'] =
      digits ++ List.replicate count '0' ++ (fractionText ['0'] ++ exponentText none) := rfl
  rw [text]
  refine .intro (List.append_ne_nil_of_left_ne_nil some_digit _)
    (List.forall_mem_append.2 ⟨all, allDigits_replicate_zero _⟩) ?_ zero_digit
    (Or.inl (List.cons_ne_nil _ _)) ?_
  · rw [List.head?_append, Option.or_of_isSome (List.isSome_head?.2 some_digit)]
    exact fun zero => absurd zero no_zero
  · have tenfold (n : Nat) : Nat.ofDigitChars 10 ['0'] n = 10 * n :=
      Nat.ofDigitChars_cons.trans Nat.ofDigitChars_nil
    have tenth : (10 ^ ((none : Option Int).getD 0 - (['0'] : List Char).length) : ℚ) = 10⁻¹ := by simp
    rw [Nat.ofDigitChars_append, Nat.ofDigitChars_append, Nat.ofDigitChars_replicate_zero, tenfold, tenth,
      zpow_natCast]
    push_cast
    field_simp

include some_digit all no_zero in
/-- Some of the digits in front of the point, perhaps with an exponent. -/
theorem stands_split {count : Nat} (some_before : 0 < count) (exponent : Option Int)
    (no_integer : count < digits.length ∨ exponent.isSome = true) :
    Stands (Nat.ofDigitChars 10 digits 0 * 10 ^ (exponent.getD 0 - (digits.length - count : Nat)))
      (digits.take count ++ (fractionText (digits.drop count) ++ exponentText exponent)) := by
  obtain ⟨first, others, rfl⟩ := List.exists_cons_of_ne_nil some_digit
  obtain ⟨count, rfl⟩ := Nat.exists_eq_add_one.2 some_before
  refine .intro (List.cons_ne_nil _ _) (fun c mem => all c (List.mem_of_mem_take mem))
    (fun zero => absurd zero no_zero) (fun c mem => all c (List.mem_of_mem_drop mem)) ?_ ?_
  · refine no_integer.imp_left fun short => ?_
    rw [ne_eq, List.drop_eq_nil_iff, not_le]
    exact short
  · rw [List.take_append_drop, List.length_drop]

include some_digit all no_zero

theorem stands_inPlace (point : Int) :
    Stands (Nat.ofDigitChars 10 digits 0 * 10 ^ (point - digits.length))
      (inPlace digits point ".0").toList := by
  rw [inPlace]
  split
  · next outside =>
    obtain ⟨count, rfl⟩ : ∃ count : Nat, point = -count := ⟨(-point).toNat, by omega⟩
    simp only [neg_neg, Int.toNat_natCast, String.toList_append, toList_zeros, String.toList_ofList]
    exact stands_behind some_digit all count
  · next inside =>
    obtain ⟨count, rfl⟩ : ∃ count : Nat, point = count := ⟨point.toNat, by omega⟩
    rw [Int.toNat_natCast]
    split
    · next long =>
      obtain ⟨more, rfl⟩ := Nat.exists_eq_add_of_le long
      simp only [Nat.add_sub_cancel_left, String.toList_append, toList_zeros, String.toList_ofList,
        Nat.cast_add, add_sub_cancel_left]
      exact stands_before some_digit all no_zero more
    · next short =>
      have exponent_eq : (count : Int) - digits.length =
          (none : Option Int).getD 0 - (digits.length - count : Nat) := by
        rw [Option.getD_none]
        omega
      have rest_ne : digits.drop count ≠ [] := by
        rw [ne_eq, List.drop_eq_nil_iff]
        exact short
      have stands := stands_split some_digit all no_zero (show 0 < count by omega) none
        (Or.inl (not_le.1 short))
      simp only [exponent_eq, String.toList_append, String.toList_ofList]
      rwa [fractionText_of_ne_nil rest_ne, exponentText, List.append_nil, ← List.singleton_append,
        ← List.append_assoc] at stands

theorem stands_withExponent (exponent : Int) :
    Stands (Nat.ofDigitChars 10 digits 0 * 10 ^ (exponent + 1 - digits.length))
      (withExponent digits exponent).toList := by
  have length_pos := List.length_pos_of_ne_nil some_digit
  have exponent_eq : exponent + 1 - digits.length =
      (some exponent).getD 0 - (digits.length - 1 : Nat) := by
    rw [Option.getD_some]
    omega
  have stands := stands_split some_digit all no_zero one_pos (some exponent) (Or.inr rfl)
  have text : (withExponent digits exponent).toList =
      digits.take 1 ++ (fractionText (digits.drop 1) ++ exponentText (some exponent)) := by
    have fraction :
        (if (digits.drop 1).isEmpty = true then "" else "." ++ String.ofList (digits.drop 1)).toList =
        fractionText (digits.drop 1) := by
      split
      · next none_left =>
        rw [List.isEmpty_iff.1 none_left]
        rfl
      · next some_left =>
        have some_left : digits.drop 1 ≠ [] := fun none_left => some_left (List.isEmpty_iff.2 none_left)
        simp only [fractionText_of_ne_nil some_left, String.toList_append, String.toList_ofList]
        rfl
    have sign : (if exponent < 0 then "-" else "+").toList = [if exponent < 0 then '-' else '+'] := by
      split <;> rfl
    have mark : "e".toList = ['e'] := rfl
    have shown : (toString exponent.natAbs).toList = Nat.toDigits 10 exponent.natAbs := Nat.toList_repr
    simp only [withExponent, String.toList_append, String.toList_ofList, fraction, sign, mark, shown,
      exponentText, List.append_assoc, List.cons_append, List.nil_append]
  rwa [text, exponent_eq]

end Digits

/-- Zero, and only zero, is told apart before its digits are looked for. -/
theorem beq_zero_iff {x : Float} {p : ℚ} (denotes : Denotes x.toModel.unpack p) :
    (x == 0.0) = true ↔ p = 0 := by
  have zero : Denotes (0.0 : Float).toModel.unpack 0 := denotes_of_exactly? rfl
  change (x.toModel.unpack.compare (0.0 : Float).toModel.unpack == some .eq) = true ↔ _
  rw [denotes.compare_eq zero, beq_iff_eq, Option.some.injEq, compare_eq_iff_eq]

/-- The digits of a decimal stand for its number, wherever they are laid out around the point. -/
theorem stands_digits {decimal : Decimal} (pos : 0 < decimal.number) :
    let digits := Nat.toDigits 10 decimal.significand
    let point := digits.length + decimal.exponent
    Stands decimal.number (inPlace digits point ".0").toList ∧
      Stands decimal.number (withExponent digits (point - 1)).toList := by
  have significand_pos : 0 < decimal.significand := by
    refine Nat.pos_of_ne_zero fun zero => pos.ne' ?_
    rw [number, zero, Nat.cast_zero, zero_mul]
  have all := allDigits_toDigits decimal.significand
  have no_zero := head?_toDigits significand_pos
  have value : Nat.ofDigitChars 10 (Nat.toDigits 10 decimal.significand) 0 = decimal.significand :=
    Nat.ofDigitChars_ten_toDigits
  intro digits point
  have before : point - digits.length = decimal.exponent := add_sub_cancel_left _ _
  have behind : point - 1 + 1 - digits.length = decimal.exponent := by rw [sub_add_cancel, before]
  have in_place := stands_inPlace Nat.toDigits_ne_nil all no_zero point
  have with_exponent := stands_withExponent Nat.toDigits_ne_nil all no_zero (point - 1)
  rw [value, before] at in_place
  rw [value, behind] at with_exponent
  exact ⟨in_place, with_exponent⟩

theorem unpack_of_isFinite {x : Float} (finite : x.isFinite = true) :
    (∃ sign, x.toModel.unpack = .zero sign) ∨ ∃ sign m e pos, x.toModel.unpack = .finite sign m e pos := by
  change x.toModel.unpack.isFinite = true at finite
  cases unpacked : x.toModel.unpack with
  | infinity =>
    rw [unpacked] at finite
    cases finite
  | notANumber =>
    rw [unpacked] at finite
    cases finite
  | zero sign => exact Or.inl ⟨sign, rfl⟩
  | finite sign m e pos => exact Or.inr ⟨sign, m, e, pos, rfl⟩

/-- What is written of a finite double, after its sign, stands for a number to which it is nearest. -/
theorem stands_magnitude {x : Float} (finite : x.isFinite = true) :
    ∃ number p, Stands number (Json.floatLayout.magnitude x).toList ∧
      NearestDouble (signed (FloatLayout.isNegative x) number) x p := by
  rw [FloatLayout.magnitude]
  obtain ⟨sign, unpacked⟩ | ⟨sign, m, e, pos, unpacked⟩ := unpack_of_isFinite finite
  · have denotes : Denotes x.toModel.unpack 0 := by
      rw [unpacked]
      exact .zero sign
    have no_distance : signed (FloatLayout.isNegative x) 0 = 0 := by
      rw [signed, neg_zero, ite_self]
    rw [if_pos ((beq_zero_iff denotes).2 rfl)]
    refine ⟨0, 0, ?_, denotes.number?_eq, ?_, ?_⟩
    · exact @Stands.intro 0 ['0'] ['0'] none (List.cons_ne_nil _ _) zero_digit (fun _ => rfl) zero_digit
        (Or.inl (List.cons_ne_nil _ _)) (zero_mul _).symm
    · intro y q _
      rw [no_distance, sub_self, abs_zero]
      exact abs_nonneg _
    · intros
      rw [unpacked]
      rfl
  · obtain ⟨number_pos, p, nearest⟩ := nearestDouble_shortest .toEven unpacked
    obtain ⟨in_place, with_exponent⟩ := stands_digits number_pos
    have denotes := denotes_of_exactly? nearest.exactly_eq
    have not_zero : ¬(x == 0.0) = true := by
      rw [beq_zero_iff denotes]
      rintro rfl
      have no_significand := denotes.significand_eq (.zero .positive)
      rw [unpacked] at no_significand
      exact pos.ne' no_significand
    have shown (n : Nat) : (toString n).toList = Nat.toDigits 10 n := Nat.toList_repr
    refine ⟨(shortest .toEven x).number, p, ?_, nearest⟩
    simp only [if_neg not_zero, shown]
    split
    · exact in_place
    · exact with_exponent

/-- A finite double is the nearest one to what is written for it, which reads as a numeral and not as an
integer. -/
theorem numeral_writeFloat {x : Float} (finite : x.isFinite = true) {rest : List Char}
    (ends : EndsNumeral rest) :
    ∃ (numeral : Numeral) (p : ℚ),
      Reader.numeral ((writeFloat x).toList ++ rest) = some (numeral, rest) ∧ numeral.integer? = none ∧
      numeral.negative = FloatLayout.isNegative x ∧ NearestDouble numeral.number x p := by
  obtain ⟨number, p, stands, nearest⟩ := stands_magnitude finite
  obtain ⟨numeral, read, negative, no_integer, number_eq⟩ :=
    stands.numeral (FloatLayout.isNegative x) ends
  have not_special : x.isNaN = false ∧ x.isInf = false := by
    change x.toModel.unpack.isNaN = false ∧ x.toModel.unpack.isInf = false
    obtain ⟨sign, unpacked⟩ | ⟨sign, m, e, pos, unpacked⟩ := unpack_of_isFinite finite
    · rw [unpacked]
      exact ⟨rfl, rfl⟩
    · rw [unpacked]
      exact ⟨rfl, rfl⟩
  have text : (writeFloat x).toList = (if FloatLayout.isNegative x then ['-'] else []) ++
      (Json.floatLayout.magnitude x).toList := by
    simp only [writeFloat, finite, FloatLayout.write, not_special, Bool.false_eq_true, if_true, if_false,
      String.toList_append]
    cases FloatLayout.isNegative x <;> rfl
  rw [← text] at read
  rw [← number_eq] at nearest
  exact ⟨numeral, p, read, no_integer, negative, nearest⟩

end Decimal

end RecordQuery
