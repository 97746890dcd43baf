import RecordQuery.Json.Reader
import RecordQuery.Proofs.Text.Numeral

/-!
Numerals read back from their texts. A numeral is read to its end, wherever nothing follows with which it
could go on, and the digits of each part count as they stand.
-/

namespace RecordQuery.Json

open RecordQuery.Text

/-- The values of digits. -/
def values (digits : List Char) : List Nat := digits.filterMap digit?

/-- Nothing but digits. -/
def AllDigits (digits : List Char) : Prop := ∀ c ∈ digits, c.isDigit = true

/-- No character follows with which a numeral could go on. -/
def EndsNumeral (rest : List Char) : Prop :=
  ∀ c ∈ rest.head?, c.isDigit = false ∧ c ≠ '.' ∧ c ≠ 'e' ∧ c ≠ 'E'

theorem values_cons {c : Char} (digits : List Char) (is_digit : c.isDigit = true) :
    values (c :: digits) = (c.toNat - '0'.toNat) :: values digits := by
  rw [values, List.filterMap_cons, digit?_eq, if_pos is_digit]
  rfl

theorem length_values {digits : List Char} (all : AllDigits digits) :
    (values digits).length = digits.length := by
  induction digits with
  | nil => rfl
  | cons c digits ih =>
    obtain ⟨is_digit, all⟩ := List.forall_mem_cons.1 all
    rw [values_cons digits is_digit, List.length_cons, List.length_cons, ih all]

theorem isEmpty_values {digits : List Char} (some_digit : digits ≠ []) (all : AllDigits digits) :
    (values digits).isEmpty = false := by
  rw [List.isEmpty_eq_false_iff, ← List.length_pos_iff, length_values all]
  exact List.length_pos_iff.2 some_digit

theorem ofDigits_values {digits : List Char} (all : AllDigits digits) :
    ofDigits (values digits) = Nat.ofDigitChars 10 digits 0 := by
  have goes_on : ∀ value, (values digits).foldl (fun value digit => value * 10 + digit) value =
      Nat.ofDigitChars 10 digits value := by
    induction digits with
    | nil => exact fun value => Nat.ofDigitChars_nil.symm
    | cons c digits ih =>
      intro value
      obtain ⟨is_digit, all⟩ := List.forall_mem_cons.1 all
      rw [values_cons digits is_digit, List.foldl_cons, ih all, Nat.ofDigitChars_cons, Nat.mul_comm]
  exact goes_on 0

theorem values_append (first last : List Char) : values (first ++ last) = values first ++ values last :=
  List.filterMap_append

theorem allDigits_toDigits (n : Nat) : AllDigits (Nat.toDigits 10 n) := fun _ mem =>
  Nat.isDigit_of_mem_toDigits (by decide) (by decide) mem

theorem ofDigits_toDigits (n : Nat) : ofDigits (values (Nat.toDigits 10 n)) = n := by
  rw [ofDigits_values (allDigits_toDigits n), Nat.ofDigitChars_ten_toDigits]

/-- No positive number is written with a zero in front. -/
theorem head?_toDigits {n : Nat} (pos : 0 < n) : (Nat.toDigits 10 n).head? ≠ some '0' := by
  induction n using Nat.strongRecOn with
  | ind n ih =>
    by_cases small : n < 10
    · rw [Nat.toDigits_of_lt_base small]
      interval_cases n <;> decide
    · rw [Nat.toDigits_of_base_le (by decide) (not_lt.1 small), List.head?_append,
        Option.or_of_isSome (List.isSome_head?.2 Nat.toDigits_ne_nil)]
      exact ih (n / 10) (by omega) (by omega)

theorem no_needless_zero (n : Nat) :
    (Nat.toDigits 10 n).head? = some '0' → (Nat.toDigits 10 n).length = 1 := by
  intro zero
  obtain rfl : n = 0 := Nat.eq_zero_of_not_pos fun pos => head?_toDigits pos zero
  rw [Nat.toDigits_zero, List.length_singleton]

/-- A point and the digits of a fraction, if there are any. -/
def fractionText : List Char → List Char
  | [] => []
  | digits => '.' :: digits

theorem fractionText_of_ne_nil {digits : List Char} (some_digit : digits ≠ []) :
    fractionText digits = '.' :: digits := by
  obtain ⟨first, others, rfl⟩ := List.exists_cons_of_ne_nil some_digit
  rfl

/-- An exponent with its mark and its sign, if one is given. -/
def exponentText : Option Int → List Char
  | none => []
  | some n => 'e' :: (if n < 0 then '-' else '+') :: Nat.toDigits 10 n.natAbs

namespace Reader

theorem digits_append {digits rest : List Char} (all : AllDigits digits)
    (stops : ∀ c ∈ rest.head?, c.isDigit = false) :
    Reader.digits (digits ++ rest) = (values digits, rest) := by
  have taken : (digits ++ rest).takeWhile Char.isDigit = digits := by
    rw [List.takeWhile_append_of_pos all]
    cases rest with
    | nil => simp
    | cons c rest => simp [stops c rfl]
  have dropped : (digits ++ rest).dropWhile Char.isDigit = rest := by
    rw [List.dropWhile_append_of_pos all]
    cases rest with
    | nil => rfl
    | cons c rest => simp [stops c rfl]
  rw [Reader.digits, taken, dropped, values]

theorem digits_toDigits (n : Nat) {rest : List Char} (stops : ∀ c ∈ rest.head?, c.isDigit = false) :
    Reader.digits (Nat.toDigits 10 n ++ rest) = (values (Nat.toDigits 10 n), rest) :=
  digits_append (allDigits_toDigits n) stops

theorem exponent_exponentText (exponent : Option Int) {rest : List Char} (ends : EndsNumeral rest) :
    Reader.exponent (exponentText exponent ++ rest) = some (exponent, rest) := by
  cases exponent with
  | none =>
    cases rest with
    | nil => rfl
    | cons c rest =>
      obtain ⟨_, _, not_e, not_E⟩ := ends c rfl
      simp [exponentText, Reader.exponent, not_e, not_E]
  | some n =>
    have read := digits_toDigits n.natAbs fun c mem => (ends c mem).1
    have value := ofDigits_toDigits n.natAbs
    have not_empty := isEmpty_values Nat.toDigits_ne_nil (allDigits_toDigits n.natAbs)
    rw [exponentText]
    split
    · next negative => simp [Reader.exponent, read, value, not_empty, abs_of_neg negative]
    · next nonneg => simp [Reader.exponent, read, value, not_empty, abs_of_nonneg (not_lt.1 nonneg)]

theorem whole_append {digits rest : List Char} (some_digit : digits ≠ []) (all : AllDigits digits)
    (no_needless_zero : digits.head? = some '0' → digits.length = 1)
    (stops : ∀ c ∈ rest.head?, c.isDigit = false) :
    Reader.whole (digits ++ rest) = some (values digits, rest) := by
  have read := digits_append all stops
  have length := length_values all
  obtain ⟨first, others, rfl⟩ := List.exists_cons_of_ne_nil some_digit
  obtain ⟨first_digit, _⟩ := List.forall_mem_cons.1 all
  rw [Reader.whole, read]
  dsimp only
  rw [length, values_cons others first_digit]
  refine if_neg ?_
  simp only [List.isEmpty_cons, Bool.false_or, List.head?_cons, Option.some.injEq, Bool.and_eq_true,
    decide_eq_true_eq]
  rintro ⟨zero, several⟩
  refine several (no_needless_zero (congrArg some (Char.toNat_inj.1 ?_)))
  have least : '0'.toNat ≤ first.toNat := (Char.isDigit_iff_toNat.1 first_digit).1
  omega

theorem fraction_fractionText {digits rest : List Char} (all : AllDigits digits)
    (stops : ∀ c ∈ rest.head?, c.isDigit = false ∧ c ≠ '.') :
    Reader.fraction (fractionText digits ++ rest) = some (values digits, rest) := by
  cases digits with
  | nil =>
    cases rest with
    | nil => rfl
    | cons c rest => simp [fractionText, Reader.fraction, (stops c rfl).2, values]
  | cons c digits =>
    have read := digits_append all fun c mem => (stops c mem).1
    have some_value := isEmpty_values (List.cons_ne_nil c digits) all
    change (if (Reader.digits (c :: digits ++ rest)).1.isEmpty = true then none
      else some ((Reader.digits (c :: digits ++ rest)).1, (Reader.digits (c :: digits ++ rest)).2)) = _
    rw [read]
    simp [some_value]

/-- A numeral is read from its text, whatever follows. -/
theorem numeral_text (negative : Bool) {whole fraction : List Char} (exponent : Option Int) {rest : List Char}
    (some_digit : whole ≠ []) (whole_digits : AllDigits whole)
    (no_needless_zero : whole.head? = some '0' → whole.length = 1) (fraction_digits : AllDigits fraction)
    (ends : EndsNumeral rest) :
    Reader.numeral ((if negative then ['-'] else []) ++ (whole ++ (fractionText fraction ++
        (exponentText exponent ++ rest)))) =
      some (⟨negative, values whole, values fraction, exponent⟩, rest) := by
  have fraction_stops (c : Char) (mem : c ∈ (exponentText exponent ++ rest).head?) :
      c.isDigit = false ∧ c ≠ '.' := by
    cases exponent with
    | none => exact ⟨(ends c mem).1, (ends c mem).2.1⟩
    | some n =>
      obtain rfl : 'e' = c := Option.some.inj mem
      exact ⟨by decide, by decide⟩
  have whole_stops (c : Char)
      (mem : c ∈ (fractionText fraction ++ (exponentText exponent ++ rest)).head?) : c.isDigit = false := by
    cases fraction with
    | nil => exact (fraction_stops c mem).1
    | cons d fraction =>
      obtain rfl : '.' = c := Option.some.inj mem
      rfl
  have read_minus : Reader.minus ((if negative then ['-'] else []) ++ (whole ++ (fractionText fraction ++
      (exponentText exponent ++ rest)))) =
        (negative, whole ++ (fractionText fraction ++ (exponentText exponent ++ rest))) := by
    cases negative with
    | true => rfl
    | false =>
      obtain ⟨first, others, rfl⟩ := List.exists_cons_of_ne_nil some_digit
      have not_minus : first ≠ '-' := by
        rintro rfl
        cases whole_digits '-' List.mem_cons_self
      simp [Reader.minus, not_minus]
  rw [Reader.numeral, read_minus]
  simp only [whole_append some_digit whole_digits no_needless_zero whole_stops,
    fraction_fractionText fraction_digits fraction_stops, exponent_exponentText exponent ends,
    Option.bind_eq_bind, Option.bind_some]
  rfl

end Reader

/-- An integer that 64 bits can hold is read back from its decimal form. -/
theorem number_toString {n : Int} (least : Int64.minValue.toInt ≤ n) (greatest : n < UInt64.size)
    {rest : List Char} (ends : EndsNumeral rest) :
    Reader.number ((toString n).toList ++ rest) = some (.int n, rest) := by
  have text : (toString n).toList = (if decide (n < 0) then ['-'] else []) ++ Nat.toDigits 10 n.natAbs := by
    rw [Int.toString_eq_repr, Int.repr_eq_if]
    split
    · next nonneg =>
      have same : n.toNat = n.natAbs := by omega
      have no_sign : decide (n < 0) = false := decide_eq_false (not_lt.2 nonneg)
      rw [Nat.toList_repr, same, no_sign]
      rfl
    · next negative =>
      have same : (-n).toNat = n.natAbs := by omega
      have sign : decide (n < 0) = true := decide_eq_true (not_le.1 negative)
      rw [String.toList_append, Nat.toList_repr, same, sign]
      rfl
  have read := Reader.numeral_text (decide (n < 0)) none Nat.toDigits_ne_nil (allDigits_toDigits n.natAbs)
    (no_needless_zero n.natAbs) (show AllDigits [] from nofun) ends
  rw [fractionText, exponentText, List.nil_append, List.nil_append, ← List.append_assoc, ← text] at read
  have is_int : Numeral.integer? ⟨decide (n < 0), values (Nat.toDigits 10 n.natAbs), values [], none⟩ =
      some n := by
    have bound : Int64.minValue.toInt = -2 ^ 63 := by decide
    have no_fraction : values [] = [] := rfl
    rw [bound] at least
    simp only [Numeral.integer?, ofDigits_toDigits, no_fraction, bound]
    grind
  simp only [Reader.number, read, Option.map_some, Numeral.document, is_int]

end RecordQuery.Json
