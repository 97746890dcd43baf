import Mathlib.Tactic.IntervalCases
import RecordQuery.Text.Numeral

/-!
Numbers as they are written. The decimal form of a number has only digits, so it is told apart from
whatever other character stands around it, and it reads as that number wherever the bound admits it.
-/

namespace RecordQuery.Text

theorem digit?_digitChar {digit : Nat} (small : digit < 10) :
    digit? (Nat.digitChar digit) = some digit := by
  interval_cases digit <;> decide

/-- What has been read goes on with the characters that follow. -/
theorem readDigits_append {bound value result : Nat} {digits : List Char}
    (read : readDigits bound value digits = .ok result) (rest : List Char) :
    readDigits bound value (digits ++ rest) = readDigits bound result rest := by
  fun_induction readDigits bound value digits with
  | case1 => cases read; rfl
  | case2 => cases read
  | case3 value c digits digit found next fits ih =>
    rw [List.cons_append, readDigits, found]
    simp only [next, if_pos fits]
    exact ih read
  | case4 => cases read

theorem readDigits_toDigits {bound n : Nat} (fits : n < bound) :
    readDigits bound 0 (Nat.toDigits 10 n) = .ok n := by
  induction n using Nat.strongRecOn with
  | ind n ih =>
    by_cases small : n < 10
    · rw [Nat.toDigits_of_lt_base small, readDigits, digit?_digitChar small]
      simp [readDigits, fits]
    · -- All digits but the last are the numeral of a tenth.
      have tenth : 0 < n / 10 := by omega
      have last : n % 10 < 10 := Nat.mod_lt n (by decide)
      have digits : Nat.toDigits 10 n = Nat.toDigits 10 (n / 10) ++ [Nat.digitChar (n % 10)] := by
        rw [← Nat.toDigits_of_lt_base last, Nat.toDigits_append_toDigits (by decide) tenth last,
          Nat.div_add_mod]
      have value : n / 10 * 10 + n % 10 = n := by omega
      rw [digits, readDigits_append (ih (n / 10) (by omega) (by omega)), readDigits,
        digit?_digitChar last]
      simp [readDigits, value, fits]

theorem not_mem_toDigits {c : Char} (other : c.isDigit = false) (n : Nat) :
    c ∉ Nat.toDigits 10 n := by
  intro mem
  have digit := Nat.isDigit_of_mem_toDigits (by decide) (by decide) mem
  rw [other] at digit
  cases digit

theorem digit?_eq (c : Char) : digit? c = if c.isDigit then some (c.toNat - '0'.toNat) else none := by
  simp only [digit?, Char.isDigit, Bool.and_eq_true, decide_eq_true_eq]
  rfl

theorem le_ofDigitChars (digits : List Char) (value : Nat) : value ≤ Nat.ofDigitChars 10 digits value := by
  induction digits generalizing value with
  | nil => rw [Nat.ofDigitChars_nil]
  | cons c digits ih =>
    rw [Nat.ofDigitChars_cons]
    exact le_trans (by omega) (ih _)

/-- Digits go on to a number below the bound, and nothing else does. -/
theorem readDigits_eq_ok_iff {bound value n : Nat} {digits : List Char} (fits : value < bound) :
    readDigits bound value digits = .ok n ↔
      (∀ c ∈ digits, c.isDigit = true) ∧ Nat.ofDigitChars 10 digits value = n ∧ n < bound := by
  induction digits generalizing value with
  | nil =>
    rw [readDigits, Except.ok.injEq, Nat.ofDigitChars_nil]
    exact ⟨fun same => ⟨nofun, same, same ▸ fits⟩, fun ⟨_, same, _⟩ => same⟩
  | cons c digits ih =>
    rw [readDigits, digit?_eq, Nat.ofDigitChars_cons, List.forall_mem_cons]
    by_cases is_digit : c.isDigit = true
    · rw [if_pos is_digit, mul_comm 10 value]
      dsimp only
      split
      · next below => rw [ih below, eq_true is_digit, true_and]
      · next beyond =>
        refine iff_of_false nofun ?_
        rintro ⟨_, rfl, below⟩
        exact beyond (lt_of_le_of_lt (le_ofDigitChars digits _) below)
    · rw [if_neg is_digit]
      exact iff_of_false nofun fun ⟨⟨found, _⟩, _⟩ => is_digit found

/-- A numeral is one or more digits after an optional plus sign. -/
theorem readUnsigned_eq_ok_iff {bound n : Nat} {text : String} (positive : 0 < bound) :
    readUnsigned bound text = .ok n ↔
      ∃ digits : List Char, (text.toList = digits ∨ text.toList = '+' :: digits) ∧ digits ≠ [] ∧
        (∀ c ∈ digits, c.isDigit = true) ∧ Nat.ofDigitChars 10 digits 0 = n ∧ n < bound := by
  have no_sign : '+'.isDigit ≠ true := by decide
  rw [readUnsigned]
  split
  · next empty =>
    refine iff_of_false nofun ?_
    rintro ⟨digits, rfl | signed, some_digit, _⟩
    · exact some_digit empty
    · cases empty.symm.trans signed
  · next sign =>
    refine iff_of_false nofun ?_
    rintro ⟨digits, rfl | signed, some_digit, all_digits, _⟩
    · exact no_sign (all_digits '+' (sign ▸ List.mem_singleton_self _))
    · cases sign.symm.trans signed
      exact some_digit rfl
  · next digits some_digit signed =>
    rw [readDigits_eq_ok_iff positive]
    constructor
    · rintro ⟨all_digits, read⟩
      exact ⟨digits, Or.inr signed, some_digit, all_digits, read⟩
    · rintro ⟨digits', rfl | signed', _, all_digits, read⟩
      · exact absurd (all_digits '+' (signed ▸ List.mem_cons_self)) no_sign
      · obtain rfl : digits' = digits := (List.cons.inj (signed'.symm.trans signed)).2
        exact ⟨all_digits, read⟩
  · next some_text _ unsigned =>
    rw [readDigits_eq_ok_iff positive]
    constructor
    · rintro ⟨all_digits, read⟩
      exact ⟨_, Or.inl rfl, some_text, all_digits, read⟩
    · rintro ⟨digits, rfl | signed, _, all_digits, read⟩
      · exact ⟨all_digits, read⟩
      · exact absurd signed (unsigned digits)

/-- A number below the bound is read from its decimal form. -/
theorem readUnsigned_toString {bound n : Nat} (fits : n < bound) :
    readUnsigned bound (toString n) = .ok n := by
  have plain : '+' ∉ Nat.toDigits 10 n := not_mem_toDigits (by decide) n
  have digits : (toString n).toList = Nat.toDigits 10 n := Nat.toList_repr
  rw [readUnsigned, digits]
  split
  · next none => exact absurd none Nat.toDigits_ne_nil
  · next sign => simp [sign] at plain
  · next sign => simp [sign] at plain
  · exact readDigits_toDigits fits

end RecordQuery.Text
