import RecordQuery.Value.Basic

/-!
What the relations between values say where one side is an integer or a text. Structure tells
integers and texts from everything else; the order, and with it the equality of queries, also puts
integers beside doubles.
-/

namespace RecordQuery.Value

theorem beq_int_iff {actual : Value} {n : Int64} : (actual == .int n) = true ↔ actual = .int n := by
  change actual.beq (.int n) = true ↔ actual = .int n
  cases actual <;> simp [beq]

theorem int_beq_iff {value : Value} {n : Int64} : (Value.int n == value) = true ↔ value = .int n := by
  change (Value.int n).beq value = true ↔ value = .int n
  cases value with
  | int m => rw [beq, beq_iff_eq, int.injEq, eq_comm]
  | _ => exact iff_of_false Bool.false_ne_true nofun

theorem beq_string_iff {actual : Value} {text : String} :
    (actual == .string text) = true ↔ actual = .string text := by
  change actual.beq (.string text) = true ↔ actual = .string text
  cases actual <;> simp [beq]

theorem string_beq_iff {value : Value} {text : String} :
    (Value.string text == value) = true ↔ value = .string text := by
  change (Value.string text).beq value = true ↔ value = .string text
  cases value with
  | string other => rw [beq, beq_iff_eq, string.injEq, eq_comm]
  | _ => exact iff_of_false Bool.false_ne_true nofun

/-- Only numbers have an order with an integer. -/
theorem number_of_compare?_int {actual : Value} {n : Int64} {order : Ordering}
    (ordered : actual.compare? (.int n) = some order) :
    (∃ m, actual = .int m ∧ compare m n = order) ∨ ∃ x, actual = .float x := by
  cases actual with
  | int m => exact Or.inl ⟨m, rfl, Option.some.inj ordered⟩
  | float x => exact Or.inr ⟨x, rfl⟩
  | _ => cases ordered

theorem eq_int_or_float_of_equalTo {actual : Value} {n : Int64}
    (equal : actual.equalTo (.int n) = true) : actual = .int n ∨ ∃ x, actual = .float x := by
  unfold equalTo at equal
  split at equal
  · next order ordered =>
    obtain ⟨m, rfl, rfl⟩ | float := number_of_compare?_int ordered
    · rw [beq_iff_eq] at equal
      rw [Std.LawfulEqOrd.eq_of_compare equal]
      exact Or.inl rfl
    · exact Or.inr float
  · exact Or.inl (beq_int_iff.1 equal)

theorem int_equalTo_int_iff {m n : Int64} : (Value.int m).equalTo (.int n) = true ↔ m = n := by
  constructor
  · intro equal
    obtain same | ⟨x, same⟩ := eq_int_or_float_of_equalTo equal
    · exact Value.int.inj same
    · cases same
  · rintro rfl
    change (compare m m == .eq) = true
    rw [beq_iff_eq]
    exact Std.ReflCmp.compare_self

theorem eq_string_of_equalTo {actual : Value} {text : String}
    (equal : actual.equalTo (.string text) = true) : actual = .string text := by
  unfold equalTo at equal
  split at equal
  · next order ordered =>
    cases actual with
    | string other =>
      obtain rfl := Option.some.inj ordered
      rw [beq_iff_eq] at equal
      rw [Std.LawfulEqOrd.eq_of_compare equal]
    | _ => cases ordered
  · exact beq_string_iff.1 equal

end RecordQuery.Value
