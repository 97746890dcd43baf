import Mathlib.Data.Option.Basic
import RecordQuery.Predicate.Meaning
import RecordQuery.Proofs.Value.Equality

/-!
The filters of single comparisons: which operands have one, and that the filter of a range has for its
ends the first and the last integer that the limits admit, also where a limit that is not inclusive
stands next to the end of the integers.
-/

namespace RecordQuery

namespace Predicate

theorem equalFilter?_cases {bin : String} {value : Value} {filter : Filter}
    (found : equalFilter? bin value = some filter) :
    (∃ n, value = .int n ∧ filter = .equal bin (.int n)) ∨
      ∃ text, value = .string text ∧ filter = .equal bin (.string text) := by
  unfold equalFilter? at found
  split at found
  · exact Or.inl ⟨_, rfl, (Option.some.inj found).symm⟩
  · exact Or.inr ⟨_, rfl, (Option.some.inj found).symm⟩
  · cases found

theorem rangeFilter?_cases {bin : String} {lower upper : Option Limit} {filter : Filter}
    (found : rangeFilter? bin lower upper = some filter) :
    (lower.isSome = true ∨ upper.isSome = true) ∧
      ∃ first last, firstInteger? lower = some first ∧ lastInteger? upper = some last ∧
        first ≤ last ∧ filter = .between bin first last := by
  simp only [rangeFilter?, Option.bind_eq_bind, Option.bind_eq_some_iff, Option.guard_eq_some',
    Option.ite_none_right_eq_some, Option.some.injEq, Bool.or_eq_true] at found
  obtain ⟨_, limited, first, firstFound, last, lastFound, ordered, rfl⟩ := found
  exact ⟨limited, first, last, firstFound, lastFound, ordered, rfl⟩

theorem rangeFilter?_of_ordered {bin : String} {lower upper : Option Limit} {first last : Int64}
    (limited : lower.isSome = true ∨ upper.isSome = true) (first_found : firstInteger? lower = some first)
    (last_found : lastInteger? upper = some last) (ordered : first ≤ last) :
    rangeFilter? bin lower upper = some (.between bin first last) := by
  have is_limited : (lower.isSome || upper.isSome) = true := (Bool.or_eq_true ..).mpr limited
  rw [rangeFilter?, is_limited, first_found, last_found]
  exact if_pos ordered

theorem integers?_eq_some {values : List Value} {numbers : List Int64}
    (found : integers? values = some numbers) : values = numbers.map Value.int := by
  induction values generalizing numbers with
  | nil =>
    cases found
    rfl
  | cons value rest ih =>
    simp only [integers?, List.mapM_cons, Option.bind_eq_bind, Option.bind_eq_some_iff,
      Option.pure_def, Option.some.injEq] at found
    obtain ⟨n, isInt, others, restFound, rfl⟩ := found
    cases value with
    | int m =>
      cases isInt
      rw [List.map_cons, ih restFound]
    | _ => cases isInt

theorem memberFilter?_cases {bin : String} {values : List Value} {filter : Filter}
    (found : memberFilter? bin values = some filter) :
    (∃ first rest, values = (first :: rest).map Value.int ∧
      filter = .between bin (least first rest) (greatest first rest)) ∨
      ∃ text, values = [.string text] ∧ filter = .equal bin (.string text) := by
  unfold memberFilter? at found
  split at found
  · next first rest numbers =>
    exact Or.inl ⟨first, rest, integers?_eq_some numbers, (Option.some.inj found).symm⟩
  · cases found
  · split at found
    · exact Or.inr ⟨_, rfl, (Option.some.inj found).symm⟩
    · cases found

theorem least_le {first : Int64} {rest : List Int64} {n : Int64} (mem : n ∈ first :: rest) :
    least first rest ≤ n := by
  unfold least
  induction rest generalizing first n with
  | nil => grind
  | cons second rest ih =>
    rw [List.foldl_cons]
    have below_head : ∀ m, List.foldl (fun low n => if n < low then n else low) m rest ≤ m :=
      fun m => ih List.mem_cons_self
    grind

theorem le_greatest {first : Int64} {rest : List Int64} {n : Int64} (mem : n ∈ first :: rest) :
    n ≤ greatest first rest := by
  unfold greatest
  induction rest generalizing first n with
  | nil => grind
  | cons second rest ih =>
    rw [List.foldl_cons]
    have above_head : ∀ m, m ≤ List.foldl (fun high n => if high < n then n else high) m rest :=
      fun m => ih List.mem_cons_self
    grind

end Predicate

namespace Limit

theorem admitsBelow_int_iff (m n : Int64) (inclusive : Bool) :
    (Limit.mk (.int m) inclusive).admitsBelow (.int n) = true ↔
      m < n ∨ (inclusive = true ∧ m = n) := by
  have ordered : Value.compare? (.int n) (.int m) = some (compare n m) := rfl
  simp only [admitsBelow, ordered]
  cases order : compare n m with
  | lt =>
    rw [Std.compare_eq_lt] at order
    grind
  | eq =>
    obtain rfl := Std.LawfulEqOrd.eq_of_compare order
    grind
  | gt =>
    rw [Std.compare_eq_gt] at order
    grind

theorem admitsAbove_int_iff (m n : Int64) (inclusive : Bool) :
    (Limit.mk (.int m) inclusive).admitsAbove (.int n) = true ↔
      n < m ∨ (inclusive = true ∧ m = n) := by
  have ordered : Value.compare? (.int n) (.int m) = some (compare n m) := rfl
  simp only [admitsAbove, ordered]
  cases order : compare n m with
  | lt =>
    rw [Std.compare_eq_lt] at order
    grind
  | eq =>
    obtain rfl := Std.LawfulEqOrd.eq_of_compare order
    grind
  | gt =>
    rw [Std.compare_eq_gt] at order
    grind

end Limit

namespace Predicate

theorem add_one_le_iff {m : Int64} (inside : m ≠ Int64.maxValue) (n : Int64) : m + 1 ≤ n ↔ m < n := by
  have below_max : m.toInt ≠ Int64.maxValue.toInt := fun same => inside (Int64.toInt_inj.1 same)
  have max_eq : Int64.maxValue.toInt = 2 ^ 63 - 1 := by decide
  have one_eq : (1 : Int64).toInt = 1 := by decide
  have below := m.toInt_lt
  have above := m.le_toInt
  rw [Int64.le_iff_toInt_le, Int64.lt_iff_toInt_lt, Int64.toInt_add, one_eq, Int.bmod_def]
  omega

theorem le_sub_one_iff {m : Int64} (inside : m ≠ Int64.minValue) (n : Int64) : n ≤ m - 1 ↔ n < m := by
  have above_min : m.toInt ≠ Int64.minValue.toInt := fun same => inside (Int64.toInt_inj.1 same)
  have min_eq : Int64.minValue.toInt = -2 ^ 63 := by decide
  have one_eq : (1 : Int64).toInt = 1 := by decide
  have below := m.toInt_lt
  have above := m.le_toInt
  rw [Int64.le_iff_toInt_le, Int64.lt_iff_toInt_lt, Int64.toInt_sub, one_eq, Int.bmod_def]
  omega

/-- The first integer of a lower limit bounds exactly the integers that the limit admits. -/
theorem firstInteger?_le_iff {limit : Option Limit} {first : Int64}
    (found : firstInteger? limit = some first) (n : Int64) :
    first ≤ n ↔ limit.all (fun limit => limit.admitsBelow (.int n)) = true := by
  unfold firstInteger? at found
  split at found
  · cases found
    exact iff_of_true (Int64.minValue_le n) rfl
  · cases found
    rw [Option.all_some, Limit.admitsBelow_int_iff]
    grind
  · next m =>
    rw [Option.all_some, Limit.admitsBelow_int_iff]
    rw [Option.ite_none_left_eq_some] at found
    obtain ⟨inside, same⟩ := found
    cases same
    rw [add_one_le_iff inside]
    simp
  · cases found

theorem le_lastInteger?_iff {limit : Option Limit} {last : Int64}
    (found : lastInteger? limit = some last) (n : Int64) :
    n ≤ last ↔ limit.all (fun limit => limit.admitsAbove (.int n)) = true := by
  unfold lastInteger? at found
  split at found
  · cases found
    exact iff_of_true (Int64.le_maxValue n) rfl
  · cases found
    rw [Option.all_some, Limit.admitsAbove_int_iff]
    grind
  · next m =>
    rw [Option.all_some, Limit.admitsAbove_int_iff]
    rw [Option.ite_none_left_eq_some] at found
    obtain ⟨inside, same⟩ := found
    cases same
    rw [le_sub_one_iff inside]
    simp
  · cases found

theorem int_of_firstInteger? {limit : Option Limit} {first : Int64}
    (found : firstInteger? limit = some first) : ∀ given ∈ limit, ∃ m, given.value = .int m := by
  intro given mem
  unfold firstInteger? at found
  split at found
  · cases mem
  · cases mem
    exact ⟨_, rfl⟩
  · cases mem
    exact ⟨_, rfl⟩
  · cases found

theorem int_of_lastInteger? {limit : Option Limit} {last : Int64}
    (found : lastInteger? limit = some last) : ∀ given ∈ limit, ∃ m, given.value = .int m := by
  intro given mem
  unfold lastInteger? at found
  split at found
  · cases mem
  · cases mem
    exact ⟨_, rfl⟩
  · cases mem
    exact ⟨_, rfl⟩
  · cases found

/-- A lower limit that is an integer has a first integer if it admits any. -/
theorem firstInteger?_of_admits {limit : Option Limit}
    (integer : ∀ given ∈ limit, ∃ m, given.value = .int m) {n : Int64}
    (admitted : limit.all (fun limit => limit.admitsBelow (.int n)) = true) :
    ∃ first, firstInteger? limit = some first := by
  cases limit with
  | none => exact ⟨_, rfl⟩
  | some given =>
    obtain ⟨value, inclusive⟩ := given
    obtain ⟨m, rfl⟩ : ∃ m, value = .int m := integer _ rfl
    cases inclusive with
    | true => exact ⟨_, rfl⟩
    | false =>
      rw [Option.all_some, Limit.admitsBelow_int_iff] at admitted
      have inside : m ≠ Int64.maxValue := by
        rintro rfl
        have below := Int64.le_maxValue n
        grind
      exact ⟨_, if_neg inside⟩

theorem lastInteger?_of_admits {limit : Option Limit}
    (integer : ∀ given ∈ limit, ∃ m, given.value = .int m) {n : Int64}
    (admitted : limit.all (fun limit => limit.admitsAbove (.int n)) = true) :
    ∃ last, lastInteger? limit = some last := by
  cases limit with
  | none => exact ⟨_, rfl⟩
  | some given =>
    obtain ⟨value, inclusive⟩ := given
    obtain ⟨m, rfl⟩ : ∃ m, value = .int m := integer _ rfl
    cases inclusive with
    | true => exact ⟨_, rfl⟩
    | false =>
      rw [Option.all_some, Limit.admitsAbove_int_iff] at admitted
      have inside : m ≠ Int64.minValue := by
        rintro rfl
        have above := Int64.minValue_le n
        grind
      exact ⟨_, if_neg inside⟩

/-- Only numbers are within a limit that is an integer, from below or from above. -/
theorem number_of_admits {limit : Limit} {actual : Value} {m : Int64} (integer : limit.value = .int m)
    (admitted : limit.admitsBelow actual = true ∨ limit.admitsAbove actual = true) :
    (∃ n, actual = .int n) ∨ ∃ x, actual = .float x := by
  unfold Limit.admitsBelow Limit.admitsAbove at admitted
  rw [integer] at admitted
  cases ordered : actual.compare? (.int m) with
  | none => simp [ordered] at admitted
  | some order =>
    obtain ⟨n, same, _⟩ | float := Value.number_of_compare?_int ordered
    · exact Or.inl ⟨n, same⟩
    · exact Or.inr float

end Predicate

end RecordQuery
