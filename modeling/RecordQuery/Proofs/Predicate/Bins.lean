import RecordQuery.Proofs.Predicate.Narrowing

/-!
The bins of a predicate. Two recursions go through a predicate: one makes the filter on a bin and stops
at disjunctions and negated memberships, the other lists the bins and leaves out null checks and the
key. They agree in that every bin with a filter is listed, so to try the listed bins is to try all. The
list itself is read against the places of the comparisons, each the path from the root that leads there:
a bin is listed once if it is compared anywhere, and the first places of the listed bins ascend.
-/

namespace RecordQuery.Predicate

/-- What a connective connects; comparisons and null checks have no parts. -/
def parts : Predicate → List Predicate
  | .and parts => parts
  | .or parts => parts
  | _ => []

def comparedField? : Predicate → Option String
  | .equals field _ => some field
  | .notEquals field _ => some field
  | .range field _ _ => some field
  | .member field _ _ => some field
  | _ => none

/-- The part that a path leads to. At each connective the path says which of its parts is next. -/
def partAt? : Predicate → List Nat → Option Predicate
  | predicate, [] => some predicate
  | predicate, place :: path => predicate.parts[place]?.bind fun part => part.partAt? path

/-- The path leads to a comparison of the field. -/
def ComparesAt (predicate : Predicate) (path : List Nat) (field : String) : Prop :=
  (predicate.partAt? path).bind comparedField? = some field

/-- The predicate compares `name` at some place before all the places where it compares `later`. -/
def ComparesBefore (predicate : Predicate) (name later : String) : Prop :=
  ∃ path, predicate.ComparesAt path name ∧ ∀ path', predicate.ComparesAt path' later → path < path'

/-- On the way through the fields `name` is met, and up to there no `later`. -/
inductive MetBefore (name later : String) : List String → Prop
  | here (rest : List String) : MetBefore name later (name :: rest)
  | further {first : String} {rest : List String} (other : first ≠ later)
    (met : MetBefore name later rest) : MetBefore name later (first :: rest)

namespace MetBefore

variable {name later : String}

theorem mem {fields : List String} (met : MetBefore name later fields) : name ∈ fields := by
  induction met with
  | here => exact List.mem_cons_self
  | further _ _ ih => exact List.mem_cons_of_mem _ ih

theorem of_filter {keep : String → Bool} (kept : keep later = true) {fields : List String}
    (met : MetBefore name later (fields.filter keep)) : MetBefore name later fields := by
  induction fields with
  | nil => exact met
  | cons first rest ih =>
    by_cases first_kept : keep first = true
    · rw [List.filter_cons_of_pos first_kept] at met
      cases met with
      | here => exact .here rest
      | further other met => exact .further other (ih met)
    · rw [List.filter_cons_of_neg first_kept] at met
      have other : first ≠ later := by
        rintro rfl
        exact first_kept kept
      exact .further other (ih met)

theorem of_append {fields rest : List String} (met : MetBefore name later (fields ++ rest)) :
    MetBefore name later fields ∨ later ∉ fields ∧ MetBefore name later rest := by
  induction fields with
  | nil => exact Or.inr ⟨List.not_mem_nil, met⟩
  | cons first fields ih =>
    cases met with
    | here => exact Or.inl (.here fields)
    | further other met =>
      rcases ih met with met | ⟨missing, met⟩
      · exact Or.inl (.further other met)
      · exact Or.inr ⟨List.not_mem_cons_of_ne_of_not_mem other.symm missing, met⟩

theorem of_flatMap {α : Type} {fields : α → List String} {parts : List α}
    (met : MetBefore name later (parts.flatMap fields)) :
    ∃ earlier part rest, parts = earlier ++ part :: rest ∧ (∀ other ∈ earlier, later ∉ fields other) ∧
      MetBefore name later (fields part) := by
  induction parts with
  | nil => cases met
  | cons first rest ih =>
    rw [List.flatMap_cons] at met
    rcases met.of_append with met | ⟨missing, met⟩
    · exact ⟨[], first, rest, rfl, nofun, met⟩
    · obtain ⟨earlier, part, rest, rfl, none_earlier, met⟩ := ih met
      exact ⟨first :: earlier, part, rest, rfl, List.forall_mem_cons.2 ⟨missing, none_earlier⟩, met⟩

end MetBefore

theorem pairwise_eraseDups (fields : List String) :
    fields.eraseDups.Pairwise fun name later => name ≠ later ∧ MetBefore name later fields := by
  match fields with
  | [] => exact List.Pairwise.nil
  | first :: rest =>
    have other_of_mem : ∀ {later}, later ∈ (rest.filter fun field => !field == first).eraseDups →
        later ≠ first := by
      intro later mem
      simpa using (List.mem_filter.1 (List.mem_eraseDups.1 mem)).2
    rw [List.eraseDups_cons, List.pairwise_cons]
    constructor
    · intro later mem
      exact ⟨(other_of_mem mem).symm, .here rest⟩
    · refine (pairwise_eraseDups (rest.filter fun field => !field == first)).imp_of_mem ?_
      rintro name later _ mem ⟨apart, met⟩
      have other := other_of_mem mem
      exact ⟨apart, .further other.symm (met.of_filter (by simpa using other))⟩
termination_by fields.length
decreasing_by exact Nat.lt_succ_of_le (List.length_filter_le ..)

section Places

variable {predicate : Predicate}

/-- Induction over predicates that treats the connectives alike. -/
@[elab_as_elim]
theorem parts_induct {motive : Predicate → Prop}
    (step : ∀ predicate, (∀ part ∈ predicate.parts, motive part) → motive predicate)
    (predicate : Predicate) : motive predicate := by
  induction predicate with
  | and parts ih => exact step _ ih
  | or parts ih => exact step _ ih
  | _ => exact step _ nofun

theorem comparedFields_eq (predicate : Predicate) :
    predicate.comparedFields =
      predicate.comparedField?.toList ++ predicate.parts.flatMap comparedFields := by
  cases predicate with
  | and parts => rw [comparedFields, comparedFieldsIn_eq_flatMap]; rfl
  | or parts => rw [comparedFields, comparedFieldsIn_eq_flatMap]; rfl
  | _ => rfl

theorem comparesAt_nil {field : String} :
    predicate.ComparesAt [] field ↔ predicate.comparedField? = some field := Iff.rfl

theorem comparesAt_cons {place : Nat} {path : List Nat} {field : String} :
    predicate.ComparesAt (place :: path) field ↔
      ∃ part, predicate.parts[place]? = some part ∧ part.ComparesAt path field := by
  rw [ComparesAt, partAt?, Option.bind_assoc, Option.bind_eq_some_iff]
  rfl

theorem mem_comparedFields_iff {field : String} :
    field ∈ predicate.comparedFields ↔ ∃ path, predicate.ComparesAt path field := by
  induction predicate using parts_induct with
  | step predicate ih =>
    rw [comparedFields_eq, List.mem_append, Option.mem_toList, List.mem_flatMap]
    constructor
    · rintro (here | ⟨part, mem, compared⟩)
      · exact ⟨[], comparesAt_nil.2 here⟩
      · obtain ⟨path, compared⟩ := (ih part mem).1 compared
        obtain ⟨place, there⟩ := List.mem_iff_getElem?.1 mem
        exact ⟨place :: path, comparesAt_cons.2 ⟨part, there, compared⟩⟩
    · rintro ⟨path, compared⟩
      cases path with
      | nil => exact Or.inl (comparesAt_nil.1 compared)
      | cons place path =>
        obtain ⟨part, there, compared⟩ := comparesAt_cons.1 compared
        have mem := List.mem_of_getElem? there
        exact Or.inr ⟨part, mem, (ih part mem).2 ⟨path, compared⟩⟩

section

variable {name later : String}

theorem comparesBefore_of_root (apart : name ≠ later) (here : predicate.comparedField? = some name) :
    predicate.ComparesBefore name later := by
  refine ⟨[], comparesAt_nil.2 here, ?_⟩
  intro path compared
  cases path with
  | nil =>
    rw [comparesAt_nil, here] at compared
    exact absurd (Option.some.inj compared) apart
  | cons place path => exact List.nil_lt_cons place path

/-- The order within one part is that of the whole, if `later` is compared nowhere before that part. -/
theorem comparesBefore_of_part {earlier rest : List Predicate} {part : Predicate}
    (listed : predicate.parts = earlier ++ part :: rest)
    (not_here : predicate.comparedField? ≠ some later)
    (none_earlier : ∀ other ∈ earlier, later ∉ other.comparedFields)
    (before : part.ComparesBefore name later) : predicate.ComparesBefore name later := by
  obtain ⟨path, compared, first⟩ := before
  refine ⟨earlier.length :: path, comparesAt_cons.2 ⟨part, by simp [listed], compared⟩, ?_⟩
  intro path' compared'
  cases path' with
  | nil => exact absurd (comparesAt_nil.1 compared') not_here
  | cons place path' =>
    obtain ⟨other, there, compared'⟩ := comparesAt_cons.1 compared'
    rw [listed] at there
    rw [List.cons_lt_cons_iff]
    rcases Nat.lt_trichotomy earlier.length place with after | rfl | before
    · exact Or.inl after
    · obtain rfl : part = other := by simpa using there
      exact Or.inr ⟨rfl, first path' compared'⟩
    · rw [List.getElem?_append_left before] at there
      have missing := none_earlier other (List.mem_of_getElem? there)
      exact absurd (mem_comparedFields_iff.2 ⟨path', compared'⟩) missing

/-- The order in which fields are met is that of the first places where they are compared. -/
theorem comparesBefore_of_met (apart : name ≠ later)
    (met : MetBefore name later predicate.comparedFields) : predicate.ComparesBefore name later := by
  induction predicate using parts_induct with
  | step predicate ih =>
    rw [comparedFields_eq] at met
    rcases met.of_append with met | ⟨not_here, met⟩
    · exact comparesBefore_of_root apart (Option.mem_toList.1 met.mem)
    · obtain ⟨earlier, part, rest, listed, none_earlier, met⟩ := met.of_flatMap
      have before := ih part (by simp [listed]) met
      exact comparesBefore_of_part listed (not_here ∘ Option.mem_toList.2) none_earlier before

end

end Places

theorem nodup_binNames (predicate : Predicate) : predicate.binNames.Nodup :=
  (pairwise_eraseDups _).imp And.left

theorem mem_binNames_iff_comparesAt {predicate : Predicate} {name : String} :
    name ∈ predicate.binNames ↔ name ≠ keyField ∧ ∃ path, predicate.ComparesAt path name := by
  rw [mem_binNames_iff, mem_comparedFields_iff, and_comm]

theorem pairwise_binNames (predicate : Predicate) :
    predicate.binNames.Pairwise predicate.ComparesBefore := by
  refine (pairwise_eraseDups _).imp_of_mem ?_
  rintro name later _ mem ⟨apart, met⟩
  apply comparesBefore_of_met apart
  apply MetBefore.of_filter _ met
  exact (List.mem_filter.1 (List.mem_eraseDups.1 mem)).2

section Filters

variable {predicate : Predicate} {bin : String} {filter : Filter}

/-- The two recursions meet: what is narrowed by is compared. -/
theorem mem_comparedFields_of_narrow? (found : predicate.narrow? bin = some filter) :
    bin ∈ predicate.comparedFields := by
  refine narrow?_induct ?equals ?range ?member ?and found
  case equals => exact fun _ _ _ => List.mem_singleton_self bin
  case range => exact fun _ _ _ _ => List.mem_singleton_self bin
  case member => exact fun _ _ _ => List.mem_singleton_self bin
  case and =>
    intro parts filters filter found parts_compare
    obtain ⟨narrowed, mem⟩ : ∃ narrowed, narrowed ∈ filters := by
      apply List.exists_mem_of_ne_nil
      rintro rfl
      cases found
    obtain ⟨part, part_mem, compared⟩ := parts_compare narrowed mem
    rw [comparedFields, comparedFieldsIn_eq_flatMap]
    exact List.mem_flatMap.2 ⟨part, part_mem, compared⟩

theorem mem_binNames_of_filter? (found : predicate.filter? bin = some filter) :
    bin ∈ predicate.binNames := by
  obtain ⟨no_key, found⟩ := filter?_eq_some_iff.1 found
  exact mem_binNames_iff.2 ⟨mem_comparedFields_of_narrow? found, no_key⟩

/-- Filters are for an integer, for a text, or for more than one integer. -/
theorem form_of_narrow? (found : predicate.narrow? bin = some filter) :
    (∃ n, filter = .equal bin (.int n)) ∨ (∃ text, filter = .equal bin (.string text)) ∨
      ∃ first last, filter = .range bin first last ∧ first < last := by
  obtain rfl := bin_of_narrow? found
  match filter, answerable_of_narrow? found, collapsed_of_narrow? found with
  | .equal _ (.int n), _, _ => exact Or.inl ⟨n, rfl⟩
  | .equal _ (.string text), _, _ => exact Or.inr (Or.inl ⟨text, rfl⟩)
  | .range _ first last, _, apart => exact Or.inr (Or.inr ⟨first, last, rfl, apart⟩)

theorem isIndexable_iff :
    predicate.isIndexable = true ↔ ∃ bin filter, predicate.filter? bin = some filter := by
  simp only [isIndexable, List.any_eq_true, Option.isSome_iff_exists]
  constructor
  · rintro ⟨bin, _, filter, found⟩
    exact ⟨bin, filter, found⟩
  · rintro ⟨bin, filter, found⟩
    exact ⟨bin, mem_binNames_of_filter? found, filter, found⟩

end Filters

/-- A filter is on a bin that the predicate compares, never on the key, and is for an integer, a text or
more than one integer; a predicate that is not indexable has no filter on any bin at all. The bins are
listed without repetition, are those that some comparison compares, and come in the order of the first
places where they are compared. -/
theorem filters_on_listed_bins_only (predicate : Predicate) :
    (∀ bin filter, predicate.filter? bin = some filter →
      bin ∈ predicate.binNames ∧ bin ≠ keyField ∧ filter.bin = bin ∧
        ((∃ n, filter = .equal bin (.int n)) ∨ (∃ text, filter = .equal bin (.string text)) ∨
          ∃ first last, filter = .range bin first last ∧ first < last)) ∧
    (predicate.isIndexable = false ↔ ∀ bin, predicate.filter? bin = none) ∧
    predicate.binNames.Nodup ∧
    (∀ name, name ∈ predicate.binNames ↔
      name ≠ keyField ∧ ∃ path, predicate.ComparesAt path name) ∧
    predicate.binNames.Pairwise predicate.ComparesBefore := by
  refine ⟨?found, ?not_indexable, nodup_binNames predicate, fun _ => mem_binNames_iff_comparesAt,
    pairwise_binNames predicate⟩
  case found =>
    intro bin filter found
    obtain ⟨no_key, narrowed⟩ := filter?_eq_some_iff.1 found
    exact ⟨mem_binNames_of_filter? found, no_key, bin_of_narrow? narrowed, form_of_narrow? narrowed⟩
  case not_indexable =>
    rw [← Bool.not_eq_true, isIndexable_iff]
    simp only [not_exists, Option.eq_none_iff_forall_ne_some, ne_eq]

/-- The city is listed first, since it is compared first, and neither the null check nor the key adds to
the list; of the bins listed the age has a filter, and the disjunction alone has none on any bin. -/
theorem ages_filtered_and_city_listed_first :
    let either : Predicate := .or [.equals "city" (.string "Ulm"), .isNull "email"]
    let predicate : Predicate :=
      .and [either, .equals keyField (.int 1),
        .and [.atLeast "age" (.int 18), .lessThan "age" (.int 65)], .notEquals "city" (.string "Bonn")]
    predicate.filter? "age" = some (.range "age" 18 64) ∧ "age" ∈ predicate.binNames ∧
      predicate.binNames = ["city", "age"] ∧ predicate.ComparesBefore "city" "age" ∧
      either.isIndexable = false ∧ ∀ bin, either.filter? bin = none := by
  intro either predicate
  have narrowed : predicate.filter? "age" = some (.range "age" 18 64) := rfl
  have listed : predicate.binNames = ["city", "age"] := by decide +kernel
  have not_indexable : either.isIndexable = false := by decide +kernel
  obtain ⟨found, _, _, _, ordered⟩ := filters_on_listed_bins_only predicate
  obtain ⟨_, nothing, _⟩ := filters_on_listed_bins_only either
  obtain ⟨mem, _⟩ := found "age" _ narrowed
  rw [listed, List.pairwise_pair] at ordered
  exact ⟨narrowed, mem, listed, ordered, not_indexable, nothing.1 not_indexable⟩

end RecordQuery.Predicate
