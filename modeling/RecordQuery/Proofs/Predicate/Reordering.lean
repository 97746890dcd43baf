import RecordQuery.Proofs.Filter.Intersection
import RecordQuery.Proofs.Index.Choice

/-!
Conjunctions whose parts are listed in another order, or some of them more than once. The filter on a bin
is made by intersecting the filters of the parts from left to right, and an empty intersection ends the
matter at once; still only the set of the parts counts, for the filter as well as for the index that a
catalog chooses.
-/

namespace RecordQuery.Predicate

theorem mem_narrowings_iff {bin : String} {parts : List Predicate} {filter : Filter} :
    filter ∈ narrowings bin parts ↔ ∃ part ∈ parts, part.narrow? bin = some filter := by
  rw [narrowings_eq_filterMap, List.mem_filterMap]

theorem mem_binNames_and_iff {parts : List Predicate} {name : String} :
    name ∈ (and parts).binNames ↔ (∃ part ∈ parts, name ∈ part.comparedFields) ∧ name ≠ keyField := by
  rw [mem_binNames_iff, comparedFields, comparedFieldsIn_eq_flatMap, List.mem_flatMap]

section

variable {parts listed : List Predicate} (same : ∀ part, part ∈ parts ↔ part ∈ listed)

include same

theorem narrow?_and_congr (bin : String) : (and parts).narrow? bin = (and listed).narrow? bin := by
  rw [narrow?, narrow?]
  apply @Filter.intersectAll?_congr _ _ bin
  case same =>
    intro filter
    simp only [mem_narrowings_iff, same]
  all_goals
    intro filter mem
    obtain ⟨part, _, narrowed⟩ := mem_narrowings_iff.1 mem
  case answerable => exact answerable_of_narrow? narrowed
  case collapsed => exact collapsed_of_narrow? narrowed
  case on_bin => exact bin_of_narrow? narrowed

theorem filter?_and_congr (bin : String) : (and parts).filter? bin = (and listed).filter? bin := by
  rw [filter?, filter?, narrow?_and_congr same]

theorem mem_binNames_congr (name : String) :
    name ∈ (and parts).binNames ↔ name ∈ (and listed).binNames := by
  simp only [mem_binNames_and_iff, same]

theorem choose?_and_congr (catalog : Catalog) :
    catalog.choose? (and parts) = catalog.choose? (and listed) := by
  have on_bin : catalog.chooseOn? (and parts) = catalog.chooseOn? (and listed) := by
    funext bin
    rw [Catalog.chooseOn?, Catalog.chooseOn?, filter?_and_congr same]
  rw [Catalog.choose?_eq, Catalog.choose?_eq, on_bin]
  congr 1
  refine List.filter_congr fun bin _ => ?_
  rw [Bool.eq_iff_iff, List.contains_iff_mem, List.contains_iff_mem, mem_binNames_congr same]

/-- Conjunctions of the same parts have the same filter on every bin and the same index of every catalog. -/
theorem listing_of_parts_is_irrelevant :
    (∀ bin, (and parts).filter? bin = (and listed).filter? bin) ∧
      (and parts).isIndexable = (and listed).isIndexable ∧
      ∀ catalog : Catalog, catalog.choose? (and parts) = catalog.choose? (and listed) := by
  refine ⟨filter?_and_congr same, ?_, choose?_and_congr same⟩
  rw [Bool.eq_iff_iff, isIndexable, isIndexable, List.any_eq_true, List.any_eq_true]
  simp only [mem_binNames_congr same, filter?_and_congr same]

end

/-- Turned round and with one part twice, a conjunction on two bins is narrowed to the same ages. -/
theorem ages_and_names_in_either_order :
    let adult : Predicate := .atLeast "age" (.int 18)
    let young : Predicate := .lessThan "age" (.int 65)
    let ada : Predicate := .equals "name" (.string "Ada")
    let parts := [adult, ada, young]
    let listed := [young, adult, young, ada]
    let indexes : List Index :=
      [⟨"by_name", "test", none, "name", .string⟩, ⟨"by_age", "test", none, "age", .numeric⟩]
    let catalog := Catalog.ofIndexes ⟨"test", "people"⟩ indexes
    (∀ part, part ∈ parts ↔ part ∈ listed) ∧
      (and listed).filter? "age" = some (.range "age" 18 64) ∧
      (and listed).filter? "name" = some (.equal "name" (.string "Ada")) ∧
      catalog.choose? (and listed) =
        some (⟨"by_age", "test", none, "age", .numeric⟩, .range "age" 18 64) := by
  intro adult young ada parts listed indexes catalog
  have same : ∀ part, part ∈ parts ↔ part ∈ listed := by
    intro part
    simp only [parts, listed, List.mem_cons, List.not_mem_nil, or_false]
    grind
  obtain ⟨filter_eq, _, choose_eq⟩ := listing_of_parts_is_irrelevant same
  have narrowed : (and parts).filter? "age" = some (.range "age" 18 64) := rfl
  have narrowed_name : (and parts).filter? "name" = some (.equal "name" (.string "Ada")) := rfl
  have chosen : catalog.choose? (and parts) =
      some (⟨"by_age", "test", none, "age", .numeric⟩, .range "age" 18 64) := rfl
  exact ⟨same, (filter_eq "age").symm.trans narrowed, (filter_eq "name").symm.trans narrowed_name,
    (choose_eq catalog).symm.trans chosen⟩

end RecordQuery.Predicate
