import RecordQuery.Index.Catalog
import RecordQuery.Proofs.Predicate.Narrowing

/-!
What a catalog holds and what it chooses. Under each bin stand exactly the indexes on that bin that
cover the table, and an index that is chosen for a predicate is one of them, on the bin of the filter
that it is asked.
-/

namespace RecordQuery.Catalog

theorem mem_insertByName {added index : Index} {indexes : List Index} :
    index ∈ insertByName added indexes ↔ index = added ∨ index ∈ indexes := by
  induction indexes with
  | nil => rw [insertByName, List.mem_singleton, or_iff_left List.not_mem_nil]
  | cons first rest ih =>
    rw [insertByName]
    split
    · rw [List.mem_cons]
    · rw [List.mem_cons, ih, List.mem_cons, or_left_comm]

/-- The indexes under a bin, none where there is no such bin. -/
def under (byBin : Fields (List Index)) (bin : String) : List Index := (byBin.get? bin).getD []

theorem mem_under_insert {byBin : Fields (List Index)} {added index : Index} {bin : String} :
    index ∈ under (byBin.insert added.bin (insertByName added (under byBin added.bin))) bin ↔
      (index = added ∧ index.bin = bin) ∨ index ∈ under byBin bin := by
  rw [under, Fields.get?_insert]
  split
  · next here =>
    subst here
    rw [Option.getD_some, mem_insertByName]
    refine or_congr_left ⟨?_, And.left⟩
    rintro rfl
    exact ⟨rfl, rfl⟩
  · next elsewhere =>
    rw [← under, or_iff_right]
    rintro ⟨rfl, here⟩
    exact elsewhere here

theorem mem_under_foldl {added : List Index} {byBin : Fields (List Index)} {index : Index}
    {bin : String} :
    index ∈ under (added.foldl
        (fun byBin index => byBin.insert index.bin (insertByName index (under byBin index.bin))) byBin)
        bin ↔
      (index ∈ added ∧ index.bin = bin) ∨ index ∈ under byBin bin := by
  induction added generalizing byBin with
  | nil => simp
  | cons first rest ih =>
    rw [List.foldl_cons, ih, mem_under_insert, List.mem_cons, or_and_right, or_assoc, or_left_comm]

theorem mem_under_ofIndexes {table : TableName} {indexes : List Index} {index : Index}
    {bin : String} :
    index ∈ under (ofIndexes table indexes).byBin bin ↔
      index ∈ indexes ∧ index.covers table = true ∧ index.bin = bin := by
  have none_before : index ∉ under [] bin := List.not_mem_nil
  refine mem_under_foldl.trans ?_
  rw [or_iff_left none_before, List.mem_filter, and_assoc]

theorem serving?_eq_some {catalog : Catalog} {filter : Filter} {index : Index}
    (found : catalog.serving? filter = some index) :
    index ∈ under catalog.byBin filter.bin ∧ index.type.serves filter = true := by
  rw [serving?, Option.bind_eq_some_iff] at found
  obtain ⟨indexes, here, found⟩ := found
  have serves := List.find?_some found
  rw [under, here]
  exact ⟨List.mem_of_find?_eq_some found, serves⟩

/-- A predicate without filters has none on the bins that are looked at: to turn it away at once takes
nothing from the choice. -/
theorem choose?_eq_findSome? (catalog : Catalog) (predicate : Predicate) :
    catalog.choose? predicate =
      (catalog.bins.filter fun bin => predicate.binNames.contains bin).findSome? fun bin =>
        (predicate.filter? bin).bind fun filter =>
          (catalog.serving? filter).bind fun index => some (index, filter) := by
  rw [choose?]
  split
  · next not_indexable =>
    rw [Bool.not_eq_true', Predicate.isIndexable, List.any_eq_false] at not_indexable
    symm
    rw [List.findSome?_eq_none_iff]
    intro bin mem
    have compared := List.contains_iff_mem.1 (List.mem_filter.1 mem).2
    rw [Option.not_isSome_iff_eq_none.1 (not_indexable bin compared), Option.bind_none]
  · rfl

/-- A chosen index is on a bin that the predicate compares and narrows, and serves the filter. -/
theorem choose?_eq_some {catalog : Catalog} {predicate : Predicate} {index : Index} {filter : Filter}
    (chosen : catalog.choose? predicate = some (index, filter)) :
    filter.bin ∈ predicate.binNames ∧ predicate.filter? filter.bin = some filter ∧
      index ∈ under catalog.byBin filter.bin ∧ index.type.serves filter = true := by
  rw [choose?_eq_findSome?] at chosen
  obtain ⟨bin, bin_mem, found⟩ := List.exists_of_findSome?_eq_some chosen
  rw [List.mem_filter, List.contains_iff_mem] at bin_mem
  simp only [Option.bind_eq_some_iff, Option.some.injEq, Prod.mk.injEq] at found
  obtain ⟨filter, narrowed, index, serving, rfl, rfl⟩ := found
  obtain rfl := Predicate.bin_of_filter? narrowed
  obtain ⟨mem, serves⟩ := serving?_eq_some serving
  exact ⟨bin_mem.2, narrowed, mem, serves⟩

end RecordQuery.Catalog
