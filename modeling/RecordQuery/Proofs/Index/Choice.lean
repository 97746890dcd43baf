import Mathlib.Data.List.Nodup
import RecordQuery.Proofs.Fields.Order
import RecordQuery.Proofs.Index.Catalog

/-!
Which index a catalog chooses for a predicate. Its bins ascend, and so do the names of the indexes under
each bin, so the first usable index that the choice comes upon is the least of the usable ones in the
order of bins and then of names, and it comes upon none only if none is usable. Indexes with different
names are never tied, so the order in which they are listed has no part in the choice.
-/

namespace RecordQuery

/-- Stands no later than the other index in the order of bins and then of names. -/
def Index.NotAfter (index other : Index) : Prop :=
  index.bin < other.bin ∨ index.bin = other.bin ∧ index.name ≤ other.name

theorem Index.NotAfter.antisymm {index other : Index} (before : index.NotAfter other)
    (after : other.NotAfter index) : index.bin = other.bin ∧ index.name = other.name := by
  obtain below | ⟨same_bin, name_le⟩ := before
  · obtain above | ⟨same_bin, _⟩ := after
    · exact absurd above (String.lt_asymm below)
    · exact absurd below (same_bin ▸ String.lt_irrefl _)
  · obtain above | ⟨_, name_ge⟩ := after
    · exact absurd above (same_bin ▸ String.lt_irrefl _)
    · exact ⟨same_bin, String.le_antisymm name_le name_ge⟩

namespace Catalog

/-- Of the indexes one that can be asked the filter for the predicate's records of the table. -/
structure Usable (table : TableName) (indexes : List Index) (predicate : Predicate) (index : Index)
    (filter : Filter) : Prop where
  listed : index ∈ indexes
  covers : index.covers table = true
  compared : index.bin ∈ predicate.binNames
  narrows : predicate.filter? index.bin = some filter
  serves : index.type.serves filter = true

/-- Bins ascend, and so do the names of the indexes on each of them. -/
structure Sorted (byBin : Fields (List Index)) : Prop where
  bins : byBin.Ascending
  names : ∀ bin, (under byBin bin).Pairwise fun a b => a.name ≤ b.name

theorem pairwise_insertByName {added : Index} {indexes : List Index}
    (sorted : indexes.Pairwise fun a b => a.name ≤ b.name) :
    (insertByName added indexes).Pairwise fun a b => a.name ≤ b.name := by
  induction indexes with
  | nil => exact List.pairwise_singleton _ _
  | cons first rest ih =>
    obtain ⟨first_le, rest_sorted⟩ := List.pairwise_cons.1 sorted
    rw [insertByName]
    split
    · next before =>
      have added_le : added.name ≤ first.name := String.not_lt.1 (String.lt_asymm before)
      refine List.pairwise_cons.2 ⟨?_, sorted⟩
      intro index mem
      obtain rfl | mem := List.mem_cons.1 mem
      · exact added_le
      · exact String.le_trans added_le (first_le index mem)
    · next not_before =>
      refine List.pairwise_cons.2 ⟨?_, ih rest_sorted⟩
      intro index mem
      obtain rfl | mem := mem_insertByName.1 mem
      · exact String.not_lt.1 not_before
      · exact first_le index mem

theorem Sorted.insert {byBin : Fields (List Index)} (sorted : Sorted byBin) (added : Index) :
    Sorted (byBin.insert added.bin (insertByName added (under byBin added.bin))) where
  bins := sorted.bins.insert _ _
  names bin := by
    rw [under, Fields.get?_insert]
    split
    · exact pairwise_insertByName (sorted.names added.bin)
    · exact sorted.names bin

theorem sorted_ofIndexes (table : TableName) (indexes : List Index) :
    Sorted (ofIndexes table indexes).byBin := by
  rw [ofIndexes]
  refine List.foldlRecOn (motive := Sorted) _ _ ⟨List.Pairwise.nil, fun _ => List.Pairwise.nil⟩ ?_
  intro byBin sorted added _
  exact sorted.insert added

theorem ascending_bins (table : TableName) (indexes : List Index) :
    (ofIndexes table indexes).bins.Pairwise (· < ·) :=
  List.pairwise_map.2 (sorted_ofIndexes table indexes).bins

theorem mem_bins_of_mem_under {catalog : Catalog} {bin : String} {index : Index}
    (mem : index ∈ under catalog.byBin bin) : bin ∈ catalog.bins := by
  rw [bins, ← Fields.contains_iff_mem_names, Fields.contains, Option.isSome_iff_ne_none]
  intro missing
  rw [under, missing] at mem
  cases mem

theorem serving?_eq_find? (catalog : Catalog) (filter : Filter) :
    catalog.serving? filter =
      (under catalog.byBin filter.bin).find? fun index => index.type.serves filter := by
  rw [serving?, under]
  cases catalog.byBin.get? filter.bin <;> rfl

/-- Of the indexes on its bin that serve a filter, none has a name before that of the first one. -/
theorem name_le_of_serving? {catalog : Catalog} (sorted : Sorted catalog.byBin) {filter : Filter}
    {index other : Index} (found : catalog.serving? filter = some index)
    (there : other ∈ under catalog.byBin filter.bin) (serves : other.type.serves filter = true) :
    index.name ≤ other.name := by
  rw [serving?_eq_find?, List.find?_eq_some_iff_append] at found
  obtain ⟨_, earlier, later, listed, none_earlier⟩ := found
  have ascending := sorted.names filter.bin
  rw [listed, List.pairwise_append, List.pairwise_cons] at ascending
  rw [listed, List.mem_append, List.mem_cons] at there
  obtain mem | rfl | mem := there
  · have not_serves := none_earlier other mem
    rw [serves] at not_serves
    cases not_serves
  · exact String.le_refl _
  · exact ascending.2.1.1 other mem

/-- The choice on one bin. -/
def chooseOn? (catalog : Catalog) (predicate : Predicate) (bin : String) : Option (Index × Filter) :=
  (predicate.filter? bin).bind fun filter =>
    (catalog.serving? filter).map fun index => (index, filter)

theorem choose?_eq (catalog : Catalog) (predicate : Predicate) :
    catalog.choose? predicate =
      (catalog.bins.filter fun bin => predicate.binNames.contains bin).findSome?
        (catalog.chooseOn? predicate) := by
  rw [choose?_eq_findSome?]
  congr 1
  funext bin
  rw [chooseOn?]
  cases predicate.filter? bin with
  | none => rfl
  | some filter =>
    change (catalog.serving? filter).bind _ = (catalog.serving? filter).map _
    cases catalog.serving? filter <;> rfl

theorem bin_of_chooseOn? {catalog : Catalog} {predicate : Predicate} {bin : String} {index : Index}
    {filter : Filter} (found : catalog.chooseOn? predicate bin = some (index, filter)) :
    filter.bin = bin := by
  rw [chooseOn?, Option.bind_eq_some_iff] at found
  obtain ⟨_, narrows, served⟩ := found
  obtain ⟨_, _, same⟩ := Option.map_eq_some_iff.1 served
  cases same
  exact Predicate.bin_of_filter? narrows

section

variable {table : TableName} {indexes : List Index} {predicate : Predicate} {index : Index}
  {filter : Filter}

theorem usable_of_choose? (chosen : (ofIndexes table indexes).choose? predicate = some (index, filter)) :
    Usable table indexes predicate index filter := by
  obtain ⟨compared, narrows, mem, serves⟩ := choose?_eq_some chosen
  obtain ⟨listed, covers, same_bin⟩ := mem_under_ofIndexes.1 mem
  rw [← same_bin] at compared narrows
  exact ⟨listed, covers, compared, narrows, serves⟩

namespace Usable

theorem mem_under (usable : Usable table indexes predicate index filter) :
    index ∈ under (ofIndexes table indexes).byBin index.bin :=
  mem_under_ofIndexes.2 ⟨usable.listed, usable.covers, rfl⟩

/-- The bin of a usable index is among those that are gone through. -/
theorem mem_bins (usable : Usable table indexes predicate index filter) :
    index.bin ∈ (ofIndexes table indexes).bins.filter fun bin => predicate.binNames.contains bin :=
  List.mem_filter.2 ⟨mem_bins_of_mem_under usable.mem_under, List.contains_iff_mem.2 usable.compared⟩

/-- On the bin of a usable index something is found, with a name that is not after its own. -/
theorem first_on_bin (usable : Usable table indexes predicate index filter) :
    ∃ first, (ofIndexes table indexes).chooseOn? predicate index.bin = some (first, filter) ∧
      first.name ≤ index.name := by
  have there := usable.mem_under
  rw [← Predicate.bin_of_filter? usable.narrows] at there
  obtain ⟨first, found⟩ : ∃ first, (ofIndexes table indexes).serving? filter = some first := by
    rw [serving?_eq_find?, ← Option.isSome_iff_exists, List.find?_isSome]
    exact ⟨index, there, usable.serves⟩
  refine ⟨first, ?_, name_le_of_serving? (sorted_ofIndexes table indexes) found there usable.serves⟩
  rw [chooseOn?, usable.narrows, Option.bind_some, found, Option.map_some]

theorem perm {listed : List Index} (usable : Usable table indexes predicate index filter)
    (same : indexes.Perm listed) : Usable table listed predicate index filter :=
  { usable with listed := same.subset usable.listed }

end Usable

/-- Where there is a usable index one is chosen, which stands no later. -/
theorem choose?_of_usable (usable : Usable table indexes predicate index filter) :
    ∃ chosen filter', (ofIndexes table indexes).choose? predicate = some (chosen, filter') ∧
      chosen.NotAfter index := by
  obtain ⟨first, on_bin, name_le⟩ := usable.first_on_bin
  cases found : (ofIndexes table indexes).choose? predicate with
  | none =>
    rw [choose?_eq, List.findSome?_eq_none_iff] at found
    rw [found index.bin usable.mem_bins] at on_bin
    cases on_bin
  | some chosen =>
    obtain ⟨chosen, filter'⟩ := chosen
    refine ⟨chosen, filter', rfl, ?_⟩
    have chosen_bin : filter'.bin = chosen.bin :=
      Predicate.bin_of_filter? (usable_of_choose? found).narrows
    rw [choose?_eq, List.findSome?_eq_some_iff] at found
    obtain ⟨earlier, bin, later, listed, on_chosen, none_earlier⟩ := found
    obtain rfl : bin = chosen.bin := (bin_of_chooseOn? on_chosen).symm.trans chosen_bin
    have ascending := (ascending_bins table indexes).filter fun bin => predicate.binNames.contains bin
    have there := usable.mem_bins
    rw [listed, List.pairwise_append, List.pairwise_cons] at ascending
    rw [listed, List.mem_append, List.mem_cons] at there
    obtain mem | same_bin | mem := there
    · rw [none_earlier index.bin mem] at on_bin
      cases on_bin
    · rw [same_bin, on_chosen] at on_bin
      cases on_bin
      exact Or.inr ⟨same_bin.symm, name_le⟩
    · exact Or.inl (ascending.2.1.1 index.bin mem)

/-- Without two indexes of one name, the chosen index is the least usable one. -/
theorem choose?_eq_some_iff (named : (indexes.map Index.name).Nodup) :
    (ofIndexes table indexes).choose? predicate = some (index, filter) ↔
      Usable table indexes predicate index filter ∧
        ∀ other filter', Usable table indexes predicate other filter' → index.NotAfter other := by
  constructor
  · intro chosen
    refine ⟨usable_of_choose? chosen, ?_⟩
    intro other filter' usable
    obtain ⟨index', filter'', chosen', not_after⟩ := choose?_of_usable usable
    cases chosen.symm.trans chosen'
    exact not_after
  · rintro ⟨usable, least⟩
    obtain ⟨chosen, filter', found, not_after⟩ := choose?_of_usable usable
    have chosen_usable := usable_of_choose? found
    obtain ⟨_, same_name⟩ := not_after.antisymm (least chosen filter' chosen_usable)
    obtain rfl : chosen = index :=
      List.inj_on_of_nodup_map named chosen_usable.listed usable.listed same_name
    rw [found, Option.some.inj (chosen_usable.narrows.symm.trans usable.narrows)]

/-- The index that is chosen is the least of the usable ones in the order of bins and then of names;
there is none only if none is usable; and the same is chosen in whichever order the indexes are listed. -/
theorem least_usable_index_is_chosen (table : TableName) (predicate : Predicate)
    (named : (indexes.map Index.name).Nodup) :
    (∀ index filter, (ofIndexes table indexes).choose? predicate = some (index, filter) ↔
      Usable table indexes predicate index filter ∧
        ∀ other filter', Usable table indexes predicate other filter' → index.NotAfter other) ∧
    ((ofIndexes table indexes).choose? predicate = none ↔
      ¬∃ index filter, Usable table indexes predicate index filter) ∧
    ∀ listed, listed.Perm indexes →
      (ofIndexes table listed).choose? predicate = (ofIndexes table indexes).choose? predicate := by
  refine ⟨fun index filter => choose?_eq_some_iff named, ?_, ?_⟩
  · constructor
    · rintro nothing ⟨index, filter, usable⟩
      obtain ⟨_, _, chosen, _⟩ := choose?_of_usable usable
      cases nothing.symm.trans chosen
    · intro none_usable
      apply Option.eq_none_iff_forall_ne_some.2
      rintro ⟨index, filter⟩ chosen
      exact none_usable ⟨index, filter, usable_of_choose? chosen⟩
  · intro listed same
    have named' : (listed.map Index.name).Nodup := (same.map Index.name).nodup_iff.2 named
    apply Option.ext
    rintro ⟨index, filter⟩
    rw [choose?_eq_some_iff named, choose?_eq_some_iff named']
    constructor
    · rintro ⟨usable, least⟩
      exact ⟨usable.perm same, fun other filter' usable' => least other filter' (usable'.perm same.symm)⟩
    · rintro ⟨usable, least⟩
      exact ⟨usable.perm same.symm, fun other filter' usable' => least other filter' (usable'.perm same)⟩

/-- An index of texts does not serve a range and is passed over, though its name comes first; the index
that is chosen is found from either end of the list. -/
theorem numeric_index_on_age_is_chosen :
    let by_zip : Index := ⟨"a_zip", "test", none, "zip", .numeric⟩
    let by_text : Index := ⟨"b_age", "test", none, "age", .string⟩
    let by_age : Index := ⟨"c_age", "test", some "people", "age", .numeric⟩
    let indexes := [by_zip, ⟨"d_age", "test", none, "age", .numeric⟩, by_age, by_text]
    let people : TableName := ⟨"test", "people"⟩
    let predicate : Predicate := .and [.equals "zip" (.int 4711), .atLeast "age" (.int 18)]
    (indexes.map Index.name).Nodup ∧
      Usable people indexes predicate by_zip (.equal "zip" (.int 4711)) ∧ by_age.NotAfter by_zip ∧
      (ofIndexes people indexes).choose? predicate = some (by_age, .range "age" 18 Int64.maxValue) ∧
      (ofIndexes people indexes.reverse).choose? predicate =
        some (by_age, .range "age" 18 Int64.maxValue) := by
  intro by_zip by_text by_age indexes people predicate
  have named : (indexes.map Index.name).Nodup := by decide
  have usable : Usable people indexes predicate by_zip (.equal "zip" (.int 4711)) :=
    ⟨List.mem_cons_self, rfl, by decide, rfl, rfl⟩
  have usable_by_age : Usable people indexes predicate by_age (.range "age" 18 Int64.maxValue) :=
    ⟨by simp [indexes], rfl, by decide, rfl, rfl⟩
  have least : ∀ other filter, Usable people indexes predicate other filter → by_age.NotAfter other := by
    rintro other filter ⟨listed, _, _, narrows, serves⟩
    simp only [indexes, List.mem_cons, List.not_mem_nil, or_false] at listed
    obtain rfl | rfl | rfl | rfl := listed
    · exact Or.inl (by decide +kernel)
    · exact Or.inr ⟨rfl, by decide +kernel⟩
    · exact Or.inr ⟨rfl, String.le_refl _⟩
    · cases narrows
      cases serves
  obtain ⟨some_iff, _, same⟩ := least_usable_index_is_chosen people predicate named
  have chosen := (some_iff by_age _).2 ⟨usable_by_age, least⟩
  exact ⟨named, usable, least by_zip _ usable, chosen,
    (same indexes.reverse indexes.reverse_perm).trans chosen⟩

end

end Catalog

end RecordQuery
