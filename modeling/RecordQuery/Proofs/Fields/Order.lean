import Mathlib.Data.List.Induction
import RecordQuery.Fields

/-!
Fields in ascending order of their names. This is the form in which a map stands: insertion keeps it, so
whatever is built from pairs has it, and two lists of that form which look up alike are the same. Pairs
with different names are looked up as they are given, so in any order they build the one map they belong
to.
-/

namespace RecordQuery.Fields

variable {α β : Type} {fields other : Fields α} {name : String} {value : α}

/-- The names ascend, so that each stands once. -/
def Ascending (fields : Fields α) : Prop := fields.Pairwise fun a b => a.1 < b.1

instance (fields : Fields α) : Decidable fields.Ascending :=
  inferInstanceAs (Decidable (List.Pairwise _ fields))

theorem Ascending.names_ne (ascending : fields.Ascending) : (fields.map Prod.fst).Nodup := by
  rw [List.Nodup, List.pairwise_map]
  refine ascending.imp ?_
  intro a b before same
  exact String.lt_irrefl _ (same ▸ before)

theorem Ascending.mapValues (ascending : fields.Ascending) (change : α → β) :
    (fields.mapValues change).Ascending :=
  List.pairwise_map.2 ascending

theorem mem_insert {pair : String × α} (mem : pair ∈ Fields.insert fields name value) :
    pair = (name, value) ∨ pair ∈ fields := by
  induction fields with
  | nil => exact Or.inl (List.mem_singleton.1 mem)
  | cons head rest ih =>
    unfold Fields.insert at mem
    split at mem
    · exact List.mem_cons.1 mem
    · split at mem
      · rcases List.mem_cons.1 mem with here | later
        · exact Or.inl here
        · exact Or.inr (List.mem_cons_of_mem _ later)
      · rcases List.mem_cons.1 mem with rfl | later
        · exact Or.inr List.mem_cons_self
        · exact (ih later).imp id (List.mem_cons_of_mem _)

theorem Ascending.insert (ascending : fields.Ascending) (name : String) (value : α) :
    (Fields.insert fields name value).Ascending := by
  induction fields with
  | nil => exact List.pairwise_singleton _ _
  | cons head rest ih =>
    obtain ⟨key, old⟩ := head
    obtain ⟨before, later_ascending⟩ := List.pairwise_cons.1 ascending
    unfold Fields.insert
    split
    · next first =>
      refine List.pairwise_cons.2 ⟨?_, ascending⟩
      intro pair mem
      rcases List.mem_cons.1 mem with rfl | later
      · exact first
      · exact String.lt_trans first (before pair later)
    · next not_first =>
      split
      · next same =>
        subst same
        exact List.pairwise_cons.2 ⟨before, later_ascending⟩
      · next different =>
        refine List.pairwise_cons.2 ⟨?_, ih later_ascending⟩
        intro pair mem
        rcases mem_insert mem with rfl | later
        · apply String.not_le.1
          intro below
          exact different (String.le_antisymm below (String.not_lt.1 not_first))
        · exact before pair later

theorem ofPairs_concat (pairs : List (String × α)) (pair : String × α) :
    ofPairs (pairs ++ [pair]) = Fields.insert (ofPairs pairs) pair.1 pair.2 := by
  simp [ofPairs]

/-- The fields that pairs build are among the pairs. -/
theorem mem_of_mem_ofPairs {pairs : List (String × α)} {pair : String × α}
    (mem : pair ∈ ofPairs pairs) : pair ∈ pairs := by
  induction pairs using List.reverseRecOn with
  | nil => cases mem
  | append_singleton pairs last ih =>
    rw [ofPairs_concat] at mem
    obtain rfl | earlier := mem_insert mem
    · exact List.mem_concat_self
    · exact List.mem_append_left _ (ih earlier)

theorem ascending_ofPairs (pairs : List (String × α)) : (ofPairs pairs).Ascending := by
  induction pairs using List.reverseRecOn with
  | nil => exact List.Pairwise.nil
  | append_singleton pairs pair ih =>
    rw [ofPairs_concat]
    exact ih.insert pair.1 pair.2

theorem contains_iff_mem_names : fields.contains name = true ↔ name ∈ fields.names := by
  induction fields with
  | nil => exact iff_of_false Bool.false_ne_true List.not_mem_nil
  | cons head rest ih =>
    obtain ⟨key, value⟩ := head
    rw [contains, get?_cons, names, List.map_cons, List.mem_cons]
    by_cases here : key = name
    · simp [here]
    · rw [if_neg here, or_iff_right (Ne.symm here)]
      exact ih

theorem mem_names_insert (fields : Fields α) (name : String) (value : α) (other : String) :
    other ∈ (Fields.insert fields name value).names ↔ other = name ∨ other ∈ fields.names := by
  rw [← contains_iff_mem_names, ← contains_iff_mem_names, contains, get?_insert, contains]
  by_cases here : name = other
  · simp [here]
  · simp [here, eq_comm (a := other)]

/-- Fields with different names are looked up as they are listed. -/
theorem mem_of_get? (found : fields.get? name = some value) : (name, value) ∈ fields := by
  induction fields with
  | nil => cases found
  | cons head rest ih =>
    obtain ⟨key, first⟩ := head
    rw [get?_cons] at found
    split at found
    · next here =>
      cases found
      exact here ▸ List.mem_cons_self
    · exact List.mem_cons_of_mem _ (ih found)

theorem get?_eq_some_iff (different : (fields.map Prod.fst).Nodup) :
    fields.get? name = some value ↔ (name, value) ∈ fields := by
  induction fields with
  | nil => simp
  | cons head rest ih =>
    obtain ⟨key, first⟩ := head
    obtain ⟨not_later, different⟩ := List.nodup_cons.1 different
    rw [get?_cons, List.mem_cons, Prod.mk.injEq]
    by_cases here : key = name
    · subst here
      have gone : (key, value) ∉ rest := fun mem => not_later (List.mem_map.2 ⟨_, mem, rfl⟩)
      simp [gone, eq_comm]
    · simp [here, ih different, eq_comm (a := name)]

theorem Ascending.merge (ascending : fields.Ascending) (newer : Fields α) :
    (Fields.merge fields newer).Ascending := by
  induction newer generalizing fields with
  | nil => exact ascending
  | cons head rest ih => exact ih (ascending.insert head.1 head.2)

/-- Of fields that are merged the newer ones count. -/
theorem get?_merge (fields : Fields α) {newer : Fields α} (different : (newer.map Prod.fst).Nodup)
    (name : String) : (Fields.merge fields newer).get? name = (newer.get? name).or (fields.get? name) := by
  induction newer generalizing fields with
  | nil => rfl
  | cons head rest ih =>
    obtain ⟨key, first⟩ := head
    obtain ⟨not_later, different⟩ := List.nodup_cons.1 different
    have step : Fields.merge fields ((key, first) :: rest) =
        Fields.merge (Fields.insert fields key first) rest := rfl
    rw [step, ih _ different, get?_insert, get?_cons]
    by_cases here : key = name
    · subst here
      have gone : Fields.get? rest key = none := Option.eq_none_iff_forall_ne_some.2 fun value given =>
        not_later (List.mem_map.2 ⟨_, (get?_eq_some_iff different).1 given, rfl⟩)
      rw [if_pos rfl, if_pos rfl, gone, Option.none_or, Option.some_or]
    · rw [if_neg here, if_neg here]

/-- A pair is looked up in what pairs with different names build. -/
theorem get?_ofPairs (pairs : List (String × α)) (different : (pairs.map Prod.fst).Nodup) :
    (ofPairs pairs).get? name = some value ↔ (name, value) ∈ pairs := by
  induction pairs using List.reverseRecOn with
  | nil => simp [ofPairs]
  | append_singleton pairs pair ih =>
    obtain ⟨key, last⟩ := pair
    rw [List.map_append, List.nodup_append] at different
    obtain ⟨different, -, apart⟩ := different
    rw [ofPairs_concat, get?_insert, List.mem_append, List.mem_singleton, Prod.mk.injEq]
    by_cases here : key = name
    · subst here
      have gone : (key, value) ∉ pairs := fun mem =>
        apart key (List.mem_map.2 ⟨_, mem, rfl⟩) key List.mem_cons_self rfl
      simp [gone, eq_comm]
    · simp [here, ih different, eq_comm (a := name)]

/-- The names of what pairs build are theirs. -/
theorem mem_names_ofPairs (pairs : List (String × α)) :
    name ∈ (ofPairs pairs).names ↔ name ∈ pairs.map Prod.fst := by
  induction pairs using List.reverseRecOn with
  | nil => rfl
  | append_singleton pairs pair ih =>
    rw [ofPairs_concat, mem_names_insert, ih, List.map_append, List.mem_append, or_comm]
    exact or_congr_right List.mem_singleton.symm

/-- Pairs that give a name always the same value build a map that gives it this value. -/
theorem get?_ofPairs_map {names : List String} (value : String → α) (listed : name ∈ names) :
    (ofPairs (names.map fun name => (name, value name))).get? name = some (value name) := by
  induction names using List.reverseRecOn with
  | nil => cases listed
  | append_singleton names last ih =>
    rw [List.map_append, List.map_cons, List.map_nil, ofPairs_concat, get?_insert]
    by_cases here : last = name
    · rw [if_pos here, here]
    · rw [if_neg here]
      rw [List.mem_append] at listed
      exact ih (listed.resolve_right fun is_last => here (List.mem_singleton.1 is_last).symm)

/-- Ascending fields are determined by what stands in them. -/
theorem Ascending.eq_of_mem_iff (ascending : fields.Ascending) (ascending' : other.Ascending)
    (same : ∀ pair, pair ∈ fields ↔ pair ∈ other) : fields = other := by
  have nodup {fields : Fields α} (ascending : fields.Ascending) : fields.Nodup := by
    refine ascending.imp ?_
    rintro pair _ before rfl
    exact String.lt_irrefl _ before
  have perm : fields.Perm other :=
    (List.perm_ext_iff_of_nodup (nodup ascending) (nodup ascending')).2 same
  refine perm.eq_of_pairwise ?_ ascending ascending'
  intro a b _ _ before after
  exact absurd before (String.lt_asymm after)

/-- A map is built from its pairs, in whichever order they come. -/
theorem Ascending.ofPairs_eq (ascending : fields.Ascending) {pairs : List (String × α)}
    (perm : pairs.Perm fields) : ofPairs pairs = fields := by
  have different : (pairs.map Prod.fst).Nodup :=
    (perm.map Prod.fst).nodup_iff.2 ascending.names_ne
  refine (ascending_ofPairs pairs).eq_of_mem_iff ascending ?_
  rintro ⟨name, value⟩
  rw [← get?_eq_some_iff (ascending_ofPairs pairs).names_ne, get?_ofPairs pairs different]
  exact perm.mem_iff

end RecordQuery.Fields
