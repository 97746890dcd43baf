import RecordQuery.Proofs.Store.Reached

/-!
Listings of a table: the records that satisfy a condition, each once, in ascending order of partition
and then of digest. A condition has only one listing. What a store selects is the beginning of one, as
far as the limit goes; and the records from a partition on are the end of one.
-/

namespace RecordQuery

/-- In the order of slots the partition comes first. -/
theorem Slot.partition_le_of_lt {a b : Slot} (before : Slot.order a b = .lt) : a.1 ≤ b.1 := by
  rw [order, compareLex, compareOn, Ordering.then_eq_lt] at before
  obtain less | ⟨same, _⟩ := before
  · exact UInt16.le_of_lt (Std.compare_eq_lt.1 less)
  · rw [Std.LawfulEqOrd.eq_of_compare same]
    exact UInt16.le_refl _

namespace StoredRecord

/-- Stands before the other record in the order of partition and digest. -/
def Precedes (a b : StoredRecord) : Prop := Slot.order a.key.slot b.key.slot = .lt

/-- Whether the record is in a partition before the given one. -/
def before (first : Nat) (stored : StoredRecord) : Bool := stored.key.partition.toNat < first

theorem before_iff {first : Nat} {stored : StoredRecord} :
    stored.before first = true ↔ stored.key.partition.toNat < first := decide_eq_true_iff

theorem not_before_iff {first : Nat} {stored : StoredRecord} :
    (!stored.before first) = true ↔ first ≤ stored.key.partition.toNat := by
  rw [Bool.not_eq_true', ← Bool.not_eq_true, before_iff, Nat.not_lt]

/-- Once a record of an ascending list is not before a partition, no later one is. -/
theorem filter_before_append {records : List StoredRecord} (ascending : records.Pairwise Precedes)
    (first : Nat) :
    records.filter (before first) ++ (records.filter fun stored => !stored.before first) = records := by
  induction records with
  | nil => rfl
  | cons stored rest ih =>
    obtain ⟨later, ascending⟩ := List.pairwise_cons.1 ascending
    cases earlier : stored.before first with
    | true =>
      rw [List.filter_cons_of_pos earlier, List.filter_cons_of_neg (by rw [earlier]; decide),
        List.cons_append, ih ascending]
    | false =>
      -- The partitions ascend, so with this record all that follow are past the boundary.
      have reached : first ≤ stored.key.partition.toNat := by
        rw [← not_before_iff, earlier]
        rfl
      have none_before : ∀ next ∈ stored :: rest, (!next.before first) = true := by
        intro next mem
        rw [not_before_iff]
        rcases List.mem_cons.1 mem with rfl | mem
        · exact reached
        · have above := UInt16.le_iff_toNat_le.1 (Slot.partition_le_of_lt (later next mem))
          exact Nat.le_trans reached above
      have none_earlier : (stored :: rest).filter (before first) = [] := by
        apply List.filter_eq_nil_iff.2
        intro next mem is_before
        have is_not := none_before next mem
        rw [is_before] at is_not
        cases is_not
      rw [none_earlier, List.nil_append, List.filter_eq_self.2 none_before]

end StoredRecord

namespace MemoryStore

/-- The table has the record, at the slot of its key. -/
def Holds (store : MemoryStore) (name : TableName) (stored : StoredRecord) : Prop :=
  (store.table name)[stored.key.slot]? = some stored

/-- The records are those of the table that satisfy the condition, in ascending order. -/
structure Lists (store : MemoryStore) (name : TableName) (wanted : StoredRecord → Prop)
    (records : List StoredRecord) : Prop where
  ascending : records.Pairwise StoredRecord.Precedes
  mem_iff : ∀ stored, stored ∈ records ↔ store.Holds name stored ∧ wanted stored

namespace Lists

variable {store : MemoryStore} {name : TableName} {wanted wanted' : StoredRecord → Prop}
  {records records' : List StoredRecord}

theorem congr (lists : store.Lists name wanted records)
    (same : ∀ stored, wanted stored ↔ wanted' stored) : store.Lists name wanted' records where
  ascending := lists.ascending
  mem_iff stored := by rw [lists.mem_iff, same]

theorem nodup (lists : store.Lists name wanted records) : records.Nodup := by
  refine lists.ascending.imp ?_
  rintro stored _ before rfl
  have same : Slot.order stored.key.slot stored.key.slot = .eq := Std.ReflCmp.compare_self
  rw [StoredRecord.Precedes, same] at before
  cases before

theorem unique (lists : store.Lists name wanted records) (lists' : store.Lists name wanted records') :
    records = records' := by
  have same : records.Perm records' := by
    apply (List.perm_ext_iff_of_nodup lists.nodup lists'.nodup).2
    intro stored
    rw [lists.mem_iff, lists'.mem_iff]
  refine List.Perm.eq_of_pairwise ?_ lists.ascending lists'.ascending same
  intro a b _ _ before after
  exact absurd after (Std.OrientedCmp.not_lt_of_lt before)

/-- A listing goes through the partitions in ascending order, so those from one on are its end. -/
theorem split (lists : store.Lists name wanted records) (first : Nat) :
    ∃ earlier later, records = earlier ++ later ∧
      (∀ stored ∈ earlier, stored.key.partition.toNat < first) ∧
      store.Lists name (fun stored => first ≤ stored.key.partition.toNat ∧ wanted stored) later := by
  refine ⟨records.filter (StoredRecord.before first),
    records.filter fun stored => !stored.before first,
    (StoredRecord.filter_before_append lists.ascending first).symm, ?_, lists.ascending.filter _, ?_⟩
  · intro stored mem
    exact StoredRecord.before_iff.1 (List.mem_filter.1 mem).2
  · intro stored
    rw [List.mem_filter, StoredRecord.not_before_iff, lists.mem_iff, and_assoc,
      and_comm (a := wanted stored)]

end Lists

variable {store : MemoryStore}

/-- What a store selects without a limit is the listing of what the selection admits. -/
theorem lists_select (keyed : store.Keyed) (name : TableName) (selection : Selection) :
    store.Lists name (fun stored => selection.admits stored.key.slot stored = true)
      (store.select name selection 0) := by
  have at_slot : ∀ entry ∈ (store.table name).toList, entry.2.key.slot = entry.1 := by
    intro entry mem
    exact (keyed name entry.1 entry.2 (Std.TreeMap.mem_toList_iff_getElem?_eq_some.1 mem)).2
  have unlimited : store.select name selection 0 =
      ((store.table name).toList.filter fun entry => selection.admits entry.1 entry.2).map Prod.snd :=
    rfl
  rw [unlimited]
  constructor
  case ascending =>
    rw [List.pairwise_map]
    refine List.Pairwise.imp_of_mem ?_ (Std.TreeMap.ordered_keys_toList.filter _)
    intro a b a_mem b_mem before
    rw [StoredRecord.Precedes, at_slot a (List.mem_filter.1 a_mem |>.1),
      at_slot b (List.mem_filter.1 b_mem |>.1)]
    exact before
  case mem_iff =>
    intro stored
    rw [List.mem_map, Holds]
    constructor
    · rintro ⟨entry, mem, rfl⟩
      obtain ⟨listed, admitted⟩ := List.mem_filter.1 mem
      rw [at_slot entry listed]
      exact ⟨Std.TreeMap.mem_toList_iff_getElem?_eq_some.1 listed, admitted⟩
    · rintro ⟨there, admitted⟩
      have listed := Std.TreeMap.mem_toList_iff_getElem?_eq_some.2 there
      exact ⟨(stored.key.slot, stored), List.mem_filter.2 ⟨listed, admitted⟩, rfl⟩

/-- A limit keeps the beginning of what is selected without one. -/
theorem select_of_limit (store : MemoryStore) (name : TableName) (selection : Selection)
    {limit : UInt64} (positive : limit ≠ 0) :
    store.select name selection limit = (store.select name selection 0).take limit.toNat := by
  simp only [select, if_neg positive, if_pos, List.map_take]

theorem select_prefix (store : MemoryStore) (name : TableName) (selection : Selection)
    (limit : UInt64) :
    store.select name selection limit <+: store.select name selection 0 := by
  by_cases unlimited : limit = 0
  · subst unlimited
    exact List.prefix_rfl
  · rw [select_of_limit store name selection unlimited]
    exact List.take_prefix ..

end MemoryStore

end RecordQuery
