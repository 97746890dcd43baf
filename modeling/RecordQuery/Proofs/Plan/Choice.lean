import RecordQuery.Proofs.Index.Catalog
import RecordQuery.Plan.Basic
import RecordQuery.Store.Memory

/-!
When a query becomes an index query of a store in memory, and what the index and the filter are then;
and when it becomes a scan, and of which partitions. The offset of a query for rows is looked at only
once no index was chosen, and the limit not at all.
-/

namespace RecordQuery.Plan

/-- What the plan of an index query rests on. -/
structure Indexed (store : MemoryStore) (query : Query) (index : Index) (filter : Filter) : Prop where
  not_count : query.countLabel? = none
  no_key : query.primaryKey = none
  supported : store.supportsIndexes = true
  listed : index ∈ store.indexes
  covers : index.covers query.table = true
  bin_eq : filter.bin = index.bin
  serves : index.type.serves filter = true
  narrows : ∃ predicate, query.predicate = some predicate ∧ predicate.filter? index.bin = some filter

theorem indexFor?_eq_some {store : MemoryStore} {table : TableName} {predicate : Predicate}
    {choice : Index × Filter} (found : indexFor? store table predicate = .ok (some choice)) :
    store.supportsIndexes = true ∧
      (Catalog.ofIndexes table store.indexes).choose? predicate = some choice := by
  unfold indexFor? at found
  split at found
  · next able =>
    rw [Bool.and_eq_true] at able
    exact ⟨able.2, Except.ok.inj found⟩
  · cases found

theorem scanFrom_ne_indexQuery {offset : Option UInt64} {index : Index} {filter : Filter} :
    scanFrom offset ≠ .ok (.indexQuery index filter) := by
  unfold scanFrom
  split
  · exact fun same => nomatch same
  · split <;> exact fun same => nomatch same

theorem ofQuery_indexQuery {store : MemoryStore} {query : Query} {index : Index} {filter : Filter}
    (planned : ofQuery store query = .ok (.indexQuery index filter)) :
    Indexed store query index filter := by
  unfold ofQuery at planned
  split at planned
  · cases planned
  · cases planned
  · split at planned <;> cases planned
  · exact absurd planned scanFrom_ne_indexQuery
  · next predicate not_count no_key narrows =>
    cases found : indexFor? store query.table predicate with
    | error error =>
      rw [found] at planned
      cases planned
    | ok choice =>
      rw [found] at planned
      cases choice with
      | none => exact absurd planned scanFrom_ne_indexQuery
      | some choice =>
        cases planned
        obtain ⟨supported, chosen⟩ := indexFor?_eq_some found
        obtain ⟨_, narrowed, mem, serves⟩ := Catalog.choose?_eq_some chosen
        obtain ⟨listed, covers, bin_eq⟩ := Catalog.mem_under_ofIndexes.1 mem
        exact ⟨not_count, no_key, supported, listed, covers, bin_eq.symm, serves, predicate, narrows,
          by rw [bin_eq, narrowed]⟩

/-- A store in memory always lists its indexes. -/
theorem indexFor?_eq_ok (store : MemoryStore) (table : TableName) (predicate : Predicate) :
    ∃ choice, indexFor? store table predicate = .ok choice := by
  unfold indexFor?
  split
  · exact ⟨_, rfl⟩
  · exact ⟨_, rfl⟩

theorem ofQuery_of_no_predicate {store : MemoryStore} {query : Query}
    (not_count : query.countLabel? = none) (no_key : query.primaryKey = none)
    (given : query.predicate = none) : ofQuery store query = scanFrom query.offset := by
  unfold ofQuery
  rw [not_count, no_key, given]

theorem ofQuery_of_predicate {store : MemoryStore} {query : Query} {predicate : Predicate}
    {choice : Option (Index × Filter)} (not_count : query.countLabel? = none)
    (no_key : query.primaryKey = none) (given : query.predicate = some predicate)
    (chosen : indexFor? store query.table predicate = .ok choice) :
    ofQuery store query =
      choice.elim (scanFrom query.offset) fun (index, filter) => .ok (.indexQuery index filter) := by
  unfold ofQuery
  rw [not_count, no_key, given]
  change (indexFor? store query.table predicate >>= _) = _
  rw [chosen]
  cases choice <;> rfl

/-- Without indexes to choose from, rows are reached by a scan. -/
theorem ofQuery_of_no_indexes {store : MemoryStore} {query : Query} (no_indexes : store.indexes = [])
    (not_count : query.countLabel? = none) (no_key : query.primaryKey = none) :
    ofQuery store query = scanFrom query.offset := by
  obtain given | ⟨predicate, given⟩ := Option.eq_none_or_eq_some query.predicate
  · exact ofQuery_of_no_predicate not_count no_key given
  · have nothing : indexFor? store query.table predicate = .ok none := by
      unfold indexFor?
      split
      · change Except.ok ((Catalog.ofIndexes query.table store.indexes).choose? predicate) = _
        rw [no_indexes, Catalog.choose?_eq_findSome?]
        rfl
      · rfl
    exact ofQuery_of_predicate not_count no_key given nothing

/-- A query for rows is an index query whatever its offset is, or else a scan from its offset. -/
theorem ofQuery_cases (store : MemoryStore) {query : Query} (not_count : query.countLabel? = none)
    (no_key : query.primaryKey = none) :
    (∃ index filter, ∀ offset, ofQuery store { query with offset } = .ok (.indexQuery index filter)) ∨
      ∀ offset, ofQuery store { query with offset } = scanFrom offset := by
  obtain given | ⟨predicate, given⟩ := Option.eq_none_or_eq_some query.predicate
  · right
    intro offset
    exact @ofQuery_of_no_predicate store { query with offset } not_count no_key given
  · obtain ⟨choice, chosen⟩ := indexFor?_eq_ok store query.table predicate
    have planned (offset) :=
      @ofQuery_of_predicate store { query with offset } predicate choice not_count no_key given chosen
    cases choice with
    | some choice => exact Or.inl ⟨choice.1, choice.2, planned⟩
    | none => exact Or.inr planned

theorem scan_of_scanFrom {offset : Option UInt64} {plan : Plan} (planned : scanFrom offset = .ok plan) :
    ∃ partitions, plan = .scan partitions := by
  unfold scanFrom at planned
  split at planned
  · cases planned
    exact ⟨_, rfl⟩
  · split at planned <;> cases planned
    exact ⟨_, rfl⟩

/-- With a primary key the plan of a query for rows is a lookup. -/
theorem lookup_of_key {store : MemoryStore} {query : Query} {plan : Plan} {value : Value}
    (not_count : query.countLabel? = none) (given : query.primaryKey = some value)
    (planned : ofQuery store query = .ok plan) : ∃ key, plan = .lookup key := by
  unfold ofQuery at planned
  rw [not_count, given] at planned
  dsimp only at planned
  split at planned <;> cases planned
  exact ⟨_, rfl⟩

/-- The plan of a query is one for a count just if the query asks for a count. -/
theorem isCount_of_ofQuery {store : MemoryStore} {query : Query} {plan : Plan}
    (planned : ofQuery store query = .ok plan) : plan.isCount = query.countLabel?.isSome := by
  cases label : query.countLabel? with
  | some label' =>
    unfold ofQuery at planned
    rw [label] at planned
    cases given : query.predicate <;> rw [given] at planned <;> cases planned <;> rfl
  | none =>
    cases key : query.primaryKey with
    | some value =>
      obtain ⟨_, rfl⟩ := lookup_of_key label key planned
      rfl
    | none =>
      obtain ⟨index, filter, indexed⟩ | scans := ofQuery_cases store label key
      · cases planned.symm.trans (indexed query.offset)
        rfl
      · obtain ⟨partitions, rfl⟩ := scan_of_scanFrom ((scans query.offset).symm.trans planned)
        rfl

/-- A scan is planned only for a query for rows, which with any offset is a scan from there. -/
theorem ofQuery_scan {store : MemoryStore} {query : Query} {partitions : Option PartitionRange}
    (planned : ofQuery store query = .ok (.scan partitions)) (offset : Option UInt64) :
    ofQuery store { query with offset } = scanFrom offset := by
  have not_count : query.countLabel? = none :=
    Option.not_isSome_iff_eq_none.1 (ne_true_of_eq_false (isCount_of_ofQuery planned).symm)
  have no_key : query.primaryKey = none := by
    cases key : query.primaryKey with
    | none => rfl
    | some value =>
      obtain ⟨_, same⟩ := lookup_of_key not_count key planned
      cases same
  obtain ⟨index, filter, indexed⟩ | scans := ofQuery_cases store not_count no_key
  · cases planned.symm.trans (indexed query.offset)
  · exact scans offset

theorem scanFrom_of_lt {offset : UInt64} (inside : offset.toNat < partitionCount) :
    ∃ range, scanFrom (some offset) = .ok (.scan (some range)) := by
  have found : PartitionRange.startingAt? offset = some _ := if_pos inside
  rw [scanFrom, PartitionRange.startingAt, found]
  exact ⟨_, rfl⟩

/-- An offset behind the last partition is refused. -/
theorem scanFrom_of_ge {offset : UInt64} (outside : partitionCount ≤ offset.toNat) :
    scanFrom (some offset) = .error (.ofAddressError (.offsetOutOfRange offset)) := by
  have missing : PartitionRange.startingAt? offset = none := if_neg (Nat.not_lt.2 outside)
  rw [scanFrom, PartitionRange.startingAt, missing]

/-- The partitions of a scan are those from the offset on. -/
theorem contains_of_scanFrom {offset : Option UInt64} {partitions : Option PartitionRange}
    (planned : scanFrom offset = .ok (.scan partitions)) {partition : UInt16}
    (exists_partition : partition.toNat < partitionCount) :
    (∀ range ∈ partitions, range.contains partition = true) ↔
      ∀ first ∈ offset, first.toNat ≤ partition.toNat := by
  cases offset with
  | none =>
    cases planned
    exact iff_of_true (fun _ mem => nomatch mem) (fun _ mem => nomatch mem)
  | some first =>
    rw [scanFrom, PartitionRange.startingAt] at planned
    cases found : PartitionRange.startingAt? first with
    | none =>
      rw [found] at planned
      cases planned
    | some range =>
      rw [found] at planned
      cases planned
      simp only [Option.mem_some_iff, forall_eq']
      exact PartitionRange.contains_of_startingAt? found exists_partition

end RecordQuery.Plan
