import RecordQuery.Store.Memory

/-!
What a store in memory answers. A read finds the record of its key; a scan and an index query deliver
the selected records of the table in their order, up to a failure that was ordered in advance. What is
delivered of a record, and what a filter sees of it, is said of its stored fields. A filter
that keeps every record on which the expression holds leaves a selection as it is, and so do the indexes,
which play no part in it.
-/

namespace RecordQuery

namespace StoredRecord

/-- The record with all its bins, and with its key if the user key is kept. -/
def whole (stored : StoredRecord) : Record where
  key := if stored.keepsKey then some stored.key else none
  bins := stored.bins
  generation := stored.generation

/-- The record with those of its bins that are asked for: the named ones, all of them where no names are
given, and none where no data is wanted. -/
def withBins (stored : StoredRecord) (includeBins : Bool) (binNames : Option (List String)) : Record :=
  { stored.whole with
    bins :=
      if includeBins then
        binNames.elim stored.bins fun names => stored.bins.filter fun bin => names.contains bin.1
      else [] }

theorem view_eq_whole (stored : StoredRecord) : stored.view = stored.whole := rfl

theorem toRecord_eq_withBins (stored : StoredRecord) (includeBins : Bool)
    (binNames : Option (List String)) :
    stored.toRecord includeBins binNames = stored.withBins includeBins binNames := by
  cases binNames <;> rfl

end StoredRecord

namespace MemoryStore

/-- The records that a delivery hands out, of those that it was asked for. -/
def handedOut (store : MemoryStore) (records : List Record) : List Record :=
  match store.deliveryFailure with
  | some (after, _) => records.take after
  | none => records

/-- How a delivery of the store ends. -/
def ending (store : MemoryStore) : Ending :=
  match store.deliveryFailure with
  | some (_, error) => .failure error
  | none => .success

theorem fst_deliver (store : MemoryStore) (records : List Record) :
    (store.deliver records).1 =
      { waiting := store.handedOut records, ending := some store.ending } := by
  unfold deliver handedOut ending
  cases store.deliveryFailure <;> rfl

theorem handedOut_of_no_failure {store : MemoryStore} (no_failure : store.deliveryFailure = none)
    (records : List Record) : store.handedOut records = records := by
  rw [handedOut, no_failure]

theorem ending_of_no_failure {store : MemoryStore} (no_failure : store.deliveryFailure = none) :
    store.ending = .success := by
  rw [ending, no_failure]

/-- What is handed out of converted records is converted from the beginning of them. -/
theorem handedOut_map {α : Type} (store : MemoryStore) (convert : α → Record) (records : List α) :
    ∃ shown, shown <+: records ∧ store.handedOut (records.map convert) = shown.map convert := by
  cases failure : store.deliveryFailure with
  | none => exact ⟨records, List.prefix_rfl, handedOut_of_no_failure failure _⟩
  | some ordered =>
    refine ⟨records.take ordered.1, List.take_prefix .., ?_⟩
    rw [handedOut, failure, List.map_take]

/-- A read that was not made to fail finds the record of the key. -/
theorem fst_get {store : MemoryStore} (readable : store.readFailure = none) (key : Key)
    (binNames : Option (List String)) :
    (store.get key binNames).1 =
      .ok (((store.table key.table)[key.slot]?).map fun stored => stored.toRecord true binNames) := by
  unfold get
  rw [readable]
  dsimp only
  cases (store.table key.table)[key.slot]? <;> rfl

theorem fst_scan (store : MemoryStore) (policy : ScanPolicy) (name : TableName)
    (binNames : Option (List String)) :
    (store.scan policy name binNames).1 =
      { waiting := store.handedOut <|
          (store.select name { partitions := policy.partitions, expression := policy.base.filter }
            policy.maxRecords).map fun stored => stored.withBins policy.includeBinData binNames
        ending := some store.ending } := by
  simp only [← StoredRecord.toRecord_eq_withBins]
  exact fst_deliver { store with lastScan := some policy } _

theorem fst_query {store : MemoryStore} {statement : Statement} (policy : QueryPolicy)
    (supported : store.supportsIndexes = true) (found : store.hasIndexFor statement = true) :
    (store.query policy statement).1 =
      .ok {
        waiting := store.handedOut <|
          (store.select statement.table
            { indexFilter := some statement.filter, expression := policy.base.filter }
            policy.maxRecords).map fun stored =>
              stored.withBins policy.includeBinData statement.binNames
        ending := some store.ending } := by
  simp only [← StoredRecord.toRecord_eq_withBins]
  have able : (!store.supportsIndexes) = false := by rw [supported, Bool.not_true]
  unfold query
  rw [able, if_neg Bool.false_ne_true, if_pos found]
  exact congrArg Except.ok (fst_deliver { store with lastQuery := some (policy, statement) } _)

theorem snd_query {store : MemoryStore} {statement : Statement} (policy : QueryPolicy)
    (supported : store.supportsIndexes = true) (found : store.hasIndexFor statement = true) :
    (store.query policy statement).2 =
      { store with deliveryFailure := none, lastQuery := some (policy, statement) } := by
  have able : (!store.supportsIndexes) = false := by rw [supported, Bool.not_true]
  unfold query
  rw [able, if_neg Bool.false_ne_true, if_pos found]
  rfl

/-- The store as it answers, with other things in its memory of earlier commands. -/
def remembering (store : MemoryStore) (lastScan : Option ScanPolicy)
    (lastQuery : Option (QueryPolicy × Statement)) (fetched : Nat) : MemoryStore :=
  { store with lastScan, lastQuery, fetched }

section Remembering

variable (store : MemoryStore) (lastScan : Option ScanPolicy)
  (lastQuery : Option (QueryPolicy × Statement)) (fetched : Nat)

theorem fst_get_remembering (key : Key) (binNames : Option (List String)) :
    ((store.remembering lastScan lastQuery fetched).get key binNames).1 =
      (store.get key binNames).1 := by
  have same_failure : (store.remembering lastScan lastQuery fetched).readFailure = store.readFailure :=
    rfl
  have same_table : (store.remembering lastScan lastQuery fetched).table key.table =
      store.table key.table := rfl
  unfold get
  rw [same_failure, same_table]
  cases store.readFailure with
  | some error => rfl
  | none =>
    dsimp only
    cases (store.table key.table)[key.slot]? <;> rfl

theorem fst_query_remembering (policy : QueryPolicy) (statement : Statement) :
    ((store.remembering lastScan lastQuery fetched).query policy statement).1 =
      (store.query policy statement).1 := by
  have same_support : (store.remembering lastScan lastQuery fetched).supportsIndexes =
      store.supportsIndexes := rfl
  have same_index : (store.remembering lastScan lastQuery fetched).hasIndexFor statement =
      store.hasIndexFor statement := rfl
  unfold query
  rw [same_support, same_index]
  cases store.supportsIndexes with
  | false => rfl
  | true => cases store.hasIndexFor statement <;> rfl

end Remembering

/-- The store after every index was dropped. -/
def withoutIndexes (store : MemoryStore) : MemoryStore := { store with indexes := [] }

theorem foldl_dropIndex (store : MemoryStore) (names : List String) :
    names.foldl dropIndex store =
      { store with indexes := store.indexes.filter fun index => !names.contains index.name } := by
  induction names generalizing store with
  | nil =>
    have all : store.indexes.filter (fun _ => true) = store.indexes :=
      List.filter_eq_self.2 fun _ _ => rfl
    exact congrArg (fun indexes => { store with indexes }) all.symm
  | cons name rest ih =>
    rw [List.foldl_cons, ih, dropIndex, List.filter_filter]
    congr 2
    funext index
    rw [List.contains_cons, Bool.not_or, Bool.and_comm]
    rfl

/-- Dropping the indexes by name, whichever are there, leaves a store without any. -/
theorem foldl_dropIndex_eq_withoutIndexes (store : MemoryStore) :
    (store.indexes.map Index.name).foldl dropIndex store = store.withoutIndexes := by
  rw [foldl_dropIndex, withoutIndexes]
  congr 1
  apply List.filter_eq_nil_iff.2
  intro index listed
  have named : index.name ∈ store.indexes.map Index.name := List.mem_map_of_mem listed
  rw [List.contains_iff_mem.2 named]
  exact Bool.false_ne_true

/-- Selecting by an index filter that no wanted record fails is selecting without it. -/
theorem select_with_filter {store : MemoryStore} {name : TableName} {filter : Filter}
    {expression : Expression}
    (keeps : ∀ (slot : Slot) (stored : StoredRecord), (store.table name)[slot]? = some stored →
      expression.holds stored.whole = true → filter.selects stored.whole = true)
    (maxRecords : UInt64) :
    store.select name { indexFilter := some filter, expression := some expression } maxRecords =
      store.select name { expression := some expression } maxRecords := by
  have same : ∀ entry ∈ (store.table name).toList,
      Selection.admits { indexFilter := some filter, expression := some expression } entry.1 entry.2 =
        Selection.admits { expression := some expression } entry.1 entry.2 := by
    intro entry mem
    have stored := Std.TreeMap.mem_toList_iff_getElem?_eq_some.1 mem
    simp only [Selection.admits, Option.all_none, Option.all_some, Bool.true_and,
      StoredRecord.view_eq_whole]
    cases wanted : expression.holds entry.2.whole with
    | false => exact Bool.and_false _
    | true => rw [keeps entry.1 entry.2 stored wanted, Bool.and_true]
  unfold select
  rw [List.filter_congr same]

end MemoryStore

end RecordQuery
