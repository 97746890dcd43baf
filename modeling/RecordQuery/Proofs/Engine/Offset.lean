import RecordQuery.Proofs.Engine.Scan

/-!
Where the offset of a query counts. It names the partition that a scan begins with, so it is checked and
kept to where a scan is planned: an offset behind the last partition is refused before the store is asked
for anything, and any other lets through no record of an earlier partition. An index query reaches its
records by their values and not by their partitions, and runs as if it had no offset.
-/

namespace RecordQuery.Engine

variable {engine : Engine} {store : MemoryStore} {query : Query} {offset : UInt64}

/-- An index query runs as it does without an offset. -/
theorem execute_of_indexed (not_count : query.countLabel? = none) (no_key : query.primaryKey = none)
    {index : Index} {filter : Filter}
    (planned : Plan.ofQuery store query = .ok (.indexQuery index filter)) :
    engine.execute store query = engine.execute store { query with offset := none } := by
  obtain ⟨index', filter', indexed⟩ | scans := Plan.ofQuery_cases store not_count no_key
  · unfold execute
    rw [indexed query.offset, indexed none]
    rfl
  · exact absurd ((scans query.offset).symm.trans planned) Plan.scanFrom_ne_indexQuery

/-- A scan is refused if there is no partition for it to begin with. -/
theorem execute_of_ge (planned : Plan.ofQuery store query = Plan.scanFrom (some offset))
    (outside : partitionCount ≤ offset.toNat) :
    engine.execute store query =
      (.error (.plan (.ofAddressError (.offsetOutOfRange offset))), store) := by
  unfold execute
  rw [planned, Plan.scanFrom_of_ge outside]

/-- What a scan shows, also if it fails, was stored in a partition from the offset on. -/
theorem shows_from_offset (reached : store.Reached) (given : query.offset = some offset)
    {partitions : Option PartitionRange}
    (planned : Plan.ofQuery store query = .ok (.scan partitions)) :
    ∃ (records : List StoredRecord) (failure : Option QueryError),
      engine.Shows store query (records.map (engine.scanned query)) failure ∧
      ∀ stored ∈ records, store.Holds query.table stored ∧
        offset.toNat ≤ stored.key.partition.toNat := by
  let selection : MemoryStore.Selection :=
    { partitions, expression := engine.config.expressionFor query }
  obtain ⟨records, handed, shown⟩ := store.handedOut_map (engine.scanned query)
    (store.select query.table selection (query.limit.getD 0))
  refine ⟨records, store.ending.terminal.error?, ?_, ?_⟩
  · rw [← shown]
    exact engine.shows_scan planned
  · intro stored mem
    have selected := (handed.trans (store.select_prefix query.table selection _)).subset mem
    have lists := MemoryStore.lists_select reached.keyed query.table selection
    obtain ⟨there, admitted⟩ := (lists.mem_iff stored).1 selected
    exact ⟨there, ((admits_iff_wants planned stored).1 admitted).1 offset given⟩

/-- The offset counts unless the query is an index query, which runs as if it had none. -/
theorem offset_counts_unless_indexed (reached : store.Reached) (not_count : query.countLabel? = none)
    (no_key : query.primaryKey = none) (given : query.offset = some offset) :
    (∀ index filter, Plan.ofQuery store query = .ok (.indexQuery index filter) →
      engine.execute store query = engine.execute store { query with offset := none }) ∧
    ((∀ index filter, Plan.ofQuery store query ≠ .ok (.indexQuery index filter)) →
      (partitionCount ≤ offset.toNat → ∃ error, engine.execute store query = (.error error, store) ∧
        error.code = "AERO_SQL_INVALID_QUERY") ∧
      (offset.toNat < partitionCount →
        ∃ (records : List StoredRecord) (failure : Option QueryError),
          engine.Shows store query (records.map (engine.scanned query)) failure ∧
          ∀ stored ∈ records, store.Holds query.table stored ∧
            offset.toNat ≤ stored.key.partition.toNat)) := by
  refine ⟨fun index filter planned => execute_of_indexed not_count no_key planned, ?_⟩
  intro not_indexed
  have planned : Plan.ofQuery store query = Plan.scanFrom (some offset) := by
    obtain ⟨index, filter, indexed⟩ | scans := Plan.ofQuery_cases store not_count no_key
    · exact absurd (indexed query.offset) (not_indexed index filter)
    · rw [← given]
      exact scans query.offset
  constructor
  · intro outside
    exact ⟨_, execute_of_ge planned outside, rfl⟩
  · intro inside
    obtain ⟨range, found⟩ := Plan.scanFrom_of_lt inside
    exact shows_from_offset reached given (planned.trans found)

/-- Without an index on the age, a query for adults shows none from before its offset. -/
theorem offset_counts_without_index :
    let person : Key := ⟨⟨"test", "people"⟩, .int 1⟩
    let store := MemoryStore.put {} person [("age", .int 30)] true
    let query : Query :=
      { table := person.table, predicate := some (.atLeast "age" (.int 18)), offset := some 2000 }
    let engine : Engine := ⟨{}, ∅⟩
    Plan.ofQuery store query = .ok (.scan (some ⟨2000, 2096⟩)) ∧
      ∃ (records : List StoredRecord) (failure : Option QueryError),
        engine.Shows store query (records.map (engine.scanned query)) failure ∧
        ∀ stored ∈ records, store.Holds query.table stored ∧ 2000 ≤ stored.key.partition.toNat := by
  intro person store query engine
  have planned : Plan.ofQuery store query = .ok (.scan (some ⟨2000, 2096⟩)) := rfl
  have reached : store.Reached := .put (.new true) person _ true
  have not_indexed (index : Index) (filter : Filter) :
      Plan.ofQuery store query ≠ .ok (.indexQuery index filter) := by
    intro indexed
    cases planned.symm.trans indexed
  obtain ⟨_, scanned⟩ := @offset_counts_unless_indexed engine store query 2000 reached rfl rfl rfl
  exact ⟨planned, (scanned not_indexed).2 (by decide)⟩

/-- With an index an offset behind the last partition is not refused, and one behind the partition of a
record lets it through. -/
theorem offset_ignored_by_index_query :
    let person : Key := ⟨⟨"test", "people"⟩, .int 1⟩
    let index : Index := ⟨"age_idx", "test", some "people", "age", .numeric⟩
    let store := (MemoryStore.put {} person [("age", .int 30)] true).createIndex index
    let from_offset : UInt64 → Query := fun offset =>
      { table := person.table, predicate := some (.atLeast "age" (.int 18)), offset := some offset }
    let engine : Engine := ⟨{}, ∅⟩
    let record : Record := { key := some person, bins := [("age", .int 30)], generation := 1 }
    engine.Shows store (from_offset 4096) [record] none ∧
      person.partition.toNat < 4095 ∧ engine.Shows store (from_offset 4095) [record] none := by
  -- The names have to be gone before the store is evaluated, or its digests are not.
  dsimp only
  have shows_narrowed := fun engine store query => @shows_indexQuery engine store query
    ⟨"age_idx", "test", some "people", "age", .numeric⟩ (.range "age" 18 Int64.maxValue)
  exact ⟨shows_narrowed _ _ _ rfl, by decide +kernel, shows_narrowed _ _ _ rfl⟩

end RecordQuery.Engine
