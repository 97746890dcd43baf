import RecordQuery.Proofs.Engine.Rows
import RecordQuery.Proofs.Plan.Choice
import RecordQuery.Proofs.Store.Delivery

/-!
Queries for rows over a store in memory. A scan and an index query are always under way once they are
asked for, and what they will show is the store's selection, as far as it is handed out.
-/

namespace RecordQuery.Engine

/-- The records that a query shows of a selection: all of it up to the query's limit. -/
def selected (store : MemoryStore) (query : Query) (selection : MemoryStore.Selection)
    (includeBins : Bool) : List Record :=
  (store.select query.table selection (query.limit.getD 0)).map fun stored =>
    stored.withBins includeBins query.binNames

/-- The feed of records that the store was asked for. -/
def feedOf (engine : Engine) (store : MemoryStore) (records : List Record) : Feed :=
  .start engine.config.capacity
    { waiting := store.handedOut records, ending := some store.ending }

/-- The records that a plan selects whose rows the store delivers. -/
def selected? (engine : Engine) (store : MemoryStore) (query : Query) : Plan → Option (List Record)
  | .scan partitions =>
    some (selected store query { partitions, expression := engine.config.expressionFor query }
      engine.config.scan.includeBinData)
  | .indexQuery _ filter =>
    some (selected store query
      { indexFilter := some filter, expression := engine.config.expressionFor query }
      engine.config.query.includeBinData)
  | _ => none

variable (engine : Engine) {store : MemoryStore} {query : Query}

theorem fst_execute (store : MemoryStore) (query : Query) :
    (engine.execute store query).1 =
      match Plan.ofQuery store query with
      | .error error => .error (.plan error)
      | .ok plan =>
        match (engine.feedFor store query plan).1 with
        | .ok feed => .ok { cursor := { columns := engine.columnsFor query plan }, feed }
        | .error error => .error (.store error) := by
  rw [execute]
  cases Plan.ofQuery store query with
  | error error => rfl
  | ok plan =>
    dsimp only
    obtain ⟨answer, after⟩ := engine.feedFor store query plan
    cases answer <;> rfl

/-- Running a query leaves the store as it is once it was asked. -/
theorem snd_execute {plan : Plan} (planned : Plan.ofQuery store query = .ok plan) :
    (engine.execute store query).2 = (engine.feedFor store query plan).2 := by
  rw [execute, planned]
  dsimp only
  obtain ⟨answer, after⟩ := engine.feedFor store query plan
  cases answer <;> rfl

/-- A planned query is under way as soon as the store has answered. -/
theorem execute_of_feedFor {plan : Plan} {feed : Feed}
    (planned : Plan.ofQuery store query = .ok plan)
    (answered : (engine.feedFor store query plan).1 = .ok feed) :
    (engine.execute store query).1 =
      .ok { cursor := { columns := engine.columnsFor query plan }, feed } := by
  rw [fst_execute, planned]
  dsimp only
  rw [answered]

/-- The store has the index that a planned index query asks for, and asks it for the query's table. -/
theorem hasIndexFor_of_indexed {index : Index} {filter : Filter}
    (indexed : Plan.Indexed store query index filter) :
    (⟨index.space, query.table.set⟩ : TableName) = query.table ∧
      store.hasIndexFor
        { table := query.table, binNames := query.binNames, indexName := index.name, filter } =
        true := by
  constructor
  · have covers := indexed.covers
    rw [Index.covers, Bool.and_eq_true, beq_iff_eq] at covers
    rw [covers.1]
  · rw [MemoryStore.hasIndexFor, List.any_eq_true]
    refine ⟨index, indexed.listed, ?_⟩
    rw [indexed.covers, indexed.bin_eq, beq_self_eq_true, beq_self_eq_true]
    rfl

/-- A planned index query asks the store for the index and the filter of its plan over the query's own
table, and starts the delivery of what they and the predicate select. -/
theorem feedFor_indexQuery {index : Index} {filter : Filter}
    (planned : Plan.ofQuery store query = .ok (.indexQuery index filter)) :
    engine.feedFor store query (.indexQuery index filter) =
      (.ok (engine.feedOf store (selected store query
          { indexFilter := some filter, expression := engine.config.expressionFor query }
          engine.config.query.includeBinData)),
        { store with
          deliveryFailure := none
          lastQuery := some (engine.config.queryPolicy query,
            { table := query.table, binNames := query.binNames, indexName := index.name, filter }) }) := by
  have indexed := Plan.ofQuery_indexQuery planned
  obtain ⟨table_eq, found⟩ := hasIndexFor_of_indexed indexed
  let statement : Statement :=
    { table := query.table, binNames := query.binNames, indexName := index.name, filter }
  have asked : engine.feedFor store query (.indexQuery index filter) =
      engine.startDelivery (store.query (engine.config.queryPolicy query) statement) := by
    change engine.startDelivery (store.query (engine.config.queryPolicy query)
      { statement with table := ⟨index.space, query.table.set⟩ }) = _
    rw [table_eq]
  rw [asked]
  refine Prod.ext ?_ (MemoryStore.snd_query _ indexed.supported found)
  exact congrArg (Except.map (Feed.start engine.config.capacity))
    (MemoryStore.fst_query (engine.config.queryPolicy query) indexed.supported found)

theorem feedFor_of_selected? {plan : Plan} {records : List Record}
    (planned : Plan.ofQuery store query = .ok plan)
    (selects : engine.selected? store query plan = some records) :
    ∃ lastScan lastQuery, engine.feedFor store query plan =
      (.ok (engine.feedOf store records),
        ({ store with deliveryFailure := none } : MemoryStore).remembering lastScan lastQuery
          store.fetched) := by
  cases plan with
  | scan partitions =>
    cases selects
    refine ⟨_, store.lastQuery, Prod.ext ?_ rfl⟩
    exact congrArg (fun delivery => Except.ok (Feed.start engine.config.capacity delivery))
      (store.fst_scan (engine.config.scanPolicy query partitions) query.table query.binNames)
  | indexQuery index filter =>
    cases selects
    exact ⟨store.lastScan, _, engine.feedFor_indexQuery planned⟩
  | metadataCount label => cases selects
  | scanCount label => cases selects
  | lookup key => cases selects

/-- A query whose rows the store delivers starts the delivery of what it selects, and uses up the failure
that was ordered for it. -/
theorem execute_of_selected? {plan : Plan} {records : List Record}
    (planned : Plan.ofQuery store query = .ok plan)
    (selects : engine.selected? store query plan = some records) :
    ∃ lastScan lastQuery, engine.execute store query =
      (.ok { cursor := { columns := engine.columns query }, feed := engine.feedOf store records },
        ({ store with deliveryFailure := none } : MemoryStore).remembering lastScan lastQuery
          store.fetched) := by
  obtain ⟨lastScan, lastQuery, asked⟩ := engine.feedFor_of_selected? planned selects
  have columns_eq : engine.columnsFor query plan = engine.columns query := by
    cases plan <;> first | rfl | cases selects
  refine ⟨lastScan, lastQuery, ?_⟩
  rw [execute, planned]
  dsimp only
  rw [asked, columns_eq]

/-- A scan reads the records of the partitions that satisfy the predicate. -/
theorem execute_scan {partitions : Option PartitionRange}
    (planned : Plan.ofQuery store query = .ok (.scan partitions)) :
    ∃ execution, (engine.execute store query).1 = .ok execution ∧
      execution.cursor = { columns := engine.columns query } ∧
      execution.Reads
        (store.handedOut <| selected store query
          { partitions, expression := engine.config.expressionFor query }
          engine.config.scan.includeBinData)
        store.ending.terminal := by
  obtain ⟨_, _, runs⟩ := engine.execute_of_selected? planned rfl
  exact ⟨_, congrArg Prod.fst runs, rfl, Execution.reads_start ..⟩

/-- An index query reads the records that the filter selects and that satisfy the predicate. -/
theorem execute_indexQuery {index : Index} {filter : Filter}
    (planned : Plan.ofQuery store query = .ok (.indexQuery index filter)) :
    ∃ execution, (engine.execute store query).1 = .ok execution ∧
      execution.cursor = { columns := engine.columns query } ∧
      execution.Reads
        (store.handedOut <| selected store query
          { indexFilter := some filter, expression := engine.config.expressionFor query }
          engine.config.query.includeBinData)
        store.ending.terminal := by
  obtain ⟨_, _, runs⟩ := engine.execute_of_selected? planned rfl
  exact ⟨_, congrArg Prod.fst runs, rfl, Execution.reads_start ..⟩

theorem fst_lookup_eq (store : MemoryStore) (query : Query) (key : Key) :
    (engine.lookup store query key).1 =
      (store.get key query.binNames).1.map fun found =>
        .finished (.bounded 1) (found.toList.map fun record =>
          { record with key := record.key.or (some key) }) := by
  have asked : RecordStore.get store engine.config.read key query.binNames =
      store.get key query.binNames := rfl
  rw [lookup, asked]
  obtain ⟨answer, after⟩ := store.get key query.binNames
  cases answer <;> rfl

theorem fst_feedFor_remembering (store : MemoryStore) (lastScan : Option ScanPolicy)
    (lastQuery : Option (QueryPolicy × Statement)) (fetched : Nat) (query : Query) (plan : Plan) :
    (engine.feedFor (store.remembering lastScan lastQuery fetched) query plan).1 =
      (engine.feedFor store query plan).1 := by
  cases plan with
  | metadataCount label => rfl
  | scanCount label => rfl
  | lookup key =>
    change (engine.lookup _ query key).1 = (engine.lookup store query key).1
    rw [fst_lookup_eq, fst_lookup_eq, MemoryStore.fst_get_remembering]
  | indexQuery index filter =>
    exact congrArg (Except.map (Feed.start engine.config.capacity))
      (store.fst_query_remembering lastScan lastQuery fetched (engine.config.queryPolicy query) _)
  | scan partitions => rfl

/-- What a store remembers of earlier commands changes no query. -/
theorem fst_execute_remembering (store : MemoryStore) (lastScan : Option ScanPolicy)
    (lastQuery : Option (QueryPolicy × Statement)) (fetched : Nat) (query : Query) :
    (engine.execute (store.remembering lastScan lastQuery fetched) query).1 =
      (engine.execute store query).1 := by
  have same_plan : Plan.ofQuery (store.remembering lastScan lastQuery fetched) query =
      Plan.ofQuery store query := rfl
  rw [fst_execute, fst_execute, same_plan]
  simp only [fst_feedFor_remembering]

end RecordQuery.Engine
