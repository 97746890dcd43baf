import RecordQuery.Proofs.Engine.Delivery
import RecordQuery.Proofs.Predicate.Booleans
import RecordQuery.Proofs.Store.Reached

/-!
An index changes no answer. A query that is planned as an index query shows the same rows, in the same
order and cut by the same limit, as the scan that takes its place once there are no indexes, unless a
record of the table holds a double in the indexed bin. Three things meet here: the filter loses no
record that satisfies the expression, also when booleans are written as integers; both policies carry
the same expression and limit; and both ask for the bins of the records, or neither does. A configuration
in which only one of them asks shows other rows with the index than without it.
-/

namespace RecordQuery

/-- How a connection writes the values that a predicate compares with. -/
def Config.literal (config : Config) : Value → Value :=
  if config.useBoolBin then fun value => value else Expression.boolAsInt

theorem Config.keepsAnswerable_literal (config : Config) :
    Value.KeepsAnswerable config.literal := by
  unfold literal
  split
  · exact .id
  · exact .boolAsInt

theorem Config.expressionFor_eq {query : Query} {predicate : Predicate} (config : Config)
    (given : query.predicate = some predicate) :
    config.expressionFor query = some (predicate.mapValues config.literal).expression := by
  unfold expressionFor literal
  rw [given, Option.map_some]
  split
  · rw [Predicate.mapValues_id]
  · rw [Predicate.boolsAsInts_expression]

/-- No record of the table holds a double in the bin. -/
def MemoryStore.FreeOfDoubles (store : MemoryStore) (name : TableName) (bin : String) : Prop :=
  ∀ (slot : Slot) (stored : StoredRecord), (store.table name)[slot]? = some stored →
    ∀ x, stored.bins.get? bin ≠ some (.float x)

theorem MemoryStore.FreeOfDoubles.put {store : MemoryStore} {name : TableName} {bin : String}
    (free : store.FreeOfDoubles name bin) (key : Key) (bins : Fields Value) (keepsKey : Bool)
    (no_double : ∀ x, bins.get? bin ≠ some (.float x)) :
    (store.put key bins keepsKey).FreeOfDoubles name bin := by
  intro slot stored there
  obtain same | before := bins_of_put there
  · rw [same]
    exact no_double
  · exact free slot stored before

namespace Engine

variable {engine : Engine} {store : MemoryStore} {query : Query} {index : Index} {filter : Filter}

/-- The index of a planned query finds every record that the query wants. -/
theorem selects_of_indexed (indexed : Plan.Indexed store query index filter) {record : Record}
    {expression : Expression} (wanted : engine.config.expressionFor query = some expression)
    (holds : expression.holds record = true)
    (no_double : ∀ x, record.bin? index.bin ≠ some (.float x)) :
    filter.selects record = true := by
  obtain ⟨predicate, given, narrows⟩ := indexed.narrows
  rw [Config.expressionFor_eq _ given, Option.some.injEq] at wanted
  rw [← wanted, Predicate.holds_expression] at holds
  exact Predicate.selects_of_filter? engine.config.keepsAnswerable_literal narrows holds no_double

/-- With and without the index, the selections of a planned query are the same. -/
theorem selected_with_filter (indexed : Plan.Indexed store query index filter)
    (no_doubles : store.FreeOfDoubles query.table index.bin) (includeBins : Bool) :
    selected store query
        { indexFilter := some filter, expression := engine.config.expressionFor query } includeBins =
      selected store query { expression := engine.config.expressionFor query } includeBins := by
  obtain ⟨predicate, given, _⟩ := indexed.narrows
  have wanted := engine.config.expressionFor_eq given
  have keeps : ∀ (slot : Slot) (stored : StoredRecord),
      (store.table query.table)[slot]? = some stored →
      (predicate.mapValues engine.config.literal).expression.holds stored.whole = true →
      filter.selects stored.whole = true := by
    intro slot stored there holds
    exact selects_of_indexed indexed wanted holds (no_doubles slot stored there)
  unfold selected
  rw [wanted, MemoryStore.select_with_filter keeps]

/-- The index plan of a query and the scan that replaces it without indexes show the same rows, and
both come to the end, if both or neither of them ask for bins. -/
theorem index_query_shows_rows_of_scan
    (same_data : engine.config.scan.includeBinData = engine.config.query.includeBinData)
    (planned : Plan.ofQuery store query = .ok (.indexQuery index filter))
    (no_failure : store.deliveryFailure = none) (no_offset : query.offset = none)
    (no_doubles : store.FreeOfDoubles query.table index.bin) :
    Plan.ofQuery store.withoutIndexes query = .ok (.scan none) ∧
      ∃ narrowed scanned : Execution,
        (engine.execute store query).1 = .ok narrowed ∧
        (engine.execute store.withoutIndexes query).1 = .ok scanned ∧
        ∀ {α : Type} (read : Cursor → α), ∃ rows lastNarrowed lastScanned,
          narrowed.rows read = (rows, none, lastNarrowed) ∧
          scanned.rows read = (rows, none, lastScanned) ∧
          lastNarrowed.cursor.position = .afterLast ∧ lastScanned.cursor.position = .afterLast := by
  have indexed := Plan.ofQuery_indexQuery planned
  have scans : Plan.ofQuery store.withoutIndexes query = .ok (.scan none) := by
    rw [Plan.ofQuery_of_no_indexes rfl indexed.not_count indexed.no_key, no_offset]
    rfl
  have same : selected store.withoutIndexes query
      { expression := engine.config.expressionFor query } engine.config.scan.includeBinData =
      selected store query
        { indexFilter := some filter, expression := engine.config.expressionFor query }
        engine.config.query.includeBinData := by
    rw [selected_with_filter indexed no_doubles, same_data]
    rfl
  obtain ⟨narrowed, runs, cursor, reads⟩ := engine.execute_indexQuery planned
  obtain ⟨scanned, scan_runs, scan_cursor, scan_reads⟩ := engine.execute_scan scans
  have no_failure' : store.withoutIndexes.deliveryFailure = none := no_failure
  rw [MemoryStore.handedOut_of_no_failure no_failure, MemoryStore.ending_of_no_failure no_failure]
    at reads
  rw [MemoryStore.handedOut_of_no_failure no_failure', MemoryStore.ending_of_no_failure no_failure',
    same] at scan_reads
  refine ⟨scans, narrowed, scanned, runs, scan_runs, ?_⟩
  intro α read
  obtain ⟨last, rows, after⟩ := reads.rows read
  obtain ⟨last', rows', after'⟩ := scan_reads.rows read
  rw [cursor] at rows after
  rw [scan_cursor] at rows' after'
  exact ⟨_, last, last', rows, rows', by rw [after], by rw [after']⟩

/-- Three of four people are adults, and up to the limit both plans show the first two of them. -/
theorem adults_by_index_as_by_scan :
    let table : TableName := ⟨"test", "people"⟩
    let person : Int64 → Key := fun id => ⟨table, .int id⟩
    let index : Index := ⟨"age_idx", "test", some "people", "age", .numeric⟩
    let store := MemoryStore.put {} (person 1) [("age", .int 30)] true
      |>.put (person 2) [("age", .int 12)] true |>.put (person 3) [("age", .int 41)] true
      |>.put (person 4) [("age", .int 55)] true |>.createIndex index
    let query : Query := { table, predicate := some (.atLeast "age" (.int 18)), limit := some 2 }
    let columns : List Column := [⟨table, .other, "__key", "id"⟩, ⟨table, .integer, "age", "age"⟩]
    let engine : Engine := ⟨{ useBoolBin := false }, Std.TreeMap.insert ∅ table columns⟩
    let numbers : Cursor → List Int64 :=
      fun cursor => (cursor.row.toOption.getD []).filterMap Value.int?
    Plan.ofQuery store query = .ok (.indexQuery index (.range "age" 18 Int64.maxValue)) ∧
      ∃ narrowed scanned : Execution,
        (engine.execute store query).1 = .ok narrowed ∧
        (engine.execute store.withoutIndexes query).1 = .ok scanned ∧
        (narrowed.rows numbers).1 = [[4, 55], [1, 30]] ∧ (scanned.rows numbers).1 = [[4, 55], [1, 30]] := by
  intro table person index store query columns engine numbers
  have planned : Plan.ofQuery store query = .ok (.indexQuery index (.range "age" 18 Int64.maxValue)) :=
    rfl
  have none_stored : MemoryStore.FreeOfDoubles {} query.table index.bin := fun _ _ there => nomatch there
  have whole (age : Int64) : ∀ x, Fields.get? [("age", Value.int age)] index.bin ≠ some (.float x) := by
    intro x double
    cases double
  have no_doubles : store.FreeOfDoubles query.table index.bin :=
    none_stored.put (person 1) _ true (whole 30) |>.put (person 2) _ true (whole 12)
      |>.put (person 3) _ true (whole 41) |>.put (person 4) _ true (whole 55)
  obtain ⟨_, narrowed, scanned, runs, scan_runs, reads⟩ :=
    @index_query_shows_rows_of_scan engine store query _ _ rfl planned rfl rfl no_doubles
  have evaluated : (engine.execute store query).1.toOption.map (fun shown => (shown.rows numbers).1) =
      some [[4, 55], [1, 30]] := by decide +kernel
  rw [runs] at evaluated
  obtain ⟨rows, _, _, narrowed_rows, scanned_rows, _⟩ := reads numbers
  have rows_eq : (narrowed.rows numbers).1 = [[4, 55], [1, 30]] := Option.some.inj evaluated
  rw [narrowed_rows] at rows_eq
  exact ⟨planned, narrowed, scanned, runs, scan_runs, by rw [narrowed_rows, rows_eq],
    by rw [scanned_rows, rows_eq]⟩

/-- Where index queries ask for bins and scans do not, an adult is shown with the age by the index and without
it by the scan. -/
theorem age_missing_without_index :
    let table : TableName := ⟨"test", "people"⟩
    let index : Index := ⟨"age_idx", "test", some "people", "age", .numeric⟩
    let store := (MemoryStore.put {} ⟨table, .int 1⟩ [("age", .int 30)] true).createIndex index
    let query : Query := { table, predicate := some (.atLeast "age" (.int 18)) }
    let engine : Engine :=
      ⟨{ scan := { includeBinData := false } },
        Std.TreeMap.insert ∅ table [⟨table, .integer, "age", "age"⟩]⟩
    let ages : Cursor → List (Option Int64) :=
      fun cursor => (cursor.row.toOption.getD []).map Value.int?
    store.Reached ∧ Plan.ofQuery store query = .ok (.indexQuery index (.range "age" 18 Int64.maxValue)) ∧
      store.deliveryFailure = none ∧ store.FreeOfDoubles query.table index.bin ∧
      ∃ narrowed scanned : Execution,
        (engine.execute store query).1 = .ok narrowed ∧
        (engine.execute store.withoutIndexes query).1 = .ok scanned ∧
        (narrowed.rows ages).1 = [[some 30]] ∧ (scanned.rows ages).1 = [[none]] := by
  intro table index store query engine ages
  have reached : store.Reached :=
    ((MemoryStore.Reached.new true).put ⟨table, .int 1⟩ _ true).createIndex index
  have planned : Plan.ofQuery store query = .ok (.indexQuery index (.range "age" 18 Int64.maxValue)) :=
    rfl
  have scans : Plan.ofQuery store.withoutIndexes query = .ok (.scan none) := rfl
  have none_stored : MemoryStore.FreeOfDoubles {} query.table index.bin := fun _ _ there => nomatch there
  have no_doubles : store.FreeOfDoubles query.table index.bin := by
    refine none_stored.put ⟨table, .int 1⟩ _ true fun x double => ?_
    cases double
  obtain ⟨narrowed, runs, _⟩ := engine.execute_indexQuery planned
  obtain ⟨scanned, scan_runs, _⟩ := engine.execute_scan scans
  have by_index : (engine.execute store query).1.toOption.map (fun shown => (shown.rows ages).1) =
      some [[some 30]] := by decide +kernel
  have by_scan : (engine.execute store.withoutIndexes query).1.toOption.map
      (fun shown => (shown.rows ages).1) = some [[none]] := by decide +kernel
  rw [runs] at by_index
  rw [scan_runs] at by_scan
  exact ⟨reached, planned, rfl, no_doubles, narrowed, scanned, runs, scan_runs,
    Option.some.inj by_index, Option.some.inj by_scan⟩

end Engine

end RecordQuery
