import RecordQuery.Proofs.Engine.Showing

/-!
What a selection of bins does to a query for rows: it takes columns away and does nothing else. The store
leaves out the bins that are not listed and the cursor the columns of that name, while predicate and limit
have the whole record; so the rows are as many as before and each is what is left of the row that it was.
Columns that are asked for by name are selected in the same way, although all bins are fetched for them.
-/

namespace RecordQuery

/-- The record with no more than the listed bins. -/
def Record.restrict (record : Record) (names : List String) : Record :=
  { record with bins := record.bins.restrict names }

/-- What a record shows, as a row under the columns. -/
def Record.rowUnder (record : Record) (columns : List Column) : List Value :=
  columns.map fun column => Cursor.shown column record

/-- What is left of a row once no more than the listed columns are kept. -/
def keptOfRow (columns : List Column) (names : List String) (row : List Value) : List Value :=
  ((columns.zip row).filter fun cell => names.contains cell.1.name).map Prod.snd

theorem StoredRecord.withBins_some (stored : StoredRecord) (includeBins : Bool) (names : List String) :
    stored.withBins includeBins (some names) = (stored.withBins includeBins none).restrict names := by
  cases includeBins <;> rfl

namespace Cursor

/-- On a record every column has something to show. -/
theorem row_onRow (columns : List Column) (record : Record) :
    row { columns, record := some record, position := .onRow } = .ok (record.rowUnder columns) := by
  have read : ∀ count ≤ columns.length,
      (List.range count).mapM (get { columns, record := some record, position := .onRow }) =
        .ok (record.rowUnder (columns.take count)) := by
    intro count
    induction count with
    | zero => exact fun _ => rfl
    | succ count ih =>
      intro inside
      have here : columns[count]? = some columns[count] := List.getElem?_eq_getElem inside
      have given : get { columns, record := some record, position := .onRow } count =
          .ok (shown columns[count] record) := by
        simp only [get, current, here]
        rfl
      rw [List.range_succ, List.mapM_append, ih (Nat.le_of_succ_le inside), List.mapM_cons, given,
        List.take_add_one, here, Record.rowUnder, Record.rowUnder, List.map_append]
      rfl
  have all := read columns.length (Nat.le_refl _)
  rw [List.take_length] at all
  exact all

/-- A column of a listed name shows the same, whatever other bins there are. -/
theorem shown_restrict {column : Column} {names : List String} (listed : column.name ∈ names)
    (record : Record) : shown column (record.restrict names) = shown column record := by
  have same_bin : (record.restrict names).bin? column.name = record.bin? column.name := by
    rw [Record.bin?, Record.restrict, Fields.get?_restrict, if_pos listed, Record.bin?]
  rw [shown, same_bin]
  rfl

end Cursor

namespace Record

/-- The row under the listed columns is what is left of the row under all of them. -/
theorem rowUnder_filter (record : Record) (columns : List Column) (names : List String) :
    record.rowUnder (columns.filter fun column => names.contains column.name) =
      keptOfRow columns names (record.rowUnder columns) := by
  have cells : columns.zip (record.rowUnder columns) =
      columns.map fun column => (column, Cursor.shown column record) := List.map_prod_left_eq_zip.symm
  rw [keptOfRow, cells, List.filter_map, List.map_map]
  rfl

/-- Under the listed columns nothing shows of the bins that are left out. -/
theorem rowUnder_restrict (record : Record) (columns : List Column) (names : List String) :
    (record.restrict names).rowUnder (columns.filter fun column => names.contains column.name) =
      record.rowUnder (columns.filter fun column => names.contains column.name) := by
  apply List.map_congr_left
  intro column kept
  exact Cursor.shown_restrict (List.contains_iff_mem.1 (List.mem_filter.1 kept).2) record

end Record

/-- Columns that are asked for by name are selected, unless the only one of them stands for all. -/
theorem Query.selection?_of_columns {query : Query} {names : List String}
    (all_bins : query.binNames = none) (asked : query.columns = names) (some_name : names ≠ [])
    (not_star : names ≠ ["*"]) : query.selection? = some names := by
  unfold selection?
  rw [all_bins, asked]
  split
  · next same => cases same
  · exact absurd rfl some_name
  · exact absurd rfl not_star
  · rfl

/-- What columns and bins a query asks for has no part in its plan, as long as it asks for no count. -/
theorem Plan.ofQuery_of_selection {store : MemoryStore} {query : Query} {columns : List String}
    {binNames : Option (List String)} (not_count : query.countLabel? = none)
    (not_count' : ({ query with columns, binNames } : Query).countLabel? = none) :
    ofQuery store { query with columns, binNames } = ofQuery store query := by
  rw [ofQuery, ofQuery, not_count, not_count']

namespace Engine

/-- Running the query gives the rows under the columns, and then the end. -/
def Tabulates (engine : Engine) (store : MemoryStore) (query : Query) (columns : List Column)
    (rows : List (List Value)) : Prop :=
  ∃ execution, (engine.execute store query).1 = .ok execution ∧ execution.cursor.columns = columns ∧
    ∃ last, execution.rows Cursor.row = (rows.map .ok, none, last) ∧ last.cursor.position = .afterLast

variable {engine : Engine} {store : MemoryStore} {query : Query}

/-- A query for rows that is under way has the selected columns. -/
theorem columns_of_execute {execution : Execution} (not_count : query.countLabel? = none)
    (runs : (engine.execute store query).1 = .ok execution) :
    execution.cursor.columns = engine.columns query := by
  rw [fst_execute] at runs
  cases planned : Plan.ofQuery store query with
  | error error =>
    rw [planned] at runs
    cases runs
  | ok plan =>
    have for_rows := Plan.isCount_of_ofQuery planned
    rw [not_count] at for_rows
    have columns_eq : engine.columnsFor query plan = engine.columns query := by
      cases plan <;> first | rfl | cases for_rows
    rw [planned] at runs
    dsimp only at runs
    split at runs
    · cases runs
      exact columns_eq
    · cases runs

theorem Shows.tabulates {records : List Record} (not_count : query.countLabel? = none)
    (shown : engine.Shows store query records none) :
    engine.Tabulates store query (engine.columns query)
      (records.map fun record => record.rowUnder (engine.columns query)) := by
  obtain ⟨execution, runs, reads⟩ := shown
  obtain ⟨last, rows, after⟩ := reads Cursor.row
  refine ⟨execution, runs, columns_of_execute not_count runs, last, ?_, by rw [after]⟩
  rw [rows, List.map_map]
  congr 1
  exact List.map_congr_left fun record _ => Cursor.row_onRow _ record

/-- The bins that are fetched of the records that a query shows. -/
def fetchedOf (binNames : Option (List String)) (records : List Record) : List Record :=
  binNames.elim records fun names => records.map fun record => record.restrict names

theorem map_withBins (chosen : List StoredRecord) (includeBins : Bool)
    (binNames : Option (List String)) :
    (chosen.map fun stored => stored.withBins includeBins binNames) =
      fetchedOf binNames (chosen.map fun stored => stored.withBins includeBins none) := by
  cases binNames with
  | none => rfl
  | some names =>
    rw [fetchedOf, Option.elim_some, List.map_map]
    exact List.map_congr_left fun stored _ => stored.withBins_some includeBins names

theorem toList_lookedUp (store : MemoryStore) (query : Query) (key : Key) (columns : List String)
    (binNames : Option (List String)) :
    (lookedUp store { query with columns, binNames } key).toList =
      fetchedOf binNames (lookedUp store { query with binNames := none } key).toList := by
  unfold lookedUp
  cases (store.table key.table)[key.slot]? with
  | none => cases binNames <;> rfl
  | some stored => cases binNames <;> rfl

/-- The query shows the same records whatever it selects, but for the bins that it does not fetch. -/
def ShowsSelected (engine : Engine) (store : MemoryStore) (query : Query) (records : List Record) :
    Prop :=
  ∀ columns binNames, ({ query with columns, binNames } : Query).countLabel? = none →
    engine.Shows store { query with columns, binNames } (fetchedOf binNames records) none

/-- Of what the store selects the bins that are not listed are left out. -/
theorem showsSelected_of_selected (no_failure : store.deliveryFailure = none)
    (selection : MemoryStore.Selection) (includeBins : Bool)
    (shows_selected : ∀ columns binNames, ({ query with columns, binNames } : Query).countLabel? = none →
      engine.Shows store { query with columns, binNames }
        (store.handedOut (selected store { query with columns, binNames } selection includeBins))
        store.ending.terminal.error?) :
    ∃ records, engine.ShowsSelected store query records := by
  refine ⟨selected store { query with binNames := none } selection includeBins, ?_⟩
  intro columns binNames not_count
  have shown := shows_selected columns binNames not_count
  rw [MemoryStore.handedOut_of_no_failure no_failure, MemoryStore.ending_of_no_failure no_failure,
    selected, map_withBins] at shown
  exact shown

theorem showsSelected_of_plan {plan : Plan} (readable : store.readFailure = none)
    (no_failure : store.deliveryFailure = none) (not_count : query.countLabel? = none)
    (planned : Plan.ofQuery store query = .ok plan) :
    ∃ records, engine.ShowsSelected store query records := by
  have for_rows := Plan.isCount_of_ofQuery planned
  rw [not_count] at for_rows
  have planned_for (columns) (binNames)
      (not_count' : ({ query with columns, binNames } : Query).countLabel? = none) :
      Plan.ofQuery store { query with columns, binNames } = .ok plan :=
    (Plan.ofQuery_of_selection not_count not_count').trans planned
  cases plan with
  | metadataCount label => cases for_rows
  | scanCount label => cases for_rows
  | lookup key =>
    refine ⟨(lookedUp store { query with binNames := none } key).toList, ?_⟩
    intro columns binNames not_count'
    rw [← toList_lookedUp store query key columns]
    exact shows_lookup (planned_for columns binNames not_count') readable
  | indexQuery index filter =>
    exact showsSelected_of_selected no_failure
      { indexFilter := some filter, expression := engine.config.expressionFor query }
      engine.config.query.includeBinData
      fun columns binNames not_count' => shows_indexQuery (planned_for columns binNames not_count')
  | scan partitions =>
    exact showsSelected_of_selected no_failure
      { partitions, expression := engine.config.expressionFor query }
      engine.config.scan.includeBinData
      fun columns binNames not_count' => shows_scan (planned_for columns binNames not_count')

/-- The rows of the selected columns, whether all bins are fetched or those of the selection only. -/
theorem ShowsSelected.tabulates {records : List Record} (shown : engine.ShowsSelected store query records)
    {columns : List String} {binNames : Option (List String)} {names : List String}
    (not_count : ({ query with columns, binNames } : Query).countLabel? = none)
    (selects : ({ query with columns, binNames } : Query).selection? = some names)
    (fetches : binNames = none ∨ binNames = some names) :
    let all := engine.schema.columns query.table
    engine.Tabulates store { query with columns, binNames }
      (all.filter fun column => names.contains column.name)
      ((records.map fun record => record.rowUnder all).map (keptOfRow all names)) := by
  intro all
  have columns_eq : engine.columns { query with columns, binNames } =
      all.filter fun column => names.contains column.name := by
    rw [Engine.columns, selects]
    rfl
  have rows_eq : ((fetchedOf binNames records).map fun record =>
      record.rowUnder (all.filter fun column => names.contains column.name)) =
      (records.map fun record => record.rowUnder all).map (keptOfRow all names) := by
    simp only [List.map_map, Function.comp_def, ← Record.rowUnder_filter]
    obtain rfl | rfl := fetches
    · rfl
    · rw [fetchedOf, Option.elim_some, List.map_map]
      exact List.map_congr_left fun record _ => record.rowUnder_restrict all names
  have tabulated := (shown columns binNames not_count).tabulates not_count
  rw [columns_eq, rows_eq] at tabulated
  exact tabulated

/-- A query for all columns and bins shows rows of which every selection keeps the columns that it lists:
as many rows and in the same order, whether the selection is by the bins to fetch or by the columns asked
for, which comes to the same. A query that has no plan has none with any selection. -/
theorem selection_only_removes_columns (readable : store.readFailure = none)
    (no_failure : store.deliveryFailure = none) (all_columns : query.columns = [])
    (all_bins : query.binNames = none) :
    (∃ error, ∀ columns binNames, ({ query with columns, binNames } : Query).countLabel? = none →
      engine.execute store { query with columns, binNames } = (.error (.plan error), store)) ∨
    ∃ rows, let all := engine.schema.columns query.table
      engine.Tabulates store query all rows ∧
      ∀ names, let listed := all.filter fun column => names.contains column.name
        engine.Tabulates store { query with binNames := some names } listed
          (rows.map (keptOfRow all names)) ∧
        (names ≠ [] → names ≠ ["*"] → ({ query with columns := names } : Query).isCount = false →
          engine.Tabulates store { query with columns := names } listed
            (rows.map (keptOfRow all names))) := by
  obtain ⟨table, _, predicate, primaryKey, offset, limit, _⟩ := query
  obtain rfl := all_columns
  obtain rfl := all_bins
  let query : Query := { table, predicate, primaryKey, offset, limit }
  have not_count : query.countLabel? = none := rfl
  change (∃ error, ∀ columns binNames, ({ query with columns, binNames } : Query).countLabel? = none →
    engine.execute store { query with columns, binNames } = (.error (.plan error), store)) ∨ _
  cases planned : Plan.ofQuery store query with
  | error error =>
    left
    refine ⟨error, ?_⟩
    intro columns binNames not_count'
    rw [execute, Plan.ofQuery_of_selection not_count not_count', planned]
  | ok plan =>
    right
    obtain ⟨records, shown⟩ :=
      @showsSelected_of_plan engine store query plan readable no_failure not_count planned
    refine ⟨_, (shown [] none rfl).tabulates rfl, ?_⟩
    intro names
    refine ⟨shown.tabulates rfl rfl (Or.inr rfl), ?_⟩
    intro some_name not_star not_count'
    have selects : ({ query with columns := names } : Query).selection? = some names :=
      Query.selection?_of_columns rfl rfl some_name not_star
    exact shown.tabulates (Option.not_isSome_iff_eq_none.1 (ne_true_of_eq_false not_count')) selects
      (Or.inl rfl)

/-- The name and the key of the adults, told from the others by an age that is not fetched. -/
theorem adults_without_their_age :
    let table : TableName := ⟨"test", "people"⟩
    let column : String → Column := fun name => ⟨table, .other, name, name⟩
    let all := [column "__key", column "name", column "age"]
    let store := MemoryStore.put {} ⟨table, .int 1⟩ [("age", .int 30), ("name", .string "Ann")] true
      |>.put ⟨table, .int 2⟩ [("age", .int 12), ("name", .string "Bob")] true
    let query : Query := { table, predicate := some (.atLeast "age" (.int 18)), limit := some 10 }
    let engine : Engine := ⟨{}, (∅ : Schema).insert table all⟩
    ∃ rows, engine.Tabulates store query all rows ∧
      engine.Tabulates store { query with binNames := some ["name", "__key"] }
        [column "__key", column "name"] (rows.map (keptOfRow all ["name", "__key"])) ∧
      engine.Tabulates store { query with columns := ["name", "__key"] }
        [column "__key", column "name"] (rows.map (keptOfRow all ["name", "__key"])) := by
  intro table column all store query engine
  have planned : Plan.ofQuery store query = .ok (.scan none) := rfl
  have schema : engine.schema.columns table = all := by
    simp [engine, Schema.columns]
  obtain ⟨error, refused⟩ | ⟨rows, shown, selected⟩ :=
    @selection_only_removes_columns engine store query rfl rfl rfl rfl
  · obtain ⟨execution, runs, _⟩ := engine.shows_scan planned
    cases runs.symm.trans (congrArg Prod.fst (refused [] none rfl))
  · obtain ⟨fetched, asked⟩ := selected ["name", "__key"]
    rw [schema] at shown fetched asked
    exact ⟨rows, shown, fetched, asked (by decide) (by decide) rfl⟩

end Engine

end RecordQuery
