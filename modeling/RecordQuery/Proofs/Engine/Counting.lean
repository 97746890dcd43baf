import RecordQuery.Proofs.Engine.Scan

/-!
Queries for a count. Their answer is one row with one number, which is that of the rows that a scan shows
for the same predicate: the limit, the offset, the primary key and the bins of the query play no part in
it, and a scan without bins tests the predicate on the whole record all the same. Where there is nothing
to test the store is asked for the size of the table and hands out no record. A number beyond the integers
is cut to the greatest one.
-/

namespace RecordQuery

/-- The query for all the rows that a query counts, with these columns. -/
def Query.forRows (query : Query) (columns : List String) : Query :=
  { table := query.table, columns, predicate := query.predicate }

/-- What names a count never names the user key. -/
theorem Query.label_ne_keyField {query : Query} {label : String}
    (labelled : query.countLabel? = some label) : label ≠ keyField := by
  have not_count : isCountName keyField = false := by decide +kernel
  rintro rfl
  unfold countLabel? at labelled
  split at labelled
  · next column _ =>
    split at labelled
    · next is_count =>
      cases labelled
      rw [not_count] at is_count
      cases is_count
    · cases labelled
  · cases labelled

namespace Engine

/-- Running the query gives a single row with a single column of this label, and in it the number. -/
def ShowsCount (engine : Engine) (store : MemoryStore) (query : Query) (label : String)
    (number : Int64) : Prop :=
  ∃ execution, (engine.execute store query).1 = .ok execution ∧
    execution.cursor.columns.map Column.label = [label] ∧
    ∃ last, execution.rows Cursor.row = ([.ok [.int number]], none, last) ∧
      last.cursor.position = .afterLast

/-- How many records the store has handed out once the query was run and its rows were read. -/
def fetchedAfter (engine : Engine) (store : MemoryStore) (query : Query) : Nat :=
  match engine.execute store query with
  | (.ok execution, after) =>
    after.fetched + (execution.rows Cursor.row).2.2.feed.delivery.handedOut
  | (.error _, after) => after.fetched

/-- The number that is shown for a count. -/
def shownCount (count : Nat) : Int64 :=
  if count ≤ Int64.maxValue.toNatClampNeg then Int64.ofNat count else Int64.maxValue

theorem toInt_shownCount (count : Nat) :
    (shownCount count).toInt = min (count : Int) Int64.maxValue.toInt := by
  have greatest : Int64.maxValue.toInt = 2 ^ 63 - 1 := by decide
  have greatest' : Int64.maxValue.toNatClampNeg = 2 ^ 63 - 1 := by decide
  unfold shownCount
  split
  · next fits =>
    rw [greatest'] at fits
    rw [Int64.toInt_ofNat_of_lt (by omega)]
    omega
  · next beyond =>
    rw [greatest'] at beyond
    omega

variable {engine : Engine} {store : MemoryStore} {query : Query} {label : String}

/-- The rows of a count, read from the stream that holds it. -/
theorem rows_countRow (query : Query) (different : label ≠ keyField) (count : Nat) :
    ∃ last, ({ cursor := { columns := [countColumn query label] }
               feed := countRow label count } : Execution).rows Cursor.row =
        ([.ok [.int (shownCount count)]], none, last) ∧
      last.cursor.position = .afterLast ∧ last.feed.delivery.handedOut = 0 := by
  have shown : Cursor.shown (countColumn query label)
      { key := none, bins := [(label, .int (shownCount count))], generation := 1 } =
        .int (shownCount count) := by
    simp [Cursor.shown, countColumn, different, Record.bin?, Fields.get?_cons]
  rw [← shown]
  exact ⟨_, rfl, rfl, rfl⟩

/-- The records that a count counts. -/
def counted (engine : Engine) (store : MemoryStore) (query : Query) : List StoredRecord :=
  store.select query.table { expression := engine.config.expressionFor query } 0

theorem countItems_of_carries {feed : Feed} {records : List Record}
    (carries : feed.Carries records .completed) (settled : feed.Settled) {fuel : Nat}
    (enough : records.length < fuel) (count : Nat) :
    (countItems fuel feed count).1 = .ok (count + records.length) := by
  induction records generalizing feed fuel count with
  | nil =>
    obtain ⟨fuel, rfl⟩ := Nat.exists_eq_add_one_of_ne_zero (Nat.ne_of_gt enough)
    obtain ⟨taken, _⟩ := carries.next?_end settled
    rw [countItems, Feed.next?, taken]
    rfl
  | cons record rest ih =>
    obtain ⟨fuel, rfl⟩ := Nat.exists_eq_add_one_of_ne_zero (Nat.ne_of_gt (Nat.zero_lt_of_lt enough))
    obtain ⟨stream, taken, carries⟩ := carries.next?_record settled
    have counted := ih carries (feed.settled_resume stream) (Nat.lt_of_succ_lt_succ enough) (count + 1)
    rw [countItems, Feed.next?, taken]
    simp only [Option.map_some, counted, List.length_cons]
    congr 1
    omega

/-- A scan for a count comes to the number of records that it selects. -/
theorem fst_countByScan (no_failure : store.deliveryFailure = none) :
    (engine.countByScan store query).1 = .ok (engine.counted store query).length := by
  let records := (engine.counted store query).map fun stored => stored.withBins false none
  have scanned : (store.scan (engine.config.countPolicy query) query.table none).1 =
      { waiting := records, ending := some .success } := by
    rw [MemoryStore.fst_scan, MemoryStore.handedOut_of_no_failure no_failure,
      MemoryStore.ending_of_no_failure no_failure]
    rfl
  have carries := Feed.carries_start .unbounded records .success
  have settled := Feed.settled_start .unbounded { waiting := records, ending := some .success }
  have buffered := Feed.buffered_start_unbounded records .success
  have asked : (engine.countByScan store query).1 =
      let feed := Feed.start .unbounded (store.scan (engine.config.countPolicy query) query.table none).1
      (countItems (feed.stream.buffered.length + 1) feed 0).1 := rfl
  rw [asked, scanned]
  dsimp only
  rw [countItems_of_carries carries settled (by rw [buffered]; omega), Nat.zero_add, List.length_map]

/-- Without a predicate everything in the table is counted. -/
theorem length_counted (given : query.predicate = none) :
    (engine.counted store query).length = (store.table query.table).size := by
  have no_test : engine.config.expressionFor query = none := by rw [Config.expressionFor, given]; rfl
  have all : (store.table query.table).toList.filter (fun _ => true) =
      (store.table query.table).toList := List.filter_eq_self.2 fun _ _ => rfl
  rw [counted, no_test]
  simp [MemoryStore.select, MemoryStore.Selection.admits, all]

/-- The number of a count without a predicate comes from the size of the table. -/
theorem execute_metadataCount (labelled : query.countLabel? = some label)
    (given : query.predicate = none) (fits : (store.table query.table).size < UInt64.size) :
    engine.execute store query =
      (.ok { cursor := { columns := [countColumn query label] }
             feed := countRow label (engine.counted store query).length }, store) := by
  have planned : Plan.ofQuery store query = .ok (.metadataCount label) := by
    rw [Plan.ofQuery, labelled, given]
  have size : (store.recordCount query.table).toNat = (engine.counted store query).length := by
    rw [length_counted given, MemoryStore.recordCount, UInt64.toNat_ofNat_of_lt' fits]
  rw [← size, execute, planned]
  rfl

/-- The number of a count with a predicate comes from a scan. -/
theorem fst_execute_scanCount (labelled : query.countLabel? = some label) {predicate : Predicate}
    (given : query.predicate = some predicate) (no_failure : store.deliveryFailure = none) :
    (engine.execute store query).1 =
      .ok { cursor := { columns := [countColumn query label] }
            feed := countRow label (engine.counted store query).length } := by
  have planned : Plan.ofQuery store query = .ok (.scanCount label) := by
    rw [Plan.ofQuery, labelled, given]
  refine engine.execute_of_feedFor planned ?_
  change (engine.countByScan store query).1.map (countRow label) = _
  rw [fst_countByScan no_failure]
  rfl

theorem showsCount (labelled : query.countLabel? = some label)
    (no_failure : store.deliveryFailure = none)
    (fits : query.predicate = none → (store.table query.table).size < UInt64.size) :
    engine.ShowsCount store query label (shownCount (engine.counted store query).length) := by
  obtain ⟨last, rows, after, _⟩ :=
    rows_countRow query (Query.label_ne_keyField labelled) (engine.counted store query).length
  refine ⟨_, ?_, rfl, last, rows, after⟩
  cases given : query.predicate with
  | none => rw [execute_metadataCount labelled given (fits given)]
  | some predicate => exact fst_execute_scanCount labelled given no_failure

/-- A scan for the rows shows those that are counted, whichever columns are asked for. -/
theorem shows_counted {columns : List String} (no_failure : store.deliveryFailure = none)
    {partitions : Option PartitionRange}
    (planned : Plan.ofQuery store (query.forRows columns) = .ok (.scan partitions)) :
    engine.Shows store (query.forRows columns)
      ((engine.counted store query).map (engine.scanned (query.forRows []))) none := by
  have from_start : Plan.ofQuery store (query.forRows columns) = .ok (.scan none) :=
    Plan.ofQuery_scan planned none
  have shown := engine.shows_scan from_start
  rw [MemoryStore.handedOut_of_no_failure no_failure, MemoryStore.ending_of_no_failure no_failure]
    at shown
  exact shown

/-- A count comes to the number of rows that a scan shows for the same predicate, whatever else the query
says; without a predicate that is the size of the table, which the store tells in 64 bits, and no record is
fetched. -/
theorem count_agrees_with_scan (no_failure : store.deliveryFailure = none)
    (labelled : query.countLabel? = some label)
    (fits : query.predicate = none → (store.table query.table).size < UInt64.size) :
    ∃ (number : Int64) (records : List Record),
      engine.ShowsCount store query label number ∧
      number.toInt = min (records.length : Int) Int64.maxValue.toInt ∧
      (∀ columns, (query.forRows columns).countLabel? = none →
        engine.Shows store.withoutIndexes (query.forRows columns) records none ∧
        ∀ partitions, Plan.ofQuery store (query.forRows columns) = .ok (.scan partitions) →
          engine.Shows store (query.forRows columns) records none) ∧
      (query.predicate = none → records.length = (store.table query.table).size ∧
        engine.fetchedAfter store query = store.fetched) := by
  refine ⟨shownCount (engine.counted store query).length,
    (engine.counted store query).map (engine.scanned (query.forRows [])),
    showsCount labelled no_failure fits, ?number, ?rows, ?whole⟩
  case number => rw [toInt_shownCount, List.length_map]
  case rows =>
    intro columns for_rows
    have planned : Plan.ofQuery store.withoutIndexes (query.forRows columns) = .ok (.scan none) :=
      Plan.ofQuery_of_no_indexes rfl for_rows rfl
    have no_failure_without : store.withoutIndexes.deliveryFailure = none := no_failure
    exact ⟨shows_counted no_failure_without planned,
      fun partitions planned => shows_counted no_failure planned⟩
  case whole =>
    intro given
    refine ⟨by rw [List.length_map, length_counted given], ?_⟩
    obtain ⟨last, rows, _, none_handed⟩ :=
      rows_countRow query (Query.label_ne_keyField labelled) (engine.counted store query).length
    rw [fetchedAfter, execute_metadataCount labelled given (fits given)]
    simp only [rows, none_handed, Nat.add_zero]

/-- Of three people two are adults, and that is their count also for a query that is limited to one row
from the last partition on. -/
theorem adults_counted :
    let person : Int64 → Key := fun id => ⟨⟨"test", "people"⟩, .int id⟩
    let index : Index := ⟨"age_idx", "test", some "people", "age", .numeric⟩
    let store := MemoryStore.put {} (person 1) [("age", .int 30)] true
      |>.put (person 2) [("age", .int 41)] true |>.put (person 3) [("age", .int 12)] true
      |>.createIndex index
    let query : Query :=
      { table := ⟨"test", "people"⟩, columns := ["COUNT(*)"]
        predicate := some (.atLeast "age" (.int 18)), primaryKey := some (.int 3), limit := some 1
        offset := some 4096, binNames := some [] }
    let engine : Engine := ⟨{}, ∅⟩
    ∃ (number : Int64) (records : List Record),
      engine.ShowsCount store query "COUNT(*)" number ∧ number.toInt = 2 ∧
      engine.Shows store.withoutIndexes (query.forRows []) records none ∧ records.length = 2 := by
  intro person index store query engine
  have labelled : query.countLabel? = some "COUNT(*)" := by decide +kernel
  have fits : (store.table query.table).size < UInt64.size := by decide +kernel
  have two : (engine.counted store query).length = 2 := by decide +kernel
  obtain ⟨number, records, shown, same, as_rows, _⟩ :=
    @count_agrees_with_scan engine store query _ rfl labelled fun _ => fits
  have scanned := (as_rows [] rfl).1
  have planned : Plan.ofQuery store.withoutIndexes (query.forRows []) = .ok (.scan none) := rfl
  have no_failure : store.withoutIndexes.deliveryFailure = none := rfl
  have length : records.length = 2 := by
    rw [(scanned.unique (shows_counted no_failure planned)).1, List.length_map]
    exact two
  exact ⟨number, records, shown, by rw [same, length]; decide, scanned, length⟩

end Engine

end RecordQuery
