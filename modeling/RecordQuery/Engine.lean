import RecordQuery.Connection.Config
import RecordQuery.Cursor
import RecordQuery.Plan.Explanation
import RecordQuery.Schema

/-!
Running queries. A query is planned, the policy for its plan is made from the connection's
configuration, the store is asked, and the rows are read from the answer through a cursor.
-/

namespace RecordQuery

namespace Config

/-- The expression of a query, in the form that the store of this connection understands. -/
def expressionFor (config : Config) (query : Query) : Option Expression :=
  query.predicate.map fun predicate =>
    if config.useBoolBin then predicate.expression else predicate.expression.boolsAsInts

/-- The policy of a scan for rows. -/
def scanPolicy (config : Config) (query : Query) (partitions : Option PartitionRange) : ScanPolicy :=
  { config.scan with
    base := { config.scan.base with filter := config.expressionFor query }
    maxRecords := query.limit.getD 0
    partitions
    recordsPerSecond :=
      if config.scan.recordsPerSecond = 0 then defaultRecordsPerSecond
      else config.scan.recordsPerSecond }

/-- The policy of a scan for a count, which looks at every record and returns no bins. -/
def countPolicy (config : Config) (query : Query) : ScanPolicy :=
  { config.scanPolicy query none with includeBinData := false, maxRecords := 0 }

def queryPolicy (config : Config) (query : Query) : QueryPolicy :=
  { config.query with
    base := { config.query.base with filter := config.expressionFor query }
    maxRecords := query.limit.getD 0 }

/-- How many records may wait between the store and the cursor. -/
def capacity (config : Config) : Capacity :=
  config.queueCapacity.elim .unbounded fun capacity => .bounded capacity.toNat

end Config

/-- A query under way: its cursor, what the cursor reads, and the row count. -/
structure Execution where
  cursor : Cursor
  feed : Feed
  rowCount : Int := Cursor.unknownRowCount

namespace Execution

def next? (execution : Execution) : Option (Except QueryError Bool × Execution) :=
  (execution.cursor.next? execution.feed.stream).map fun (result, cursor, stream) =>
    (result, { execution with cursor, feed := execution.feed.resume stream })

def close (execution : Execution) : Execution :=
  let (cursor, stream) := execution.cursor.close execution.feed.stream
  { execution with cursor, feed := execution.feed.resume stream }

/-- Reads at most `fuel` more rows, each turned into a result, up to the end or a failure. -/
def rowsFor {α : Type} (read : Cursor → α) (fuel : Nat) (execution : Execution) :
    List α × Option QueryError × Execution :=
  match fuel with
  | 0 => ([], none, execution)
  | fuel + 1 =>
    match execution.next? with
    | some (.ok true, onRow) =>
      let (rest, error, last) := rowsFor read fuel onRow
      (read onRow.cursor :: rest, error, last)
    | some (.ok false, execution) => ([], none, execution)
    | some (.error error, execution) => ([], some error, execution)
    | none => ([], none, execution)

/-- A bound on the rows that are left. -/
def rowsLeft (execution : Execution) : Nat :=
  execution.feed.stream.buffered.length + execution.feed.delivery.waiting.length + 2

/-- Reads all rows, and the failure if one ends them. -/
def rows {α : Type} (read : Cursor → α) (execution : Execution) :
    List α × Option QueryError × Execution :=
  execution.rowsFor read execution.rowsLeft

end Execution

structure Engine where
  config : Config
  schema : Schema

namespace Engine

variable {σ : Type} [RecordStore σ]

def explain (store : σ) (query : Query) : Explanation :=
  match Plan.ofQuery store query with
  | .ok plan => .ofPlan query plan
  | .error error => .ofError query error

/-- The schema's columns that a query shows. -/
def columns (engine : Engine) (query : Query) : List Column :=
  Column.select query.selection? (engine.schema.columns query.table)

def countColumn (query : Query) (label : String) : Column := ⟨query.table, .integer, label, label⟩

/-- A single row that shows a count; counts beyond the integers are cut to the greatest one. -/
def countRow (label : String) (count : Nat) : Feed :=
  let shown := if count ≤ Int64.maxValue.toNatClampNeg then Int64.ofNat count else Int64.maxValue
  .finished (.bounded 1) [{ key := none, bins := [(label, .int shown)], generation := 1 }]

/-- The number of records of a feed, unless it fails. -/
def countItems : Nat → Feed → Nat → Except StoreError Nat × Feed
  | 0, feed, count => (.ok count, feed)
  | fuel + 1, feed, count =>
    match feed.next? with
    | some (.record _, feed) => countItems fuel feed (count + 1)
    | some (.finished, feed) => (.ok count, feed)
    | some (.failed error, feed) => (.error error, feed)
    | none => (.ok count, feed)

/-- Counts the records of a scan by reading it to its end. -/
def countByScan (engine : Engine) (store : σ) (query : Query) : Except StoreError Nat × σ :=
  match RecordStore.scan store (engine.config.countPolicy query) query.table none with
  | (.error error, store) => (.error error, store)
  | (.ok delivery, store) =>
    let feed := Feed.start .unbounded delivery
    let (result, feed) := countItems (feed.stream.buffered.length + 1) feed 0
    (result, RecordStore.noteHandedOut store feed.delivery.handedOut)

/-- The record of a key; the key that was asked for stands in where the store kept none. -/
def lookup (engine : Engine) (store : σ) (query : Query) (key : Key) : Except StoreError Feed × σ :=
  match RecordStore.get store engine.config.read key query.binNames with
  | (.error error, store) => (.error error, store)
  | (.ok found, store) =>
    let keyed := found.toList.map fun record => { record with key := record.key.or (some key) }
    (.ok (.finished (.bounded 1) keyed), store)

def startDelivery (engine : Engine) (answer : Except StoreError Delivery × σ) :
    Except StoreError Feed × σ :=
  (answer.1.map (Feed.start engine.config.capacity), answer.2)

/-- Asks the store for the records of a plan. -/
def feedFor (engine : Engine) (store : σ) (query : Query) : Plan → Except StoreError Feed × σ
  | .metadataCount label =>
    ((RecordStore.recordCount store query.table).map fun count => countRow label count.toNat, store)
  | .scanCount label =>
    let (count, store) := engine.countByScan store query
    (count.map (countRow label), store)
  | .lookup key => engine.lookup store query key
  | .indexQuery index filter =>
    let statement : Statement :=
      { table := ⟨index.space, query.table.set⟩, binNames := query.binNames, indexName := index.name,
        filter }
    engine.startDelivery (RecordStore.query store (engine.config.queryPolicy query) statement)
  | .scan partitions =>
    engine.startDelivery
      (RecordStore.scan store (engine.config.scanPolicy query partitions) query.table query.binNames)

def columnsFor (engine : Engine) (query : Query) : Plan → List Column
  | .metadataCount label => [countColumn query label]
  | .scanCount label => [countColumn query label]
  | _ => engine.columns query

/-- Runs a query. What fails before the first row is reported here, the rest by the cursor. -/
def execute (engine : Engine) (store : σ) (query : Query) : Except QueryError Execution × σ :=
  match Plan.ofQuery store query with
  | .error error => (.error (.plan error), store)
  | .ok plan =>
    match engine.feedFor store query plan with
    | (.ok feed, store) => (.ok { cursor := { columns := engine.columnsFor query plan }, feed }, store)
    | (.error error, store) => (.error (.store error), store)

end Engine

end RecordQuery
