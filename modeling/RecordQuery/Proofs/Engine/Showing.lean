import RecordQuery.Proofs.Engine.Delivery
import RecordQuery.Proofs.Store.Listing

/-!
What a query for rows shows. It is under way as soon as it has a plan, and then gives one row for each of
some records, in their order, before the rows end or fail: of a scan and of an index query these are the
records that the store selects, as far as they are handed out, and of a lookup the record that was found.
A query shows no more and no less than that, so two answers to one query are the same.
-/

namespace RecordQuery.Engine

/-- Running the query gives one row for each of the records, in their order, and after them the end of
the rows or the failure. -/
def Shows (engine : Engine) (store : MemoryStore) (query : Query) (records : List Record)
    (failure : Option QueryError) : Prop :=
  ∃ execution, (engine.execute store query).1 = .ok execution ∧
    ∀ {α : Type} (read : Cursor → α), ∃ last,
      execution.rows read =
        (records.map fun record =>
            read { columns := engine.columns query, record := some record, position := .onRow },
          failure, last) ∧
      last.cursor = { columns := engine.columns query, position := .afterLast }

variable {engine : Engine} {store : MemoryStore} {query : Query}

/-- What a query shows is determined by the store. -/
theorem Shows.unique {records records' : List Record} {failure failure' : Option QueryError}
    (shown : engine.Shows store query records failure)
    (shown' : engine.Shows store query records' failure') : records = records' ∧ failure = failure' := by
  obtain ⟨execution, runs, reads⟩ := shown
  obtain ⟨execution', runs', reads'⟩ := shown'
  obtain rfl : execution = execution' := Except.ok.inj (runs.symm.trans runs')
  obtain ⟨_, rows, _⟩ := reads Cursor.current
  obtain ⟨_, rows', _⟩ := reads' Cursor.current
  rw [rows, Prod.mk.injEq, Prod.mk.injEq] at rows'
  exact ⟨(List.map_inj_right fun _ _ same => Except.ok.inj same).1 rows'.1, rows'.2.1⟩

theorem shows_of_reads {execution : Execution} {records : List Record} {terminal : Terminal}
    (runs : (engine.execute store query).1 = .ok execution)
    (cursor : execution.cursor = { columns := engine.columns query })
    (reads : execution.Reads records terminal) :
    engine.Shows store query records terminal.error? := by
  refine ⟨execution, runs, ?_⟩
  intro α read
  obtain ⟨last, rows, after⟩ := reads.rows read
  rw [cursor] at rows after
  exact ⟨last, rows, after⟩

theorem shows_scan {partitions : Option PartitionRange}
    (planned : Plan.ofQuery store query = .ok (.scan partitions)) :
    engine.Shows store query
      (store.handedOut <| selected store query
        { partitions, expression := engine.config.expressionFor query }
        engine.config.scan.includeBinData)
      store.ending.terminal.error? := by
  obtain ⟨execution, runs, cursor, reads⟩ := engine.execute_scan planned
  exact shows_of_reads runs cursor reads

theorem shows_indexQuery {index : Index} {filter : Filter}
    (planned : Plan.ofQuery store query = .ok (.indexQuery index filter)) :
    engine.Shows store query
      (store.handedOut <| selected store query
        { indexFilter := some filter, expression := engine.config.expressionFor query }
        engine.config.query.includeBinData)
      store.ending.terminal.error? := by
  obtain ⟨execution, runs, cursor, reads⟩ := engine.execute_indexQuery planned
  exact shows_of_reads runs cursor reads

/-- A stream that holds all its records shows them. -/
theorem reads_finished (columns : List Column) (capacity : Capacity) (records : List Record) :
    ({ cursor := { columns }, feed := .finished capacity records } : Execution).Reads records
      .completed := by
  have ahead : (Feed.finished capacity records).ahead = records := by
    rw [Feed.ahead, Feed.finished]
    simp only [Delivery.ended, Option.toList_none, List.append_nil]
  exact ⟨Or.inl rfl, ⟨rfl, ahead, Or.inr ⟨rfl, rfl, rfl, rfl⟩⟩, rfl⟩

/-- The record of a key as a lookup shows it; the key that was asked for stands in where the store kept
none. -/
def lookedUp (store : MemoryStore) (query : Query) (key : Key) : Option Record :=
  ((store.table key.table)[key.slot]?).map fun stored =>
    let record := stored.withBins true query.binNames
    { record with key := record.key.or (some key) }

theorem fst_lookup {key : Key} (readable : store.readFailure = none) :
    (engine.lookup store query key).1 =
      .ok (.finished (.bounded 1) (lookedUp store query key).toList) := by
  rw [fst_lookup_eq, MemoryStore.fst_get readable, Except.map, ← Option.toList_map, Option.map_map]
  simp only [StoredRecord.toRecord_eq_withBins]
  rfl

/-- A lookup shows the record of its key, if the store has one. -/
theorem shows_lookup {key : Key} (planned : Plan.ofQuery store query = .ok (.lookup key))
    (readable : store.readFailure = none) :
    engine.Shows store query (lookedUp store query key).toList none :=
  shows_of_reads (engine.execute_of_feedFor planned (fst_lookup readable)) rfl (reads_finished ..)

/-- The beginning of a list that a limit leaves of it. -/
def upTo {α : Type} (limit : Option UInt64) (records : List α) : List α :=
  limit.elim records fun limit => records.take limit.toNat

theorem map_upTo {α β : Type} (convert : α → β) (limit : Option UInt64) (records : List α) :
    (upTo limit records).map convert = upTo limit (records.map convert) := by
  cases limit with
  | none => rfl
  | some limit => exact List.map_take

/-- No limit but zero cuts a single record off. -/
theorem upTo_eq_self {α : Type} {limit : Option UInt64} (limited : limit ≠ some 0) (found : Option α) :
    upTo limit found.toList = found.toList := by
  cases limit with
  | none => rfl
  | some limit =>
    apply List.take_of_length_le
    have positive : limit.toNat ≠ 0 := by
      intro zero
      exact limited (congrArg some (UInt64.toNat_inj.1 zero))
    calc found.toList.length ≤ 1 := Option.length_toList_le
      _ ≤ limit.toNat := Nat.one_le_iff_ne_zero.2 positive

/-- A limit other than zero keeps the beginning of what a query selects. -/
theorem selected_eq_upTo (limited : query.limit ≠ some 0) (selection : MemoryStore.Selection)
    (includeBins : Bool) :
    selected store query selection includeBins =
      upTo query.limit ((store.select query.table selection 0).map fun stored =>
        stored.withBins includeBins query.binNames) := by
  rw [selected, ← map_upTo]
  cases given : query.limit with
  | none => rfl
  | some limit =>
    have positive : limit ≠ 0 := by
      rintro rfl
      exact limited given
    rw [Option.getD_some, MemoryStore.select_of_limit _ _ _ positive]
    rfl

end RecordQuery.Engine
