import RecordQuery.Proofs.Engine.Showing

/-!
How a store answers the index query that was planned for it. The plan names an index that the store has,
over the table and on the bin that it is asked for, so the store never turns the query down: it delivers
the records of the query's table that the filter selects and that satisfy the predicate, in their order,
as far as the limit and a failure that was ordered let it.
-/

namespace RecordQuery.Engine

/-- The filter selects the record, and what the store evaluates of the predicate holds on all of it. -/
def Narrows (engine : Engine) (query : Query) (filter : Filter) (stored : StoredRecord) : Prop :=
  filter.selects stored.whole = true ∧
    ∀ expression ∈ engine.config.expressionFor query, expression.holds stored.whole = true

/-- What an index query shows of a stored record. -/
def narrowed (engine : Engine) (query : Query) (stored : StoredRecord) : Record :=
  stored.withBins engine.config.query.includeBinData query.binNames

variable {engine : Engine} {store : MemoryStore} {query : Query} {index : Index} {filter : Filter}

/-- The selection of an index query admits just the records that its filter and its predicate do. -/
theorem admits_iff_narrows (stored : StoredRecord) :
    MemoryStore.Selection.admits
        { indexFilter := some filter, expression := engine.config.expressionFor query }
        stored.key.slot stored = true ↔
      engine.Narrows query filter stored := by
  rw [MemoryStore.Selection.admits, Option.all_none, Bool.true_and, Option.all_some, Bool.and_eq_true,
    Option.all_eq_true]
  rfl

/-- The rows of a delivery fail only as was ordered for it. -/
theorem error?_ending (store : MemoryStore) :
    store.ending.terminal.error? = store.deliveryFailure.map fun ordered => .store ordered.2 := by
  unfold MemoryStore.ending
  cases store.deliveryFailure <;> rfl

/-- What is handed out of a selection is the beginning of the selected records, and all of them without a
limit and a failure. -/
theorem handedOut_selected (keyed : store.Keyed) :
    ∃ listed shown, store.Lists query.table (engine.Narrows query filter) listed ∧ shown <+: listed ∧
      (query.limit = none → store.deliveryFailure = none → shown = listed) ∧
      store.handedOut (selected store query
          { indexFilter := some filter, expression := engine.config.expressionFor query }
          engine.config.query.includeBinData) = shown.map (engine.narrowed query) := by
  let selection : MemoryStore.Selection :=
    { indexFilter := some filter, expression := engine.config.expressionFor query }
  let listed := store.select query.table selection 0
  have lists : store.Lists query.table (engine.Narrows query filter) listed :=
    (MemoryStore.lists_select keyed query.table selection).congr admits_iff_narrows
  cases failure : store.deliveryFailure with
  | none =>
    refine ⟨listed, store.select query.table selection (query.limit.getD 0), lists,
      store.select_prefix query.table selection _, ?_, MemoryStore.handedOut_of_no_failure failure _⟩
    intro unlimited _
    rw [unlimited]
    rfl
  | some ordered =>
    obtain ⟨shown, start, handed⟩ := store.handedOut_map (engine.narrowed query)
      (store.select query.table selection (query.limit.getD 0))
    exact ⟨listed, shown, lists, start.trans (store.select_prefix query.table selection _), nofun, handed⟩

/-- A planned index query is always accepted. The store is asked for the query's own table, by the name of
the index and with a filter on its bin; there is no failure but one that was ordered; and what is shown are
the records of the table, from the first on, that the filter selects and that satisfy the predicate. -/
theorem planned_index_query_is_answered (reached : store.Reached)
    (planned : Plan.ofQuery store query = .ok (.indexQuery index filter)) :
    filter.bin = index.bin ∧
    (engine.execute store query).2.lastQuery = some (engine.config.queryPolicy query,
      { table := query.table, binNames := query.binNames, indexName := index.name, filter }) ∧
    ∃ listed shown, store.Lists query.table (engine.Narrows query filter) listed ∧ shown <+: listed ∧
      (query.limit = none → store.deliveryFailure = none → shown = listed) ∧
      engine.Shows store query (shown.map (engine.narrowed query))
        (store.deliveryFailure.map fun ordered => .store ordered.2) := by
  refine ⟨(Plan.ofQuery_indexQuery planned).bin_eq, ?asked, ?shows⟩
  case asked => rw [engine.snd_execute planned, engine.feedFor_indexQuery planned]
  case shows =>
    obtain ⟨listed, shown, lists, start, whole, handed⟩ := handedOut_selected reached.keyed
    refine ⟨listed, shown, lists, start, whole, ?_⟩
    rw [← handed, ← error?_ending]
    exact engine.shows_indexQuery planned

/-- An index on another set was replaced by one on the whole namespace, and a nearer one dropped again: the
query for adults asks for the one that is left, and shows the names of adults only. -/
theorem adults_by_replaced_index :
    let person : Int64 → Key := fun id => ⟨⟨"test", "people"⟩, .int id⟩
    let on_age : String → Option String → Index := fun name set => ⟨name, "test", set, "age", .numeric⟩
    let store := MemoryStore.put {} (person 1) [("age", .int 30), ("name", .string "Ann")] true
      |>.put (person 2) [("age", .int 12), ("name", .string "Bob")] false
      |>.createIndex (on_age "b_age" (some "pets")) |>.createIndex (on_age "b_age" none)
      |>.createIndex (on_age "a_age" (some "people")) |>.dropIndex "a_age"
    let query : Query :=
      { table := ⟨"test", "people"⟩, predicate := some (.atLeast "age" (.int 18))
        binNames := some ["name"] }
    let engine : Engine := ⟨{}, ∅⟩
    let filter : Filter := .range "age" 18 Int64.maxValue
    Plan.ofQuery store query = .ok (.indexQuery (on_age "b_age" none) filter) ∧
      (engine.execute store query).2.lastQuery = some (engine.config.queryPolicy query,
        { table := query.table, binNames := some ["name"], indexName := "b_age", filter }) ∧
      ∃ shown, store.Lists query.table (engine.Narrows query filter) shown ∧
        engine.Shows store query (shown.map (engine.narrowed query)) none := by
  intro person on_age store query engine filter
  have planned : Plan.ofQuery store query = .ok (.indexQuery (on_age "b_age" none) filter) := rfl
  have reached : store.Reached :=
    (((((MemoryStore.Reached.new true).put (person 1) _ true).put (person 2) _ false).createIndex
      _).createIndex _).createIndex _ |>.dropIndex "a_age"
  obtain ⟨_, asked, listed, shown, lists, _, whole, shows⟩ :=
    @planned_index_query_is_answered engine store query _ filter reached planned
  obtain rfl := whole rfl rfl
  exact ⟨planned, asked, shown, lists, shows⟩

end RecordQuery.Engine
