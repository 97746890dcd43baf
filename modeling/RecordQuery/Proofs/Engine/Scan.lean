import RecordQuery.Proofs.Engine.Showing

/-!
What a scan shows: of the records of its table those that it wants, each once and in the order of
partition and digest, up to its limit. It wants the records of the partitions from its offset on that
satisfy its predicate, which is evaluated on all stored bins whatever bins are shown. So without a limit
a scan from an offset shows the end of what the scan of all partitions shows.
-/

namespace RecordQuery.Engine

/-- The query wants the record: it is in a partition from the offset on, and satisfies the predicate, of
which the booleans are written as integers for a store that has none. -/
def Wants (engine : Engine) (query : Query) (stored : StoredRecord) : Prop :=
  (∀ first ∈ query.offset, first.toNat ≤ stored.key.partition.toNat) ∧
    ∀ predicate ∈ query.predicate,
      (if engine.config.useBoolBin then predicate.expression
        else predicate.expression.boolsAsInts).holds stored.whole = true

/-- What a scan shows of a stored record. -/
def scanned (engine : Engine) (query : Query) (stored : StoredRecord) : Record :=
  stored.withBins engine.config.scan.includeBinData query.binNames

variable {engine : Engine} {store : MemoryStore} {query : Query} {partitions : Option PartitionRange}

theorem holds_expressionFor_iff {record : Record} :
    (∀ expression ∈ engine.config.expressionFor query, expression.holds record = true) ↔
      ∀ predicate ∈ query.predicate,
        (if engine.config.useBoolBin then predicate.expression
          else predicate.expression.boolsAsInts).holds record = true := by
  unfold Config.expressionFor
  cases query.predicate <;> simp

/-- The selection of a scan admits just the records that the query wants. -/
theorem admits_iff_wants (planned : Plan.ofQuery store query = .ok (.scan partitions))
    (stored : StoredRecord) :
    MemoryStore.Selection.admits
        { partitions, expression := engine.config.expressionFor query } stored.key.slot stored = true ↔
      engine.Wants query stored := by
  have from_offset := (Plan.ofQuery_scan planned query.offset).symm.trans planned
  have contained := Plan.contains_of_scanFrom from_offset stored.key.partition_lt
  rw [Wants, ← contained, ← holds_expressionFor_iff, MemoryStore.Selection.admits, Option.all_none,
    Bool.and_true, Bool.and_eq_true, Option.all_eq_true, Option.all_eq_true]
  rfl

/-- What a scan without failures shows: the listing of what the query wants, up to its limit. -/
theorem shows_wanted (keyed : store.Keyed) (no_failure : store.deliveryFailure = none)
    (planned : Plan.ofQuery store query = .ok (.scan partitions)) (limited : query.limit ≠ some 0) :
    ∃ records, store.Lists query.table (engine.Wants query) records ∧
      engine.Shows store query ((upTo query.limit records).map (engine.scanned query)) none := by
  have lists := MemoryStore.lists_select keyed query.table
    { partitions, expression := engine.config.expressionFor query }
  refine ⟨_, lists.congr (admits_iff_wants planned), ?_⟩
  have shows_all := engine.shows_scan planned
  rw [MemoryStore.handedOut_of_no_failure no_failure, MemoryStore.ending_of_no_failure no_failure,
    selected_eq_upTo limited, ← map_upTo] at shows_all
  exact shows_all

/-- What a scan wants from a partition on is what the scan of all partitions wants there. -/
theorem wants_iff {first : UInt64} (given : query.offset = some first) (stored : StoredRecord) :
    engine.Wants query stored ↔
      first.toNat ≤ stored.key.partition.toNat ∧ engine.Wants { query with offset := none } stored := by
  rw [Wants, Wants, given]
  simp

/-- A scan shows the wanted records of its table in ascending order and each once, up to its limit; and
what it shows from an offset on is the end of what it shows without. -/
theorem scan_shows_wanted_records (reached : store.Reached) (no_failure : store.deliveryFailure = none)
    (planned : Plan.ofQuery store query = .ok (.scan partitions)) (limited : query.limit ≠ some 0) :
    ∃ records, store.Lists query.table (engine.Wants query) records ∧
      engine.Shows store query ((upTo query.limit records).map (engine.scanned query)) none ∧
      (query.limit = none → ∀ first ∈ query.offset, ∃ earlier,
        (∀ stored ∈ earlier, stored.key.partition.toNat < first.toNat) ∧
        (∀ stored ∈ records, first.toNat ≤ stored.key.partition.toNat) ∧
        store.Lists query.table (engine.Wants { query with offset := none }) (earlier ++ records) ∧
        engine.Shows store { query with offset := none }
          ((earlier ++ records).map (engine.scanned query)) none) := by
  obtain ⟨records, lists, shown⟩ := engine.shows_wanted reached.keyed no_failure planned limited
  refine ⟨records, lists, shown, ?_⟩
  intro unlimited first given
  have whole_planned : Plan.ofQuery store { query with offset := none } = .ok (.scan none) :=
    Plan.ofQuery_scan planned none
  obtain ⟨whole, whole_lists, whole_shown⟩ :=
    engine.shows_wanted reached.keyed no_failure whole_planned limited
  obtain ⟨earlier, later, rfl, below, later_lists⟩ := whole_lists.split first.toNat
  -- Both list what is wanted from the partition on, and there is only one such listing.
  have same : later = records :=
    later_lists.unique (lists.congr (wants_iff given))
  rw [same] at whole_lists whole_shown
  refine ⟨earlier, below, ?_, whole_lists, ?_⟩
  · intro stored mem
    exact ((lists.mem_iff stored).1 mem).2.1 first given
  · have all : upTo query.limit (earlier ++ records) = earlier ++ records := by rw [unlimited]; rfl
    rw [← all]
    exact whole_shown

/-- Of three people in different partitions, of whom two are adults, a scan from a partition on shows the
end of the list: the names that were asked for, although the age decides, and the keys that were kept. -/
theorem adults_from_partition :
    let person : Int64 → Key := fun id => ⟨⟨"test", "people"⟩, .int id⟩
    let store := MemoryStore.put {} (person 1) [("age", .int 30), ("name", .string "Ann")] true
      |>.put (person 2) [("age", .int 41), ("name", .string "Bob")] false
      |>.put (person 3) [("age", .int 12), ("name", .string "Cid")] true
    let query : Query :=
      { table := ⟨"test", "people"⟩, predicate := some (.atLeast "age" (.int 18)), offset := some 2000
        binNames := some ["name"] }
    let engine : Engine := ⟨{ useBoolBin := false }, ∅⟩
    let seen : Record → Option Key × Option String × List String :=
      fun record => (record.key, (record.bin? "name").bind Value.string?, record.bins.names)
    (person 2).partition.toNat < 2000 ∧ 2000 ≤ (person 1).partition.toNat ∧
      ∃ later all, engine.Shows store query later none ∧
        engine.Shows store { query with offset := none } all none ∧
        later.map seen = [(some (person 1), some "Ann", ["name"])] ∧
        all.map seen = [(none, some "Bob", ["name"]), (some (person 1), some "Ann", ["name"])] := by
  intro person store query engine seen
  have planned : Plan.ofQuery store query = .ok (.scan (some ⟨2000, 2096⟩)) := rfl
  have whole_planned : Plan.ofQuery store { query with offset := none } = .ok (.scan none) := rfl
  have reached : store.Reached :=
    .put (.put (.put (.new true) (person 1) _ true) (person 2) _ false) (person 3) _ true
  have unlimited : query.limit ≠ some 0 := (Option.some_ne_none 0).symm
  obtain ⟨records, lists, shown, suffix⟩ :=
    @scan_shows_wanted_records engine store query _ reached rfl planned unlimited
  obtain ⟨earlier, _, _, whole_lists, whole⟩ := suffix rfl 2000 rfl
  have listed := (MemoryStore.lists_select reached.keyed query.table
    { partitions := some ⟨2000, 2096⟩, expression := engine.config.expressionFor query }).congr
    (admits_iff_wants planned)
  have whole_listed := (MemoryStore.lists_select reached.keyed query.table
    { expression := engine.config.expressionFor { query with offset := none } }).congr
    (admits_iff_wants whole_planned)
  rw [lists.unique listed] at shown
  rw [whole_lists.unique whole_listed] at whole
  refine ⟨by decide +kernel, by decide +kernel, _, _, shown, whole, ?_, ?_⟩
  · decide +kernel
  · decide +kernel

end RecordQuery.Engine
