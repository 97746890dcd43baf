import RecordQuery.Proofs.Fields.Order
import RecordQuery.Proofs.Store.Listing
import RecordQuery.Proofs.Store.Puts
import RecordQuery.Seed

/-!
What a seed loads. Records whose keys can be addressed are put into the store one after the other, and a
table without a declared schema shows the user key and then every bin that one of its records has, also
one that was written over later. The indexes change neither.
-/

namespace RecordQuery

theorem UserKey.value_of_ofValue? {value : Value} {user : UserKey} (found : ofValue? value = some user) :
    user.value = value := by
  cases value <;> cases found <;> rfl

namespace Seed

/-- The user key of a record, if a store can address it. -/
def SeedRecord.user? (record : SeedRecord) : Option UserKey := UserKey.ofValue? record.key

/-- What is put into the store for a record. -/
def SeedRecord.put? (defaultSpace : String) (record : SeedRecord) : Option MemoryStore.Put :=
  (user? record).map fun user =>
    ⟨⟨table record defaultSpace, user⟩, record.bins, record.keepsKey⟩

def puts (defaultSpace : String) (records : List SeedRecord) : List MemoryStore.Put :=
  records.filterMap (SeedRecord.put? defaultSpace)

/-- The bins that have been seen in a table. -/
def SeenBins.of (seen : SeenBins) (table : TableName) : Fields ColumnType := (seen[table]?).getD []

def SeenBins.note (defaultSpace : String) (seen : SeenBins) (record : SeedRecord) : SeenBins :=
  let table := SeedRecord.table record defaultSpace
  seen.insert table (noteBins (seen.of table) record.bins)

variable {defaultSpace : String} {records : List SeedRecord} {table : TableName} {name : String}

/-- Records with legal keys are all loaded. -/
theorem loadRecords_of_legal (legal : ∀ record ∈ records, (SeedRecord.user? record).isSome = true)
    (store : MemoryStore) (seen : SeenBins) :
    loadRecords defaultSpace records store seen =
      .ok (store.putAll (puts defaultSpace records), records.foldl (SeenBins.note defaultSpace) seen) := by
  induction records generalizing store seen with
  | nil => rfl
  | cons record rest ih =>
    obtain ⟨first_legal, rest_legal⟩ := List.forall_mem_cons.1 legal
    obtain ⟨user, is_user⟩ := Option.isSome_iff_exists.1 first_legal
    have addressed : Key.ofValue (SeedRecord.table record defaultSpace) record.key =
        .ok ⟨SeedRecord.table record defaultSpace, user⟩ := by
      rw [Key.ofValue, show UserKey.ofValue? record.key = some user from is_user]
    have put : SeedRecord.put? defaultSpace record =
        some ⟨⟨SeedRecord.table record defaultSpace, user⟩, record.bins, record.keepsKey⟩ := by
      rw [SeedRecord.put?, is_user, Option.map_some]
    rw [loadRecords, addressed, puts, List.filterMap_cons_some put]
    exact ih rest_legal _ _

theorem mem_names_noteBins (seen : Fields ColumnType) (bins : Fields Value) :
    name ∈ (noteBins seen bins).names ↔ name ∈ seen.names ∨ name ∈ bins.names := by
  induction bins generalizing seen with
  | nil => simp [noteBins, Fields.names]
  | cons bin rest ih =>
    have noted : noteBins seen (bin :: rest) =
        noteBins (if Fields.contains seen bin.1 then seen
          else Fields.insert seen bin.1 (ColumnType.ofValue bin.2)) rest := rfl
    have names_cons : Fields.names (bin :: rest) = bin.1 :: Fields.names rest := rfl
    rw [noted, ih, names_cons, List.mem_cons]
    by_cases known : Fields.contains seen bin.1 = true
    · rw [if_pos known]
      have listed := Fields.contains_iff_mem_names.1 known
      refine ⟨Or.imp_right Or.inr, ?_⟩
      rintro (here | rfl | later)
      exacts [Or.inl here, Or.inl listed, Or.inr later]
    · rw [if_neg known, Fields.mem_names_insert, or_comm (a := name = bin.1), or_assoc]

theorem SeenBins.getElem?_note (seen : SeenBins) (record : SeedRecord) :
    (seen.note defaultSpace record)[table]? =
      if SeedRecord.table record defaultSpace = table then some (noteBins (seen.of table) record.bins)
      else seen[table]? := by
  rw [note, Std.TreeMap.getElem?_insert]
  by_cases here : SeedRecord.table record defaultSpace = table
  · rw [if_pos here, here, if_pos Std.ReflCmp.compare_self]
  · rw [if_neg here, if_neg]
    exact fun same => here (Std.LawfulEqOrd.eq_of_compare same)

/-- The bins seen in some records. -/
def seenBins (defaultSpace : String) (records : List SeedRecord) : SeenBins :=
  records.foldl (SeenBins.note defaultSpace) ∅

theorem getElem?_seenBins_concat (records : List SeedRecord) (record : SeedRecord) :
    (seenBins defaultSpace (records ++ [record]))[table]? =
      if SeedRecord.table record defaultSpace = table then
        some (noteBins ((seenBins defaultSpace records).of table) record.bins)
      else (seenBins defaultSpace records)[table]? := by
  rw [seenBins, List.foldl_append, List.foldl_cons, List.foldl_nil, SeenBins.getElem?_note, seenBins]

/-- The bins seen in a table are those that one of its records has. -/
theorem mem_names_seenBins (records : List SeedRecord) :
    name ∈ ((seenBins defaultSpace records).of table).names ↔
      ∃ record ∈ records, SeedRecord.table record defaultSpace = table ∧ name ∈ record.bins.names := by
  induction records using List.reverseRecOn with
  | nil => simp [seenBins, SeenBins.of, Fields.names]
  | append_singleton records record ih =>
    rw [SeenBins.of, getElem?_seenBins_concat]
    simp only [List.mem_append, List.mem_singleton, or_and_right, exists_or, exists_eq_left]
    by_cases here : SeedRecord.table record defaultSpace = table
    · rw [if_pos here, Option.getD_some, mem_names_noteBins, ih, and_iff_right here]
    · rw [if_neg here, ← SeenBins.of, ih]
      simp [here]

/-- A table of one of the records has been seen. -/
theorem isSome_seenBins_iff (records : List SeedRecord) :
    ((seenBins defaultSpace records)[table]?).isSome = true ↔
      ∃ record ∈ records, SeedRecord.table record defaultSpace = table := by
  induction records using List.reverseRecOn with
  | nil => simp [seenBins]
  | append_singleton records record ih =>
    rw [getElem?_seenBins_concat]
    simp only [List.mem_append, List.mem_singleton, or_and_right, exists_or, exists_eq_left]
    by_cases here : SeedRecord.table record defaultSpace = table
    · simp [here]
    · rw [if_neg here, ih]
      simp [here]

/-- Of entries that agree with what was seen, each table gets the columns seen there. -/
theorem getElem?_insertAll {entries : List (TableName × Fields ColumnType)} {seen : SeenBins}
    (from_seen : ∀ entry ∈ entries, seen[entry.1]? = some entry.2)
    (listed : table ∈ entries.map Prod.fst) :
    (entries.foldl (fun schema entry => schema.insert entry.1 (derivedColumns entry.1 entry.2))
      (∅ : Schema))[table]? = some (derivedColumns table (seen.of table)) := by
  induction entries using List.reverseRecOn with
  | nil => cases listed
  | append_singleton entries entry ih =>
    rw [List.foldl_append, List.foldl_cons, List.foldl_nil, Std.TreeMap.getElem?_insert]
    by_cases here : entry.1 = table
    · subst here
      rw [if_pos Std.ReflCmp.compare_self, SeenBins.of, from_seen entry List.mem_concat_self,
        Option.getD_some]
    · rw [if_neg fun same => here (Std.LawfulEqOrd.eq_of_compare same)]
      refine ih (fun other earlier => from_seen other (List.mem_append_left _ earlier)) ?_
      rw [List.map_append, List.mem_append] at listed
      exact listed.resolve_right fun last => here (List.mem_singleton.1 last).symm

/-- Schemas that are declared for other tables change nothing. -/
theorem getElem?_declareAll {schemas : List SeedSchema}
    (elsewhere : ∀ declared ∈ schemas, ⟨declared.space.getD defaultSpace, declared.set⟩ ≠ table)
    (schema : Schema) :
    (schemas.foldl (fun schema declared =>
      let table : TableName := ⟨declared.space.getD defaultSpace, declared.set⟩
      schema.insert table (declaredColumns table declared.columns)) schema)[table]? = schema[table]? := by
  induction schemas generalizing schema with
  | nil => rfl
  | cons declared rest ih =>
    obtain ⟨first_elsewhere, rest_elsewhere⟩ := List.forall_mem_cons.1 elsewhere
    rw [List.foldl_cons, ih rest_elsewhere, Std.TreeMap.getElem?_insert, if_neg]
    exact fun same => first_elsewhere (Std.LawfulEqOrd.eq_of_compare same)

/-- A table without a declared schema shows the user key and the bins that were seen there. -/
theorem columns_schema {seed : Seed} {seen : SeenBins}
    (undeclared : ∀ declared ∈ seed.schemas, ⟨declared.space.getD defaultSpace, declared.set⟩ ≠ table)
    (was_seen : seen[table]?.isSome = true) :
    (seed.schema defaultSpace seen).columns table = derivedColumns table (seen.of table) := by
  have from_seen : ∀ entry ∈ seen.toList, seen[entry.1]? = some entry.2 := fun entry listed =>
    Std.TreeMap.mem_toList_iff_getElem?_eq_some.1 listed
  obtain ⟨bins, found⟩ := Option.isSome_iff_exists.1 was_seen
  have listed : table ∈ seen.toList.map Prod.fst :=
    List.mem_map.2 ⟨(table, bins), Std.TreeMap.mem_toList_iff_getElem?_eq_some.2 found, rfl⟩
  rw [Schema.columns, schema, getElem?_declareAll undeclared, Std.TreeMap.foldl_eq_foldl_toList,
    getElem?_insertAll from_seen listed, Option.getD_some]

/-- The records of one table. -/
def inTable (defaultSpace : String) (table : TableName) (records : List SeedRecord) :
    List SeedRecord :=
  records.filter fun record => SeedRecord.table record defaultSpace = table

/-- The keys of the records of one table. -/
def keysIn (defaultSpace : String) (table : TableName) (records : List SeedRecord) : List Key :=
  (inTable defaultSpace table records).filterMap fun record =>
    (SeedRecord.user? record).map fun user => ⟨table, user⟩

/-- The last record with a user key. -/
def lastWrite? (records : List SeedRecord) (user : UserKey) : Option SeedRecord :=
  (records.filter fun record => SeedRecord.user? record = some user).getLast?

theorem isSome_lastWrite?_iff {user : UserKey} :
    (lastWrite? records user).isSome = true ↔
      ∃ record ∈ records, SeedRecord.user? record = some user := by
  simp [lastWrite?]

theorem of_lastWrite? {user : UserKey} {last : SeedRecord}
    (found : lastWrite? records user = some last) :
    last ∈ records ∧ SeedRecord.user? last = some user := by
  have listed := List.mem_filter.1 (List.mem_of_getLast? found)
  exact ⟨listed.1, of_decide_eq_true listed.2⟩

/-- What is put into a table is put for the records of the table. -/
theorem filter_puts (records : List SeedRecord) :
    ((puts defaultSpace records).filter fun put => put.key.table = table) =
      puts defaultSpace (inTable defaultSpace table records) := by
  rw [puts, puts, inTable, List.filter_filterMap, List.filterMap_filter]
  refine List.filterMap_congr fun record _ => ?_
  rw [SeedRecord.put?]
  by_cases here : SeedRecord.table record defaultSpace = table <;>
    cases SeedRecord.user? record <;> simp [here]

theorem putsOf_puts {user : UserKey}
    (one_table : ∀ record ∈ records, SeedRecord.table record defaultSpace = table) :
    MemoryStore.putsOf (puts defaultSpace records) ⟨table, user⟩ =
      (records.filter fun record => SeedRecord.user? record = some user).map fun record =>
        ⟨⟨table, user⟩, record.bins, record.keepsKey⟩ := by
  induction records with
  | nil => rfl
  | cons record rest ih =>
    obtain ⟨here, rest_here⟩ := List.forall_mem_cons.1 one_table
    have later := ih rest_here
    rw [MemoryStore.putsOf, puts] at later ⊢
    cases is_user : SeedRecord.user? record with
    | none =>
      have no_put : SeedRecord.put? defaultSpace record = none := by
        rw [SeedRecord.put?, is_user, Option.map_none]
      rw [List.filterMap_cons_none no_put, later, List.filter_cons_of_neg (by simp [is_user])]
    | some other =>
      have put : SeedRecord.put? defaultSpace record =
          some ⟨⟨table, other⟩, record.bins, record.keepsKey⟩ := by
        rw [SeedRecord.put?, is_user, Option.map_some, here]
      rw [List.filterMap_cons_some put]
      by_cases same : other = user
      · subst same
        rw [List.filter_cons_of_pos (by simp), List.filter_cons_of_pos (by simp [is_user]), later,
          List.map_cons]
      · rw [List.filter_cons_of_neg (by simp [same]), List.filter_cons_of_neg (by simp [is_user, same]),
          later]

/-- What a store has of the last record with a user key. -/
def storedOf (table : TableName) (records : List SeedRecord) (user : UserKey) (last : SeedRecord) :
    StoredRecord where
  key := ⟨table, user⟩
  keepsKey := last.keepsKey
  bins := last.bins
  generation := UInt32.ofNat (records.countP fun record => SeedRecord.user? record = some user)

theorem held?_puts {user : UserKey}
    (one_table : ∀ record ∈ records, SeedRecord.table record defaultSpace = table) :
    MemoryStore.held? (puts defaultSpace records) ⟨table, user⟩ =
      (lastWrite? records user).map (storedOf table records user) := by
  rw [MemoryStore.held?, putsOf_puts one_table, List.getLast?_map, Option.map_map, List.length_map,
    ← List.countP_eq_length_filter]
  rfl

theorem table_of_mem_inTable {record : SeedRecord} (mem : record ∈ inTable defaultSpace table records) :
    record ∈ records ∧ SeedRecord.table record defaultSpace = table :=
  ⟨(List.mem_filter.1 mem).1, of_decide_eq_true (List.mem_filter.1 mem).2⟩

theorem map_key_puts (records : List SeedRecord) :
    (puts defaultSpace (inTable defaultSpace table records)).map MemoryStore.Put.key =
      keysIn defaultSpace table records := by
  rw [puts, List.map_filterMap, keysIn]
  refine List.filterMap_congr fun record mem => ?_
  rw [SeedRecord.put?, Option.map_map, (table_of_mem_inTable mem).2]
  rfl

/-- A table holds the last record of each user key that was seeded there. -/
theorem there_puts_iff (supportsIndexes : Bool)
    (distinguished : MemoryStore.Distinguished (keysIn defaultSpace table records))
    (stored : StoredRecord) :
    ((MemoryStore.putAll { supportsIndexes } (puts defaultSpace records)).table
        table)[stored.key.slot]? = some stored ↔
      ∃ user last, lastWrite? (inTable defaultSpace table records) user = some last ∧
        stored = storedOf table (inTable defaultSpace table records) user last := by
  have one_table : ∀ record ∈ inTable defaultSpace table records,
      SeedRecord.table record defaultSpace = table := fun _ mem => (table_of_mem_inTable mem).2
  rw [← map_key_puts] at distinguished
  rw [MemoryStore.table_putAll, filter_puts, MemoryStore.there_putAll_iff supportsIndexes distinguished]
  constructor
  · obtain ⟨⟨_, user⟩, keepsKey, bins, generation⟩ := stored
    rintro ⟨rfl, held⟩
    rw [held?_puts one_table, Option.map_eq_some_iff] at held
    obtain ⟨last, found, same⟩ := held
    exact ⟨user, last, found, same.symm⟩
  · rintro ⟨user, last, found, rfl⟩
    exact ⟨rfl, (held?_puts one_table).trans (by rw [found, Option.map_some])⟩

/-- The store and the schemas of a seed with legal keys. -/
theorem load_of_legal {seed : Seed}
    (legal : ∀ record ∈ seed.records, (SeedRecord.user? record).isSome = true) :
    seed.load defaultSpace =
      .ok (seed.indexes.foldl MemoryStore.createIndex
          (MemoryStore.putAll { supportsIndexes := seed.supportsIndexes }
            (puts defaultSpace seed.records)),
        seed.schema defaultSpace (seenBins defaultSpace seed.records)) := by
  rw [load, loadRecords_of_legal legal]
  rfl

end Seed

namespace MemoryStore

theorem createIndex_all (store : MemoryStore) (indexes : List Index) :
    (indexes.foldl createIndex store).tables = store.tables ∧
      (indexes.foldl createIndex store).deliveryFailure = store.deliveryFailure := by
  induction indexes generalizing store with
  | nil => exact ⟨rfl, rfl⟩
  | cons index rest ih => exact ih (store.createIndex index)

theorem deliveryFailure_putAll (store : MemoryStore) (puts : List Put) :
    (store.putAll puts).deliveryFailure = store.deliveryFailure := by
  induction puts generalizing store with
  | nil => rfl
  | cons put rest ih => exact ih _

end MemoryStore

namespace Seed

variable {seed : Seed} {store : MemoryStore} {schema : Schema}

/-- A loaded store holds the last record of each user key, and no failure is ordered. -/
theorem store_of_load (legal : ∀ record ∈ seed.records, (SeedRecord.user? record).isSome = true)
    (distinguished : MemoryStore.Distinguished (keysIn defaultSpace table seed.records))
    (loaded : seed.load defaultSpace = .ok (store, schema)) :
    store.Keyed ∧ store.deliveryFailure = none ∧ ∀ stored, store.Holds table stored ↔
      ∃ user last, lastWrite? (inTable defaultSpace table seed.records) user = some last ∧
        stored = storedOf table (inTable defaultSpace table seed.records) user last := by
  obtain ⟨rfl, -⟩ := Prod.mk.inj (Except.ok.inj ((load_of_legal legal).symm.trans loaded))
  obtain ⟨same_tables, same_failure⟩ := MemoryStore.createIndex_all
    (MemoryStore.putAll { supportsIndexes := seed.supportsIndexes } (puts defaultSpace seed.records))
    seed.indexes
  refine ⟨((MemoryStore.Reached.new _).putAll _).keyed.of_tables_eq same_tables, ?_, fun stored => ?_⟩
  · rw [same_failure, MemoryStore.deliveryFailure_putAll]
  · rw [MemoryStore.Holds, MemoryStore.table, same_tables]
    exact there_puts_iff seed.supportsIndexes distinguished stored

/-- The columns of a table with records and without a declared schema. -/
theorem columns_of_load (legal : ∀ record ∈ seed.records, (SeedRecord.user? record).isSome = true)
    (undeclared : ∀ declared ∈ seed.schemas, ⟨declared.space.getD defaultSpace, declared.set⟩ ≠ table)
    (loaded : seed.load defaultSpace = .ok (store, schema)) :
    ∃ bins : Fields ColumnType,
      (∀ name, name ∈ bins.names ↔
        ∃ record ∈ inTable defaultSpace table seed.records, name ∈ record.bins.names) ∧
      (inTable defaultSpace table seed.records ≠ [] →
        schema.columns table = derivedColumns table bins) := by
  obtain ⟨-, rfl⟩ := Prod.mk.inj (Except.ok.inj ((load_of_legal legal).symm.trans loaded))
  refine ⟨(seenBins defaultSpace seed.records).of table, fun name => ?_, fun some_record => ?_⟩
  · rw [mem_names_seenBins]
    simp only [inTable, List.mem_filter, decide_eq_true_eq, and_assoc]
  · obtain ⟨record, mem⟩ := List.exists_mem_of_ne_nil _ some_record
    exact columns_schema undeclared ((isSome_seenBins_iff _).2 ⟨record, table_of_mem_inTable mem⟩)

end Seed

end RecordQuery
