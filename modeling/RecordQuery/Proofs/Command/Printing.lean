import RecordQuery.Command.Run
import RecordQuery.Proofs.Connection.Configured
import RecordQuery.Proofs.Engine.Projection
import RecordQuery.Proofs.Engine.Scan
import RecordQuery.Proofs.Seed.Loading
import RecordQuery.Proofs.Seed.Writing

/-!
What the run of a query prints. A query that shows rows is printed as one line for each of them, an object
with the columns' labels. The query for a whole table then prints back what was seeded there: a line for
each user key, in the order of partition and digest, with every bin that a record of the table has, as the
last record with this key has it. Since the seed was read from a text, each line can be read as the object
that it was written for.
-/

namespace RecordQuery.Command

open Seed

variable {sources : Sources} {invocation : Invocation} {config : Config} {seed : Seed}
  {table : TableName}

/-- The current record as an object. -/
theorem rowJson_onRow (columns : List Column) (record : Record) :
    rowJson { columns, record := some record, position := .onRow } =
      .ok (.object (Fields.ofPairs (columns.map fun column =>
        (column.label, (Cursor.shown column record).toJson)))) := by
  rw [rowJson, Cursor.row_onRow, Record.rowUnder, Except.map]
  dsimp only
  rw [List.map_map, List.zip_map']
  rfl

/-- What the user key or a bin of a record shows. -/
def shownAs (record : Record) (name : String) : Json :=
  (if name = keyField then record.userKey?.getD .nil else (record.bin? name).getD .nil).toJson

/-- A record under the columns of the bins seen in its table. -/
theorem rowJson_derivedColumns (table : TableName) (bins : Fields ColumnType) (record : Record) :
    rowJson { columns := derivedColumns table bins, record := some record, position := .onRow } =
      .ok (.object (Fields.ofPairs ((keyField :: bins.names).map fun name =>
        (name, shownAs record name)))) := by
  rw [rowJson_onRow, derivedColumns, List.map_cons, List.map_cons, List.map_map, Fields.names,
    List.map_map]
  rfl

/-- There is a line for each row, and each is counted as it is written. -/
theorem writeRows_eq {fuel : Nat} {execution last : Execution} {rows : List Json} (count : Nat)
    (read : execution.rowsFor rowJson fuel = (rows.map .ok, none, last)) :
    writeRows fuel execution count = ⟨rows.map Json.write, .ok (count + rows.length)⟩ := by
  induction fuel generalizing execution rows count with
  | zero =>
    obtain rfl : rows = [] := List.map_eq_nil_iff.1 (congrArg Prod.fst read).symm
    rfl
  | succ fuel ih =>
    rw [Execution.rowsFor] at read
    split at read
    · next onRow taken =>
      generalize others : onRow.rowsFor rowJson fuel = rest at read
      obtain ⟨later, error, last'⟩ := rest
      rw [Prod.mk.injEq, Prod.mk.injEq] at read
      obtain ⟨rows_eq, rfl, rfl⟩ := read
      obtain ⟨row, rows, rfl, here, rfl⟩ := List.map_eq_cons_iff.1 rows_eq.symm
      rw [writeRows]
      simp only [taken, ← here, ih (count + 1) others, List.map_cons, List.length_cons]
      rw [Nat.add_assoc, Nat.add_comm 1]
    · next taken =>
      obtain rfl : rows = [] := List.map_eq_nil_iff.1 (congrArg Prod.fst read).symm
      rw [writeRows]
      simp only [taken]
      rfl
    · next failed =>
      cases congrArg (fun result => result.2.1) read
    · next taken =>
      obtain rfl : rows = [] := List.map_eq_nil_iff.1 (congrArg Prod.fst read).symm
      rw [writeRows]
      simp only [taken]
      rfl

/-- A query that shows rows without a failure prints and counts them. -/
theorem runQuery_of_shows {engine : Engine} {store : MemoryStore} {query : Query}
    {records : List Record} {row : Record → Json}
    (prepared : prepare sources invocation = .ok (engine, store, query))
    (shown : engine.Shows store query records none)
    (shows_row : ∀ record ∈ records,
      rowJson { columns := engine.columns query, record := some record, position := .onRow } =
        .ok (row record)) :
    runQuery sources invocation = ⟨records.map fun record => (row record).write, .ok records.length⟩ := by
  obtain ⟨execution, runs, reads⟩ := shown
  obtain ⟨last, rows, _⟩ := reads rowJson
  have rows_eq : records.map (fun record =>
      rowJson { columns := engine.columns query, record := some record, position := .onRow }) =
        (records.map row).map .ok := by
    rw [List.map_congr_left shows_row, List.map_map]
    rfl
  rw [rows_eq] at rows
  rw [runQuery, prepared]
  dsimp only
  rw [runs]
  dsimp only
  rw [writeRows_eq 0 rows, List.map_map, List.length_map, Nat.zero_add]
  rfl

/-- The object has the user key and every bin of the records, as the last record with this key has it. -/
structure Displays (records : List SeedRecord) (last : SeedRecord) (fields : Fields Json) : Prop where
  ascending : fields.Ascending
  names_iff : ∀ name, name ∈ fields.names ↔
    name = keyField ∨ ∃ record ∈ records, name ∈ record.bins.names
  user_key : fields.get? keyField = some (if last.keepsKey then last.key.toJson else .null)
  bin : ∀ record ∈ records, ∀ name ∈ record.bins.names, name ≠ keyField →
    fields.get? name = some (((last.bins.get? name).map Value.toJson).getD .null)

theorem userKey?_whole (stored : StoredRecord) :
    stored.whole.userKey? = if stored.keepsKey then some stored.key.user.value else none := by
  obtain ⟨key, keepsKey, bins, generation⟩ := stored
  cases keepsKey <;> rfl

/-- What the store has of the last record displays it. -/
theorem displays_storedOf {records : List SeedRecord} {last : SeedRecord} {user : UserKey}
    {bins : Fields ColumnType} (is_user : SeedRecord.user? last = some user)
    (seen : ∀ name, name ∈ bins.names ↔ ∃ record ∈ records, name ∈ record.bins.names) :
    Displays records last (Fields.ofPairs ((keyField :: bins.names).map fun name =>
      (name, shownAs (storedOf table records user last).whole name))) := by
  have key_eq : user.value = last.key := UserKey.value_of_ofValue? is_user
  constructor
  case ascending => exact Fields.ascending_ofPairs _
  case names_iff =>
    intro name
    rw [Fields.mem_names_ofPairs, List.map_map]
    simp only [Function.comp_def, List.map_id', List.mem_cons, seen]
  case user_key =>
    rw [Fields.get?_ofPairs_map _ List.mem_cons_self, shownAs, if_pos rfl, userKey?_whole, ← key_eq]
    change some (((if last.keepsKey then some user.value else none).getD .nil).toJson) = _
    cases last.keepsKey <;> rfl
  case bin =>
    intro record mem name has_bin not_key
    have listed : name ∈ keyField :: bins.names :=
      List.mem_cons_of_mem _ ((seen name).2 ⟨record, mem, has_bin⟩)
    rw [Fields.get?_ofPairs_map _ listed, shownAs, if_neg not_key]
    change some (Value.toJson ((last.bins.get? name).getD .nil)) = _
    cases last.bins.get? name <;> rfl

section Held

variable {records : List SeedRecord} {held : List StoredRecord}
  (held_iff : ∀ stored, stored ∈ held ↔ ∃ user last,
    lastWrite? records user = some last ∧ stored = storedOf table records user last)

include held_iff

/-- The store has a record for each user key that was seeded. -/
theorem mem_users_iff (user : UserKey) :
    user ∈ held.map (fun stored => stored.key.user) ↔
      ∃ record ∈ records, SeedRecord.user? record = some user := by
  rw [List.mem_map, ← isSome_lastWrite?_iff, Option.isSome_iff_exists]
  constructor
  · rintro ⟨stored, mem, rfl⟩
    obtain ⟨user, last, found, rfl⟩ := (held_iff stored).1 mem
    exact ⟨last, found⟩
  · rintro ⟨last, found⟩
    exact ⟨_, (held_iff _).2 ⟨user, last, found, rfl⟩, rfl⟩

theorem displays_of_held {bins : Fields ColumnType}
    (seen : ∀ name, name ∈ bins.names ↔ ∃ record ∈ records, name ∈ record.bins.names)
    {stored : StoredRecord} (mem : stored ∈ held) :
    ∃ last, lastWrite? records stored.key.user = some last ∧
      Displays records last (Fields.ofPairs ((keyField :: bins.names).map fun name =>
        (name, shownAs stored.whole name))) := by
  obtain ⟨user, last, found, rfl⟩ := (held_iff stored).1 mem
  exact ⟨last, found, displays_storedOf (of_lastWrite? found).2 seen⟩

end Held

/-- What displays a record can be written, if its bins can. -/
theorem Displays.writable {depth : Nat} {records : List SeedRecord} {last : SeedRecord} {user : UserKey}
    {fields : Fields Json} (displays : Displays records last fields)
    (is_user : SeedRecord.user? last = some user)
    (bins_writable : ∀ bin ∈ last.bins, bin.2.toJson.Writable depth) :
    (Json.object fields).Writable (depth + 1) := by
  refine .object fun field mem => ?_
  have shown : fields.get? field.1 = some field.2 :=
    (Fields.get?_eq_some_iff displays.ascending.names_ne).2 mem
  by_cases is_key : field.1 = keyField
  · rw [is_key, displays.user_key] at shown
    rw [← Option.some.inj shown]
    split
    · exact Value.writable_of_isUser is_user depth
    · exact .null depth
  · have listed : field.1 ∈ fields.names := List.mem_map_of_mem mem
    obtain ⟨record, record_mem, has_bin⟩ := ((displays.names_iff field.1).1 listed).resolve_left is_key
    rw [displays.bin record record_mem field.1 has_bin is_key] at shown
    rw [← Option.some.inj shown]
    cases given : last.bins.get? field.1 with
    | none => exact .null depth
    | some value => exact bins_writable _ (Fields.mem_of_get? given)

/-- A command whose inputs can be read loads the seed and asks the query. -/
theorem prepare_of_readable {query : Query}
    (configured : Config.parse invocation.url (Fields.ofPairs invocation.properties) = .ok config)
    (seeded : readFile Seed.ofDocument? sources invocation.data = .ok seed)
    (asked : readQuery sources invocation = .ok query) {store : MemoryStore} {schema : Schema}
    (loaded : seed.load (config.space.getD defaultSpace) = .ok (store, schema)) :
    prepare sources invocation = .ok (⟨config, schema⟩, store, query) := by
  have opened : openEngine sources invocation = .ok (⟨config, schema⟩, store) := by
    simp [openEngine, configured, seeded, loaded, bind, Except.bind, pure, Except.pure]
  rw [prepare, opened, asked]
  rfl

/-- What was read from a file was read from the document that a text holds. -/
theorem of_readFile {α : Type} {read : Document → Option α} {path : String} {found : α}
    (was_read : readFile read sources path = .ok found) :
    ∃ written document, Document.parse written = some document ∧ read document = some found := by
  rw [readFile] at was_read
  split at was_read
  · cases was_read
  · next written _ =>
    cases parsed : (Document.parse written).bind read with
    | none =>
      rw [parsed] at was_read
      cases was_read
    | some other =>
      rw [parsed] at was_read
      cases was_read
      obtain ⟨document, document_read, found_read⟩ := Option.bind_eq_some_iff.1 parsed
      exact ⟨written, document, document_read, found_read⟩

/-- The bins of a seed that was read from a file leave room for the containers around them. -/
theorem writable_bins_of_readFile (seeded : readFile Seed.ofDocument? sources invocation.data = .ok seed) :
    ∀ record ∈ seed.records, ∀ bin ∈ record.bins, bin.2.toJson.Writable 123 := by
  obtain ⟨written, document, document_read, seed_read⟩ := of_readFile seeded
  have within : document.Within (123 + 4) := Document.within_of_parse document_read
  exact Seed.writable_bins within seed_read

/-- Without a failure the query for a whole table shows all that the table holds. -/
theorem shows_whole_table {engine : Engine} {store : MemoryStore} (keyed : store.Keyed)
    (no_failure : store.deliveryFailure = none) (configured : Config.Configured engine.config) :
    ∃ held, store.Lists table (fun _ => True) held ∧
      engine.Shows store { table } (held.map StoredRecord.whole) none := by
  obtain ⟨held, lists, shown⟩ :=
    @Engine.shows_wanted engine store { table } none keyed no_failure rfl nofun
  have scanned : engine.scanned { table } = StoredRecord.whole := by
    funext stored
    rw [Engine.scanned, configured.includeBinData.1]
    rfl
  rw [scanned] at shown
  exact ⟨held, lists.congr fun stored => iff_true_intro ⟨nofun, nofun⟩, shown⟩

/-- The query for a whole table prints back what was seeded there: one line for each user key, in the order
of partition and digest, an object with the user key and every bin of the records, as the last record with
this key has them; the line can be read as this object; and it counts the lines. -/
theorem run_prints_what_was_seeded
    (configured : Config.parse invocation.url (Fields.ofPairs invocation.properties) = .ok config)
    (seeded : readFile Seed.ofDocument? sources invocation.data = .ok seed)
    (asked : readQuery sources invocation = .ok { table })
    (legal : ∀ record ∈ seed.records, (SeedRecord.user? record).isSome = true)
    (undeclared : ∀ declared ∈ seed.schemas,
      ⟨declared.space.getD (config.space.getD defaultSpace), declared.set⟩ ≠ table)
    (distinguished : MemoryStore.Distinguished
      (keysIn (config.space.getD defaultSpace) table seed.records)) :
    let records := inTable (config.space.getD defaultSpace) table seed.records
    let report := runQuery sources invocation
    ∃ printed : List (UserKey × Fields Json),
      printed.Pairwise (fun a b => Slot.order (Key.slot ⟨table, a.1⟩) (Key.slot ⟨table, b.1⟩) = .lt) ∧
      (∀ user, user ∈ printed.map Prod.fst ↔
        ∃ record ∈ records, SeedRecord.user? record = some user) ∧
      (∀ entry ∈ printed, ∃ last, lastWrite? records entry.1 = some last ∧
        Displays records last entry.2) ∧
      (∀ entry ∈ printed, ∃ document, Document.parse (Json.object entry.2).write = some document ∧
        (Json.object entry.2).ReadsAs document) ∧
      report.lines = printed.map (fun entry => (Json.object entry.2).write) ∧
      report.outcome = .ok report.lines.length := by
  intro records report
  obtain ⟨store, schema, loaded⟩ : ∃ store schema,
      seed.load (config.space.getD defaultSpace) = .ok (store, schema) := ⟨_, _, load_of_legal legal⟩
  let engine : Engine := ⟨config, schema⟩
  have prepared := prepare_of_readable configured seeded asked loaded
  obtain ⟨keyed, no_failure, holds_iff⟩ := store_of_load legal distinguished loaded
  obtain ⟨bins, names_iff, columns_eq⟩ := columns_of_load legal undeclared loaded
  obtain ⟨held, lists, shown⟩ :=
    @shows_whole_table table engine store keyed no_failure (Config.configured_of_parse configured)
  have held_iff (stored : StoredRecord) : stored ∈ held ↔ ∃ user last,
      lastWrite? records user = some last ∧ stored = storedOf table records user last := by
    rw [lists.mem_iff, and_true, holds_iff]
  let fieldsOf (record : Record) : Fields Json :=
    Fields.ofPairs ((keyField :: bins.names).map fun name => (name, shownAs record name))
  have shows_row (record : Record) (mem : record ∈ held.map StoredRecord.whole) :
      rowJson { columns := engine.columns { table }, record := some record, position := .onRow } =
        .ok (.object (fieldsOf record)) := by
    obtain ⟨stored, stored_mem, rfl⟩ := List.mem_map.1 mem
    obtain ⟨user, last, found, rfl⟩ := (held_iff stored).1 stored_mem
    have columns : engine.columns { table } = derivedColumns table bins :=
      columns_eq (List.ne_nil_of_mem (of_lastWrite? found).1)
    rw [columns, rowJson_derivedColumns]
  have written := runQuery_of_shows prepared shown shows_row
  have displayed : ∀ entry ∈ held.map (fun stored => (stored.key.user, fieldsOf stored.whole)),
      ∃ last, lastWrite? records entry.1 = some last ∧ Displays records last entry.2 := by
    intro entry mem
    obtain ⟨stored, stored_mem, rfl⟩ := List.mem_map.1 mem
    exact displays_of_held held_iff names_iff stored_mem
  refine ⟨held.map fun stored => (stored.key.user, fieldsOf stored.whole), ?order, ?users, displayed,
    ?readable, ?lines, ?count⟩
  case order =>
    refine List.pairwise_map.2 (lists.ascending.imp_of_mem ?_)
    intro a b a_mem b_mem before
    obtain ⟨user, last, -, rfl⟩ := (held_iff a).1 a_mem
    obtain ⟨user', last', -, rfl⟩ := (held_iff b).1 b_mem
    exact before
  case users =>
    intro user
    rw [List.map_map]
    exact mem_users_iff held_iff user
  case readable =>
    intro entry mem
    obtain ⟨last, found, displays⟩ := displayed entry mem
    obtain ⟨last_mem, is_user⟩ := of_lastWrite? found
    have bins_writable := writable_bins_of_readFile seeded last (table_of_mem_inTable last_mem).1
    exact ((displays.writable is_user bins_writable).mono (by decide)).parse_write
  case lines =>
    change (runQuery sources invocation).lines = _
    rw [written, List.map_map, List.map_map]
    rfl
  case count =>
    change (runQuery sources invocation).outcome = .ok (runQuery sources invocation).lines.length
    simp only [written, List.length_map]

theorem text_toUTF8 (written : String) : text written.toUTF8 = .ok written := by
  have valid : written.toUTF8.IsValidUTF8 := written.isValidUTF8
  rw [text, String.fromUTF8?, dif_pos valid]
  rfl

/-- A document that can be read from a text is read from a file that has the text. -/
theorem readFile_of_text {α : Type} {read : Document → Option α} {found : α} {path written : String}
    (has_text : sources.file path = .ok written.toUTF8)
    (reads : (Document.parse written).bind read = some found) :
    readFile read sources path = .ok found := by
  rw [readFile, has_text, Except.bind, text_toUTF8]
  simp only [reads]

theorem readInput_of_text {α : Type} {read : Document → Option α} {found : α} {written : String}
    (not_blank : (Text.trim written).isEmpty = false)
    (reads : (Document.parse written).bind read = some found) :
    readInput read written.toUTF8 = .ok found := by
  rw [readInput, text_toUTF8]
  simp only [not_blank, reads, Bool.false_eq_true, if_false]

/-- A pet that is written twice, in the end without its name, and one without its key. -/
theorem two_pets_printed :
    let seedText := "\x7b\"records\":[\x7b\"set\":\"pets\",\"key\":1,\"bins\":\x7b\"name\":\"Rex\"\x7d\x7d,"
      ++ "\x7b\"set\":\"pets\",\"key\":2,\"send_key\":false\x7d,"
      ++ "\x7b\"set\":\"pets\",\"key\":1,\"bins\":\x7b\"age\":3\x7d\x7d]\x7d"
    let queryText := "\x7b\"namespace\":\"test\",\"table\":\"pets\"\x7d"
    let sources : Sources := ⟨fun _ => .ok seedText.toUTF8, queryText.toUTF8⟩
    let invocation : Invocation := ⟨"jdbc:aerospike:localhost:3000", [], "seed.json", none⟩
    let table : TableName := ⟨"test", "pets"⟩
    ∃ config seed, Config.parse invocation.url (Fields.ofPairs invocation.properties) = .ok config ∧
      readFile Seed.ofDocument? sources invocation.data = .ok seed ∧
      readQuery sources invocation = .ok { table } ∧
      ∃ printed : List (UserKey × Fields Json),
        (∀ user, user ∈ printed.map Prod.fst ↔ user = .int 1 ∨ user = .int 2) ∧
        (∀ entry ∈ printed, ∃ last, lastWrite? (inTable "test" table seed.records) entry.1 = some last ∧
          Displays (inTable "test" table seed.records) last entry.2) ∧
        (∀ entry ∈ printed, ∃ document, Document.parse (Json.object entry.2).write = some document ∧
          (Json.object entry.2).ReadsAs document) ∧
        (runQuery sources invocation).lines =
          printed.map (fun entry => (Json.object entry.2).write) ∧
        (runQuery sources invocation).outcome = .ok (runQuery sources invocation).lines.length := by
  have listed_twice (user : UserKey) :
      user ∈ [UserKey.int 1, .int 2, .int 1] ↔ user = .int 1 ∨ user = .int 2 := by grind
  intro seedText queryText sources invocation table
  have parsed_url : (Config.parse invocation.url (Fields.ofPairs invocation.properties)).toOption.any
      (fun config => config.space == none) = true := by decide +kernel
  have parsed_seed : ((Document.parse seedText).bind Seed.ofDocument?).any (fun seed =>
      seed.records.all (fun record => (SeedRecord.user? record).isSome) && seed.schemas.isEmpty &&
        (inTable "test" table seed.records).filterMap SeedRecord.user? == [.int 1, .int 2, .int 1]) =
      true := by decide +kernel
  have parsed_query : ((Document.parse queryText).bind Query.ofDocument?).any (fun query =>
      query.table == table && query.columns.isEmpty && query.predicate.isNone &&
        query.primaryKey.isNone && query.offset.isNone && query.limit.isNone && query.binNames.isNone) =
      true := by decide +kernel
  have not_blank : (Text.trim queryText).isEmpty = false := by decide +kernel
  obtain ⟨config, configured, no_space⟩ : ∃ config,
      Config.parse invocation.url (Fields.ofPairs invocation.properties) = .ok config ∧
        config.space = none := by
    cases found : Config.parse invocation.url (Fields.ofPairs invocation.properties) with
    | error error =>
      rw [found] at parsed_url
      cases parsed_url
    | ok config =>
      rw [found] at parsed_url
      exact ⟨config, rfl, eq_of_beq parsed_url⟩
  obtain ⟨seed, seed_read, checked⟩ := (Option.any_eq_true ..).1 parsed_seed
  obtain ⟨⟨_, columns, predicate, primaryKey, offset, limit, binNames⟩, query_read, plain⟩ :=
    (Option.any_eq_true ..).1 parsed_query
  simp only [Bool.and_eq_true, beq_iff_eq, List.isEmpty_iff, Option.isNone_iff_eq_none,
    List.all_eq_true] at checked plain
  obtain ⟨⟨legal, no_schemas⟩, users⟩ := checked
  obtain ⟨⟨⟨⟨⟨⟨rfl, rfl⟩, rfl⟩, rfl⟩, rfl⟩, rfl⟩, rfl⟩ := plain
  have seeded : readFile Seed.ofDocument? sources invocation.data = .ok seed :=
    readFile_of_text rfl seed_read
  have asked : readQuery sources invocation = .ok { table } := readInput_of_text not_blank query_read
  have default_space : config.space.getD defaultSpace = "test" := by rw [no_space]; rfl
  have undeclared : ∀ declared ∈ seed.schemas,
      ⟨declared.space.getD (config.space.getD defaultSpace), declared.set⟩ ≠ table := by
    rw [no_schemas]
    exact nofun
  have distinguished : MemoryStore.Distinguished
      (keysIn (config.space.getD defaultSpace) table seed.records) := by
    rw [default_space, keysIn, ← List.map_filterMap, users]
    decide +kernel
  obtain ⟨printed, _, users_iff, rows, readable, lines, counted⟩ :=
    run_prints_what_was_seeded configured seeded asked legal undeclared distinguished
  rw [default_space] at users_iff rows
  refine ⟨config, seed, configured, seeded, asked, printed, fun user => ?_, rows, readable,
    lines, counted⟩
  rw [users_iff, ← List.mem_filterMap, users, listed_twice]

end RecordQuery.Command
