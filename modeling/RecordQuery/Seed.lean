import RecordQuery.Index.Basic
import RecordQuery.Schema
import RecordQuery.Store.Memory
import RecordQuery.Value.Document

/-!
Seeds: documents that describe the records, the indexes and the schemas with which a memory store
begins. A table without a declared schema shows the user key and then every bin that one of its
records has, in ascending order, with the type of the first value seen.
-/

namespace RecordQuery

structure SeedRecord where
  /-- The namespace of the connection, if none is given. -/
  space : Option String
  set : String
  key : Value
  bins : Fields Value
  keepsKey : Bool

structure SeedColumn where
  name : String
  label : Option String
  type : ColumnType

structure SeedSchema where
  space : Option String
  set : String
  columns : List SeedColumn

structure Seed where
  records : List SeedRecord
  indexes : List Index
  schemas : List SeedSchema
  supportsIndexes : Bool

def SeedRecord.ofDocument? (document : Document) : Option SeedRecord := do
  let members ← document.members? ["namespace", "set", "key", "bins", "send_key"]
  let space ← members.nullable "namespace" Document.string?
  let set ← members.required "set" Document.string?
  let key ← members.required "key" Value.ofDocument?
  let bins ← members.optional "bins" [] Value.binsOfDocument?
  let keepsKey ← members.optional "send_key" true Document.bool?
  return { space, set, key, bins, keepsKey }

def SeedColumn.ofDocument? (document : Document) : Option SeedColumn := do
  let members ← document.members? ["name", "label", "type"]
  let name ← members.required "name" Document.string?
  let label ← members.nullable "label" Document.string?
  let type ← members.required "type" ColumnType.ofDocument?
  return { name, label, type }

def SeedSchema.ofDocument? (document : Document) : Option SeedSchema := do
  let members ← document.members? ["namespace", "table", "columns"]
  let space ← members.nullable "namespace" Document.string?
  let set ← members.required "table" Document.string?
  let columns ← members.required "columns" (Document.list? SeedColumn.ofDocument?)
  return { space, set, columns }

/-- A record whose key the store cannot address. -/
structure SeedError where
  set : String
  error : AddressError

def SeedError.message (error : SeedError) : String :=
  "record in set '" ++ error.set ++ "': " ++ error.error.message

namespace Seed

def ofDocument? (document : Document) : Option Seed := do
  let members ← document.members? ["records", "indexes", "schemas", "secondary_index_support"]
  let records ← members.optional "records" [] (Document.list? SeedRecord.ofDocument?)
  let indexes ← members.optional "indexes" [] (Document.list? Index.ofDocument?)
  let schemas ← members.optional "schemas" [] (Document.list? SeedSchema.ofDocument?)
  let supportsIndexes ← members.optional "secondary_index_support" true Document.bool?
  return { records, indexes, schemas, supportsIndexes }

def SeedRecord.table (record : SeedRecord) (defaultSpace : String) : TableName :=
  ⟨record.space.getD defaultSpace, record.set⟩

/-- The types of the bins seen so far, by table. -/
abbrev SeenBins := Std.TreeMap TableName (Fields ColumnType)

/-- Adds the bins that have not been seen in the table yet. -/
def noteBins (seen : Fields ColumnType) (bins : Fields Value) : Fields ColumnType :=
  bins.foldl
    (fun seen bin =>
      if Fields.contains seen bin.1 then seen
      else Fields.insert seen bin.1 (ColumnType.ofValue bin.2))
    seen

/-- Writes the records in turn, and notes their bins. -/
def loadRecords (defaultSpace : String) :
    List SeedRecord → MemoryStore → SeenBins → Except SeedError (MemoryStore × SeenBins)
  | [], store, seen => .ok (store, seen)
  | record :: rest, store, seen =>
    let table := SeedRecord.table record defaultSpace
    match Key.ofValue table record.key with
    | .error error => .error ⟨record.set, error⟩
    | .ok key =>
      let bins := noteBins ((seen[table]?).getD []) record.bins
      loadRecords defaultSpace rest (store.put key record.bins record.keepsKey)
        (seen.insert table bins)

def derivedColumns (table : TableName) (bins : Fields ColumnType) : List Column :=
  ⟨table, .other, keyField, keyField⟩ :: bins.map fun bin => ⟨table, bin.2, bin.1, bin.1⟩

def declaredColumns (table : TableName) (columns : List SeedColumn) : List Column :=
  columns.map fun column => ⟨table, column.type, column.name, column.label.getD column.name⟩

/-- The schemas seen in the records, and over them the declared ones. -/
def schema (seed : Seed) (defaultSpace : String) (seen : SeenBins) : Schema :=
  let derived : Schema :=
    seen.foldl (fun schema table bins => schema.insert table (derivedColumns table bins)) ∅
  seed.schemas.foldl
    (fun schema declared =>
      let table : TableName := ⟨declared.space.getD defaultSpace, declared.set⟩
      schema.insert table (declaredColumns table declared.columns))
    derived

/-- The store and the schemas that the seed describes. -/
def load (seed : Seed) (defaultSpace : String) : Except SeedError (MemoryStore × Schema) := do
  let empty : MemoryStore := { supportsIndexes := seed.supportsIndexes }
  let (store, seen) ← loadRecords defaultSpace seed.records empty ∅
  return (seed.indexes.foldl MemoryStore.createIndex store, seed.schema defaultSpace seen)

end Seed

end RecordQuery
