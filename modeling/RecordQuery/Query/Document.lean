import RecordQuery.Predicate.Document
import RecordQuery.Query.Basic

/-!
Queries as JSON. The namespace and the table have to be given; everything else may be missing, and
may be null where it is optional. A query is written with all its fields.
-/

namespace RecordQuery.Query

def ofDocument? (document : Document) : Option Query := do
  let members ← document.members?
    ["namespace", "table", "columns", "predicate", "primary_key", "offset", "limit", "bin_names"]
  let space ← members.required "namespace" Document.string?
  let set ← members.required "table" Document.string?
  let columns ← members.optional "columns" [] (Document.list? Document.string?)
  let predicate ← members.nullable "predicate" Predicate.ofDocument?
  let primaryKey ← members.nullable "primary_key" Value.ofDocument?
  let offset ← members.nullable "offset" Document.unsigned64?
  let limit ← members.nullable "limit" Document.unsigned64?
  let binNames ← members.nullable "bin_names" (Document.list? Document.string?)
  return { table := ⟨space, set⟩, columns, predicate, primaryKey, offset, limit, binNames }

def nameList (names : List String) : Json := .array (names.map Json.string)

def numberOrNull (number : Option UInt64) : Json := number.elim .null fun n => .int n.toNat

def toJson (query : Query) : Json :=
  .object [
    ("bin_names", query.binNames.elim .null nameList),
    ("columns", nameList query.columns),
    ("limit", numberOrNull query.limit),
    ("namespace", .string query.table.space),
    ("offset", numberOrNull query.offset),
    ("predicate", query.predicate.elim .null Predicate.toJson),
    ("primary_key", query.primaryKey.elim .null Value.toJson),
    ("table", .string query.table.set)]

end RecordQuery.Query
