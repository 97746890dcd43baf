import RecordQuery.Address.Key
import RecordQuery.Json.Shape

/-!
Output columns: which bin of which table a column shows, its declared type and its label.
-/

namespace RecordQuery

inductive ColumnType where
  | integer
  | double
  | string
  | blob
  | boolean
  | list
  | map
  | other
  deriving DecidableEq, Repr

namespace ColumnType

def all : List ColumnType := [.integer, .double, .string, .blob, .boolean, .list, .map, .other]

def name : ColumnType → String
  | .integer => "integer"
  | .double => "double"
  | .string => "string"
  | .blob => "blob"
  | .boolean => "boolean"
  | .list => "list"
  | .map => "map"
  | .other => "other"

def ofName? (name : String) : Option ColumnType := all.find? fun type => type.name == name

/-- The type of a column that shows values like this one. -/
def ofValue : Value → ColumnType
  | .nil => .other
  | .bool _ => .boolean
  | .int _ => .integer
  | .float _ => .double
  | .string _ => .string
  | .blob _ => .blob
  | .list _ => .list
  | .map _ => .map

def ofDocument? (document : Document) : Option ColumnType := document.choice?.bind ofName?

end ColumnType

structure Column where
  table : TableName
  type : ColumnType
  /-- The bin, or the reserved name of the user key. -/
  name : String
  label : String
  deriving DecidableEq, Repr

namespace Column

def ofDocument? (document : Document) : Option Column := do
  let members ← document.members? ["namespace", "table", "column_type", "name", "label"]
  let space ← members.required "namespace" Document.string?
  let set ← members.required "table" Document.string?
  let type ← members.required "column_type" ColumnType.ofDocument?
  let name ← members.required "name" Document.string?
  let label ← members.required "label" Document.string?
  return ⟨⟨space, set⟩, type, name, label⟩

def toJson (column : Column) : Json :=
  .object [("column_type", .string column.type.name), ("label", .string column.label),
    ("name", .string column.name), ("namespace", .string column.table.space),
    ("table", .string column.table.set)]

/-- Of the columns, those that show a selected bin, in their own order; all without a selection. -/
def select (selected : Option (List String)) (columns : List Column) : List Column :=
  match selected with
  | none => columns
  | some names => columns.filter fun column => names.contains column.name

end Column

end RecordQuery
