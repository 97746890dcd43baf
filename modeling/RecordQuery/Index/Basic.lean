import RecordQuery.Filter
import RecordQuery.Json.Shape

/-!
Secondary indexes as a store reports them: each covers one bin of one set, or of a whole namespace,
and answers filters of one kind.
-/

namespace RecordQuery

inductive IndexType where
  | numeric
  | string
  | geo2dSphere
  deriving DecidableEq, Repr

namespace IndexType

/-- The name in documents. -/
def name : IndexType → String
  | .numeric => "numeric"
  | .string => "string"
  | .geo2dSphere => "geo2dsphere"

/-- The name of the kind of values that the index holds. -/
def kind : IndexType → String
  | .numeric => "NUMERIC"
  | .string => "STRING"
  | .geo2dSphere => "GEO2DSPHERE"

def all : List IndexType := [.numeric, .string, .geo2dSphere]

def ofDocument? (document : Document) : Option IndexType :=
  document.choice?.bind fun name => all.find? fun type => type.name == name

def serves (type : IndexType) (filter : Filter) : Bool :=
  match type with
  | .numeric => filter.isNumeric
  | .string => !filter.isNumeric
  | .geo2dSphere => false

end IndexType

structure Index where
  name : String
  space : String
  /-- The set that the index is restricted to, or none for the whole namespace. -/
  set : Option String
  bin : String
  type : IndexType
  deriving DecidableEq, Repr

namespace Index

def covers (index : Index) (table : TableName) : Bool :=
  index.space == table.space && index.set.all (· == table.set)

def ofDocument? (document : Document) : Option Index := do
  let members ← document.members? ["name", "namespace", "set", "bin", "index_type"]
  let name ← members.required "name" Document.string?
  let space ← members.required "namespace" Document.string?
  let set ← members.nullable "set" Document.string?
  let bin ← members.required "bin" Document.string?
  let type ← members.required "index_type" IndexType.ofDocument?
  return ⟨name, space, set, bin, type⟩

/-- The index with the name of the kind of values that it holds. -/
def toJson (index : Index) : Json :=
  .object [
    ("bin", .string index.bin),
    ("index_type", .string index.type.name),
    ("kind", .string index.type.kind),
    ("name", .string index.name),
    ("namespace", .string index.space),
    ("set", index.set.elim .null .string)]

end Index

end RecordQuery
