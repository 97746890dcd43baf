import RecordQuery.Json.Basic

/-!
Reading structures from documents. A structure is written as an object, whose unknown fields are
passed over and whose known fields stand at most once, or as an array of its members in their
declared order, of which the last may be left out.
-/

namespace RecordQuery

/-- The members of a structure that are present, by name. -/
abbrev Members := List (String × Document)

namespace Document

def members? (names : List String) : Document → Option Members
  | .object fields =>
    let known := fields.filter fun field => names.contains field.1
    if (known.map Prod.fst).Nodup then some known else none
  | .array items => if items.length ≤ names.length then some (names.zip items) else none
  | _ => none

def string? : Document → Option String
  | .string text => some text
  | _ => none

def bool? : Document → Option Bool
  | .bool value => some value
  | _ => none

def unsigned64? : Document → Option UInt64
  | .int n => if 0 ≤ n ∧ n < UInt64.size then some (UInt64.ofNat n.toNat) else none
  | _ => none

def list? {α : Type} (read : Document → Option α) : Document → Option (List α)
  | .array items => items.mapM read
  | _ => none

/-- A value that may be null. -/
def nullable? {α : Type} (read : Document → Option α) : Document → Option (Option α)
  | .null => some none
  | document => (read document).map some

/-- One of several names: as a string, or as an object with that name alone over null. -/
def choice? : Document → Option String
  | .string name => some name
  | .object [(name, .null)] => some name
  | _ => none

end Document

namespace Members

variable {α : Type}

def get? : Members → String → Option Document
  | [], _ => none
  | (key, value) :: rest, name => if key = name then some value else get? rest name

def required (members : Members) (name : String) (read : Document → Option α) : Option α :=
  (members.get? name).bind read

def optional (members : Members) (name : String) (default : α) (read : Document → Option α) :
    Option α :=
  match members.get? name with
  | some document => read document
  | none => some default

/-- A member that may be null or missing. -/
def nullable (members : Members) (name : String) (read : Document → Option α) : Option (Option α) :=
  members.optional name none (Document.nullable? read)

end Members

end RecordQuery
