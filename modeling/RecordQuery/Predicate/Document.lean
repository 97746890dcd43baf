import RecordQuery.Predicate.Basic
import RecordQuery.Value.Document

/-!
Predicates as JSON. A predicate is an object with its kind under `op`, or an array that begins with
its kind; inside another predicate the kind may also be given by its number. The whole text of a
predicate has to be readable, also where it is passed over, and no field that is looked at may stand
twice.
-/

namespace RecordQuery

namespace Limit

def ofDocument? (document : Document) : Option Limit := do
  let members ← document.members? ["value", "inclusive"]
  let value ← members.required "value" Value.ofDocument?
  let inclusive ← members.optional "inclusive" true Document.bool?
  return ⟨value, inclusive⟩

def toJson (limit : Limit) : Json :=
  .object [("inclusive", .bool limit.inclusive), ("value", limit.value.toJson)]

def toJson? : Option Limit → Json
  | none => .null
  | some limit => limit.toJson

end Limit

namespace Predicate

inductive Kind where
  | equals
  | notEquals
  | range
  | isNull
  | isNotNull
  | member
  | and
  | or
  deriving DecidableEq, Repr

namespace Kind

/-- The kinds in the order of their numbers. -/
def all : List Kind := [.equals, .notEquals, .range, .isNull, .isNotNull, .member, .and, .or]

def name : Kind → String
  | .equals => "equals"
  | .notEquals => "not_equals"
  | .range => "range"
  | .isNull => "is_null"
  | .isNotNull => "is_not_null"
  | .member => "in"
  | .and => "and"
  | .or => "or"

def memberNames : Kind → List String
  | .equals | .notEquals => ["field", "value"]
  | .range => ["field", "lower", "upper"]
  | .isNull | .isNotNull => ["field"]
  | .member => ["field", "values", "negated"]
  | .and | .or => ["predicates"]

def ofDocument? (numbered : Bool) : Document → Option Kind
  | .string name => all.find? fun kind => kind.name == name
  | .int n => if numbered ∧ 0 ≤ n then all[n.toNat]? else none
  | _ => none

end Kind

/-- A predicate from its members; `parts` are the members read as lists of predicates. -/
def ofMembers? (kind : Kind) (members : Members) (parts : List (String × Option (List Predicate))) :
    Option Predicate := do
  match kind with
  | .equals =>
    return .equals (← members.required "field" Document.string?)
      (← members.required "value" Value.ofDocument?)
  | .notEquals =>
    return .notEquals (← members.required "field" Document.string?)
      (← members.required "value" Value.ofDocument?)
  | .range =>
    return .range (← members.required "field" Document.string?)
      (← members.nullable "lower" Limit.ofDocument?) (← members.nullable "upper" Limit.ofDocument?)
  | .isNull => return .isNull (← members.required "field" Document.string?)
  | .isNotNull => return .isNotNull (← members.required "field" Document.string?)
  | .member =>
    return .member (← members.required "field" Document.string?)
      (← members.required "values" (Document.list? Value.ofDocument?))
      (← members.optional "negated" false Document.bool?)
  | .and => return .and (← (← Fields.get? parts "predicates"))
  | .or => return .or (← (← Fields.get? parts "predicates"))

mutual

/-- Reads a predicate from a document whose every part is readable. -/
def ofReadable? (numbered : Bool) : Document → Option Predicate
  | .object fields => do
    let [(_, op)] := fields.filter fun field => field.1 = "op" | none
    let kind ← Kind.ofDocument? numbered op
    let members ← (Document.object fields).members? kind.memberNames
    ofMembers? kind members (fieldParts fields)
  | .array (op :: items) => do
    let kind ← Kind.ofDocument? numbered op
    let members ← (Document.array items).members? kind.memberNames
    ofMembers? kind members (kind.memberNames.zip (itemParts items))
  | _ => none

/-- A document as a list of predicates. -/
def partsOfReadable? : Document → Option (List Predicate)
  | .array items => listOfReadable? items
  | _ => none

def listOfReadable? : List Document → Option (List Predicate)
  | [] => some []
  | item :: rest => do
    let first ← ofReadable? true item
    let others ← listOfReadable? rest
    return first :: others

def fieldParts : List (String × Document) → List (String × Option (List Predicate))
  | [] => []
  | (name, document) :: rest => (name, partsOfReadable? document) :: fieldParts rest

def itemParts : List Document → List (Option (List Predicate))
  | [] => []
  | document :: rest => partsOfReadable? document :: itemParts rest

end

def ofDocument? (document : Document) : Option Predicate :=
  if document.isReadable then ofReadable? false document else none

mutual

def toJson : Predicate → Json
  | .equals field value =>
    .object [("field", .string field), ("op", .string Kind.equals.name), ("value", value.toJson)]
  | .notEquals field value =>
    .object [("field", .string field), ("op", .string Kind.notEquals.name), ("value", value.toJson)]
  | .range field lower upper =>
    .object [("field", .string field), ("lower", Limit.toJson? lower), ("op", .string Kind.range.name),
      ("upper", Limit.toJson? upper)]
  | .isNull field => .object [("field", .string field), ("op", .string Kind.isNull.name)]
  | .isNotNull field => .object [("field", .string field), ("op", .string Kind.isNotNull.name)]
  | .member field values negated =>
    .object [("field", .string field), ("negated", .bool negated), ("op", .string Kind.member.name),
      ("values", .array (values.map Value.toJson))]
  | .and parts => .object [("op", .string Kind.and.name), ("predicates", .array (toJsonParts parts))]
  | .or parts => .object [("op", .string Kind.or.name), ("predicates", .array (toJsonParts parts))]

def toJsonParts : List Predicate → List Json
  | [] => []
  | part :: rest => part.toJson :: toJsonParts rest

end

end Predicate

end RecordQuery
