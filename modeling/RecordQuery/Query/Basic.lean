import RecordQuery.Predicate.Basic

/-!
The description of one query: the table, what to show of it, which records, and how many.
-/

namespace RecordQuery

structure Query where
  table : TableName
  /-- The names of the columns asked for; one name that begins with `count(` asks for a count. -/
  columns : List String := []
  predicate : Option Predicate := none
  /-- The user key of the only record asked for. -/
  primaryKey : Option Value := none
  /-- The partition that a scan begins with. -/
  offset : Option UInt64 := none
  limit : Option UInt64 := none
  /-- The bins to fetch; all without it. -/
  binNames : Option (List String) := none

namespace Query

/-- The query with every value that it mentions changed. -/
def mapValues (change : Value → Value) (query : Query) : Query :=
  { query with
    predicate := query.predicate.map fun predicate => predicate.mapValues change
    primaryKey := query.primaryKey.map change }

def isCountName (column : String) : Bool := "count(".toList.isPrefixOf column.toLower.toList

/-- The label of a query for a count. -/
def countLabel? (query : Query) : Option String :=
  match query.columns with
  | [column] => if isCountName column then some column else none
  | _ => none

def isCount (query : Query) : Bool := query.countLabel?.isSome

/-- The bins that the rows show: those fetched if they are listed, else the columns asked for. -/
def selection? (query : Query) : Option (List String) :=
  match query.binNames, query.columns with
  | some bins, _ => some bins
  | none, [] => none
  | none, ["*"] => none
  | none, columns => some columns

end Query

end RecordQuery
