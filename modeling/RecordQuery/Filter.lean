import RecordQuery.Record

/-!
Filters that a secondary index can answer: equality on one bin, and an inclusive range of integers
in one bin.
-/

namespace RecordQuery

inductive Filter where
  | equal (bin : String) (value : Value)
  | range (bin : String) (first last : Int64)

namespace Filter

/-- The integers from `first` to `last`; where both meet the filter is an equality. -/
def between (bin : String) (first last : Int64) : Filter :=
  if first = last then .equal bin (.int first) else .range bin first last

def bin : Filter → String
  | .equal bin _ => bin
  | .range bin _ _ => bin

def isNumeric : Filter → Bool
  | .equal _ (.int _) => true
  | .equal _ _ => false
  | .range _ _ _ => true

/-- Whether the filter selects a record that holds `actual` in its bin. -/
def admits : Filter → Value → Bool
  | .equal _ value, actual => actual == value
  | .range _ first last, .int actual => first ≤ actual && actual ≤ last
  | .range _ _ _, _ => false

def selects (filter : Filter) (record : Record) : Bool :=
  match record.bin? filter.bin with
  | some actual => filter.admits actual
  | none => false

/-- The ends of the integers that the filter selects, if it selects integers only. -/
def bounds? : Filter → Option (Int64 × Int64)
  | .equal _ (.int value) => some (value, value)
  | .equal _ _ => none
  | .range _ first last => some (first, last)

def beq : Filter → Filter → Bool
  | .equal bin value, .equal bin' value' => bin == bin' && value == value'
  | .range bin first last, .range bin' first' last' => bin == bin' && first == first' && last == last'
  | _, _ => false

/-- One filter for what both select; none where no value satisfies both. -/
def intersect? (a b : Filter) : Option Filter :=
  if a.bin ≠ b.bin then none
  else
    match a.bounds?, b.bounds? with
    | some (first, last), some (first', last') =>
      let low := if first < first' then first' else first
      let high := if last < last' then last else last'
      if low ≤ high then some (between a.bin low high) else none
    | none, none => if a.beq b then some a else none
    | _, _ => none

/-- One filter for what all of several filters select; none for no filters. -/
def intersectAll? : List Filter → Option Filter
  | [] => none
  | first :: rest => rest.foldlM intersect? first

def text : Filter → String
  | .equal bin value => bin ++ " = " ++ value.text
  | .range bin first last =>
    bin ++ " in [" ++ toString first.toInt ++ ", " ++ toString last.toInt ++ "]"

end Filter

end RecordQuery
