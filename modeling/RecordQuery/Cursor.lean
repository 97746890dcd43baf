import RecordQuery.Column
import RecordQuery.Plan.Basic

/-!
Cursors: the rows of a record stream, read forwards and once. A cursor stands before the first row,
on a row, after the last row, or is closed, and keeps the record of the row beside its position. A
column shows the user key or a bin, and nil where the record has neither.
-/

namespace RecordQuery

/-- Why a query fails, or a cursor cannot be read. -/
inductive QueryError where
  | plan (error : PlanError)
  | store (error : StoreError)
  | columnOutOfRange (index count : Nat)
  | unknownColumn (label : String)
  | noCurrentRow
  | closed

namespace QueryError

def code : QueryError → String
  | .plan error => error.code
  | .store error => error.code
  | .columnOutOfRange _ _ => "AERO_SQL_COLUMN_OUT_OF_RANGE"
  | .unknownColumn _ => "AERO_SQL_UNKNOWN_COLUMN"
  | .noCurrentRow => "AERO_SQL_NO_CURRENT_ROW"
  | .closed => "AERO_SQL_CURSOR_CLOSED"

def reason : QueryError → String
  | .plan error => error.reason
  | .store error => error.message
  | .columnOutOfRange index count =>
    "column " ++ toString index ++ " out of range (0.." ++ toString count ++ ")"
  | .unknownColumn label => label
  | .noCurrentRow => "cursor is not positioned on a row"
  | .closed => "cursor is closed"

def severity : QueryError → String
  | .plan error => error.severity
  | _ => "ERROR"

def message (error : QueryError) : String :=
  "[" ++ error.severity ++ "] " ++ error.code ++ ": " ++ error.reason

end QueryError

namespace Cursor

inductive Position where
  | beforeFirst
  | onRow
  | afterLast
  | closed
  deriving DecidableEq, Repr

def Position.name : Position → String
  | .beforeFirst => "BeforeFirst"
  | .onRow => "OnRow"
  | .afterLast => "AfterLast"
  | .closed => "Closed"

end Cursor

structure Cursor where
  columns : List Column
  /-- The record of the row. -/
  record : Option Record := none
  position : Cursor.Position := .beforeFirst

namespace Cursor

/-- The row count of a query whose rows have not been counted. -/
def unknownRowCount : Int := -1

/-- Goes to the next row and tells whether there is one; no result while the stream has to be waited
for. A failure of the stream is reported once. -/
def next? (cursor : Cursor) (stream : RecordStream) :
    Option (Except QueryError Bool × Cursor × RecordStream) :=
  match cursor.position with
  | .closed => some (.error .closed, cursor, stream)
  | .afterLast => some (.ok false, cursor, stream)
  | _ =>
    stream.next?.map fun (item, stream) =>
      match item with
      | .record record => (.ok true, { cursor with record := some record, position := .onRow }, stream)
      | .finished => (.ok false, { cursor with record := none, position := .afterLast }, stream)
      | .failed error =>
        (.error (.store error), { cursor with record := none, position := .afterLast }, stream)

def current (cursor : Cursor) : Except QueryError Record :=
  match cursor.position with
  | .closed => .error .closed
  | _ => cursor.record.elim (.error .noCurrentRow) .ok

/-- What a column shows of a record. -/
def shown (column : Column) (record : Record) : Value :=
  if column.name = keyField then record.userKey?.getD .nil else (record.bin? column.name).getD .nil

def get (cursor : Cursor) (index : Nat) : Except QueryError Value := do
  let record ← cursor.current
  match cursor.columns[index]? with
  | some column => return shown column record
  | none => .error (.columnOutOfRange index cursor.columns.length)

/-- The position of the column with a label, of which the case of ASCII letters does not count. -/
def findColumn (cursor : Cursor) (label : String) : Except QueryError Nat :=
  match cursor.columns.findIdx? fun column => column.label.toLower == label.toLower with
  | some index => .ok index
  | none => .error (.unknownColumn label)

def getByLabel (cursor : Cursor) (label : String) : Except QueryError Value := do
  cursor.get (← cursor.findColumn label)

/-- The values of all columns; without columns there is nothing to read, on a row or elsewhere. -/
def row (cursor : Cursor) : Except QueryError (List Value) :=
  (List.range cursor.columns.length).mapM cursor.get

def key (cursor : Cursor) : Except QueryError (Option Key) := do
  return (← cursor.current).key

def isClosed (cursor : Cursor) : Bool := cursor.position == .closed

/-- Closes the cursor and the stream that it reads. -/
def close (cursor : Cursor) (stream : RecordStream) : Cursor × RecordStream :=
  if cursor.isClosed then (cursor, stream)
  else ({ cursor with record := none, position := .closed }, stream.close)

/-- The cursor in brief. -/
def summary (cursor : Cursor) : String :=
  "RecordCursor \x7b columns: " ++ toString cursor.columns.length ++ ", position: "
    ++ cursor.position.name ++ ", .. \x7d"

end Cursor

end RecordQuery
