import RecordQuery.Command.Arguments
import RecordQuery.Engine
import RecordQuery.Json.Reader
import RecordQuery.Json.Writer
import RecordQuery.Query.Document
import RecordQuery.Seed

/-!
What the commands do. Each opens a connection, seeds a store, reads one query, and writes lines of
JSON: `explain` the explanation of the plan, `run` the rows. What goes wrong is reported in the order
in which it is met: connection, seed, query, plan, rows.
-/

namespace RecordQuery

/-- Why a command fails. -/
inductive CommandError where
  | access (reason : String)
  | input (reason : String)
  | config (error : ConfigError)
  | query (error : QueryError)

namespace CommandError

def code : CommandError → String
  | .access _ => "AERO_SQL_CLI_IO"
  | .input _ => "AERO_SQL_CLI_INPUT"
  | .config error => error.code
  | .query error => error.code

def message : CommandError → String
  | .access reason => "AERO_SQL_CLI_IO: " ++ reason
  | .input reason => "AERO_SQL_CLI_INPUT: " ++ reason
  | .config error => error.code ++ ": " ++ error.message
  | .query error => error.message

end CommandError

/-- What a command can read: files by their path, and the standard input. An unreadable file has a
reason for it. -/
structure Sources where
  file : String → Except String ByteArray
  input : ByteArray

/-- The lines that a command writes, and its outcome. -/
structure Report (α : Type) where
  lines : List String
  outcome : Except CommandError α

namespace Command

def invalidUtf8 : String := "stream did not contain valid UTF-8"

def text (bytes : ByteArray) : Except String String :=
  match String.fromUTF8? bytes with
  | some text => .ok text
  | none => .error invalidUtf8

/-- Reads a document from the standard input. -/
def readInput {α : Type} (read : Document → Option α) (bytes : ByteArray) : Except CommandError α :=
  match text bytes with
  | .error reason => .error (.access reason)
  | .ok text =>
    if (Text.trim text).isEmpty then .error (.input "Empty input")
    else
      match (Document.parse text).bind read with
      | some found => .ok found
      | none => .error (.input "JSON error")

/-- Reads a document from a file. -/
def readFile {α : Type} (read : Document → Option α) (sources : Sources) (path : String) :
    Except CommandError α :=
  match (sources.file path).bind text with
  | .error reason => .error (.access ("Failed to read " ++ path ++ ": " ++ reason))
  | .ok text =>
    match (Document.parse text).bind read with
    | some found => .ok found
    | none => .error (.input ("Invalid JSON in " ++ path))

/-- The namespace where neither the connection nor a record names one. -/
def defaultSpace : String := "test"

def openEngine (sources : Sources) (invocation : Invocation) :
    Except CommandError (Engine × MemoryStore) := do
  let config ←
    match Config.parse invocation.url (Fields.ofPairs invocation.properties) with
    | .ok config => pure config
    | .error error => throw (.config error)
  let seed ← readFile Seed.ofDocument? sources invocation.data
  match seed.load (config.space.getD defaultSpace) with
  | .ok (store, schema) => return (⟨config, schema⟩, store)
  | .error error => throw (.input error.message)

def readQuery (sources : Sources) (invocation : Invocation) : Except CommandError Query :=
  match invocation.query with
  | some path => readFile Query.ofDocument? sources path
  | none => readInput Query.ofDocument? sources.input

def prepare (sources : Sources) (invocation : Invocation) :
    Except CommandError (Engine × MemoryStore × Query) := do
  let (engine, store) ← openEngine sources invocation
  let query ← readQuery sources invocation
  return (engine, store, query)

def explainQuery (sources : Sources) (invocation : Invocation) : Report Unit :=
  match prepare sources invocation with
  | .error error => ⟨[], .error error⟩
  | .ok (_, store, query) => ⟨[(Engine.explain store query).toJson.write], .ok ()⟩

/-- The current row as an object; of several columns with one label the last counts. -/
def rowJson (cursor : Cursor) : Except QueryError Json :=
  cursor.row.map fun values =>
    .object (Fields.ofPairs ((cursor.columns.map Column.label).zip (values.map Value.toJson)))

def errorJson (code message : String) : Json :=
  .object [("code", .string code), ("message", .string message), ("status", .string "error")]

/-- Writes a line for each of at most `fuel` more rows, up to the end or a failure, and goes on with
their count. A failure of the rows is written as a line as well. -/
def writeRows (fuel : Nat) (execution : Execution) (count : Nat) : Report Nat :=
  match fuel with
  | 0 => ⟨[], .ok count⟩
  | fuel + 1 =>
    match execution.next? with
    | some (.ok true, onRow) =>
      match rowJson onRow.cursor with
      | .ok row =>
        let report := writeRows fuel onRow (count + 1)
        ⟨row.write :: report.lines, report.outcome⟩
      | .error error => ⟨[], .error (.query error)⟩
    | some (.ok false, _) => ⟨[], .ok count⟩
    | some (.error error, _) =>
      ⟨[(errorJson error.code error.message).write], .error (.query error)⟩
    | none => ⟨[], .ok count⟩

/-- Writes the rows and counts them. -/
def runQuery (sources : Sources) (invocation : Invocation) : Report Nat :=
  match prepare sources invocation with
  | .error error => ⟨[], .error error⟩
  | .ok (engine, store, query) =>
    match (engine.execute store query).1 with
    | .error error => ⟨[], .error (.query error)⟩
    | .ok execution => writeRows execution.rowsLeft execution 0

def perform (sources : Sources) : Command → Report Unit
  | .explain invocation => explainQuery sources invocation
  | .run invocation =>
    let report := runQuery sources invocation
    ⟨report.lines, report.outcome.map fun _ => ()⟩

end Command

/-- What a whole program run leaves behind. -/
structure Transcript where
  output : List String
  errors : List String
  exitCode : UInt32

namespace Transcript

def usage : List String :=
  ["Query execution engine for a key-value document store", "",
   "Usage: aerosql <COMMAND>", "", "Commands:",
   "  explain  Show the access path chosen for a query",
   "  run      Execute a query and print its rows as JSON lines",
   "  help     Print this message or the help of the given subcommand(s)", "",
   "Options:", "  -h, --help     Print help", "  -V, --version  Print version"]

def version : String := "aerosql 0.1.0"

def ofArguments (sources : Sources) (arguments : List String) : Transcript :=
  match Arguments.read arguments with
  | .error .helpWanted => ⟨usage, [], 0⟩
  | .error .versionWanted => ⟨[version], [], 0⟩
  | .error error => ⟨[], usage, error.exitCode⟩
  | .ok command =>
    let report := command.perform sources
    match report.outcome with
    | .ok () => ⟨report.lines, [], 0⟩
    | .error error => ⟨report.lines, [error.message], 1⟩

end Transcript

end RecordQuery
