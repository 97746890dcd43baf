import RecordQuery.Command.Run

/-!
The program: it reads the files and the standard input that its command line asks for, and prints
what the command leaves behind.
-/

namespace RecordQuery.Sources

/-- The system's words for a file that cannot be read. -/
def accessFailure : IO.Error → String
  | .noFileOrDirectory _ _ _ => "No such file or directory (os error 2)"
  | .permissionDenied _ _ _ => "Permission denied (os error 13)"
  | .inappropriateType _ _ _ => "Is a directory (os error 21)"
  | error => error.toString

def readPath (path : String) : IO (Except String ByteArray) := do
  try
    return .ok (← IO.FS.readBinFile path)
  catch error =>
    return .error (accessFailure error)

/-- Reads what an invocation names: the seed, and the query from its file or the standard input. -/
def gather (invocation : Invocation) : IO Sources := do
  let mut files : List (String × Except String ByteArray) := []
  for path in invocation.data :: invocation.query.toList do
    files := (path, ← readPath path) :: files
  let input ←
    if invocation.query.isNone then (← IO.getStdin).readBinToEnd else pure ByteArray.empty
  let found := files
  return {
    file := fun path => (found.lookup path).getD (.error "No such file or directory (os error 2)")
    input }

/-- Nothing to read. -/
def none : Sources where
  file _ := .error "No such file or directory (os error 2)"
  input := ByteArray.empty

end RecordQuery.Sources

def main (arguments : List String) : IO UInt32 := do
  let sources ←
    match RecordQuery.Arguments.read arguments with
    | .ok command => RecordQuery.Sources.gather command.invocation
    | .error _ => pure RecordQuery.Sources.none
  let transcript := RecordQuery.Transcript.ofArguments sources arguments
  for line in transcript.output do
    IO.println line
  for line in transcript.errors do
    IO.eprintln line
  return transcript.exitCode
