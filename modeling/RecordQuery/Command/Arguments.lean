import RecordQuery.Text.Blank

/-!
The command line: one of the commands `explain` and `run` with its options, or a request for help or
for the version. An option's value follows it, or is attached with `=`; the short option `-p` also
takes a value that follows it at once. A value is looked at when the next option begins or the line
ends, so an unknown option after it is reported first.
-/

namespace RecordQuery

structure Invocation where
  url : String
  properties : List (String × String)
  /-- The path of the seed. -/
  data : String
  /-- The path of the query, which is read from the standard input without it. -/
  query : Option String
  deriving DecidableEq, Repr

inductive Command where
  | explain (invocation : Invocation)
  | run (invocation : Invocation)
  deriving DecidableEq, Repr

def Command.invocation : Command → Invocation
  | .explain invocation => invocation
  | .run invocation => invocation

/-- Why a command line names no command. -/
inductive ArgumentError where
  | helpWanted
  | versionWanted
  | nothingGiven
  | unknownSubcommand
  | unknownArgument
  | missingArgument
  | missingValue
  | unneededValue
  | malformedValue
  | repeatedArgument
  deriving DecidableEq, Repr

/-- Asking for help or for the version is no failure. -/
def ArgumentError.exitCode : ArgumentError → UInt32
  | .helpWanted => 0
  | .versionWanted => 0
  | _ => 2

namespace Arguments

inductive OptionName where
  | url
  | property
  | data
  | query
  deriving DecidableEq, Repr

def OptionName.ofLong? : String → Option OptionName
  | "url" => some .url
  | "property" => some .property
  | "data" => some .data
  | "query" => some .query
  | _ => none

/-- The options seen so far, and the last one with its value if that has not been looked at yet. -/
structure Seen where
  url : Option String := none
  properties : List (String × String) := []
  data : Option String := none
  query : Option String := none
  pending : Option (OptionName × Option String) := none

def defaultUrl : String := "jdbc:aerospike:localhost:3000/test"

/-- What stands before and after the first `=`. -/
def splitAtEquals (text : List Char) : List Char × Option (List Char) :=
  let isOther (c : Char) : Bool := c ≠ '='
  match text.dropWhile isOther with
  | [] => (text, none)
  | _ :: value => (text.takeWhile isOther, some value)

/-- A property is written `key=value`; blanks around both are dropped, and the key is not empty. -/
def property? (raw : String) : Option (String × String) :=
  match splitAtEquals raw.toList with
  | (_, none) => none
  | (key, some value) =>
    let key := Text.trim (String.ofList key)
    if key.isEmpty then none else some (key, Text.trim (String.ofList value))

/-- A path may not be empty. -/
def path (text : String) : Except ArgumentError String :=
  if text.isEmpty then .error .missingValue else .ok text

namespace Seen

def store (seen : Seen) (option : OptionName) (value : String) : Except ArgumentError Seen :=
  match option with
  | .property =>
    match property? value with
    | some property => .ok { seen with properties := seen.properties ++ [property] }
    | none => .error .malformedValue
  | .url => if seen.url.isSome then .error .repeatedArgument else .ok { seen with url := some value }
  | .data =>
    if seen.data.isSome then .error .repeatedArgument
    else (path value).map fun path => { seen with data := some path }
  | .query =>
    if seen.query.isSome then .error .repeatedArgument
    else (path value).map fun path => { seen with query := some path }

/-- Looks at the value of the last option. -/
def settle (seen : Seen) : Except ArgumentError Seen :=
  match seen.pending with
  | none => .ok seen
  | some (_, none) => .error .missingValue
  | some (option, some value) => { seen with pending := none }.store option value

/-- Begins an option, which waits for a value if none is attached. -/
def begin (seen : Seen) (option : OptionName) (attached : Option String) :
    Except ArgumentError Seen := do
  let seen ← seen.settle
  match attached with
  | some value => seen.store option value
  | none => return { seen with pending := some (option, none) }

def finish (seen : Seen) : Except ArgumentError Invocation := do
  let seen ← seen.settle
  match seen.data with
  | none => throw .missingArgument
  | some data =>
    return {
      url := seen.url.getD defaultUrl
      properties := seen.properties
      data
      query := seen.query }

end Seen

/-- A word of the command line by its form. -/
inductive Word where
  | separator
  | long (name : String) (value : Option String)
  | short (letter : Char) (rest : List Char)
  | plain (text : String)

def Word.ofString (text : String) : Word :=
  match text.toList with
  | ['-', '-'] => .separator
  | '-' :: '-' :: rest =>
    let (name, value) := splitAtEquals rest
    .long (String.ofList name) (value.map String.ofList)
  | '-' :: letter :: rest => .short letter rest
  | _ => .plain text

/-- The value attached to a short option, with or without `=`. -/
def attachedValue : List Char → Option String
  | [] => none
  | '=' :: value => some (String.ofList value)
  | value => some (String.ofList value)

/-- Reads the options of a command. -/
def options (seen : Seen) : List String → Except ArgumentError Invocation
  | [] => seen.finish
  | text :: rest =>
    match Word.ofString text with
    | .separator => if rest.isEmpty then seen.finish else throw .unknownArgument
    | .long "help" none => do
      let _ ← seen.settle
      throw .helpWanted
    | .long "help" (some _) => throw .unneededValue
    | .long name value =>
      match OptionName.ofLong? name with
      | some option => do options (← seen.begin option value) rest
      | none => throw .unknownArgument
    | .short 'h' _ => do
      let _ ← seen.settle
      throw .helpWanted
    | .short 'p' value => do options (← seen.begin .property (attachedValue value)) rest
    | .short _ _ => throw .unknownArgument
    | .plain value =>
      match seen.pending with
      | some (option, none) => options { seen with pending := some (option, some value) } rest
      | _ => throw .unknownArgument

def isCommandName (text : String) : Bool := text == "explain" || text == "run" || text == "help"

/-- Help may be asked for about one command. -/
def help : List String → ArgumentError
  | [] => .helpWanted
  | [name] => if isCommandName name then .helpWanted else .unknownSubcommand
  | _ => .unknownSubcommand

/-- Reads the words after the program's name. -/
def read : List String → Except ArgumentError Command
  | [] => .error .nothingGiven
  | "explain" :: rest => (options {} rest).map .explain
  | "run" :: rest => (options {} rest).map .run
  | "help" :: rest => .error (help rest)
  | first :: rest =>
    match Word.ofString first with
    | .separator =>
      match rest with
      | [] => .error .nothingGiven
      | name :: _ => .error (if isCommandName name then .unknownArgument else .unknownSubcommand)
    | .long "help" none => .error .helpWanted
    | .long "version" none => .error .versionWanted
    | .long "help" (some _) => .error .unneededValue
    | .long "version" (some _) => .error .unneededValue
    | .long _ _ => .error .unknownArgument
    | .short 'h' _ => .error .helpWanted
    | .short 'V' _ => .error .versionWanted
    | .short _ _ => .error .unknownArgument
    | .plain _ => .error .unknownSubcommand

end Arguments

end RecordQuery
