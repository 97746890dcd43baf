import RecordQuery.Fields
import RecordQuery.Text.Numeral

/-!
Connection URLs: `jdbc:aerospike:`, optionally `//`, a list of hosts with optional ports, optionally
`/` and a namespace, optionally `?` and parameters. The hosts reach up to the first `/` or `?`, the
namespace up to the first `?`. Elements of the host list may be empty, and pairs that lack a name or
a value are passed over.
-/

namespace RecordQuery

structure Host where
  name : String
  port : UInt16
  deriving DecidableEq, Repr

namespace Host

def defaultPort : UInt16 := 3000

def text (host : Host) : String := host.name ++ ":" ++ toString host.port.toNat

end Host

structure ConnectionUrl where
  hosts : List Host
  space : Option String
  parameters : Fields String

/-- Why a connection cannot be configured. -/
inductive ConfigError where
  | invalidUrl (url : String)
  | invalidValue (key value reason : String)
  deriving DecidableEq, Repr

namespace ConfigError

def code : ConfigError → String
  | .invalidUrl _ => "AERO_SQL_CONFIG_INVALID_URL"
  | .invalidValue _ _ _ => "AERO_SQL_CONFIG_INVALID_VALUE"

def message : ConfigError → String
  | .invalidUrl url => "cannot parse URL '" ++ url ++ "'"
  | .invalidValue key value reason =>
    "invalid value '" ++ value ++ "' for option '" ++ key ++ "': " ++ reason

end ConfigError

namespace ConnectionUrl

def scheme : List Char := "jdbc:aerospike:".toList

/-- The elements between separators; a text without separator is one element. -/
def split (separator : Char) : List Char → List (List Char)
  | [] => [[]]
  | c :: rest =>
    if c = separator then [] :: split separator rest
    else
      match split separator rest with
      | [] => [[c]]
      | first :: others => (c :: first) :: others

/-- What stands before and after the first separator. -/
def splitOnce? (separator : Char) : List Char → Option (List Char × List Char)
  | [] => none
  | c :: rest =>
    if c = separator then some ([], rest)
    else (splitOnce? separator rest).map fun (before, after) => (c :: before, after)

/-- The three parts of a URL as they are written. -/
structure Parts where
  hosts : List Char
  space : Option (List Char)
  parameters : Option (List Char)

/-- What may follow the hosts and the namespace: nothing, or `?` and parameters on one line. -/
def parameters? : List Char → Option (Option (List Char))
  | [] => some none
  | '?' :: rest => if rest.contains '\n' then none else some (some rest)
  | _ => none

/-- The parts after the scheme and the slashes. -/
def parts? (text : List Char) : Option Parts :=
  let inHosts (c : Char) : Bool := c ≠ '/' && c ≠ '?'
  let hosts := text.takeWhile inHosts
  if hosts.isEmpty then none
  else
    match text.dropWhile inHosts with
    | '/' :: rest =>
      let inSpace (c : Char) : Bool := c ≠ '?'
      (parameters? (rest.dropWhile inSpace)).map fun parameters =>
        ⟨hosts, some (rest.takeWhile inSpace), parameters⟩
    | rest => (parameters? rest).map fun parameters => ⟨hosts, none, parameters⟩

def afterScheme? (text : List Char) : Option (List Char) :=
  if scheme.isPrefixOf text then some (text.drop scheme.length) else none

def dropSlashes : List Char → List Char
  | '/' :: '/' :: rest => rest
  | text => text

def host? (text : List Char) : Option Host :=
  match splitOnce? ':' text with
  | none => some ⟨String.ofList text, Host.defaultPort⟩
  | some (name, port) =>
    match Text.readUnsigned UInt16.size (String.ofList port) with
    | .ok port => some ⟨String.ofList name, UInt16.ofNat port⟩
    | .error _ => none

def hosts? (text : List Char) : Option (List Host) :=
  ((split ',' text).filter fun element => !element.isEmpty).mapM host?

/-- A pair of a name and a value, neither of them empty. -/
def parameter? (text : List Char) : Option (String × String) :=
  match splitOnce? '=' text with
  | some (name, value) =>
    if name.isEmpty || value.isEmpty then none else some (String.ofList name, String.ofList value)
  | none => none

/-- Of several values for one name the last counts. -/
def pairs (text : List Char) : Fields String :=
  Fields.ofPairs ((split '&' text).filterMap parameter?)

def read? (text : List Char) : Option ConnectionUrl := do
  let parts ← parts? (dropSlashes (← afterScheme? text))
  let hosts ← hosts? parts.hosts
  guard (!hosts.isEmpty)
  let space := parts.space.filter fun space => !space.isEmpty
  return ⟨hosts, space.map String.ofList, (parts.parameters.map pairs).getD []⟩

def parse (url : String) : Except ConfigError ConnectionUrl :=
  match read? url.toList with
  | some found => .ok found
  | none => .error (.invalidUrl url)

end ConnectionUrl

end RecordQuery
