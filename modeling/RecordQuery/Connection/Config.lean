import RecordQuery.Connection.Url
import RecordQuery.Policy
import RecordQuery.Text.Blank

/-!
The configuration of a connection. It begins with the defaults; each option that is recognized sets
one or more of its fields, and all others are ignored. An option is read before anything is set, so
a value of the wrong shape changes nothing.
-/

namespace RecordQuery

structure Config where
  hosts : List Host := [⟨"localhost", Host.defaultPort⟩]
  /-- The namespace of queries that name none. -/
  space : Option String := none
  client : ClientPolicy := {}
  read : BasePolicy := {}
  scan : ScanPolicy := {}
  query : QueryPolicy := {}
  /-- How many records a scan or index query may have waiting; any number without it. -/
  queueCapacity : Option UInt64 := none
  /-- Whether the store has booleans of its own; otherwise they are one and zero. -/
  useBoolBin : Bool := true

inductive OptionKey where
  | user
  | password
  | clusterName
  | timeout
  | loginTimeout
  | maxConnsPerNode
  | socketTimeout
  | totalTimeout
  | maxRetries
  | sleepBetweenRetries
  | sendKey
  | recordsPerSecond
  | maxConcurrentNodes
  | recordSetQueueCapacity
  | useBoolBin
  deriving DecidableEq, Repr

namespace OptionKey

def all : List OptionKey :=
  [.user, .password, .clusterName, .timeout, .loginTimeout, .maxConnsPerNode, .socketTimeout,
   .totalTimeout, .maxRetries, .sleepBetweenRetries, .sendKey, .recordsPerSecond,
   .maxConcurrentNodes, .recordSetQueueCapacity, .useBoolBin]

def name : OptionKey → String
  | .user => "user"
  | .password => "password"
  | .clusterName => "clusterName"
  | .timeout => "timeout"
  | .loginTimeout => "loginTimeout"
  | .maxConnsPerNode => "maxConnsPerNode"
  | .socketTimeout => "socketTimeout"
  | .totalTimeout => "totalTimeout"
  | .maxRetries => "maxRetries"
  | .sleepBetweenRetries => "sleepBetweenRetries"
  | .sendKey => "sendKey"
  | .recordsPerSecond => "recordsPerSecond"
  | .maxConcurrentNodes => "maxConcurrentNodes"
  | .recordSetQueueCapacity => "recordSetQueueCapacity"
  | .useBoolBin => "useBoolBin"

def ofName? (name : String) : Option OptionKey := all.find? fun key => key.name == name

theorem mem_all (key : OptionKey) : key ∈ all := by cases key <;> decide

theorem name_injective {a b : OptionKey} (same : a.name = b.name) : a = b := by
  cases a <;> cases b <;> first | rfl | exact absurd same (by decide)

@[simp] theorem ofName?_name (key : OptionKey) : ofName? key.name = some key := by
  cases key <;> decide

theorem name_of_ofName? {name : String} {key : OptionKey} (found : ofName? name = some key) :
    key.name = name := by
  simpa using List.find?_some found

end OptionKey

/-- An option with its value read. -/
inductive Setting where
  | user (name : String)
  | password (word : String)
  | clusterName (name : String)
  | timeout (ms : UInt32)
  | loginTimeout (ms : UInt32)
  | maxConnsPerNode (count : UInt32)
  | socketTimeout (ms : UInt32)
  | totalTimeout (ms : UInt32)
  | maxRetries (count : UInt32)
  | sleepBetweenRetries (ms : UInt32)
  | sendKey (send : Bool)
  | recordsPerSecond (count : UInt32)
  | maxConcurrentNodes (count : UInt32)
  | recordSetQueueCapacity (count : UInt32)
  | useBoolBin (use : Bool)
  deriving DecidableEq, Repr

namespace Setting

def unsigned32 (value : String) : Except String UInt32 :=
  match Text.readUnsigned UInt32.size (Text.trim value) with
  | .ok n => .ok (UInt32.ofNat n)
  | .error fault => .error fault.message

def boolean (value : String) : Except String Bool :=
  let word := (Text.trim value).toLower
  if word = "true" then .ok true
  else if word = "false" then .ok false
  else .error "expected true or false"

def positive32 (value : String) : Except String UInt32 := do
  let n ← unsigned32 value
  if n = 0 then .error "must be positive" else .ok n

/-- Reads the value of an option; the error says what is wrong with it. -/
def read (key : OptionKey) (value : String) : Except String Setting :=
  match key with
  | .user => .ok (.user value)
  | .password => .ok (.password value)
  | .clusterName => .ok (.clusterName value)
  | .timeout => (unsigned32 value).map .timeout
  | .loginTimeout => (unsigned32 value).map .loginTimeout
  | .maxConnsPerNode => (unsigned32 value).map .maxConnsPerNode
  | .socketTimeout => (unsigned32 value).map .socketTimeout
  | .totalTimeout => (unsigned32 value).map .totalTimeout
  | .maxRetries => (unsigned32 value).map .maxRetries
  | .sleepBetweenRetries => (unsigned32 value).map .sleepBetweenRetries
  | .sendKey => (boolean value).map .sendKey
  | .recordsPerSecond => (unsigned32 value).map .recordsPerSecond
  | .maxConcurrentNodes => (unsigned32 value).map .maxConcurrentNodes
  | .recordSetQueueCapacity => (positive32 value).map .recordSetQueueCapacity
  | .useBoolBin => (boolean value).map .useBoolBin

end Setting

namespace Config

/-- Changes what point reads, scans and index queries have in common. -/
def mapBases (change : BasePolicy → BasePolicy) (config : Config) : Config :=
  { config with
    read := change config.read
    scan := { config.scan with base := change config.scan.base }
    query := { config.query with base := change config.query.base } }

def set (config : Config) : Setting → Config
  | .user name => { config with client := { config.client with user := some name } }
  | .password word => { config with client := { config.client with password := some word } }
  | .clusterName name => { config with client := { config.client with clusterName := some name } }
  | .timeout ms => { config with client := { config.client with timeoutMs := ms } }
  | .loginTimeout ms => { config with client := { config.client with loginTimeoutMs := ms } }
  | .maxConnsPerNode count => { config with client := { config.client with maxConnsPerNode := count } }
  | .socketTimeout ms => config.mapBases fun base => { base with socketTimeoutMs := ms }
  | .totalTimeout ms => config.mapBases fun base => { base with totalTimeoutMs := ms }
  | .maxRetries count => config.mapBases fun base => { base with maxRetries := count }
  | .sleepBetweenRetries ms => config.mapBases fun base => { base with sleepBetweenRetriesMs := ms }
  | .sendKey send => config.mapBases fun base => { base with sendKey := send }
  | .recordsPerSecond count =>
    { config with
      scan := { config.scan with recordsPerSecond := count }
      query := { config.query with recordsPerSecond := count } }
  | .maxConcurrentNodes count =>
    { config with scan := { config.scan with maxConcurrentNodes := count } }
  | .recordSetQueueCapacity count => { config with queueCapacity := some count.toUInt64 }
  | .useBoolBin use => { config with useBoolBin := use }

/-- Applies one option; no configuration is returned for a key that is not recognized. -/
def applyOption (config : Config) (key value : String) : Except ConfigError (Option Config) :=
  match OptionKey.ofName? key with
  | none => .ok none
  | some found =>
    match Setting.read found value with
    | .ok setting => .ok (some (config.set setting))
    | .error reason => .error (.invalidValue key value reason)

/-- Applies options in turn, ignoring those that are not recognized. -/
def applyOptions (config : Config) : List (String × String) → Except ConfigError Config
  | [] => .ok config
  | (key, value) :: rest => do
    let changed ← config.applyOption key value
    applyOptions (changed.getD config) rest

/-- The configuration that a URL and properties describe. A parameter of the URL takes the place of
the property of the same name; options are applied in ascending order of their names. -/
def parse (url : String) (properties : Fields String) : Except ConfigError Config := do
  let found ← ConnectionUrl.parse url
  let start : Config := { hosts := found.hosts, space := found.space }
  start.applyOptions (properties.merge found.parameters)

end Config

end RecordQuery
