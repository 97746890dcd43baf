import RecordQuery.Connection.Url

/-!
The forms in which one connection URL can be written. The slashes may stand or not, the default port
may be named or left out, empty elements may stand among the hosts, the parameters come in any order,
and pairs that say nothing may stand among them.
-/

namespace RecordQuery

/-- A host with its port, or by its name alone if the port is the default one. -/
inductive Host.Spelled : Host → String → Prop
  | withPort (host : Host) : Spelled host host.text
  | nameOnly (name : String) : Spelled ⟨name, Host.defaultPort⟩ name

namespace ConnectionUrl

/-- The hosts in order, with empty elements among them. -/
inductive HostsSpelled : List Host → List String → Prop
  | done : HostsSpelled [] []
  | empty {hosts : List Host} {elements : List String} (rest : HostsSpelled hosts elements) :
    HostsSpelled hosts ("" :: elements)
  | host {host : Host} {element : String} {hosts : List Host} {elements : List String}
    (spelled : host.Spelled element) (rest : HostsSpelled hosts elements) :
    HostsSpelled (host :: hosts) (element :: elements)

/-- A pair without a value, or without a name. -/
inductive Valueless : String → Prop
  | flag {text : String} (plain : '=' ∉ text.toList) : Valueless text
  | noValue {name : String} (plain : '=' ∉ name.toList) : Valueless (name ++ "=")
  | noName (value : String) : Valueless ("=" ++ value)

/-- The pairs in order, with valueless ones among them. -/
inductive PairsSpelled : List (String × String) → List String → Prop
  | done : PairsSpelled [] []
  | valueless {element : String} {pairs : List (String × String)} {elements : List String}
    (valueless : Valueless element)
    (plain : ∀ separator ∈ ['&', '\n'], separator ∉ element.toList)
    (rest : PairsSpelled pairs elements) : PairsSpelled pairs (element :: elements)
  | pair (name value : String) {pairs : List (String × String)} {elements : List String}
    (rest : PairsSpelled pairs elements) :
    PairsSpelled ((name, value) :: pairs) ((name ++ "=" ++ value) :: elements)

structure Spelling where
  slashes : Bool
  hosts : List String
  space : Option String
  /-- Without any element there is no question mark either. -/
  parameters : List String

namespace Spelling

def spaceText (spelling : Spelling) : String := spelling.space.elim "" fun space => "/" ++ space

def parametersText (spelling : Spelling) : String :=
  if spelling.parameters.isEmpty then "" else "?" ++ "&".intercalate spelling.parameters

def text (spelling : Spelling) : String :=
  "jdbc:aerospike:" ++ (if spelling.slashes then "//" else "") ++
    ",".intercalate spelling.hosts ++ spelling.spaceText ++ spelling.parametersText

/-- The spelling is one of `url`. -/
structure Spells (spelling : Spelling) (url : ConnectionUrl) : Prop where
  hosts : HostsSpelled url.hosts spelling.hosts
  space : spelling.space = url.space
  parameters : ∃ pairs : List (String × String),
    pairs.Perm url.parameters ∧ PairsSpelled pairs spelling.parameters

end Spelling

end ConnectionUrl

end RecordQuery
