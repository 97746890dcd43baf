import RecordQuery.Index.Catalog
import RecordQuery.Query.Basic
import RecordQuery.Store.Basic

/-!
The plan of a query: how its records are reached. A count needs no records if it has no predicate,
and a scan without bins otherwise; a primary key reaches its record at once; a predicate that an
index can narrow becomes an index query; everything else is a scan.
-/

namespace RecordQuery

inductive Plan where
  /-- Count from statistics. -/
  | metadataCount (label : String)
  /-- Count by a scan without bins. -/
  | scanCount (label : String)
  | lookup (key : Key)
  | indexQuery (index : Index) (filter : Filter)
  | scan (partitions : Option PartitionRange)

/-- Why a query has no plan. -/
inductive PlanError where
  | invalidOperand (reason : String)
  | invalidQuery (reason : String)
  | catalogUnavailable (error : StoreError)

namespace PlanError

def ofAddressError (error : AddressError) : PlanError :=
  match error with
  | .unsupportedKey _ => .invalidOperand error.message
  | .offsetOutOfRange _ => .invalidQuery error.message

def code : PlanError → String
  | .invalidOperand _ => "AERO_SQL_INVALID_OPERAND"
  | .invalidQuery _ => "AERO_SQL_INVALID_QUERY"
  | .catalogUnavailable _ => "AERO_SQL_CATALOG_UNAVAILABLE"

def severity : PlanError → String
  | .invalidOperand _ => "REJECT"
  | .invalidQuery _ => "REJECT"
  | .catalogUnavailable _ => "ERROR"

def reason : PlanError → String
  | .invalidOperand reason => reason
  | .invalidQuery reason => reason
  | .catalogUnavailable error => error.message

def message (error : PlanError) : String :=
  "[" ++ error.severity ++ "] " ++ error.code ++ ": " ++ error.reason

end PlanError

namespace Plan

def kind : Plan → String
  | .metadataCount _ => "METADATA_COUNT"
  | .scanCount _ => "COUNT_SCAN"
  | .lookup _ => "PK_LOOKUP"
  | .indexQuery _ _ => "INDEX_QUERY"
  | .scan _ => "SCAN"

def isCount : Plan → Bool
  | .metadataCount _ => true
  | .scanCount _ => true
  | _ => false

variable {σ : Type} [RecordStore σ]

/-- The index to ask for a predicate, if the store has one. The store's list of indexes is read
anew for each query, and only where an index could help. -/
def indexFor? (store : σ) (table : TableName) (predicate : Predicate) :
    Except PlanError (Option (Index × Filter)) :=
  if predicate.isIndexable && RecordStore.supportsIndexes store then
    match RecordStore.indexes store with
    | .ok indexes => .ok ((Catalog.ofIndexes table indexes).choose? predicate)
    | .error error => .error (.catalogUnavailable error)
  else .ok none

/-- A scan of all partitions, or of those from the offset on. -/
def scanFrom (offset : Option UInt64) : Except PlanError Plan :=
  match offset with
  | none => .ok (.scan none)
  | some offset =>
    match PartitionRange.startingAt offset with
    | .ok range => .ok (.scan (some range))
    | .error error => .error (.ofAddressError error)

def ofQuery (store : σ) (query : Query) : Except PlanError Plan :=
  match query.countLabel?, query.primaryKey, query.predicate with
  | some label, _, none => .ok (.metadataCount label)
  | some label, _, some _ => .ok (.scanCount label)
  | none, some key, _ =>
    match Key.ofValue query.table key with
    | .ok key => .ok (.lookup key)
    | .error error => .error (.ofAddressError error)
  | none, none, none => scanFrom query.offset
  | none, none, some predicate => do
    match ← indexFor? store query.table predicate with
    | some (index, filter) => return .indexQuery index filter
    | none => scanFrom query.offset

end Plan

end RecordQuery
