/-!
The failures that a store reports, with their stable codes.
-/

namespace RecordQuery

inductive StoreError where
  | timeout (ms : UInt32)
  | network (reason : String)
  | server (code : Int32) (reason : String)
  | indexNotFound (name : String)
  | unsupported (operation : String)
  /-- The store went away without saying whether all records were delivered. -/
  | abandoned
  deriving DecidableEq

namespace StoreError

def code : StoreError → String
  | .timeout _ => "AERO_SQL_STORE_TIMEOUT"
  | .network _ => "AERO_SQL_STORE_NETWORK"
  | .server _ _ => "AERO_SQL_STORE_SERVER"
  | .indexNotFound _ => "AERO_SQL_INDEX_NOT_FOUND"
  | .unsupported _ => "AERO_SQL_UNSUPPORTED"
  | .abandoned => "AERO_SQL_STREAM_ABANDONED"

def message : StoreError → String
  | .timeout ms => "timeout after " ++ toString ms.toNat ++ " ms"
  | .network reason => "network error: " ++ reason
  | .server code reason => "server error " ++ toString code.toInt ++ ": " ++ reason
  | .indexNotFound name => "index not found: " ++ name
  | .unsupported operation => "unsupported operation: " ++ operation
  | .abandoned => "store released the listener without completion"

end StoreError

end RecordQuery
