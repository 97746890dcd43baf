import RecordQuery.Expression

/-!
The settings that accompany a command to the store: time limits and retries for every command, and
what a scan or an index query delivers. A zero stands for no limit.
-/

namespace RecordQuery

structure ClientPolicy where
  user : Option String := none
  password : Option String := none
  clusterName : Option String := none
  timeoutMs : UInt32 := 1000
  loginTimeoutMs : UInt32 := 5000
  maxConnsPerNode : UInt32 := 100

structure BasePolicy where
  socketTimeoutMs : UInt32 := 30000
  totalTimeoutMs : UInt32 := 1000
  maxRetries : UInt32 := 2
  sleepBetweenRetriesMs : UInt32 := 0
  sendKey : Bool := false
  /-- What the store evaluates on each record. -/
  filter : Option Expression := none

/-- The base of commands that run for long: no total time limit, and more retries. -/
def BasePolicy.long : BasePolicy := { totalTimeoutMs := 0, maxRetries := 5 }

structure ScanPolicy where
  base : BasePolicy := .long
  recordsPerSecond : UInt32 := 0
  maxConcurrentNodes : UInt32 := 0
  maxRecords : UInt64 := 0
  includeBinData : Bool := true
  /-- The partitions to scan; all without it. -/
  partitions : Option PartitionRange := none

structure QueryPolicy where
  base : BasePolicy := .long
  recordsPerSecond : UInt32 := 0
  maxRecords : UInt64 := 0
  includeBinData : Bool := true

/-- The throughput of a scan where none is configured. -/
def defaultRecordsPerSecond : UInt32 := 512

end RecordQuery
