import RecordQuery.Expression.Document
import RecordQuery.Policy

/-!
Policies as JSON, with all their fields.
-/

namespace RecordQuery

def numberJson (n : UInt32) : Json := .int n.toNat

def PartitionRange.toJson (range : PartitionRange) : Json :=
  .object [("begin", .int range.first.toNat), ("count", .int range.count.toNat)]

def ClientPolicy.toJson (policy : ClientPolicy) : Json :=
  let textOrNull (text : Option String) : Json := text.elim .null .string
  .object [
    ("cluster_name", textOrNull policy.clusterName),
    ("login_timeout_ms", numberJson policy.loginTimeoutMs),
    ("max_conns_per_node", numberJson policy.maxConnsPerNode),
    ("password", textOrNull policy.password),
    ("timeout_ms", numberJson policy.timeoutMs),
    ("user", textOrNull policy.user)]

def BasePolicy.toJson (policy : BasePolicy) : Json :=
  .object [
    ("filter", policy.filter.elim .null Expression.toJson),
    ("max_retries", numberJson policy.maxRetries),
    ("send_key", .bool policy.sendKey),
    ("sleep_between_retries_ms", numberJson policy.sleepBetweenRetriesMs),
    ("socket_timeout_ms", numberJson policy.socketTimeoutMs),
    ("total_timeout_ms", numberJson policy.totalTimeoutMs)]

def ScanPolicy.toJson (policy : ScanPolicy) : Json :=
  .object [
    ("base", policy.base.toJson),
    ("include_bin_data", .bool policy.includeBinData),
    ("max_concurrent_nodes", numberJson policy.maxConcurrentNodes),
    ("max_records", .int policy.maxRecords.toNat),
    ("partitions", policy.partitions.elim .null PartitionRange.toJson),
    ("records_per_second", numberJson policy.recordsPerSecond)]

def QueryPolicy.toJson (policy : QueryPolicy) : Json :=
  .object [
    ("base", policy.base.toJson),
    ("include_bin_data", .bool policy.includeBinData),
    ("max_records", .int policy.maxRecords.toNat),
    ("records_per_second", numberJson policy.recordsPerSecond)]

end RecordQuery
