import RecordQuery.Connection.Config
import RecordQuery.Policy.Document

/-!
Connection configurations as JSON, with all their fields.
-/

namespace RecordQuery.Config

def toJson (config : Config) : Json :=
  .object [
    ("client", config.client.toJson),
    ("hosts", .array (config.hosts.map fun host => .string host.text)),
    ("namespace", config.space.elim .null .string),
    ("query", config.query.toJson),
    ("read", config.read.toJson),
    ("record_queue_capacity", config.queueCapacity.elim .null fun count => .int count.toNat),
    ("scan", config.scan.toJson),
    ("use_bool_bin", .bool config.useBoolBin)]

end RecordQuery.Config
