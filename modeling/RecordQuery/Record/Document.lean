import RecordQuery.Record
import RecordQuery.Text.Hex
import RecordQuery.Value.Document
import RecordQuery.Value.Tagged

/-!
Keys and records as JSON without loss. A key is written with its digest and its partition, which
follow from it; of a record's key only the user key is written.
-/

namespace RecordQuery

def Key.toJson (key : Key) : Json :=
  .object [
    ("digest", .string (String.ofList (Text.hex key.digest))),
    ("key", key.user.value.tagged.toJson),
    ("namespace", .string key.table.space),
    ("partition", .int key.partition.toNat),
    ("set", .string key.table.set)]

def Record.toJson (record : Record) : Json :=
  .object [
    ("bins", (Value.map record.bins).tagged.toJson),
    ("expiration", .int record.expiration.toNat),
    ("generation", .int record.generation.toNat),
    ("key", record.userKey?.elim .null fun key => key.tagged.toJson)]

end RecordQuery
