import Std.Data.TreeMap
import RecordQuery.Column

/-!
Schemas: the columns of each table, in the order in which they are shown. An unknown table has none.
-/

namespace RecordQuery

abbrev Schema := Std.TreeMap TableName (List Column)

def Schema.columns (schema : Schema) (table : TableName) : List Column := (schema[table]?).getD []

end RecordQuery
