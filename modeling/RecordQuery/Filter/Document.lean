import RecordQuery.Filter
import RecordQuery.Value.Document
import RecordQuery.Value.Tagged

/-!
Index filters as JSON: the kind of the filter with what it compares, and beside it the text that
people are shown.
-/

namespace RecordQuery.Filter

def toJson (filter : Filter) : Json :=
  match filter with
  | .equal bin value =>
    .object [("bin", .string bin), ("kind", .string "equal"), ("text", .string filter.text),
      ("value", value.tagged.toJson)]
  | .range bin first last =>
    .object [("begin", .int first.toInt), ("bin", .string bin), ("end", .int last.toInt),
      ("kind", .string "range"), ("text", .string filter.text)]

end RecordQuery.Filter
