import RecordQuery.Index.Basic
import RecordQuery.Predicate.Basic

/-!
The indexes that one query may use, by bin. Bins are visited in ascending order of their names, and
the indexes on a bin in ascending order of theirs, so the choice does not hang on the order in which
the store lists its indexes.
-/

namespace RecordQuery

/-- The indexes on each indexed bin. -/
structure Catalog where
  byBin : Fields (List Index)

namespace Catalog

/-- Adds an index after those of its bin whose names are not greater. -/
def insertByName (added : Index) : List Index → List Index
  | [] => [added]
  | index :: rest =>
    if added.name < index.name then added :: index :: rest else index :: insertByName added rest

/-- The catalog of the indexes that cover a table. -/
def ofIndexes (table : TableName) (indexes : List Index) : Catalog :=
  let add (byBin : Fields (List Index)) (index : Index) : Fields (List Index) :=
    byBin.insert index.bin (insertByName index ((byBin.get? index.bin).getD []))
  ⟨(indexes.filter fun index => index.covers table).foldl add []⟩

def bins (catalog : Catalog) : List String := catalog.byBin.names

def isEmpty (catalog : Catalog) : Bool := catalog.byBin.isEmpty

/-- The number of indexed bins. -/
def size (catalog : Catalog) : Nat := catalog.byBin.length

/-- The first index on a bin. -/
def get? (catalog : Catalog) (bin : String) : Option Index :=
  (catalog.byBin.get? bin).bind List.head?

/-- The first index on the filter's bin that can answer the filter. -/
def serving? (catalog : Catalog) (filter : Filter) : Option Index :=
  (catalog.byBin.get? filter.bin).bind fun indexes =>
    indexes.find? fun index => index.type.serves filter

/-- The index for a predicate, with the filter that it is asked: of the indexed bins that the
predicate compares, the first one with a filter and an index that serves it. -/
def choose? (catalog : Catalog) (predicate : Predicate) : Option (Index × Filter) :=
  if !predicate.isIndexable then none
  else
    let compared := predicate.binNames
    (catalog.bins.filter fun bin => compared.contains bin).findSome? fun bin => do
      let filter ← predicate.filter? bin
      let index ← catalog.serving? filter
      return (index, filter)

end Catalog

end RecordQuery
