import RecordQuery.Plan.Basic

/-!
The explanation of a plan, or of why there is none, as a document and as lines of text. A part that
a plan does not have is left out of both.
-/

namespace RecordQuery

structure AcceptedPlan where
  path : String
  index : Option String
  indexFilter : Option String
  /-- The expression that is evaluated on each record. -/
  residual : Option String
  partitions : Option String
  limit : Option UInt64

inductive Verdict where
  | accepted (plan : AcceptedPlan)
  | rejected (code reason : String)

structure Explanation where
  target : String
  verdict : Verdict

namespace Explanation

def targetOf (query : Query) : String := query.table.space ++ "." ++ query.table.set

/-- A point read and a count from statistics evaluate nothing. -/
def residualOf (query : Query) : Plan → Option String
  | .lookup _ => none
  | .metadataCount _ => none
  | _ => query.predicate.map fun predicate => predicate.expression.text

def ofPlan (query : Query) (plan : Plan) : Explanation where
  target := targetOf query
  verdict := .accepted {
    path := plan.kind
    index := match plan with
      | .indexQuery index _ => some index.name
      | _ => none
    indexFilter := match plan with
      | .indexQuery _ filter => some filter.text
      | _ => none
    residual := residualOf query plan
    partitions := match plan with
      | .scan (some range) => some range.text
      | _ => none
    limit := if plan.isCount then none else query.limit }

def ofError (query : Query) (error : PlanError) : Explanation :=
  ⟨targetOf query, .rejected error.code error.reason⟩

def field (name : String) (value : Option String) : List (String × Json) :=
  (value.map fun text => (name, Json.string text)).toList

def toJson (explanation : Explanation) : Json :=
  let target := [("target", Json.string explanation.target)]
  match explanation.verdict with
  | .accepted plan =>
    .object <| [("accepted", .bool true), ("access_path", .string plan.path)]
      ++ field "index" plan.index ++ field "index_filter" plan.indexFilter
      ++ (plan.limit.map fun limit => ("limit", Json.int limit.toNat)).toList
      ++ field "partitions" plan.partitions ++ field "residual" plan.residual ++ target
  | .rejected code reason =>
    .object <| [("accepted", .bool false), ("rejection_code", .string code),
      ("rejection_reason", .string reason)] ++ target

def line (label : String) (value : Option String) : List String :=
  (value.map fun text => label ++ ": " ++ text).toList

def lines (explanation : Explanation) : List String :=
  ["=== EXPLAIN PLAN ===", "Target: " ++ explanation.target] ++
    match explanation.verdict with
    | .accepted plan =>
      ["Status: ACCEPTED", "Access Path: " ++ plan.path]
        ++ line "Index" plan.index ++ line "Index Filter" plan.indexFilter
        ++ line "Filter Expression" plan.residual ++ line "Partitions" plan.partitions
        ++ line "Limit" (plan.limit.map fun limit => toString limit.toNat)
    | .rejected code reason => ["Status: REJECTED", "Error Code: " ++ code, "Reason: " ++ reason]

def text (explanation : Explanation) : String :=
  String.join (explanation.lines.map fun line => line ++ "\n")

end Explanation

end RecordQuery
