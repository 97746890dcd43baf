import RecordQuery.Proofs.Engine.Delivery
import RecordQuery.Proofs.Expression.Text
import RecordQuery.Proofs.Predicate.Document
import RecordQuery.Proofs.Record.Booleans

/-!
What the explanation of a query says of its execution. It shows an expression just if the policy that the
store is asked with carries one. The explanation is made from the query alone, though, and the policy from
the connection as well: where booleans are written as integers the explanation shows them as booleans.
-/

namespace RecordQuery

namespace Predicate

open Expression (boolAsInt)

/-- Writing booleans as integers changes the expressions of those predicates that compare with booleans. -/
theorem boolsAsInts_expression_eq_iff (predicate : Predicate) :
    predicate.expression.boolsAsInts = predicate.expression ↔
      ∀ value ∈ predicate.values, value.isBool = false := by
  rw [boolsAsInts_expression]
  have in_parts {parts : List Predicate}
      (each : ∀ part ∈ parts, ((part.mapValues boolAsInt).expression = part.expression ↔
        ∀ value ∈ part.values, value.isBool = false)) :
      expressions (mapValuesIn boolAsInt parts) = expressions parts ↔
        ∀ value ∈ valuesIn parts, value.isBool = false := by
    rw [expressions_eq_map, expressions_eq_map, mapValuesIn_eq_map, List.map_map, List.map_inj_left,
      valuesIn_eq_flatMap, List.forall_mem_flatMap]
    exact forall₂_congr each
  induction predicate with
  | equals field value => simp [mapValues, expression, values, Expression.boolAsInt_eq_iff]
  | notEquals field value => simp [mapValues, expression, values, Expression.boolAsInt_eq_iff]
  | range field lower upper =>
    cases lower <;> cases upper <;>
      simp [mapValues, expression, values, lowerBound, upperBound, Expression.boolAsInt_eq_iff]
  | isNull field => simp [mapValues, values]
  | isNotNull field => simp [mapValues, values]
  | member field values negated =>
    have same_values : values.map boolAsInt = values ↔ ∀ value ∈ values, value.isBool = false := by
      calc values.map boolAsInt = values
        _ ↔ values.map boolAsInt = values.map id := by rw [List.map_id]
        _ ↔ ∀ value ∈ values, boolAsInt value = id value := List.map_inj_left
        _ ↔ ∀ value ∈ values, value.isBool = false :=
          forall₂_congr fun _ _ => Expression.boolAsInt_eq_iff
    cases negated <;> simp [mapValues, expression, Predicate.values, same_values]
  | and parts ih => rw [mapValues, expression, expression, Expression.and.injEq, in_parts ih, values]
  | or parts ih => rw [mapValues, expression, expression, Expression.or.injEq, in_parts ih, values]

end Predicate

/-- Whether the store tests the records of the plan with the expression of the query. -/
def Plan.evaluates : Plan → Bool
  | .scanCount _ | .indexQuery _ _ | .scan _ => true
  | .metadataCount _ | .lookup _ => false

/-- The expression in the policy of the last scan or of the last index query, whichever the plan asks for,
if there was one. -/
def MemoryStore.sent? (store : MemoryStore) : Plan → Option (Option Expression)
  | .scanCount _ | .scan _ => store.lastScan.map fun policy => policy.base.filter
  | .indexQuery _ _ => store.lastQuery.map fun asked => asked.1.base.filter
  | .metadataCount _ | .lookup _ => none

theorem Explanation.residualOf_of_evaluates (query : Query) {plan : Plan}
    (evaluates : plan.evaluates = true) :
    residualOf query plan = query.predicate.map fun predicate => predicate.expression.text := by
  cases plan with
  | metadataCount label => cases evaluates
  | lookup key => cases evaluates
  | _ => rfl

/-- The text of a query's own expression is that of the expression for the connection, unless a boolean in
it is written as an integer there. -/
theorem Config.text_expressionFor_iff (config : Config) (query : Query) :
    (query.predicate.map fun predicate => predicate.expression.text) =
        (config.expressionFor query).map Expression.text ↔
      config.useBoolBin = true ∨
        ∀ predicate ∈ query.predicate, ∀ value ∈ predicate.values, value.isBool = false := by
  rw [expressionFor]
  cases query.predicate with
  | none => simp
  | some predicate =>
    cases config.useBoolBin with
    | true => simp
    | false =>
      simp only [Option.map_some, Bool.false_eq_true, if_false, false_or, Option.some.injEq,
        Option.mem_some_iff, forall_eq']
      rw [eq_comm, Expression.text_boolsAsInts_eq_iff, predicate.boolsAsInts_expression_eq_iff]

namespace Engine

variable (engine : Engine) {store : MemoryStore} {query : Query} {plan : Plan}

theorem explain_planned (planned : Plan.ofQuery store query = .ok plan) :
    ∃ shown, (explain store query).verdict = .accepted shown ∧
      shown.residual = Explanation.residualOf query plan := by
  rw [explain, planned]
  exact ⟨_, rfl, rfl⟩

/-- Whatever the store was asked before, it is asked with the expression for the connection. -/
theorem sent?_execute (planned : Plan.ofQuery store query = .ok plan)
    (evaluates : plan.evaluates = true) :
    (engine.execute store query).2.sent? plan = some (engine.config.expressionFor query) := by
  rw [engine.snd_execute planned]
  cases plan with
  | metadataCount label => cases evaluates
  | lookup key => cases evaluates
  | scanCount label => rfl
  | scan partitions => rfl
  | indexQuery index filter =>
    rw [engine.feedFor_indexQuery planned]
    rfl

/-- The explanation of a scan or an index query shows an expression just if the policy that the store is
asked with has one. What it shows is the text of that one unless the connection writes booleans as integers
and the predicate compares with a boolean, and then it never is. -/
theorem residual_shows_sent_expression_iff (planned : Plan.ofQuery store query = .ok plan)
    (evaluates : plan.evaluates = true) :
    ∃ shown sent, (explain store query).verdict = .accepted shown ∧
      (engine.execute store query).2.sent? plan = some sent ∧
      (shown.residual = none ↔ sent = none) ∧
      (shown.residual = sent.map Expression.text ↔
        engine.config.useBoolBin = true ∨
          ∀ predicate ∈ query.predicate, ∀ value ∈ predicate.values, value.isBool = false) := by
  obtain ⟨shown, explained, residual⟩ := explain_planned planned
  rw [Explanation.residualOf_of_evaluates query evaluates] at residual
  refine ⟨shown, engine.config.expressionFor query, explained, engine.sent?_execute planned evaluates,
    ?absent, ?same⟩
  case absent =>
    rw [residual]
    exact Option.map_eq_none_iff.trans Option.map_eq_none_iff.symm
  case same =>
    rw [residual]
    exact engine.config.text_expressionFor_iff query

/-- A count of adults is explained as it is asked for, also where booleans are written as integers. -/
theorem count_of_adults_explained_as_sent :
    let store := MemoryStore.put {} ⟨⟨"test", "people"⟩, .int 1⟩ [("age", .int 30)] true
    let query : Query :=
      { table := ⟨"test", "people"⟩, columns := ["count(*)"]
        predicate := some (.atLeast "age" (.int 18)) }
    let engine : Engine := ⟨{ useBoolBin := false }, ∅⟩
    ∃ shown sent, (explain store query).verdict = .accepted shown ∧
      (engine.execute store query).2.sent? (.scanCount "count(*)") = some sent ∧
      shown.residual = sent.map Expression.text := by
  intro store query engine
  have labelled : query.countLabel? = some "count(*)" := by decide +kernel
  have planned : Plan.ofQuery store query = .ok (.scanCount "count(*)") := by
    unfold Plan.ofQuery
    rw [labelled]
  obtain ⟨shown, sent, explained, asked, _, same_iff⟩ :=
    engine.residual_shows_sent_expression_iff planned rfl
  refine ⟨shown, sent, explained, asked, same_iff.2 (Or.inr ?_)⟩
  rintro predicate ⟨⟩ value mem
  obtain rfl := List.mem_singleton.1 mem
  rfl

/-- A scan for the active is explained with a boolean, and the store is asked for an integer. -/
theorem boolean_explained_is_sent_as_integer :
    let store : MemoryStore := {}
    let query : Query :=
      { table := ⟨"test", "people"⟩, predicate := some (.equals "active" (.bool true)) }
    let engine : Engine := ⟨{ useBoolBin := false }, ∅⟩
    Plan.ofQuery store query = .ok (.scan none) ∧
      ∃ shown sent, (explain store query).verdict = .accepted shown ∧
        (engine.execute store query).2.sent? (.scan none) = some (some sent) ∧
        shown.residual = some "bin(active) == true" ∧ sent.text = "bin(active) == 1" ∧
        shown.residual ≠ some sent.text := by
  intro store query engine
  let active : Predicate := .equals "active" (.bool true)
  have shown_text : active.expression.text = "bin(active) == true" := by decide +kernel
  have sent_text : active.expression.boolsAsInts.text = "bin(active) == 1" := by decide +kernel
  have different : "bin(active) == true" ≠ "bin(active) == 1" := by decide +kernel
  refine ⟨rfl, _, active.expression.boolsAsInts, rfl, rfl, congrArg some shown_text, sent_text, ?_⟩
  intro same
  have same_text : active.expression.text = active.expression.boolsAsInts.text := Option.some.inj same
  rw [shown_text, sent_text] at same_text
  exact different same_text

end Engine

end RecordQuery
