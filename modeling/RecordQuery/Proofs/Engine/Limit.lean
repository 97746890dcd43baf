import RecordQuery.Proofs.Engine.Showing

/-!
What the limit of a query does. It has no part in the plan, and cuts what the query shows to its
beginning, whichever way the records are reached: a scan and an index query stop once they have selected
that many, and a lookup never shows more than one. Zero is no such limit, since the policies of the store
write it for no limit at all: a query that is limited to no rows shows every row.
-/

namespace RecordQuery.Engine

/-- What the query shows under each limit: of the records as many as the limit leaves of them, and all
if it is zero. -/
structure Limited (engine : Engine) (store : MemoryStore) (query : Query) (records : List Record) :
    Prop where
  within : ∀ limit, limit ≠ some 0 → engine.Shows store { query with limit } (upTo limit records) none
  zero : engine.Shows store { query with limit := some 0 } records none

variable {engine : Engine} {store : MemoryStore} {query : Query}

/-- What the store selects is cut to the limit. -/
theorem limited_of_selected (no_failure : store.deliveryFailure = none)
    (selection : MemoryStore.Selection) (includeBins : Bool)
    (shows_selected : ∀ limit, engine.Shows store { query with limit }
      (store.handedOut (selected store { query with limit } selection includeBins))
      store.ending.terminal.error?) :
    ∃ records, engine.Limited store query records := by
  simp only [MemoryStore.handedOut_of_no_failure no_failure,
    MemoryStore.ending_of_no_failure no_failure] at shows_selected
  refine ⟨selected store { query with limit := none } selection includeBins, ?within, ?zero⟩
  case within =>
    intro limit limited
    have unlimited : none ≠ some (0 : UInt64) := (Option.some_ne_none 0).symm
    have shown := shows_selected limit
    rw [@selected_eq_upTo store { query with limit } limited] at shown
    rw [@selected_eq_upTo store { query with limit := none } unlimited]
    exact shown
  case zero =>
    -- To the store a limit of zero and none at all are the same.
    exact shows_selected (some 0)

/-- Every query for rows that has a plan shows the beginning of the same records, as its limit has it. -/
theorem limited_of_plan (readable : store.readFailure = none) (no_failure : store.deliveryFailure = none)
    {plan : Plan} (planned : Plan.ofQuery store query = .ok plan) (not_count : plan.isCount = false) :
    ∃ records, engine.Limited store query records := by
  have planned_within (limit) : Plan.ofQuery store { query with limit } = .ok plan := planned
  cases plan with
  | metadataCount label => cases not_count
  | scanCount label => cases not_count
  | lookup key =>
    have shown (limit) :=
      @shows_lookup engine store { query with limit } key (planned_within limit) readable
    refine ⟨(lookedUp store query key).toList, ?_, shown (some 0)⟩
    intro limit limited
    rw [upTo_eq_self limited]
    exact shown limit
  | indexQuery index filter =>
    exact limited_of_selected no_failure
      { indexFilter := some filter, expression := engine.config.expressionFor query }
      engine.config.query.includeBinData fun limit => shows_indexQuery (planned_within limit)
  | scan partitions =>
    exact limited_of_selected no_failure
      { partitions, expression := engine.config.expressionFor query }
      engine.config.scan.includeBinData fun limit => shows_scan (planned_within limit)

/-- A limit other than zero is an upper bound: a query for rows shows that many of the rows that it
shows without a limit, from the first on, or all of them if they are fewer. With a limit of zero it
shows all. -/
theorem limit_bounds_rows (readable : store.readFailure = none)
    (no_failure : store.deliveryFailure = none) (not_count : query.countLabel? = none) :
    (∃ error, ∀ limit, engine.execute store { query with limit } = (.error (.plan error), store)) ∨
    ∃ records, engine.Shows store { query with limit := none } records none ∧
      (∀ limit ≠ 0, ∃ shown, engine.Shows store { query with limit := some limit } shown none ∧
        shown <+: records ∧ shown.length = min limit.toNat records.length) ∧
      engine.Shows store { query with limit := some 0 } records none := by
  cases planned : Plan.ofQuery store query with
  | error error =>
    left
    refine ⟨error, ?_⟩
    intro limit
    have planned_within : Plan.ofQuery store { query with limit } = .error error := planned
    rw [execute, planned_within]
  | ok plan =>
    right
    have for_rows : plan.isCount = false := by rw [Plan.isCount_of_ofQuery planned, not_count]; rfl
    obtain ⟨records, limited⟩ :=
      @limited_of_plan engine store query readable no_failure plan planned for_rows
    refine ⟨records, limited.within none (Option.some_ne_none 0).symm, ?_, limited.zero⟩
    intro limit positive
    have not_zero : some limit ≠ some 0 := fun same => positive (Option.some.inj same)
    exact ⟨_, limited.within (some limit) not_zero, List.take_prefix .., List.length_take⟩

/-- Of two people a query with the limit one shows the first. -/
theorem people_up_to_limit :
    let person : Int64 → Key := fun id => ⟨⟨"test", "people"⟩, .int id⟩
    let store := MemoryStore.put {} (person 1) [("age", .int 30)] true
      |>.put (person 2) [("age", .int 41)] true
    let query : Query := { table := ⟨"test", "people"⟩ }
    let engine : Engine := ⟨{}, ∅⟩
    ∃ records shown, engine.Shows store query records none ∧
      engine.Shows store { query with limit := some 1 } shown none ∧
      shown <+: records ∧ shown.length = min 1 records.length := by
  intro person store query engine
  have planned : Plan.ofQuery store query = .ok (.scan none) := rfl
  obtain ⟨error, refused⟩ | ⟨records, all, within, _⟩ :=
    @limit_bounds_rows engine store query rfl rfl rfl
  · obtain ⟨execution, runs, _⟩ := engine.shows_scan planned
    cases runs.symm.trans (congrArg Prod.fst (refused none))
  · obtain ⟨shown, cut, start, length⟩ := within 1 (by decide)
    exact ⟨records, shown, all, cut, start, length⟩

/-- A query that is limited to no rows shows one. -/
theorem row_shown_at_limit_zero :
    let person : Key := ⟨⟨"test", "people"⟩, .int 1⟩
    let store := MemoryStore.put {} person [("age", .int 30)] true
    let query : Query := { table := ⟨"test", "people"⟩, limit := some 0 }
    let engine : Engine := ⟨{}, ∅⟩
    let record : Record := { key := some person, bins := [("age", .int 30)], generation := 1 }
    engine.Shows store query [record] none := by
  dsimp only
  exact @shows_scan ⟨{}, ∅⟩ _ _ none rfl

end RecordQuery.Engine
