import RecordQuery.Proofs.Engine.Delivery
import RecordQuery.Proofs.Engine.Exchange

/-!
What a reader is told that goes on asking for the next row. Whatever the order of the steps and however
little room the stream has, the answers are a row for each record that the delivery hands out, in order,
then its end or its failure once, and no more rows after that. The two sides never wait for each other,
and each step until the end was told leaves less to do: so the end is told.
-/

namespace RecordQuery

namespace Exchange

/-- What a call for the next row is answered, counting calls from zero. -/
def answerAt (records : List Record) (terminal : Terminal) (call : Nat) : Answer :=
  match records[call]? with
  | some record => (.ok true, .ok record)
  | none => (if call = records.length then terminal.outcome else .ok false, .error .noCurrentRow)

/-- The answers so far are those of a feed that carried the records, and the rest is still to come. -/
structure Follows (records : List Record) (terminal : Terminal) (given : List Answer)
    (exchange : Exchange) : Prop where
  given_eq : given = (List.range given.length).map (answerAt records terminal)
  stands : (given.length ≤ records.length ∧ exchange.cursor.Reading ∧
      exchange.feed.Carries (records.drop given.length) terminal) ∨
    (records.length < given.length ∧ exchange.cursor.PastLast)

variable {records : List Record} {terminal : Terminal} {given : List Answer} {exchange after : Exchange}
  {act : Act}

namespace Follows

/-- One more answer, if it is the one that is due. -/
theorem given_concat (follows : Follows records terminal given exchange) {answer : Answer}
    (due : answer = answerAt records terminal given.length) :
    given ++ [answer] =
      (List.range (given ++ [answer]).length).map (answerAt records terminal) := by
  rw [List.length_append, List.length_singleton, List.range_succ, List.map_append, ← follows.given_eq,
    due]
  rfl

/-- A row that is given is the one that is due. -/
theorem of_record (follows : Follows records terminal given exchange) (reading : exchange.cursor.Reading)
    {record : Record} {stream : RecordStream}
    (taken : exchange.feed.stream.next? = some (.record record, stream)) :
    answerAt records terminal given.length = (.ok true, .ok record) ∧ given.length < records.length ∧
      Feed.Carries ⟨stream, exchange.feed.delivery⟩ (records.drop (given.length + 1)) terminal := by
  obtain ⟨_, _, carries⟩ | ⟨_, last⟩ := follows.stands
  case inr => exact absurd reading (Cursor.not_reading_afterLast last.position)
  obtain ⟨rest, drop_eq, carries⟩ := carries.of_record taken
  have few : given.length < records.length := by
    refine Nat.lt_of_not_le fun many => ?_
    rw [List.drop_eq_nil_of_le many] at drop_eq
    cases drop_eq
  rw [List.drop_eq_getElem_cons few, List.cons.injEq] at drop_eq
  obtain ⟨rfl, rfl⟩ := drop_eq
  refine ⟨?_, few, carries⟩
  rw [answerAt, List.getElem?_eq_getElem few]

/-- An end that is given comes when it is due. -/
theorem of_end (follows : Follows records terminal given exchange) (reading : exchange.cursor.Reading)
    {told : Terminal} {stream : RecordStream}
    (taken : exchange.feed.stream.next? = some (told.item, stream)) :
    answerAt records terminal given.length = (told.outcome, .error .noCurrentRow) ∧
      given.length = records.length := by
  obtain ⟨few, _, carries⟩ | ⟨_, last⟩ := follows.stands
  case inr => exact absurd reading (Cursor.not_reading_afterLast last.position)
  obtain ⟨none_left, rfl⟩ := carries.of_end taken
  have all := Nat.le_antisymm few (List.drop_eq_nil_iff.1 none_left)
  refine ⟨?_, all⟩
  rw [answerAt, all, List.getElem?_eq_none (Nat.le_refl _), if_pos rfl]

theorem step (follows : Follows records terminal given exchange) (step : Step exchange act after)
    (stays : act ≠ .closed) : Follows records terminal (given ++ act.answer?.toList) after := by
  cases step with
  | deliver awake stepped =>
    change Follows records terminal (given ++ []) _
    rw [List.append_nil]
    refine ⟨follows.given_eq, follows.stands.imp_left ?_⟩
    rintro ⟨few, reading, carries⟩
    exact ⟨few, reading, carries.step stepped⟩
  | park awake going blocked =>
    change Follows records terminal (given ++ []) _
    rw [List.append_nil]
    exact ⟨follows.given_eq, follows.stands⟩
  | wait awake blocked =>
    change Follows records terminal (given ++ []) _
    rw [List.append_nil]
    exact ⟨follows.given_eq, follows.stands⟩
  | close awake => exact absurd rfl stays
  | answer awake called =>
    change Follows records terminal (given ++ [_]) _
    obtain ⟨reading, ⟨record, taken, rfl, rfl⟩ | ⟨told, taken, rfl, rfl⟩⟩ |
      ⟨not_reading, _, rfl, rfl, of_last⟩ :=
      Cursor.next?_cases called
    case answer.inl.inl =>
      obtain ⟨due, few, carries⟩ := follows.of_record reading taken
      refine ⟨follows.given_concat due.symm, Or.inl ?_⟩
      rw [List.length_append, List.length_singleton]
      exact ⟨few, Or.inr rfl, carries⟩
    case answer.inl.inr =>
      obtain ⟨due, all⟩ := follows.of_end reading taken
      refine ⟨follows.given_concat due.symm, Or.inr ⟨?_, rfl, rfl⟩⟩
      rw [List.length_append, List.length_singleton, all]
      exact Nat.lt_succ_self _
    case answer.inr =>
      obtain ⟨_, reading, _⟩ | ⟨many, last⟩ := follows.stands
      case inl => exact absurd reading not_reading
      obtain rfl := of_last last.position
      refine ⟨follows.given_concat ?_, Or.inr ⟨Nat.lt_trans many ?_, last⟩⟩
      · rw [answerAt, List.getElem?_eq_none (Nat.le_of_lt many), if_neg (Nat.ne_of_gt many),
          Cursor.current, last.position, last.record]
        rfl
      · rw [List.length_append]
        exact Nat.lt_succ_self _

/-- The two sides never wait for each other. -/
theorem not_stuck (follows : Follows records terminal given exchange) (sound : exchange.Sound) :
    ∃ act next, act ≠ .closed ∧ Step exchange act next := by
  cases asleep : exchange.readerSleeps with
  | false =>
    cases called : exchange.cursor.next? exchange.feed.stream with
    | some answered =>
      obtain ⟨result, cursor, stream⟩ := answered
      exact ⟨.answered _, _, nofun, .answer asleep called⟩
    | none => exact ⟨.readerSlept, _, nofun, .wait asleep called⟩
  | true =>
    -- The reader waits at an empty stream, and there the delivery cannot be waiting for room.
    obtain ⟨reading, waits⟩ := sound.reader_waits asleep
    obtain ⟨empty, _, _⟩ := RecordStream.of_next?_eq_none waits
    have delivery_awake : exchange.deliverySleeps = false := by
      refine Bool.eq_false_iff.2 fun sleeps => ?_
      obtain ⟨_, _, _, full⟩ := sound.delivery_waits sleeps
      have pos := Capacity.pos_of_not_hasRoom (RecordStream.of_push?_eq_none full).2.2
      rw [empty] at pos
      cases pos
    cases stepped : exchange.feed.delivery.step? exchange.feed.stream with
    | some next => exact ⟨.delivered, _, nofun, .deliver delivery_awake stepped⟩
    | none =>
      obtain ⟨_, _, carries⟩ | ⟨_, last⟩ := follows.stands
      · exact absurd waits (carries.next?_ne_none stepped)
      · exact absurd reading (Cursor.not_reading_afterLast last.position)

end Follows

/-- What is left to do until the reader has been given so many more answers. Each step of the delivery
and each answer counts twice, as it may wake the other side, which can then fall asleep once more. -/
def workLeft (exchange : Exchange) (answersDue : Nat) : Nat :=
  2 * (exchange.feed.delivery.stepsLeft + answersDue) +
    ((!exchange.deliverySleeps).toNat + (!exchange.readerSleeps).toNat)

theorem workLeft_step (step : Step exchange act after) (stays : act ≠ .closed) {due given : Nat}
    (awaited : given < due) :
    after.workLeft (due - (given + act.answer?.toList.length)) < exchange.workLeft (due - given) := by
  cases step with
  | deliver awake stepped =>
    have fewer := Delivery.stepsLeft_step? stepped
    have woken := Bool.toNat_le (!(exchange.readerSleeps && !exchange.feed.reachesReader))
    simp only [workLeft, Act.answer?, Option.toList_none, List.length_nil]
    omega
  | park awake going blocked =>
    simp [workLeft, Act.answer?, awake]
  | @answer result cursor stream awake called =>
    have woken := Bool.toNat_le (!(exchange.deliverySleeps && !Answer.isRow (result, cursor.current)))
    simp only [workLeft, Act.answer?, Option.toList_some, List.length_singleton]
    omega
  | wait awake blocked =>
    simp [workLeft, Act.answer?, awake]
  | close awake => exact absurd rfl stays

section Run

variable {first exchange : Exchange} {acts : List Act}

theorem Run.follows (run : Run first acts exchange) (stays : .closed ∉ acts)
    (follows : Follows records terminal [] first) :
    Follows records terminal (answers acts) exchange := by
  induction run with
  | start => exact follows
  | step run step ih =>
    rw [List.mem_append, List.mem_singleton, not_or] at stays
    rw [answers_concat]
    exact (ih stays.1).step step (Ne.symm stays.2)

/-- Until so many answers have been given, each step of a run takes from the work that was left. -/
theorem Run.length_add_workLeft_le (run : Run first acts exchange) (stays : .closed ∉ acts) {due : Nat}
    (awaited : (answers acts).length < due) :
    acts.length + exchange.workLeft (due - (answers acts).length) ≤ first.workLeft due := by
  induction run with
  | start =>
    rw [List.length_nil, Nat.zero_add]
    exact Nat.le_refl _
  | @step acts exchange after act run step ih =>
    rw [List.mem_append, List.mem_singleton, not_or] at stays
    rw [answers_concat, List.length_append] at awaited ⊢
    have before : (answers acts).length < due := by omega
    have less := workLeft_step step (Ne.symm stays.2) before
    have so_far := ih stays.1 before
    rw [List.length_append, List.length_singleton]
    omega

theorem follows_start (columns : List Column) (capacity : Capacity) (records : List Record)
    (ending : Ending) :
    Follows records ending.terminal []
      (start columns capacity { waiting := records, ending := some ending }) where
  given_eq := rfl
  stands := Or.inl ⟨Nat.zero_le _, Or.inl rfl, Feed.carries_unbegun capacity records ending⟩

theorem workLeft_start (columns : List Column) (capacity : Capacity) (records : List Record)
    (ending : Ending) :
    (start columns capacity { waiting := records, ending := some ending }).workLeft
      (records.length + 1) = 6 * records.length + 6 := by
  simp [workLeft, start, Delivery.stepsLeft, Delivery.isEnded]
  omega

/-- A run that is long enough has told the end. -/
theorem Run.end_told {columns : List Column} {capacity : Capacity} {ending : Ending}
    (run : Run (Exchange.start columns capacity { waiting := records, ending := some ending }) acts
      exchange)
    (stays : .closed ∉ acts) (long : 6 * records.length + 5 ≤ acts.length) :
    records.length < (answers acts).length := by
  refine Nat.lt_of_not_le fun few => ?_
  have spent := run.length_add_workLeft_le stays (Nat.lt_succ_of_le few)
  rw [workLeft_start, workLeft] at spent
  omega

/-- A reader past the last row can go on asking for ever. -/
theorem Run.after_last {exchange : Exchange} (awake : exchange.readerSleeps = false)
    (last : exchange.cursor.PastLast) (calls : Nat) :
    Run exchange (List.replicate calls (.answered (.ok false, .error .noCurrentRow))) exchange := by
  obtain ⟨⟨columns, held, position⟩, feed, deliverySleeps, readerSleeps⟩ := exchange
  obtain rfl : position = .afterLast := last.position
  obtain rfl : held = none := last.record
  cases awake
  induction calls with
  | zero => exact .start
  | succ calls ih =>
    have step := ih.step (.answer rfl rfl)
    rw [Answer.isRow, Bool.not_false, Bool.and_true] at step
    rw [List.replicate_succ']
    exact step

end Run

end Exchange

namespace Engine

open Exchange

variable {engine : Engine} {store : MemoryStore} {query : Query}

/-- Whatever the capacity and the order of the steps, a reader that goes on asking is given the rows of
the delivery and then its end or its failure. Some step is always possible, and the end is told after so
many of them. The failure is used up. -/
theorem rows_then_failure {plan : Plan} {records : List Record}
    (planned : Plan.ofQuery store query = .ok plan)
    (selects : engine.selected? store query plan = some records) :
    ∃ after, engine.execute store query =
        (.ok { cursor := { columns := engine.columns query },
               feed := .start engine.config.capacity (store.deliver records).1 }, after) ∧
      after.deliveryFailure = none ∧
      (∀ (handedOut : Nat) (next : Query),
        (engine.execute (RecordStore.noteHandedOut after handedOut) next).1 =
          (engine.execute { store with deliveryFailure := none } next).1) ∧
      ∀ (capacity : Capacity) (acts : List Act) (exchange : Exchange),
        Run (.start (engine.columns query) capacity (store.deliver records).1) acts exchange →
        .closed ∉ acts →
        answers acts = (List.range (answers acts).length).map
          (answerAt (store.handedOut records) store.ending.terminal) ∧
        (∃ act next, act ≠ .closed ∧ exchange.Step act next) ∧
        (6 * (store.handedOut records).length + 5 ≤ acts.length →
          (store.handedOut records).length < (answers acts).length) := by
  obtain ⟨lastScan, lastQuery, runs⟩ := engine.execute_of_selected? planned selects
  rw [MemoryStore.fst_deliver]
  refine ⟨_, runs, rfl, ?_, ?_⟩
  · intro handedOut next
    exact engine.fst_execute_remembering { store with deliveryFailure := none } lastScan lastQuery
      (store.fetched + handedOut) next
  · intro capacity acts exchange run stays
    have follows := run.follows stays (follows_start ..)
    have sound := run.sound (sound_start ..)
    exact ⟨follows.given_eq, follows.not_stuck sound, run.end_told stays⟩

/-- A failure that is ordered for after the last record comes after it. -/
theorem failure_after_last_row :
    let person : Key := ⟨⟨"test", "people"⟩, .int 1⟩
    let store : MemoryStore :=
      { MemoryStore.put {} person [("age", .int 30)] true with deliveryFailure := some (1, .timeout 5) }
    let query : Query := { table := ⟨"test", "people"⟩ }
    let engine : Engine := ⟨{}, ∅⟩
    let record : Record := { key := some person, bins := [("age", .int 30)], generation := 1 }
    Plan.ofQuery store query = .ok (.scan none) ∧
      engine.selected? store query (.scan none) = some [record] ∧
      ∃ acts exchange, Run (.start (engine.columns query) (.bounded 1) (store.deliver [record]).1)
          acts exchange ∧
        .closed ∉ acts ∧ [record].length < (answers acts).length ∧
        answers acts = (.ok true, .ok record) ::
          (.error (.store (.timeout 5)), .error .noCurrentRow) ::
            List.replicate 5 (.ok false, .error .noCurrentRow) := by
  intro person store query engine record
  have planned : Plan.ofQuery store query = .ok (.scan none) := rfl
  have selects : engine.selected? store query (.scan none) = some [record] := by
    dsimp +zetaDelta only
    exact congrArg some rfl
  obtain ⟨after, _, _, _, all⟩ := @rows_then_failure engine store query _ _ planned selects
  let onRow : Cursor := { columns := engine.columns query, record := some record, position := .onRow }
  let stream : RecordStream := { capacity := .bounded 1 }
  let going : Delivery := { ending := some (.failure (.timeout 5)), handedOut := 1 }
  have row : Run (.start (engine.columns query) (.bounded 1) (store.deliver [record]).1)
      [.readerSlept, .delivered, .delivered, .answered (.ok true, .ok record)]
      { cursor := onRow, feed := ⟨stream, going⟩ } :=
    .step (.step (.step (.step .start (.wait rfl rfl)) (.deliver rfl rfl)) (.deliver rfl rfl))
      (@Step.answer _ (.ok true) onRow stream rfl rfl)
  have failed : Run { cursor := onRow, feed := ⟨stream, going⟩ }
      [.delivered, .answered (.error (.store (.timeout 5)), .error .noCurrentRow)]
      { cursor := { onRow with record := none, position := .afterLast }
        feed := ⟨stream.fail (.timeout 5), going.stop⟩ } :=
    .step (.step .start (.deliver rfl rfl))
      (@Step.answer _ (.error (.store (.timeout 5))) { onRow with record := none, position := .afterLast }
        (stream.fail (.timeout 5)) rfl rfl)
  have run := (row.trans failed).trans (Run.after_last rfl ⟨rfl, rfl⟩ 5)
  refine ⟨planned, selects, _, _, run, by simp, ?_⟩
  obtain ⟨given, _, told⟩ := all _ _ _ run (by simp)
  exact ⟨told (Nat.le_refl 11), given⟩

end Engine

end RecordQuery
