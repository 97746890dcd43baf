import RecordQuery.Proofs.Engine.Rows

/-!
A delivery and a cursor at the two ends of one stream, each in a thread of its own. The delivery sleeps
when it finds no room for its record, the reader when it finds neither a record nor an end. A record that
is taken wakes the delivery, as closing the stream does; a record or an end that comes in wakes the
reader. Each locked section is one step, and a run is any order of them. Whoever sleeps has a reason to:
what it waits for is not there.
-/

namespace RecordQuery

/-- What a call for the next row answers, and the record that the cursor then stands on. -/
abbrev Answer := Except QueryError Bool × Except QueryError Record

structure Exchange where
  cursor : Cursor
  feed : Feed
  /-- The delivery waits in a push and was not woken. -/
  deliverySleeps : Bool := false
  /-- The reader waits in a call for the next row and was not woken. -/
  readerSleeps : Bool := false

/-- Whether the next step of the delivery reaches a reader that waits: a record or an end does, a record
that is only handed out does not, and on a closed stream nothing does. -/
def Feed.reachesReader (feed : Feed) : Bool :=
  !feed.stream.closed && (feed.delivery.inHand.isSome || feed.delivery.waiting.isEmpty)

/-- Whether a call for the next row took a record. -/
def Answer.isRow : Answer → Bool
  | (.ok found, _) => found
  | (.error _, _) => false

namespace Exchange

/-- What one step of an exchange was. -/
inductive Act where
  | delivered
  | deliverySlept
  | answered (answer : Answer)
  | readerSlept
  /-- The cursor is closed, or dropped, which closes the stream in the same way. -/
  | closed

inductive Step (exchange : Exchange) : Act → Exchange → Prop
  | deliver {delivery : Delivery} {stream : RecordStream} (awake : exchange.deliverySleeps = false)
    (stepped : exchange.feed.delivery.step? exchange.feed.stream = some (delivery, stream)) :
    Step exchange .delivered
      { exchange with
        feed := ⟨stream, delivery⟩
        readerSleeps := exchange.readerSleeps && !exchange.feed.reachesReader }
  | park (awake : exchange.deliverySleeps = false) (going : exchange.feed.delivery.isEnded = false)
    (blocked : exchange.feed.delivery.step? exchange.feed.stream = none) :
    Step exchange .deliverySlept { exchange with deliverySleeps := true }
  | answer {result : Except QueryError Bool} {cursor : Cursor} {stream : RecordStream}
    (awake : exchange.readerSleeps = false)
    (given : exchange.cursor.next? exchange.feed.stream = some (result, cursor, stream)) :
    Step exchange (.answered (result, cursor.current))
      { exchange with
        cursor
        feed := { exchange.feed with stream }
        deliverySleeps := exchange.deliverySleeps && !Answer.isRow (result, cursor.current) }
  | wait (awake : exchange.readerSleeps = false)
    (blocked : exchange.cursor.next? exchange.feed.stream = none) :
    Step exchange .readerSlept { exchange with readerSleeps := true }
  | close (awake : exchange.readerSleeps = false) :
    Step exchange .closed
      { exchange with
        cursor := (exchange.cursor.close exchange.feed.stream).1
        feed := { exchange.feed with stream := (exchange.cursor.close exchange.feed.stream).2 }
        deliverySleeps := exchange.deliverySleeps && exchange.feed.stream.closed }

/-- The acts of a run in their order. -/
inductive Run (start : Exchange) : List Act → Exchange → Prop
  | start : Run start [] start
  | step {acts : List Act} {exchange after : Exchange} {act : Act}
    (run : Run start acts exchange) (step : Step exchange act after) :
    Run start (acts ++ [act]) after

theorem Run.trans {first middle last : Exchange} {acts more : List Act} (run : Run first acts middle)
    (later : Run middle more last) : Run first (acts ++ more) last := by
  induction later with
  | start => rwa [List.append_nil]
  | step _ step ih =>
    rw [← List.append_assoc]
    exact ih.step step

/-- A delivery that goes on until it waits or is over. -/
theorem Run.deliveries (cursor : Cursor) (delivery : Delivery) (stream : RecordStream) :
    ∃ steps, Run { cursor, feed := ⟨stream, delivery⟩ } (List.replicate steps .delivered)
      { cursor, feed := ⟨(delivery.run stream).2, (delivery.run stream).1⟩ } := by
  refine Delivery.run_induct (motive := fun next after =>
    ∃ steps, Run { cursor, feed := ⟨stream, delivery⟩ } (List.replicate steps .delivered)
      { cursor, feed := ⟨after, next⟩ }) ?_ ⟨0, .start⟩
  rintro delivery next stream after stepped ⟨steps, run⟩
  refine ⟨steps + 1, ?_⟩
  rw [List.replicate_succ']
  exact run.step (.deliver rfl stepped)

def Act.answer? : Act → Option Answer
  | .answered answer => some answer
  | _ => none

/-- The answers that the reader was given, in order. -/
def answers (acts : List Act) : List Answer := acts.filterMap Act.answer?

theorem answers_concat (acts : List Act) (act : Act) :
    answers (acts ++ [act]) = answers acts ++ act.answer?.toList := by
  rw [answers, List.filterMap_append, answers, List.filterMap_cons, List.filterMap_nil]
  cases act.answer? <;> rfl

/-- A delivery that has not begun, and a cursor before the first row. -/
def start (columns : List Column) (capacity : Capacity) (delivery : Delivery) : Exchange :=
  { cursor := { columns }, feed := ⟨{ capacity }, delivery⟩ }

/-- A query whose delivery goes on as far as it can before each call is one of the runs: this is how it
begins. -/
theorem Run.execution_start (columns : List Column) (capacity : Capacity) (delivery : Delivery) :
    ∃ steps, Run (Exchange.start columns capacity delivery) (List.replicate steps .delivered)
      { cursor := { columns }, feed := .start capacity delivery } :=
  Run.deliveries { columns } delivery { capacity }

/-- One call of a query under way is an answer, after which the delivery goes on as far as it can. -/
theorem Run.execution_next? {execution later : Execution} {result : Except QueryError Bool}
    (given : execution.next? = some (result, later)) :
    ∃ steps, Run { cursor := execution.cursor, feed := execution.feed }
      (.answered (result, later.cursor.current) :: List.replicate steps .delivered)
      { cursor := later.cursor, feed := later.feed } := by
  rw [Execution.next?, Option.map_eq_some_iff] at given
  obtain ⟨⟨result, cursor, stream⟩, called, same⟩ := given
  cases same
  obtain ⟨steps, delivered⟩ := Run.deliveries cursor execution.feed.delivery stream
  exact ⟨steps, .trans (.step .start (.answer rfl called)) delivered⟩

/-- Closing a query under way is closing its cursor, after which the delivery goes on as far as it can. -/
theorem Run.execution_close (execution : Execution) :
    ∃ steps, Run { cursor := execution.cursor, feed := execution.feed }
      (.closed :: List.replicate steps .delivered)
      { cursor := execution.close.cursor, feed := execution.close.feed } := by
  obtain ⟨steps, delivered⟩ := Run.deliveries (execution.cursor.close execution.feed.stream).1
    execution.feed.delivery (execution.cursor.close execution.feed.stream).2
  exact ⟨steps, .trans (.step .start (.close rfl)) delivered⟩

/-- Who sleeps has to, and a closed stream is empty. -/
structure Sound (exchange : Exchange) : Prop where
  delivery_waits : exchange.deliverySleeps = true → exchange.feed.delivery.isEnded = false ∧
    ∃ record, exchange.feed.delivery.inHand = some record ∧ exchange.feed.stream.push? record = none
  reader_waits : exchange.readerSleeps = true →
    exchange.cursor.Reading ∧ exchange.feed.stream.next? = none
  dropped : exchange.feed.stream.closed = true → exchange.feed.stream.buffered = []
  closed_with_cursor : exchange.cursor.isClosed = true → exchange.feed.stream.closed = true

namespace Sound

variable {exchange after : Exchange} {act : Act}

/-- A reader that waits is not missed by the delivery: a step that does not reach it leaves the stream as
it was. -/
theorem stream_eq_of_reader_waits {delivery : Delivery} {stream : RecordStream}
    (waits : exchange.feed.stream.next? = none)
    (stepped : exchange.feed.delivery.step? exchange.feed.stream = some (delivery, stream))
    (missed : exchange.feed.reachesReader = false) : stream = exchange.feed.stream := by
  obtain ⟨_, _, not_closed⟩ := RecordStream.of_next?_eq_none waits
  rw [Feed.reachesReader, not_closed, Bool.not_false, Bool.true_and, Bool.or_eq_false_iff] at missed
  obtain ⟨none_held, some_waiting⟩ := missed
  obtain ⟨_, _, action⟩ := Delivery.step?_cases stepped
  obtain ⟨_, _, _, _, same, _⟩ | ⟨_, held, _⟩ | ⟨_, held, _⟩ | ⟨_, none_waiting, _⟩ := action
  · exact same
  · rw [held] at none_held
    cases none_held
  · rw [held] at none_held
    cases none_held
  · rw [none_waiting] at some_waiting
    cases some_waiting

theorem step (sound : exchange.Sound) (step : Step exchange act after) : after.Sound := by
  obtain ⟨delivery_waits, reader_waits, dropped, closed_with_cursor⟩ := sound
  cases step with
  | deliver awake stepped =>
    obtain ⟨closed_eq, buffered_eq⟩ := Delivery.step?_kept stepped
    constructor
    case delivery_waits =>
      intro sleeps
      rw [awake] at sleeps
      cases sleeps
    case reader_waits =>
      intro sleeps
      rw [Bool.and_eq_true, Bool.not_eq_true'] at sleeps
      obtain ⟨reading, waits⟩ := reader_waits sleeps.1
      rw [stream_eq_of_reader_waits waits stepped sleeps.2]
      exact ⟨reading, waits⟩
    case dropped =>
      intro closed
      have was_closed := closed_eq.symm.trans closed
      exact (buffered_eq was_closed).trans (dropped was_closed)
    case closed_with_cursor => exact fun closed => closed_eq.trans (closed_with_cursor closed)
  | park awake going blocked =>
    refine ⟨fun _ => ⟨going, ?_⟩, reader_waits, dropped, closed_with_cursor⟩
    obtain ended | waits := Delivery.step?_eq_none blocked
    · rw [Delivery.isEnded, ended] at going
      cases going
    · exact waits
  | @answer result cursor stream awake given =>
    have stream_eq := Cursor.stream_of_next? given
    constructor
    case delivery_waits =>
      intro sleeps
      rw [Bool.and_eq_true, Bool.not_eq_true'] at sleeps
      obtain rfl | ⟨rfl, _⟩ := stream_eq
      · exact delivery_waits sleeps.1
      · cases sleeps.2
    case reader_waits =>
      intro sleeps
      rw [awake] at sleeps
      cases sleeps
    case dropped =>
      intro closed
      obtain rfl | ⟨_, record, rest, buffered, _, rfl⟩ := stream_eq
      · exact dropped closed
      · rw [dropped closed] at buffered
        cases buffered
    case closed_with_cursor =>
      intro closed
      have was_closed := closed_with_cursor (Cursor.isClosed_of_next? given closed)
      obtain rfl | ⟨_, _, _, _, _, rfl⟩ := stream_eq <;> exact was_closed
  | wait awake blocked =>
    exact ⟨delivery_waits, fun _ => Cursor.next?_eq_none blocked, dropped, closed_with_cursor⟩
  | close awake =>
    constructor
    case delivery_waits =>
      intro sleeps
      rw [Bool.and_eq_true] at sleeps
      obtain ⟨_, _, _, waits⟩ := delivery_waits sleeps.1
      have not_closed := (RecordStream.of_push?_eq_none waits).1
      rw [sleeps.2] at not_closed
      cases not_closed
    case reader_waits =>
      intro sleeps
      rw [awake] at sleeps
      cases sleeps
    case dropped =>
      intro _
      dsimp only [Cursor.close]
      split
      · next closed => exact dropped (closed_with_cursor closed)
      · exact RecordStream.buffered_close dropped
    case closed_with_cursor =>
      intro _
      dsimp only [Cursor.close]
      split
      · next closed => exact closed_with_cursor closed
      · exact exchange.feed.stream.closed_close

end Sound

theorem sound_start (columns : List Column) (capacity : Capacity) (delivery : Delivery) :
    (start columns capacity delivery).Sound where
  delivery_waits := nofun
  reader_waits := nofun
  dropped := nofun
  closed_with_cursor := nofun

theorem Run.sound {start exchange : Exchange} {acts : List Act} (run : Run start acts exchange)
    (sound : start.Sound) : exchange.Sound := by
  induction run with
  | start => exact sound
  | step _ step ih => exact ih.step step

end Exchange

end RecordQuery
