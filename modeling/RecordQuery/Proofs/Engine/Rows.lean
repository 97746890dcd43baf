import RecordQuery.Engine
import RecordQuery.Proofs.Stream.Feed

/-!
The rows of a query under way. A call for the next row takes what the stream has for it, or is answered
without the stream once the end was seen or the cursor is closed. A cursor over a settled feed gives one
row for each record that the feed carries, in order, and then the end or the failure of the delivery;
reading all rows stops there and not before.
-/

namespace RecordQuery

/-- What a cursor reports at the end of a stream. -/
def Terminal.outcome : Terminal → Except QueryError Bool
  | .completed => .ok false
  | .failed error => .error (.store error)

def Terminal.error? : Terminal → Option QueryError
  | .completed => none
  | .failed error => some (.store error)

/-- Before the end, and not closed. -/
def Cursor.Reading (cursor : Cursor) : Prop :=
  cursor.position = .beforeFirst ∨ cursor.position = .onRow

/-- After the end, where no record is held. -/
structure Cursor.PastLast (cursor : Cursor) : Prop where
  position : cursor.position = .afterLast
  record : cursor.record = none

/-- A record is held on a row and nowhere else. -/
def Cursor.InStep (cursor : Cursor) : Prop := cursor.record.isSome = true ↔ cursor.position = .onRow

namespace Cursor

variable {cursor after : Cursor} {stream later : RecordStream} {result : Except QueryError Bool}

theorem next?_of_reading (reading : cursor.Reading) (stream : RecordStream) :
    cursor.next? stream = stream.next?.map fun (item, stream) =>
      match item with
      | .record record => (.ok true, { cursor with record := some record, position := .onRow }, stream)
      | .finished => (.ok false, { cursor with record := none, position := .afterLast }, stream)
      | .failed error =>
        (.error (.store error), { cursor with record := none, position := .afterLast }, stream) := by
  obtain ⟨columns, held, position⟩ := cursor
  obtain before | on := reading
  · obtain rfl : position = .beforeFirst := before
    rfl
  · obtain rfl : position = .onRow := on
    rfl

theorem not_reading_afterLast (position : cursor.position = .afterLast) : ¬cursor.Reading := by
  rintro (before | on)
  · rw [position] at before
    cases before
  · rw [position] at on
    cases on

/-- After the end, and when it is closed, a cursor answers without the stream. -/
theorem next?_of_not_reading (not_reading : ¬cursor.Reading) (stream : RecordStream) :
    ∃ result, cursor.next? stream = some (result, cursor, stream) ∧ result ≠ .ok true ∧
      (cursor.position = .afterLast → result = .ok false) := by
  obtain ⟨columns, held, position⟩ := cursor
  cases position with
  | beforeFirst => exact absurd (Or.inl rfl) not_reading
  | onRow => exact absurd (Or.inr rfl) not_reading
  | afterLast => exact ⟨_, rfl, nofun, fun _ => rfl⟩
  | closed => exact ⟨_, rfl, nofun, nofun⟩

/-- The ways in which a call for the next row is answered. -/
theorem next?_cases (given : cursor.next? stream = some (result, after, later)) :
    (cursor.Reading ∧ ((∃ record, stream.next? = some (.record record, later) ∧ result = .ok true ∧
        after = { cursor with record := some record, position := .onRow }) ∨
      ∃ terminal : Terminal, stream.next? = some (terminal.item, later) ∧ result = terminal.outcome ∧
        after = { cursor with record := none, position := .afterLast })) ∨
    (¬cursor.Reading ∧ result ≠ .ok true ∧ after = cursor ∧ later = stream ∧
      (cursor.position = .afterLast → result = .ok false)) := by
  by_cases reading : cursor.Reading
  · refine Or.inl ⟨reading, ?_⟩
    rw [next?_of_reading reading, Option.map_eq_some_iff] at given
    obtain ⟨⟨item, stream'⟩, taken, same⟩ := given
    cases item with
    | record record =>
      cases same
      exact Or.inl ⟨record, taken, rfl, rfl⟩
    | finished =>
      cases same
      exact Or.inr ⟨.completed, taken, rfl, rfl⟩
    | failed error =>
      cases same
      exact Or.inr ⟨.failed error, taken, rfl, rfl⟩
  · obtain ⟨_, answered, no_row, of_last⟩ := next?_of_not_reading reading stream
    cases answered.symm.trans given
    exact Or.inr ⟨reading, no_row, rfl, rfl, of_last⟩

theorem next?_eq_none (waits : cursor.next? stream = none) :
    cursor.Reading ∧ stream.next? = none := by
  by_cases reading : cursor.Reading
  · rw [next?_of_reading reading, Option.map_eq_none_iff] at waits
    exact ⟨reading, waits⟩
  · obtain ⟨_, answered, _⟩ := next?_of_not_reading reading stream
    cases answered.symm.trans waits

/-- A call that takes no record leaves the stream as it was. -/
theorem stream_of_next? (given : cursor.next? stream = some (result, after, later)) :
    later = stream ∨ result = .ok true ∧ ∃ record rest, stream.buffered = record :: rest ∧
      after = { cursor with record := some record, position := .onRow } ∧
      later = { stream with buffered := rest } := by
  obtain ⟨_, ⟨record, taken, rfl, rfl⟩ | ⟨terminal, taken, _, _⟩⟩ | ⟨_, _, _, same, _⟩ :=
    next?_cases given
  · obtain ⟨_, rest, buffered, same, rfl⟩ | ⟨empty, _⟩ := RecordStream.next?_cases taken
    · cases same
      exact Or.inr ⟨rfl, record, rest, buffered, rfl, rfl⟩
    · exact absurd rfl (RecordStream.not_record_of_empty empty taken record)
  · obtain ⟨_, _, _, same, _⟩ | ⟨_, same, _⟩ := RecordStream.next?_cases taken
    · cases terminal <;> cases same
    · exact Or.inl same
  · exact Or.inl same

theorem inStep_new (columns : List Column) : InStep { columns } := iff_of_false nofun nofun

theorem PastLast.inStep (past : cursor.PastLast) : cursor.InStep := by
  rw [InStep, past.record, past.position]
  exact iff_of_false nofun nofun

/-- A call for the next row changes the record and the position together. -/
theorem InStep.next? (in_step : cursor.InStep)
    (given : cursor.next? stream = some (result, after, later)) : after.InStep := by
  obtain ⟨_, ⟨record, _, _, rfl⟩ | ⟨terminal, _, _, rfl⟩⟩ | ⟨_, _, rfl, _⟩ := next?_cases given
  · exact iff_of_true rfl rfl
  · exact PastLast.inStep ⟨rfl, rfl⟩
  · exact in_step

theorem InStep.close (in_step : cursor.InStep) (stream : RecordStream) :
    (cursor.close stream).1.InStep := by
  rw [Cursor.close]
  split
  · exact in_step
  · exact iff_of_false nofun nofun

/-- A cursor is closed after a call only if it was before. -/
theorem isClosed_of_next? (given : cursor.next? stream = some (result, after, later))
    (closed : after.isClosed = true) : cursor.isClosed = true := by
  obtain ⟨_, ⟨_, _, _, rfl⟩ | ⟨_, _, _, rfl⟩⟩ | ⟨_, _, rfl, _⟩ := next?_cases given
  · cases closed
  · cases closed
  · exact closed

theorem isClosed_close (cursor : Cursor) (stream : RecordStream) :
    (cursor.close stream).1.isClosed = true := by
  rw [close]
  split
  · assumption
  · rfl

end Cursor

namespace Execution

/-- Will show `records` as rows, one after the other, and then the end. -/
structure Reads (execution : Execution) (records : List Record) (terminal : Terminal) : Prop where
  reading : execution.cursor.Reading
  carries : execution.feed.Carries records terminal
  settled : execution.feed.Settled

variable {execution : Execution} {records : List Record} {terminal : Terminal}

theorem Reads.next?_row {record : Record} {rest : List Record}
    (reads : execution.Reads (record :: rest) terminal) :
    ∃ onRow, execution.next? = some (.ok true, onRow) ∧
      onRow.cursor = { execution.cursor with record := some record, position := .onRow } ∧
      onRow.Reads rest terminal := by
  obtain ⟨reading, carries, settled⟩ := reads
  obtain ⟨stream, taken, carries⟩ := carries.next?_record settled
  refine ⟨{ execution with
    cursor := { execution.cursor with record := some record, position := .onRow }
    feed := execution.feed.resume stream }, ?_, rfl, ?_⟩
  case refine_2 => exact ⟨Or.inr rfl, carries, Feed.settled_resume ..⟩
  rw [next?, Cursor.next?_of_reading reading, taken]
  rfl

theorem Reads.next?_end (reads : execution.Reads [] terminal) :
    ∃ last, execution.next? = some (terminal.outcome, last) ∧
      last.cursor = { execution.cursor with record := none, position := .afterLast } := by
  obtain ⟨reading, carries, settled⟩ := reads
  obtain ⟨taken, _⟩ := carries.next?_end settled
  refine ⟨{ execution with
    cursor := { execution.cursor with record := none, position := .afterLast }
    feed := execution.feed.resume execution.feed.stream }, ?_, rfl⟩
  rw [next?, Cursor.next?_of_reading reading, taken]
  cases terminal <;> rfl

theorem Reads.rowsFor {α : Type} (read : Cursor → α) (reads : execution.Reads records terminal)
    {fuel : Nat} (enough : records.length < fuel) :
    ∃ last, execution.rowsFor read fuel =
        (records.map fun record => read { execution.cursor with record := some record, position := .onRow },
          terminal.error?, last) ∧
      last.cursor = { execution.cursor with record := none, position := .afterLast } := by
  induction records generalizing execution fuel with
  | nil =>
    obtain ⟨fuel, rfl⟩ := Nat.exists_eq_add_one_of_ne_zero (Nat.ne_of_gt enough)
    obtain ⟨last, taken, after⟩ := reads.next?_end
    refine ⟨last, ?_, after⟩
    rw [Execution.rowsFor, taken]
    cases terminal <;> rfl
  | cons record rest ih =>
    obtain ⟨fuel, rfl⟩ := Nat.exists_eq_add_one_of_ne_zero (Nat.ne_of_gt (Nat.zero_lt_of_lt enough))
    obtain ⟨onRow, taken, cursor, reads⟩ := reads.next?_row
    obtain ⟨last, rows, after⟩ := ih reads (Nat.lt_of_succ_lt_succ enough)
    refine ⟨last, ?_, ?_⟩
    · rw [Execution.rowsFor, taken]
      simp only [rows, cursor, List.map_cons]
    · rw [after, cursor]

/-- All rows of a query under way: one for each record, and the failure if one ends them. -/
theorem Reads.rows {α : Type} (read : Cursor → α) (reads : execution.Reads records terminal) :
    ∃ last, execution.rows read =
        (records.map fun record => read { execution.cursor with record := some record, position := .onRow },
          terminal.error?, last) ∧
      last.cursor = { execution.cursor with record := none, position := .afterLast } := by
  have enough := execution.feed.length_ahead_le
  rw [reads.carries.ahead_eq] at enough
  refine reads.rowsFor read ?_
  rw [rowsLeft]
  omega

/-- A query whose delivery has just been started reads all that the delivery hands out. -/
theorem reads_start (columns : List Column) (capacity : Capacity) (records : List Record)
    (ending : Ending) :
    ({ cursor := { columns },
       feed := .start capacity { waiting := records, ending := some ending } } : Execution).Reads
      records ending.terminal :=
  ⟨Or.inl rfl, Feed.carries_start capacity records ending, Feed.settled_start capacity _⟩

end Execution

end RecordQuery
