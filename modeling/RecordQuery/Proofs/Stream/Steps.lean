import RecordQuery.Stream.Basic

/-!
The steps of a record stream, read backwards: from what a step gave, what the stream was before it and
is after it. Whatever runs on a stream is argued from these and does not open the steps again.
-/

namespace RecordQuery

/-- A stream without room holds at least one record. -/
theorem Capacity.pos_of_not_hasRoom {capacity : Capacity} {length : Nat}
    (full : capacity.hasRoom length = false) : 0 < length := by
  cases capacity with
  | bounded limit =>
    rw [hasRoom, decide_eq_false_iff_not] at full
    omega
  | unbounded => cases full

/-- What the consumer is given at the end. -/
def Terminal.item : Terminal → Item
  | .completed => .finished
  | .failed error => .failed error

theorem Terminal.item_injective {terminal other : Terminal} (same : terminal.item = other.item) :
    terminal = other := by
  cases terminal <;> cases other <;> cases same <;> rfl

namespace RecordStream

variable {stream after : RecordStream} {record : Record}

theorem not_dead_iff : ¬(stream.closed || stream.isTerminated) = true ↔
    stream.closed = false ∧ stream.terminal = none := by
  rw [Bool.or_eq_true, not_or, Bool.not_eq_true, isTerminated, Option.not_isSome_iff_eq_none]

theorem of_push?_accepted (pushed : stream.push? record = some (true, after)) :
    stream.closed = false ∧ stream.terminal = none ∧
      stream.capacity.hasRoom stream.buffered.length = true ∧
      after = { stream with buffered := stream.buffered ++ [record] } := by
  unfold push? at pushed
  split at pushed
  · cases pushed
  · next live =>
    obtain ⟨not_closed, unended⟩ := not_dead_iff.1 live
    split at pushed
    · next room =>
      cases pushed
      exact ⟨not_closed, unended, room, rfl⟩
    · cases pushed

theorem of_push?_refused (pushed : stream.push? record = some (false, after)) :
    (stream.closed = true ∨ stream.terminal.isSome = true) ∧ after = stream := by
  unfold push? at pushed
  split at pushed
  · next dead =>
    cases pushed
    exact ⟨(Bool.or_eq_true ..).mp dead, rfl⟩
  · split at pushed <;> cases pushed

theorem of_push?_eq_none (waits : stream.push? record = none) :
    stream.closed = false ∧ stream.terminal = none ∧
      stream.capacity.hasRoom stream.buffered.length = false := by
  unfold push? at waits
  split at waits
  · cases waits
  · next live =>
    obtain ⟨not_closed, unended⟩ := not_dead_iff.1 live
    split at waits
    · cases waits
    · next full => exact ⟨not_closed, unended, Bool.eq_false_iff.2 full⟩

/-- The consumer is given the first record, or else the signalled end, or the end of a closed stream. -/
theorem next?_cases {item : Item} (taken : stream.next? = some (item, after)) :
    (∃ record rest, stream.buffered = record :: rest ∧ item = .record record ∧
      after = { stream with buffered := rest }) ∨
    (stream.buffered = [] ∧ after = stream ∧
      ((∃ terminal, stream.terminal = some terminal ∧ item = terminal.item) ∨
        stream.terminal = none ∧ stream.closed = true ∧ item = .finished)) := by
  cases buffered : stream.buffered with
  | cons record rest =>
    simp only [next?, buffered] at taken
    cases taken
    exact Or.inl ⟨record, rest, rfl, rfl, rfl⟩
  | nil =>
    refine Or.inr ⟨rfl, ?_⟩
    cases ended : stream.terminal with
    | some terminal =>
      cases terminal <;> simp only [next?, buffered, ended] at taken <;> cases taken
      · exact ⟨rfl, Or.inl ⟨.completed, rfl, rfl⟩⟩
      · exact ⟨rfl, Or.inl ⟨.failed _, rfl, rfl⟩⟩
    | none =>
      simp only [next?, buffered, ended, Option.ite_none_right_eq_some] at taken
      obtain ⟨closed, taken⟩ := taken
      cases taken
      exact ⟨rfl, Or.inr ⟨rfl, closed, rfl⟩⟩

/-- The consumer waits only at an empty stream that may still be filled. -/
theorem of_next?_eq_none (waits : stream.next? = none) :
    stream.buffered = [] ∧ stream.terminal = none ∧ stream.closed = false := by
  unfold next? at waits
  split at waits
  · cases waits
  · cases waits
  · cases waits
  · next empty unended =>
    rw [ite_eq_right_iff] at waits
    exact ⟨empty, unended, Bool.eq_false_iff.2 fun closed => nomatch waits closed⟩

/-- An empty stream gives nothing but an end. -/
theorem not_record_of_empty {item : Item} (empty : stream.buffered = [])
    (taken : stream.next? = some (item, after)) (record : Record) : item ≠ .record record := by
  rintro rfl
  obtain ⟨_, _, buffered, _⟩ | ⟨_, _, ended⟩ := next?_cases taken
  · rw [empty] at buffered
    cases buffered
  · obtain ⟨terminal, _, same⟩ | ⟨_, _, same⟩ := ended
    · cases terminal <;> cases same
    · cases same

theorem next?_of_buffered {rest : List Record} (buffered : stream.buffered = record :: rest) :
    stream.next? = some (.record record, { stream with buffered := rest }) := by
  rw [next?, buffered]

theorem next?_of_terminal {terminal : Terminal} (buffered : stream.buffered = [])
    (ended : stream.terminal = some terminal) : stream.next? = some (terminal.item, stream) := by
  cases terminal <;> rw [next?, buffered, ended] <;> rfl

theorem push?_of_closed (closed : stream.closed = true) (record : Record) :
    stream.push? record = some (false, stream) := by
  rw [push?, closed, Bool.true_or, if_pos rfl]

theorem abandon_of_closed (closed : stream.closed = true) : stream.abandon = stream := by
  rw [abandon, if_pos closed]

theorem close_of_closed (closed : stream.closed = true) : stream.close = stream := by
  rw [close, if_pos closed]

theorem closed_close (stream : RecordStream) : stream.close.closed = true := by
  unfold close
  split
  · assumption
  · rfl

/-- Closing drops what is buffered, also when nothing was left from an earlier time. -/
theorem buffered_close (dropped : stream.closed = true → stream.buffered = []) :
    stream.close.buffered = [] := by
  unfold close
  split
  · next closed => exact dropped closed
  · rfl

theorem capacity_close (stream : RecordStream) : stream.close.capacity = stream.capacity := by
  unfold close
  split <;> rfl

theorem terminal_close (stream : RecordStream) : stream.close.terminal = stream.terminal := by
  unfold close
  split <;> rfl

end RecordStream

end RecordQuery
