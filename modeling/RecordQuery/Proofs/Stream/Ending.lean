import RecordQuery.Proofs.Stream.Accounts

/-!
What the consumer is given after the end. A stream whose end was given is spent: nothing is buffered,
and no step fills it again. Which end it gives is read off the signal each time anew. A signalled end
stays, since only the first signal counts. The end of a stream that was closed without a signal does not:
a producer that has not noticed may still signal a failure, and the consumer is then given that.
-/

namespace RecordQuery

namespace RecordStream

variable {stream after : RecordStream}

/-- Nothing is left in the stream and nothing will come. -/
structure Spent (stream : RecordStream) : Prop where
  empty : stream.buffered = []
  ended : stream.closed = true ∨ stream.terminal.isSome = true

/-- What is given at the end, for the signal that came if one did. -/
def endItem (terminal : Option Terminal) : Item := terminal.elim .finished Terminal.item

/-- Only a spent stream gives an end. -/
theorem spent_of_end {item : Item} (taken : stream.next? = some (item, after))
    (at_end : ∀ record, item ≠ .record record) :
    stream.Spent ∧ after = stream ∧ item = endItem stream.terminal := by
  obtain ⟨record, _, _, same, _⟩ | ⟨empty, same, ended⟩ := next?_cases taken
  · exact absurd same (at_end record)
  · obtain ⟨terminal, signalled, rfl⟩ | ⟨unended, closed, rfl⟩ := ended
    · rw [signalled]
      exact ⟨⟨empty, Or.inr (by rw [signalled]; rfl)⟩, same, rfl⟩
    · rw [unended]
      exact ⟨⟨empty, Or.inl closed⟩, same, rfl⟩

namespace Spent

theorem item_eq (spent : stream.Spent) {item : Item} (taken : stream.next? = some (item, after)) :
    item = endItem stream.terminal :=
  (spent_of_end taken (not_record_of_empty spent.empty taken)).2.2

theorem not_accepted (spent : stream.Spent) {record : Record} :
    stream.push? record ≠ some (true, after) := by
  intro pushed
  obtain ⟨not_closed, unended, _⟩ := of_push?_accepted pushed
  obtain closed | ended := spent.ended
  · rw [not_closed] at closed
    cases closed
  · rw [unended] at ended
    cases ended

theorem terminate (spent : stream.Spent) (terminal : Terminal) : (stream.terminate terminal).Spent where
  empty := spent.empty
  ended := Or.inr (by rw [RecordStream.terminate, Option.isSome_or]; exact Bool.or_true _)

theorem close (spent : stream.Spent) : stream.close.Spent where
  empty := buffered_close fun _ => spent.empty
  ended := Or.inl stream.closed_close

/-- Each step leaves a spent stream spent, and changes no more than the end that is signalled. -/
theorem step (spent : stream.Spent) {event : Event} (acts : event.Acts stream after) :
    after.Spent ∧ after.terminal = stream.terminal.or event.signal? := by
  cases event with
  | pushed record result =>
    obtain _ | accepted := result
    · obtain ⟨_, rfl⟩ := acts
      exact ⟨spent, Option.or_none.symm⟩
    · cases accepted with
      | true => exact absurd acts spent.not_accepted
      | false =>
        obtain ⟨_, rfl⟩ := of_push?_refused acts
        exact ⟨spent, Option.or_none.symm⟩
  | signalled terminal =>
    obtain rfl : after = stream.terminate terminal := acts
    exact ⟨spent.terminate terminal, rfl⟩
  | taken item =>
    obtain ⟨_, rfl, _⟩ := spent_of_end acts (not_record_of_empty spent.empty acts)
    exact ⟨spent, Option.or_none.symm⟩
  | closed =>
    obtain rfl : after = stream.close := acts
    rw [terminal_close]
    exact ⟨spent.close, Option.or_none.symm⟩

end Spent

end RecordStream

namespace Run

open Event RecordStream

variable {capacity : Capacity} {start channel : Channel} {events before middle after : List Event}
  {item later : Item}

/-- A run from a spent stream leaves it spent, and the first end that was ever signalled stands. -/
theorem spent (run : Run start events channel) (spent : start.stream.Spent) :
    channel.stream.Spent ∧
      channel.stream.terminal = start.stream.terminal.or (firstSignal? events) := by
  induction run with
  | start => exact ⟨spent, Option.or_none.symm⟩
  | step _ step ih =>
    obtain ⟨still_spent, terminal_eq⟩ := ih
    obtain ⟨after_spent, after_eq⟩ := still_spent.step step.acts
    refine ⟨after_spent, ?_⟩
    rw [after_eq, terminal_eq, firstSignal?_concat, Option.or_assoc]

/-- What is given at an end and later is the first end that was signalled so far. -/
theorem ends_eq
    (run : Run (.new capacity) (before ++ .taken item :: (middle ++ .taken later :: after)) channel)
    (at_end : ∀ record, item ≠ .record record) :
    item = endItem (firstSignal? before) ∧
      later = endItem ((firstSignal? before).or (firstSignal? middle)) := by
  -- The run is taken apart at the two events: what lies between them starts from a spent stream.
  obtain ⟨reached, next, first, step, rest⟩ := run.split
  obtain ⟨spent, unchanged, item_eq⟩ := spent_of_end step.acts at_end
  obtain ⟨reached', next', between, step', _⟩ := rest.split
  rw [← unchanged] at spent
  obtain ⟨spent', terminal_eq⟩ := between.spent spent
  have recorded : reached.stream.terminal = firstSignal? before := first.accounts.terminal_eq
  rw [recorded] at item_eq
  rw [unchanged, recorded] at terminal_eq
  rw [← terminal_eq]
  exact ⟨item_eq, spent'.item_eq step'.acts⟩

/-- The end sticks on a stream that was not closed before it was given, and on any stream where one was
signalled. Where the stream was only closed, what is given later is the end that was signalled since. -/
theorem end_sticks_if_signalled
    (run : Run (.new capacity) (before ++ .taken item :: (middle ++ .taken later :: after)) channel)
    (at_end : ∀ record, item ≠ .record record) :
    (.closed ∉ before → later = item) ∧
    (∀ terminal, firstSignal? before = some terminal → item = terminal.item ∧ later = item) ∧
    (firstSignal? before = none → item = .finished ∧ later = endItem (firstSignal? middle)) := by
  obtain ⟨item_eq, later_eq⟩ := run.ends_eq at_end
  have signalled (terminal) (given : firstSignal? before = some terminal) :
      item = terminal.item ∧ later = item := by
    rw [given] at item_eq later_eq
    exact ⟨item_eq, later_eq.trans item_eq.symm⟩
  refine ⟨?_, signalled, ?_⟩
  · intro still_open
    obtain ⟨_, terminal, given, _⟩ := run.all_returned_at_end at_end still_open
    exact (signalled terminal given).2
  · intro none_given
    rw [none_given] at item_eq later_eq
    exact ⟨item_eq, later_eq⟩

/-- A failure is given again, although the stream is completed and closed in between. -/
theorem failure_given_again :
    ∃ later channel,
      Run (.new .unbounded)
        ([.signalled (.failed .abandoned)] ++ .taken (.failed .abandoned) ::
          ([.signalled .completed, .closed] ++ .taken later :: [])) channel ∧
      later = .failed .abandoned := by
  have run : Run (.new .unbounded)
      ([.signalled (.failed .abandoned)] ++ .taken (.failed .abandoned) ::
        ([.signalled .completed, .closed] ++ .taken _ :: [])) _ :=
    Run.start.step (.terminate _ _) |>.step (.next rfl) |>.step (.terminate _ _) |>.step (.close _)
      |>.step (.next rfl)
  obtain ⟨sticks, _, _⟩ := run.end_sticks_if_signalled nofun
  exact ⟨_, _, run, sticks (by simp)⟩

/-- A closed stream gives the end of its records, and after a failure was signalled the failure. -/
theorem end_gives_way_to_failure :
    let item : Item := .finished
    let later : Item := .failed (.timeout 1)
    ∃ channel,
      Run (.new .unbounded)
        ([.closed] ++ .taken item :: ([.signalled (.failed (.timeout 1))] ++ .taken later :: []))
        channel ∧
      (∀ record, item ≠ .record record) ∧ later ≠ item := by
  intro item later
  have run : Run (.new .unbounded)
      ([.closed] ++ .taken item :: ([.signalled (.failed (.timeout 1))] ++ .taken later :: [])) _ :=
    Run.start.step (.close _) |>.step (.next rfl) |>.step (.terminate _ _) |>.step (.next rfl)
  exact ⟨_, run, nofun, nofun⟩

end Run

end RecordQuery
