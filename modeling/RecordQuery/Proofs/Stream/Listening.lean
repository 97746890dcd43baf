import RecordQuery.Stream.Listener
import RecordQuery.Proofs.Stream.Accounts

/-!
A store's listener at a channel, among the consumer and other producers. However the listener goes, by a
signal or without one, it leaves a stream that has ended: either an end was signalled or the consumer had
closed it, and both stay. So no consumer waits for a listener that is gone. If it went without a signal
and nobody else ended the stream, the end is the failure that the records were abandoned, and it comes
after all that were accepted.
-/

namespace RecordQuery

/-- A stream that has ended or is closed has an answer for the consumer. -/
theorem Channel.next?_isSome {channel : Channel}
    (ended : channel.stream.terminal.isSome = true ∨ channel.stream.closed = true) :
    channel.next?.isSome = true := by
  cases given : channel.stream.next? with
  | none =>
    obtain ⟨_, unended, not_closed⟩ := RecordStream.of_next?_eq_none given
    rw [unended, not_closed] at ended
    exact absurd ended (by decide)
  | some taken =>
    obtain ⟨item, stream⟩ := taken
    rw [Channel.next?, given]
    cases item <;> rfl

namespace Run

open Event

variable {capacity : Capacity} {start channel : Channel} {events before after : List Event}
  {terminal : Terminal}

/-- On an open stream the consumer is given the first end that was signalled in the whole run. -/
theorem end_of_first_signal {item : Item}
    (run : Run (.new capacity) (before ++ .taken item :: after) channel)
    (at_end : ∀ record, item ≠ .record record) (still_open : .closed ∉ before)
    (signalled : firstSignal? (before ++ .taken item :: after) = some terminal) :
    item = terminal.item ∧ returned before = accepted before := by
  obtain ⟨all_returned, first, signalled_before, rfl⟩ := run.all_returned_at_end at_end still_open
  rw [firstSignal?, List.findSome?_append, ← firstSignal?, signalled_before, Option.some_or] at signalled
  exact ⟨congrArg Terminal.item (Option.some.inj signalled), all_returned⟩

/-- A consumer that reads on is given all that is buffered and then the end that was signalled. -/
theorem read_to_end (run : Run start events channel)
    (signalled : channel.stream.terminal = some terminal) :
    ∃ last, Run start (events ++ (channel.stream.buffered.map (fun record => .taken (.record record)) ++
      [.taken terminal.item])) last := by
  generalize buffered : channel.stream.buffered = records
  induction records generalizing events channel with
  | nil =>
    have given : channel.next? = some (terminal.item, channel) := by
      rw [Channel.next?, RecordStream.next?_of_terminal buffered signalled]
      cases terminal <;> rfl
    exact ⟨channel, run.step (.next given)⟩
  | cons record rest ih =>
    have given : channel.next? = some (.record record,
        ⟨{ channel.stream with buffered := rest }, Channel.wakeOne channel.parked⟩) := by
      rw [Channel.next?, RecordStream.next?_of_buffered buffered]
    obtain ⟨last, on⟩ := ih (run.step (.next given)) signalled rfl
    rw [List.append_assoc] at on
    exact ⟨last, on⟩

end Run

structure Subscription where
  channel : Channel
  listener : Listener

namespace Subscription

/-- What one step at the channel was: a report of the listener, or an event of others. -/
inductive Report where
  | passedOn (record : Record) (result : Option Bool)
  | success
  | failure (error : StoreError)
  /-- The listener is let go of without a signal, and looks whether the stream is closed. -/
  | released
  /-- The listener that was let go of signals the failure. -/
  | abandoned
  | others (event : Event)

def Report.event? : Report → Option Event
  | .passedOn record result => some (.pushed record result)
  | .success => some (.signalled .completed)
  | .failure error => some (.signalled (.failed error))
  | .released => none
  | .abandoned => some (.signalled (.failed .abandoned))
  | .others event => some event

/-- The events of the channel. -/
def events (reports : List Report) : List Event := reports.filterMap Report.event?

/-- Others act at any time. They are the consumer, the other producers, and a parked push of anybody
that tries again. -/
inductive Step (subscription : Subscription) : Report → Subscription → Prop
  | passedOn {after : Channel} {record : Record} {result : Option Bool}
    (listening : subscription.listener = .listening)
    (step : RecordQuery.Step subscription.channel (.pushed record result) after) :
    Step subscription (.passedOn record result) ⟨after, .listening⟩
  | success (listening : subscription.listener = .listening) :
    Step subscription .success ⟨subscription.channel.terminate .completed, .gone⟩
  | failure (error : StoreError) (listening : subscription.listener = .listening) :
    Step subscription (.failure error) ⟨subscription.channel.terminate (.failed error), .gone⟩
  | released (listening : subscription.listener = .listening) :
    Step subscription .released ⟨subscription.channel, .released subscription.channel.stream⟩
  | abandoned (leaving : subscription.listener = .leaving) :
    Step subscription .abandoned ⟨subscription.channel.terminate (.failed .abandoned), .gone⟩
  | others {after : Channel} {event : Event} (step : RecordQuery.Step subscription.channel event after) :
    Step subscription (.others event) ⟨after, subscription.listener⟩

/-- The reports of a run, from a new channel with its listener on. -/
inductive Run (capacity : Capacity) : List Report → Subscription → Prop
  | start : Run capacity [] ⟨.new capacity, .listening⟩
  | step {reports : List Report} {subscription after : Subscription} {report : Report}
    (run : Run capacity reports subscription) (step : Step subscription report after) :
    Run capacity (reports ++ [report]) after

open Event

variable {capacity : Capacity} {reports : List Report} {subscription after : Subscription}
  {report : Report}

theorem events_concat (reports : List Report) (report : Report) :
    events (reports ++ [report]) = events reports ++ report.event?.toList := by
  rw [events, List.filterMap_append, events, List.filterMap_cons, List.filterMap_nil]
  cases report.event? <;> rfl

/-- A subscription's step is a step of its channel, or none of it. -/
theorem Step.channel_step (step : Step subscription report after) :
    (∃ event, report.event? = some event ∧
      RecordQuery.Step subscription.channel event after.channel) ∨
    (report.event? = none ∧ after.channel = subscription.channel) := by
  cases step with
  | passedOn _ step => exact Or.inl ⟨_, rfl, step⟩
  | success _ => exact Or.inl ⟨_, rfl, .terminate _ _⟩
  | failure error _ => exact Or.inl ⟨_, rfl, .terminate _ _⟩
  | released _ => exact Or.inr ⟨rfl, rfl⟩
  | abandoned _ => exact Or.inl ⟨_, rfl, .terminate _ _⟩
  | others step => exact Or.inl ⟨_, rfl, step⟩

theorem Run.channel_run (run : Run capacity reports subscription) :
    RecordQuery.Run (.new capacity) (events reports) subscription.channel := by
  induction run with
  | start => exact .start
  | step _ step ih =>
    rw [events_concat]
    obtain ⟨event, same, step⟩ | ⟨same, unchanged⟩ := step.channel_step
    · rw [same]
      exact ih.step step
    · rw [same, unchanged, Option.toList_none, List.append_nil]
      exact ih

theorem closed_mem_events : .closed ∈ events reports ↔ .others .closed ∈ reports := by
  rw [events, List.mem_filterMap]
  constructor
  · rintro ⟨report, mem, same⟩
    cases report with
    | others event =>
      obtain rfl := Option.some.inj same
      exact mem
    | _ => cases same
  · exact fun mem => ⟨_, mem, rfl⟩

theorem firstSignal?_events_concat (reports : List Report) (report : Report) :
    firstSignal? (events (reports ++ [report])) =
      (firstSignal? (events reports)).or (report.event?.bind Event.signal?) := by
  rw [events_concat]
  cases report.event? with
  | none => rw [Option.toList_none, List.append_nil, Option.bind_none, Option.or_none]
  | some event => exact firstSignal?_concat ..

/-- A listener that is gone has signalled an end, or found the stream closed. -/
theorem Run.ended_of_gone (run : Run capacity reports subscription)
    (gone : subscription.listener = .gone) :
    (firstSignal? (events reports)).isSome = true ∨ .closed ∈ events reports := by
  induction run with
  | start => cases gone
  | @step reports subscription after report run step ih =>
    rw [firstSignal?_events_concat, Option.isSome_or, Bool.or_eq_true, events_concat, List.mem_append]
    cases step with
    | passedOn _ _ => cases gone
    | success _ => exact Or.inl (Or.inr rfl)
    | failure _ _ => exact Or.inl (Or.inr rfl)
    | released _ =>
      have closed := Listener.released_eq_gone_iff.1 gone
      exact Or.inr (Or.inl (run.channel_run.accounts.closed_iff.1 closed))
    | abandoned _ => exact Or.inl (Or.inr rfl)
    | others _ => exact (ih gone).imp Or.inl Or.inl

/-- Which end was signalled so far, if nobody but the listener signals any or closes the stream. -/
def Alone (released : Prop) (signal : Option Terminal) : Listener → Prop
  | .listening => ¬released ∧ signal = none
  | .leaving => signal = none
  | .gone => released → signal = some (.failed .abandoned)

theorem Run.alone (run : Run capacity reports subscription) (not_closed : .others .closed ∉ reports)
    (not_signalled : ∀ terminal, .others (.signalled terminal) ∉ reports) :
    Alone (.released ∈ reports) (firstSignal? (events reports)) subscription.listener := by
  induction run with
  | start => exact ⟨List.not_mem_nil, rfl⟩
  | @step reports subscription after report run step ih =>
    simp only [List.mem_append, List.mem_singleton, not_or] at not_closed not_signalled
    have alone := ih not_closed.1 fun terminal => (not_signalled terminal).1
    have signal_eq := firstSignal?_events_concat reports report
    have released_mem : .released ∈ reports ++ [report] ↔ .released ∈ reports ∨ .released = report := by
      rw [List.mem_append, List.mem_singleton]
    rw [signal_eq, propext released_mem]
    cases step with
    | passedOn listening _ =>
      rw [listening] at alone
      exact ⟨not_or.2 ⟨alone.1, nofun⟩, by rw [alone.2]; rfl⟩
    | success listening =>
      rw [listening] at alone
      exact fun released => absurd released (not_or.2 ⟨alone.1, nofun⟩)
    | failure _ listening =>
      rw [listening] at alone
      exact fun released => absurd released (not_or.2 ⟨alone.1, nofun⟩)
    | released listening =>
      rw [listening] at alone
      have still_open : ¬subscription.channel.stream.closed = true := by
        rw [run.channel_run.accounts.closed_iff, closed_mem_events]
        exact not_closed.1
      dsimp only
      rw [Listener.released, if_neg still_open, alone.2]
      rfl
    | abandoned leaving =>
      rw [leaving] at alone
      intro _
      rw [alone]
      rfl
    | @others after event _ =>
      have unsignalled : event.signal? = none := by
        cases event with
        | signalled terminal => exact absurd rfl (not_signalled terminal).2
        | _ => rfl
      have same_released : (.released ∈ reports ∨ .released = Report.others event) ↔
          .released ∈ reports := or_iff_left nofun
      rw [Report.event?, Option.bind_some, unsignalled, Option.or_none, propext same_released]
      exact alone

/-- A listener that is gone leaves a stream that has ended or is closed, and so an answer for the
consumer. If it was let go of without a signal, and nobody else signalled an end or closed the stream,
the only end that the consumer is ever given is the failure that the records were abandoned, after all
the accepted records; and it is given them and the failure if it reads on. -/
theorem Run.gone_listener_leaves_end (run : Run capacity reports subscription)
    (gone : subscription.listener = .gone) :
    (subscription.channel.stream.isTerminated = true ∨ subscription.channel.stream.closed = true) ∧
    subscription.channel.next?.isSome = true ∧
    (.released ∈ reports → .others .closed ∉ reports →
      (∀ terminal, .others (.signalled terminal) ∉ reports) →
      (∀ before item after, events reports = before ++ .taken item :: after →
        (∀ record, item ≠ .record record) →
          item = .failed .abandoned ∧ returned before = accepted before) ∧
      accepted (events reports) =
        returned (events reports) ++ subscription.channel.stream.buffered ∧
      ∃ last, RecordQuery.Run subscription.channel
        (subscription.channel.stream.buffered.map (fun record => .taken (.record record)) ++
          [.taken (.failed .abandoned)]) last) := by
  have channel_run := run.channel_run
  have accounts := channel_run.accounts
  have ended : subscription.channel.stream.terminal.isSome = true ∨
      subscription.channel.stream.closed = true := by
    rw [accounts.terminal_eq, accounts.closed_iff]
    exact run.ended_of_gone gone
  refine ⟨ended, Channel.next?_isSome ended, ?_⟩
  intro released not_closed not_signalled
  have signalled : firstSignal? (events reports) = some (.failed .abandoned) := by
    have alone := run.alone not_closed not_signalled
    rw [gone] at alone
    exact alone released
  rw [← closed_mem_events] at not_closed
  refine ⟨?ends, accounts.balanced not_closed, ?reads⟩
  case ends =>
    intro before item after taken at_end
    rw [taken] at channel_run not_closed signalled
    exact channel_run.end_of_first_signal at_end
      (fun closed => not_closed (List.mem_append_left _ closed)) signalled
  case reads => exact RecordQuery.Run.start.read_to_end (accounts.terminal_eq.trans signalled)

/-- A listener is let go of without a signal, and another producer pushes a record before the failure is
signalled. -/
theorem abandoned_after_accepted_records :
    let first : Record := { key := none, bins := [("n", .int 1)], generation := 1 }
    let second : Record := { key := none, bins := [("n", .int 2)], generation := 1 }
    let reports : List Report :=
      [.passedOn first (some true), .released, .others (.pushed second (some true)), .abandoned]
    ∃ subscription, Run (.bounded 2) reports subscription ∧ subscription.listener = .gone ∧
      subscription.channel.next?.isSome = true ∧ accepted (events reports) = [first, second] ∧
      ∃ last, RecordQuery.Run subscription.channel
        [.taken (.record first), .taken (.record second), .taken (.failed .abandoned)] last := by
  intro first second reports
  have run : Run (.bounded 2) reports _ :=
    Run.start.step (.passedOn rfl (.push rfl)) |>.step (.released rfl)
      |>.step (.others (.push rfl)) |>.step (.abandoned rfl)
  obtain ⟨_, answered, abandoned⟩ := run.gone_listener_leaves_end rfl
  obtain ⟨_, _, reads⟩ := abandoned (by simp [reports]) (by simp [reports]) (by simp [reports])
  exact ⟨_, run, rfl, answered, rfl, reads⟩

end Subscription

end RecordQuery
