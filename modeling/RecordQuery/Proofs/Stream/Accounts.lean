import RecordQuery.Proofs.Stream.Run

/-!
The accounts of a run: what was accepted, what was returned and which end was signalled first, read off
its events. On an open stream the accepted records are the returned ones and then the buffered ones, so
none is lost, doubled or moved; closing strikes the account, and nothing is entered after it. One step
keeps the accounts, whatever it is, and so does every run.
-/

namespace RecordQuery

/-- A last item adds itself to a list and no other. -/
theorem mem_concat_iff_of_ne {α : Type} (items : List α) (last item : α) (other : last ≠ item) :
    item ∈ items ++ [last] ↔ item ∈ items := by
  rw [List.mem_append, List.mem_singleton]
  exact or_iff_left other.symm

namespace Event

def accepted? : Event → Option Record
  | .pushed record (some true) => some record
  | _ => none

def returned? : Event → Option Record
  | .taken (.record record) => some record
  | _ => none

def signal? : Event → Option Terminal
  | .signalled terminal => some terminal
  | _ => none

/-- The records whose push was accepted, in the order of acceptance. -/
def accepted (events : List Event) : List Record := events.filterMap accepted?

/-- The records that the consumer was given, in order. -/
def returned (events : List Event) : List Record := events.filterMap returned?

def firstSignal? (events : List Event) : Option Terminal := events.findSome? signal?

theorem accepted_concat (events : List Event) (event : Event) :
    accepted (events ++ [event]) = accepted events ++ event.accepted?.toList := by
  rw [accepted, List.filterMap_append, accepted, List.filterMap_cons, List.filterMap_nil]
  cases event.accepted? <;> rfl

theorem returned_concat (events : List Event) (event : Event) :
    returned (events ++ [event]) = returned events ++ event.returned?.toList := by
  rw [returned, List.filterMap_append, returned, List.filterMap_cons, List.filterMap_nil]
  cases event.returned? <;> rfl

theorem firstSignal?_concat (events : List Event) (event : Event) :
    firstSignal? (events ++ [event]) = (firstSignal? events).or event.signal? := by
  rw [firstSignal?, List.findSome?_append, firstSignal?, List.findSome?_cons, List.findSome?_nil]
  cases event.signal? <;> rfl

end Event

open Event

/-- How a stream stands after a run of the events. -/
structure Accounts (capacity : Capacity) (events : List Event) (stream : RecordStream) : Prop where
  capacity_eq : stream.capacity = capacity
  terminal_eq : stream.terminal = firstSignal? events
  closed_iff : stream.closed = true ↔ .closed ∈ events
  balanced : .closed ∉ events → accepted events = returned events ++ stream.buffered
  dropped : .closed ∈ events → stream.buffered = []
  returned_prefix : returned events <+: accepted events
  bounded : ∀ limit, capacity = .bounded limit → stream.buffered.length ≤ max limit 1

namespace Accounts

variable {capacity : Capacity} {events : List Event} {stream after : RecordStream}

theorem new (capacity : Capacity) : Accounts capacity [] { capacity } where
  capacity_eq := rfl
  terminal_eq := rfl
  closed_iff := by simp
  balanced _ := rfl
  dropped _ := rfl
  returned_prefix := List.prefix_rfl
  bounded _ _ := Nat.zero_le _

/-- An event other than closing keeps the accounts if the records that it moves are accounted for, and
it moves none on a closed stream. -/
theorem extend (accounts : Accounts capacity events stream) {event : Event} (stays : event ≠ .closed)
    (kept : after.capacity = stream.capacity ∧ after.closed = stream.closed)
    (terminal_eq : after.terminal = stream.terminal.or event.signal?)
    (moved : stream.buffered ++ event.accepted?.toList = event.returned?.toList ++ after.buffered)
    (idle : stream.closed = true → event.accepted? = none ∧ event.returned? = none)
    (bounded : ∀ limit, capacity = .bounded limit → after.buffered.length ≤ max limit 1) :
    Accounts capacity (events ++ [event]) after := by
  have closed_mem := mem_concat_iff_of_ne events event .closed stays
  have balanced : .closed ∉ events →
      accepted (events ++ [event]) = returned (events ++ [event]) ++ after.buffered := by
    intro still_open
    calc accepted (events ++ [event])
        = accepted events ++ event.accepted?.toList := accepted_concat ..
      _ = returned events ++ (stream.buffered ++ event.accepted?.toList) := by
          rw [accounts.balanced still_open, List.append_assoc]
      _ = returned events ++ event.returned?.toList ++ after.buffered := by
          rw [moved, List.append_assoc]
      _ = returned (events ++ [event]) ++ after.buffered := by rw [returned_concat]
  constructor
  case capacity_eq => rw [kept.1, accounts.capacity_eq]
  case terminal_eq => rw [terminal_eq, accounts.terminal_eq, firstSignal?_concat]
  case closed_iff => rw [kept.2, accounts.closed_iff, closed_mem]
  case balanced =>
    rw [closed_mem]
    exact balanced
  case dropped =>
    rw [closed_mem]
    intro closed
    obtain ⟨accepts, returns⟩ := idle (accounts.closed_iff.2 closed)
    rw [accounts.dropped closed, accepts, returns] at moved
    exact moved.symm
  case returned_prefix =>
    by_cases closed : .closed ∈ events
    · obtain ⟨accepts, returns⟩ := idle (accounts.closed_iff.2 closed)
      rw [accepted_concat, returned_concat, accepts, returns, Option.toList_none, List.append_nil,
        List.append_nil]
      exact accounts.returned_prefix
    · rw [balanced closed]
      exact List.prefix_append ..
  case bounded => exact bounded

/-- A step that moves no record changes no more than the end that is signalled. -/
theorem quiet (accounts : Accounts capacity events stream) {event : Event} (stays : event ≠ .closed)
    (idle : event.accepted? = none ∧ event.returned? = none) :
    Accounts capacity (events ++ [event])
      { stream with terminal := stream.terminal.or event.signal? } := by
  refine accounts.extend stays ⟨rfl, rfl⟩ rfl ?_ (fun _ => idle) accounts.bounded
  rw [idle.1, idle.2]
  exact List.append_nil _

theorem accept (accounts : Accounts capacity events stream) {record : Record}
    (pushed : stream.push? record = some (true, after)) :
    Accounts capacity (events ++ [.pushed record (some true)]) after := by
  obtain ⟨not_closed, _, room, rfl⟩ := RecordStream.of_push?_accepted pushed
  apply accounts.extend
  case stays => exact fun same => nomatch same
  case kept => exact ⟨rfl, rfl⟩
  case terminal_eq => exact Option.or_none.symm
  case moved => rfl
  case idle =>
    intro closed
    rw [not_closed] at closed
    cases closed
  case bounded =>
    intro limit bound
    rw [accounts.capacity_eq, bound, Capacity.hasRoom, decide_eq_true_eq] at room
    rw [List.length_append, List.length_singleton]
    exact room

theorem take (accounts : Accounts capacity events stream) {record : Record} {rest : List Record}
    (buffered : stream.buffered = record :: rest) :
    Accounts capacity (events ++ [.taken (.record record)]) { stream with buffered := rest } := by
  apply accounts.extend
  case stays => exact fun same => nomatch same
  case kept => exact ⟨rfl, rfl⟩
  case terminal_eq => exact Option.or_none.symm
  case moved =>
    rw [buffered]
    exact List.append_nil _
  case idle =>
    intro closed
    rw [accounts.dropped (accounts.closed_iff.1 closed)] at buffered
    cases buffered
  case bounded =>
    intro limit bound
    have before := accounts.bounded limit bound
    rw [buffered, List.length_cons] at before
    exact Nat.le_of_succ_le before

theorem close (accounts : Accounts capacity events stream) :
    Accounts capacity (events ++ [.closed]) stream.close := by
  have closed_mem : .closed ∈ events ++ [Event.closed] := List.mem_concat_self
  have emptied : stream.close.buffered = [] :=
    RecordStream.buffered_close fun closed => accounts.dropped (accounts.closed_iff.1 closed)
  have accepted_eq : accepted (events ++ [.closed]) = accepted events := by
    rw [accepted_concat]
    exact List.append_nil _
  have returned_eq : returned (events ++ [.closed]) = returned events := by
    rw [returned_concat]
    exact List.append_nil _
  constructor
  case capacity_eq => rw [RecordStream.capacity_close, accounts.capacity_eq]
  case terminal_eq =>
    rw [RecordStream.terminal_close, firstSignal?_concat, ← accounts.terminal_eq]
    exact (Option.or_none).symm
  case closed_iff => exact iff_of_true stream.closed_close closed_mem
  case balanced => exact fun still_open => absurd closed_mem still_open
  case dropped => exact fun _ => emptied
  case returned_prefix =>
    rw [accepted_eq, returned_eq]
    exact accounts.returned_prefix
  case bounded =>
    intro limit _
    rw [emptied]
    exact Nat.zero_le _

/-- Each step keeps the accounts. -/
theorem step (accounts : Accounts capacity events stream) {event : Event}
    (acts : event.Acts stream after) : Accounts capacity (events ++ [event]) after := by
  have unsignalled : { stream with terminal := stream.terminal.or none } = stream := by
    rw [Option.or_none]
  cases event with
  | pushed record result =>
    obtain _ | accepted := result
    · obtain ⟨_, rfl⟩ := acts
      rw [← unsignalled]
      exact accounts.quiet (fun same => nomatch same) ⟨rfl, rfl⟩
    · cases accepted with
      | true => exact accounts.accept acts
      | false =>
        obtain ⟨_, rfl⟩ := RecordStream.of_push?_refused acts
        rw [← unsignalled]
        exact accounts.quiet (fun same => nomatch same) ⟨rfl, rfl⟩
  | signalled terminal =>
    obtain rfl : after = stream.terminate terminal := acts
    exact accounts.quiet (fun same => nomatch same) ⟨rfl, rfl⟩
  | taken item =>
    obtain ⟨record, rest, buffered, rfl, rfl⟩ | ⟨_, rfl, ended⟩ := RecordStream.next?_cases acts
    · exact accounts.take buffered
    · have no_record : (Event.taken item).returned? = none := by
        obtain ⟨terminal, _, rfl⟩ | ⟨_, _, rfl⟩ := ended
        · cases terminal <;> rfl
        · rfl
      rw [← unsignalled]
      exact accounts.quiet (fun same => nomatch same) ⟨rfl, no_record⟩
  | closed =>
    obtain rfl : after = stream.close := acts
    exact accounts.close

end Accounts

namespace Run

variable {capacity : Capacity} {channel : Channel} {events before after : List Event} {record : Record}

/-- Every run of a new channel keeps the accounts. -/
theorem accounts (run : Run (.new capacity) events channel) :
    Accounts capacity events channel.stream := by
  induction run with
  | start => exact .new capacity
  | step run step ih => exact ih.step step.acts

/-- The accounts at the moment of an event. -/
theorem accounts_at {event : Event} (run : Run (.new capacity) (before ++ event :: after) channel) :
    ∃ stream next, Accounts capacity before stream ∧ event.Acts stream next := by
  obtain ⟨middle, next, first, step, _⟩ := run.split
  exact ⟨middle.stream, next.stream, first.accounts, step.acts⟩

theorem open_at_accepted
    (run : Run (.new capacity) (before ++ .pushed record (some true) :: after) channel) :
    firstSignal? before = none ∧ .closed ∉ before := by
  obtain ⟨stream, _, accounts, acts⟩ := run.accounts_at
  obtain ⟨not_closed, unended, _⟩ := RecordStream.of_push?_accepted acts
  rw [← accounts.terminal_eq, ← accounts.closed_iff, not_closed]
  exact ⟨unended, Bool.false_ne_true⟩

theorem open_at_returned
    (run : Run (.new capacity) (before ++ .taken (.record record) :: after) channel) :
    .closed ∉ before := by
  obtain ⟨stream, _, accounts, acts⟩ := run.accounts_at
  intro closed
  exact RecordStream.not_record_of_empty (accounts.dropped closed) acts record rfl

theorem all_returned_at_end {item : Item}
    (run : Run (.new capacity) (before ++ .taken item :: after) channel)
    (at_end : ∀ record, item ≠ .record record) (still_open : .closed ∉ before) :
    returned before = accepted before ∧
      ∃ terminal, firstSignal? before = some terminal ∧ item = terminal.item := by
  obtain ⟨stream, _, accounts, acts⟩ := run.accounts_at
  obtain ⟨record, _, _, same, _⟩ | ⟨empty, _, ended⟩ := RecordStream.next?_cases acts
  · exact absurd same (at_end record)
  · have balanced := accounts.balanced still_open
    rw [empty, List.append_nil] at balanced
    refine ⟨balanced.symm, ?_⟩
    obtain ⟨terminal, signalled, same⟩ | ⟨_, closed, _⟩ := ended
    · rw [accounts.terminal_eq] at signalled
      exact ⟨terminal, signalled, same⟩
    · exact absurd (accounts.closed_iff.1 closed) still_open

/-- Exact delivery, whatever the order of the steps: an open stream has returned what it accepted, in
this order, but for what is buffered, and never buffers too much; nothing is accepted once it has ended
or is closed, nothing is returned once it is closed; and unless it is closed, the consumer learns of the
end after the last record, and of the first end that was signalled. -/
theorem delivers_in_order (run : Run (.new capacity) events channel) :
    (.closed ∉ events → accepted events = returned events ++ channel.stream.buffered) ∧
    returned events <+: accepted events ∧
    (∀ limit, capacity = .bounded limit → channel.stream.buffered.length ≤ max limit 1) ∧
    (∀ before record after, events = before ++ .pushed record (some true) :: after →
      firstSignal? before = none ∧ .closed ∉ before) ∧
    (∀ before record after, events = before ++ .taken (.record record) :: after → .closed ∉ before) ∧
    ∀ before item after, events = before ++ .taken item :: after → (∀ record, item ≠ .record record) →
      .closed ∉ before → returned before = accepted before ∧
        ∃ terminal, firstSignal? before = some terminal ∧ item = terminal.item := by
  have accounts := run.accounts
  refine ⟨accounts.balanced, accounts.returned_prefix, accounts.bounded, ?accepted, ?returned, ?ended⟩
  case accepted =>
    rintro before record after rfl
    exact run.open_at_accepted
  case returned =>
    rintro before record after rfl
    exact run.open_at_returned
  case ended =>
    rintro before item after rfl at_end still_open
    exact run.all_returned_at_end at_end still_open

/-- A push is parked at a full stream and accepted once there is room; then two ends are signalled. -/
theorem parked_push_delivers_in_order :
    let first : Record := { key := none, bins := [("n", .int 1)], generation := 1 }
    let second : Record := { key := none, bins := [("n", .int 2)], generation := 1 }
    let before : List Event :=
      [.pushed first (some true), .pushed second none, .taken (.record first),
        .pushed second (some true), .signalled (.failed .abandoned), .signalled .completed,
        .taken (.record second)]
    ∃ channel, Run (.new (.bounded 1)) (before ++ [.taken (.failed .abandoned)]) channel ∧
      returned before = accepted before ∧
      ∃ terminal, firstSignal? before = some terminal ∧ .failed .abandoned = terminal.item := by
  intro first second before
  have woken : [ParkedPush.mk second true][0]? = some ⟨second, true⟩ := rfl
  have run : Run (.new (.bounded 1)) (before ++ [.taken (.failed .abandoned)]) _ :=
    Run.start.step (.push rfl) |>.step (.push rfl) |>.step (.next rfl) |>.step (.resume woken rfl)
      |>.step (.terminate _ _) |>.step (.terminate _ _) |>.step (.next rfl) |>.step (.next rfl)
  obtain ⟨_, _, _, _, _, ended⟩ := run.delivers_in_order
  have still_open : .closed ∉ before := by simp [before]
  exact ⟨_, run, ended before _ [] rfl (fun record same => nomatch same) still_open⟩

end Run

end RecordQuery
