import RecordQuery.Proofs.Stream.Ending

/-!
The pushes that sleep at a channel. Only a record that is taken and the closing of the stream wake any;
the end that is signalled wakes none, and a woken push that gives up passes nothing on. So once the end
was given to the consumer, a push sleeps on if more slept when the end was signalled than there were
records left to take. That needs more parked pushes than the stream has room for: while the stream is
open, what is buffered and the pushes that are on their way to it fill it as long as one sleeps.
-/

namespace RecordQuery

theorem Capacity.not_hasRoom_of_le {capacity : Capacity} {length more : Nat}
    (full : capacity.hasRoom length = false) (le : length ≤ more) :
    capacity.hasRoom more = false := by
  cases capacity with
  | bounded limit =>
    rw [hasRoom, decide_eq_false_iff_not] at full ⊢
    omega
  | unbounded => cases full

/-- A push found no room. -/
def Event.isParked : Event → Bool
  | .pushed _ none => true
  | _ => false

namespace Channel

/-- How many parked pushes were not woken. -/
def asleep (parked : List ParkedPush) : Nat := parked.countP fun push => !push.woken

/-- How many parked pushes were woken and have not tried again. -/
def awake (parked : List ParkedPush) : Nat := parked.countP ParkedPush.woken

theorem asleep_cons (push : ParkedPush) (rest : List ParkedPush) :
    asleep (push :: rest) = asleep rest + if push.woken then 0 else 1 := by
  rw [asleep, List.countP_cons, asleep]
  cases push.woken <;> rfl

theorem asleep_eq_zero_iff {parked : List ParkedPush} :
    asleep parked = 0 ↔ ∀ push ∈ parked, push.woken = true := by
  rw [asleep, List.countP_eq_zero]
  simp only [Bool.not_eq_true', Bool.not_eq_false]

theorem awake_add_asleep (parked : List ParkedPush) :
    awake parked + asleep parked = parked.length := by
  have split := List.length_eq_countP_add_countP ParkedPush.woken (l := parked)
  rw [split, awake, asleep]
  congr 2
  funext push
  cases push.woken <;> rfl

theorem asleep_wakeAll (parked : List ParkedPush) : asleep (wakeAll parked) = 0 := by
  rw [asleep_eq_zero_iff, wakeAll]
  intro push mem
  obtain ⟨_, _, rfl⟩ := List.mem_map.1 mem
  rfl

theorem asleep_wakeOne (parked : List ParkedPush) : asleep (wakeOne parked) = asleep parked - 1 := by
  induction parked with
  | nil => rfl
  | cons push rest ih =>
    obtain ⟨record, woken⟩ := push
    rw [wakeOne]
    cases woken with
    | true => rw [if_pos rfl, asleep_cons, asleep_cons, ih]; rfl
    | false => rw [if_neg Bool.false_ne_true, asleep_cons, asleep_cons]; rfl

theorem length_wakeOne (parked : List ParkedPush) : (wakeOne parked).length = parked.length := by
  induction parked with
  | nil => rfl
  | cons push rest ih =>
    rw [wakeOne]
    split
    · rw [List.length_cons, List.length_cons, ih]
    · rfl

/-- A woken push that is no longer parked leaves those that sleep. -/
theorem asleep_eraseIdx {parked : List ParkedPush} {position : Nat} {record : Record}
    (woken : parked[position]? = some ⟨record, true⟩) :
    asleep (parked.eraseIdx position) = asleep parked := by
  induction parked generalizing position with
  | nil => rfl
  | cons push rest ih =>
    cases position with
    | zero =>
      obtain rfl := Option.some.inj woken
      rw [List.eraseIdx_cons_zero, asleep_cons]
      rfl
    | succ position => rw [List.eraseIdx_cons_succ, asleep_cons, asleep_cons, ih woken]

/-- The pushes that stay parked while another is tried, which was not parked or was woken. -/
def Left (parked others : List ParkedPush) : Prop :=
  others = parked ∨ ∃ (position : Nat) (record : Record),
    parked[position]? = some ⟨record, true⟩ ∧ others = parked.eraseIdx position

theorem Left.asleep_eq {parked others : List ParkedPush} (left : Left parked others) :
    asleep others = asleep parked := by
  obtain rfl | ⟨position, record, woken, rfl⟩ := left
  · rfl
  · exact asleep_eraseIdx woken

theorem Left.length_le {parked others : List ParkedPush} (left : Left parked others) :
    others.length ≤ parked.length := by
  obtain rfl | ⟨position, record, woken, rfl⟩ := left
  · exact Nat.le_refl _
  · exact List.length_eraseIdx_le ..

theorem Left.awake_le {parked others : List ParkedPush} (left : Left parked others) :
    awake parked ≤ awake others + 1 := by
  have same := left.asleep_eq
  have before := awake_add_asleep parked
  have after := awake_add_asleep others
  obtain rfl | ⟨position, record, woken, rfl⟩ := left
  · omega
  · obtain ⟨within, _⟩ := List.getElem?_eq_some_iff.1 woken
    rw [List.length_eraseIdx_of_lt within] at after
    omega

end Channel

open Channel

/-- The ways in which a step changes a channel, each with what is known of the stream before it. -/
inductive Change (channel : Channel) : Event → Channel → Prop
  | parked {record : Record} {others : List ParkedPush} (not_closed : channel.stream.closed = false)
    (unended : channel.stream.terminal = none)
    (full : channel.stream.capacity.hasRoom channel.stream.buffered.length = false)
    (left : Left channel.parked others) :
    Change channel (.pushed record none) ⟨channel.stream, others ++ [⟨record, false⟩]⟩
  | accepted {record : Record} {others : List ParkedPush} (not_closed : channel.stream.closed = false)
    (unended : channel.stream.terminal = none) (left : Left channel.parked others) :
    Change channel (.pushed record (some true))
      ⟨{ channel.stream with buffered := channel.stream.buffered ++ [record] }, others⟩
  | refused {record : Record} {others : List ParkedPush}
    (dead : channel.stream.closed = true ∨ channel.stream.terminal.isSome = true)
    (left : Left channel.parked others) :
    Change channel (.pushed record (some false)) ⟨channel.stream, others⟩
  | signalled (terminal : Terminal) : Change channel (.signalled terminal) (channel.terminate terminal)
  | taken {record : Record} {rest : List Record} (buffered : channel.stream.buffered = record :: rest) :
    Change channel (.taken (.record record))
      ⟨{ channel.stream with buffered := rest }, wakeOne channel.parked⟩
  | ended {item : Item} : Change channel (.taken item) channel
  | closed : Change channel .closed channel.close

/-- A push changes the channel in the same ways, whether it was parked before or not. -/
theorem Change.of_push {channel : Channel} {record : Record} {others : List ParkedPush}
    (left : Left channel.parked others) {result : Option (Bool × RecordStream)}
    (tried : channel.stream.push? record = result) :
    Change channel (.pushed record (result.map Prod.fst))
      (result.elim ⟨channel.stream, others ++ [⟨record, false⟩]⟩ fun pushed => ⟨pushed.2, others⟩) := by
  obtain _ | ⟨accepted, stream⟩ := result
  · obtain ⟨not_closed, unended, full⟩ := RecordStream.of_push?_eq_none tried
    exact .parked not_closed unended full left
  · cases accepted with
    | true =>
      obtain ⟨not_closed, unended, _, rfl⟩ := RecordStream.of_push?_accepted tried
      exact .accepted not_closed unended left
    | false =>
      obtain ⟨dead, rfl⟩ := RecordStream.of_push?_refused tried
      exact .refused dead left

theorem Step.change {channel after : Channel} {event : Event} (step : Step channel event after) :
    Change channel event after := by
  cases step with
  | push tried =>
    unfold Channel.push at tried
    split at tried
    · next pushed =>
      cases tried
      exact .of_push (Or.inl rfl) pushed
    · next waits =>
      cases tried
      exact .of_push (Or.inl rfl) waits
  | @resume _ position record _ woken tried =>
    have left : Left channel.parked (channel.parked.eraseIdx position) :=
      Or.inr ⟨position, record, woken, rfl⟩
    unfold Channel.resume? at tried
    rw [woken] at tried
    dsimp only at tried
    split at tried
    · next pushed =>
      cases tried
      exact .of_push left pushed
    · next waits =>
      cases tried
      exact .of_push left waits
  | terminate terminal => exact .signalled terminal
  | next given =>
    unfold Channel.next? at given
    split at given
    · next taken =>
      cases given
      obtain ⟨_, rest, buffered, same, rfl⟩ | ⟨empty, _⟩ := RecordStream.next?_cases taken
      · cases same
        exact .taken buffered
      · exact absurd rfl (RecordStream.not_record_of_empty empty taken _)
    · next not_record taken =>
      cases given
      obtain ⟨record, _, _, rfl, _⟩ | ⟨_, rfl, _⟩ := RecordStream.next?_cases taken
      · exact (not_record record rfl).elim
      · exact .ended
    · cases given
  | close => exact .closed

namespace Channel

/-- While a push sleeps at a stream that takes records, what is buffered and the pushes that were woken
leave no room in it. -/
def Supplied (channel : Channel) : Prop :=
  channel.stream.closed = false → channel.stream.terminal = none → asleep channel.parked ≠ 0 →
    channel.stream.capacity.hasRoom (channel.stream.buffered.length + awake channel.parked) = false

/-- If no more pushes are parked than the stream has room for, the records that are buffered suffice to
wake those that sleep. -/
theorem Supplied.asleep_le {channel : Channel} (supplied : channel.Supplied)
    (not_closed : channel.stream.closed = false) (unended : channel.stream.terminal = none)
    (fits : ∀ limit, channel.stream.capacity = .bounded limit → channel.parked.length ≤ max limit 1) :
    asleep channel.parked ≤ channel.stream.buffered.length := by
  by_cases sleeps : asleep channel.parked = 0
  · omega
  have full := supplied not_closed unended sleeps
  cases bound : channel.stream.capacity with
  | bounded limit =>
    have parked_le := fits limit bound
    have parked_eq := awake_add_asleep channel.parked
    rw [bound, Capacity.hasRoom, decide_eq_false_iff_not] at full
    omega
  | unbounded =>
    rw [bound] at full
    cases full

end Channel

namespace Step

variable {channel after : Channel} {event : Event}

theorem length_parked_le (step : Step channel event after) :
    after.parked.length ≤ channel.parked.length + if event.isParked then 1 else 0 := by
  cases step.change with
  | parked _ _ _ left =>
    rw [List.length_append, List.length_singleton]
    exact Nat.add_le_add_right left.length_le 1
  | accepted _ _ left => exact left.length_le
  | refused _ left => exact left.length_le
  | signalled _ => exact Nat.le_refl _
  | taken _ => exact Nat.le_of_eq (length_wakeOne _)
  | ended => exact Nat.le_refl _
  | closed =>
    unfold Channel.close
    split
    · exact Nat.le_refl _
    · exact Nat.le_of_eq (List.length_map _)

theorem supplied (step : Step channel event after) (supplied : channel.Supplied) :
    after.Supplied := by
  intro not_closed unended sleeps
  cases step.change with
  | parked _ _ full left => exact Capacity.not_hasRoom_of_le full (Nat.le_add_right ..)
  | accepted was_open was_unended left =>
    rw [left.asleep_eq] at sleeps
    refine Capacity.not_hasRoom_of_le (supplied was_open was_unended sleeps) ?_
    have awake_le := left.awake_le
    rw [List.length_append, List.length_singleton]
    dsimp only
    omega
  | refused dead left =>
    rw [not_closed, unended] at dead
    exact absurd dead (by decide)
  | signalled terminal =>
    rw [Channel.terminate, RecordStream.terminate, Option.or_eq_none_iff] at unended
    cases unended.2
  | @taken record rest buffered =>
    have before := awake_add_asleep channel.parked
    have now := awake_add_asleep (wakeOne channel.parked)
    rw [asleep_wakeOne, length_wakeOne] at now
    rw [asleep_wakeOne] at sleeps
    refine Capacity.not_hasRoom_of_le (supplied not_closed unended (by omega)) ?_
    rw [buffered, List.length_cons]
    dsimp only
    omega
  | ended => exact supplied not_closed unended sleeps
  | closed =>
    rw [stream_close, RecordStream.closed_close] at not_closed
    cases not_closed

/-- At a closed stream none sleeps. -/
theorem none_asleep_of_closed (step : Step channel event after)
    (none_asleep : channel.stream.closed = true → asleep channel.parked = 0)
    (closed : after.stream.closed = true) : asleep after.parked = 0 := by
  cases step.change with
  | parked not_closed _ _ _ =>
    rw [not_closed] at closed
    cases closed
  | accepted not_closed _ _ =>
    rw [not_closed] at closed
    cases closed
  | refused _ left => rw [left.asleep_eq, none_asleep closed]
  | signalled _ => exact none_asleep closed
  | taken _ => rw [asleep_wakeOne, none_asleep closed]
  | ended => exact none_asleep closed
  | closed =>
    unfold Channel.close
    split
    · next was_closed => exact none_asleep was_closed
    · exact asleep_wakeAll _

/-- Once the end was signalled, a record that is taken wakes one push while one sleeps, and nothing else
but closing the stream wakes any, nor is any parked. -/
theorem asleep_of_ended (step : Step channel event after) (stays : event ≠ .closed)
    (signalled : channel.stream.terminal.isSome = true) :
    after.stream.terminal.isSome = true ∧
      asleep after.parked - after.stream.buffered.length =
        asleep channel.parked - channel.stream.buffered.length := by
  cases step.change with
  | parked _ unended _ _ =>
    rw [unended] at signalled
    cases signalled
  | accepted _ unended _ =>
    rw [unended] at signalled
    cases signalled
  | refused _ left => exact ⟨signalled, by rw [left.asleep_eq]⟩
  | signalled terminal =>
    refine ⟨?_, rfl⟩
    rw [Channel.terminate, RecordStream.terminate, Option.isSome_or, signalled, Bool.true_or]
  | taken buffered =>
    refine ⟨signalled, ?_⟩
    rw [asleep_wakeOne, buffered, List.length_cons]
    dsimp only
    omega
  | ended => exact ⟨signalled, rfl⟩
  | closed => exact absurd rfl stays

end Step

namespace Run

open Event

variable {capacity : Capacity} {start channel : Channel} {events before after : List Event} {item : Item}

theorem supplied (run : Run (.new capacity) events channel) : channel.Supplied := by
  induction run with
  | start => exact fun _ _ sleeps => absurd rfl sleeps
  | step _ step ih => exact step.supplied ih

theorem none_asleep_of_closed (run : Run (.new capacity) events channel) (closed : .closed ∈ events) :
    asleep channel.parked = 0 := by
  have stays_zero : channel.stream.closed = true → asleep channel.parked = 0 := by
    clear closed
    induction run with
    | start => exact fun _ => rfl
    | step _ step ih => exact step.none_asleep_of_closed ih
  exact stays_zero (run.accounts.closed_iff.2 closed)

theorem asleep_of_ended (run : Run start events channel) (still_open : .closed ∉ events)
    (signalled : start.stream.terminal.isSome = true) :
    channel.stream.terminal.isSome = true ∧
      asleep channel.parked - channel.stream.buffered.length =
        asleep start.parked - start.stream.buffered.length := by
  induction run with
  | start => exact ⟨signalled, rfl⟩
  | @step events middle after event _ step ih =>
    rw [List.mem_append, List.mem_singleton, not_or] at still_open
    obtain ⟨still_signalled, same⟩ := ih still_open.1
    obtain ⟨after_signalled, after_same⟩ :=
      step.asleep_of_ended (fun closed => still_open.2 closed.symm) still_signalled
    exact ⟨after_signalled, after_same.trans same⟩

theorem length_parked_le (run : Run (.new capacity) events channel) :
    channel.parked.length ≤ events.countP Event.isParked := by
  induction run with
  | start => exact Nat.zero_le _
  | @step events middle after event _ step ih =>
    have parked_le := step.length_parked_le
    rw [List.countP_append, List.countP_singleton]
    omega

/-- A run is taken apart at the first end that was signalled. -/
theorem at_first_signal {terminal : Terminal} (run : Run (.new capacity) (before ++ after) channel)
    (signalled : firstSignal? before = some terminal) :
    ∃ earlier later reached, before = earlier ++ .signalled terminal :: later ∧
      firstSignal? earlier = none ∧ Run (.new capacity) earlier reached ∧
      Run (reached.terminate terminal) (later ++ after) channel := by
  obtain ⟨earlier, event, later, rfl, signal, none_before⟩ := List.findSome?_eq_some_iff.1 signalled
  rw [List.append_assoc, List.cons_append] at run
  obtain ⟨reached, next, first, step, rest⟩ := run.split
  cases event with
  | signalled _ =>
    cases signal
    cases step with
    | terminate =>
      exact ⟨earlier, later, reached, rfl, List.findSome?_eq_none_iff.2 none_before, first, rest⟩
  | _ => cases signal

/-- When the consumer has been given an end, no push is parked without being woken if the stream was
closed at any time. If it never was, as many sleep on as slept when the end was signalled, less the
records that were left to take, and so none if no more pushes were parked then than the stream has room
for. -/
theorem none_stranded_up_to_capacity
    (run : Run (.new capacity) (before ++ .taken item :: after) channel)
    (at_end : ∀ record, item ≠ .record record) :
    (.closed ∈ before ++ .taken item :: after → ∀ push ∈ channel.parked, push.woken = true) ∧
    (.closed ∉ before ++ .taken item :: after →
      ∃ earlier terminal later reached, before = earlier ++ .signalled terminal :: later ∧
        firstSignal? earlier = none ∧ Run (.new capacity) earlier reached ∧
        Run (reached.terminate terminal) (later ++ .taken item :: after) channel ∧
        asleep channel.parked = asleep reached.parked - reached.stream.buffered.length ∧
        ((∀ limit, capacity = .bounded limit → reached.parked.length ≤ max limit 1) →
          ∀ push ∈ channel.parked, push.woken = true)) := by
  constructor
  · intro closed
    exact asleep_eq_zero_iff.1 (run.none_asleep_of_closed closed)
  intro still_open
  have open_before : .closed ∉ before := fun closed => still_open (List.mem_append_left _ closed)
  obtain ⟨terminal, signalled, _⟩ := (run.all_returned_at_end at_end open_before).2
  have empty : channel.stream.buffered = [] := by
    obtain ⟨_, _, _, step, rest⟩ := run.split
    obtain ⟨spent, unchanged, _⟩ := RecordStream.spent_of_end step.acts at_end
    rw [← unchanged] at spent
    exact (rest.spent spent).1.empty
  obtain ⟨earlier, later, reached, rfl, unsignalled, first, rest⟩ := run.at_first_signal signalled
  have open_since : .closed ∉ later ++ .taken item :: after := by
    intro closed
    apply still_open
    rw [List.append_assoc]
    exact List.mem_append_right _ (List.mem_cons_of_mem _ closed)
  have sleep_on : asleep channel.parked = asleep reached.parked - reached.stream.buffered.length := by
    obtain ⟨_, same⟩ := rest.asleep_of_ended open_since (Option.isSome_or.trans (Bool.or_true _))
    rw [empty] at same
    exact same
  refine ⟨earlier, terminal, later, reached, rfl, unsignalled, first, rest, sleep_on, ?_⟩
  intro fits
  have accounts := first.accounts
  have open_at_signal : reached.stream.closed = false := by
    rw [Bool.eq_false_iff, ne_eq, accounts.closed_iff]
    exact fun closed => open_before (List.mem_append_left _ closed)
  have few := first.supplied.asleep_le open_at_signal (accounts.terminal_eq.trans unsignalled)
    (accounts.capacity_eq ▸ fits)
  rw [← asleep_eq_zero_iff, sleep_on]
  omega

/-- One push is parked at a stream with room for one record, and then the end is signalled: the record
that is taken wakes it. -/
theorem parked_push_not_stranded :
    let first : Record := { key := none, bins := [("n", .int 1)], generation := 1 }
    let second : Record := { key := none, bins := [("n", .int 2)], generation := 1 }
    let before : List Event :=
      [.pushed first (some true), .pushed second none, .signalled .completed, .taken (.record first)]
    ∃ channel, Run (.new (.bounded 1)) (before ++ [.taken .finished]) channel ∧
      channel.parked ≠ [] ∧ ∀ push ∈ channel.parked, push.woken = true := by
  intro first second before
  have run : Run (.new (.bounded 1)) (before ++ [.taken .finished]) _ :=
    Run.start.step (.push rfl) |>.step (.push rfl) |>.step (.terminate _ _) |>.step (.next rfl)
      |>.step (.next rfl)
  have still_open : .closed ∉ before ++ [.taken .finished] := by simp [before]
  obtain ⟨earlier, _, _, reached, before_eq, _, up_to_signal, _, _, none_stranded⟩ :=
    (run.none_stranded_up_to_capacity nofun).2 still_open
  refine ⟨_, run, List.cons_ne_nil _ _, none_stranded ?_⟩
  rintro limit ⟨⟩
  have parked_at_most : earlier.countP Event.isParked ≤ before.countP Event.isParked := by
    rw [before_eq]
    exact (List.sublist_append_left _ _).countP_le
  exact Nat.le_trans up_to_signal.length_parked_le parked_at_most

/-- Two pushes are parked at a stream with room for one record, and then the end is signalled: the
consumer is given the record and the end, and one of them sleeps on. -/
theorem push_stranded_at_end :
    let record : Int64 → Record := fun n => { key := none, bins := [("n", .int n)], generation := 1 }
    ∃ channel, Run (.new (.bounded 1))
      ([.pushed (record 0) (some true), .pushed (record 1) none, .pushed (record 2) none,
        .signalled .completed, .taken (.record (record 0)), .pushed (record 1) (some false)] ++
        [.taken .finished]) channel ∧
      channel.parked = [⟨record 2, false⟩] := by
  intro record
  have woken : [ParkedPush.mk (record 1) true, ⟨record 2, false⟩][0]? = some ⟨record 1, true⟩ := rfl
  have run : Run (.new (.bounded 1))
      ([.pushed (record 0) (some true), .pushed (record 1) none, .pushed (record 2) none,
        .signalled .completed, .taken (.record (record 0)), .pushed (record 1) (some false)] ++
        [.taken .finished]) _ :=
    Run.start.step (.push rfl) |>.step (.push rfl) |>.step (.push rfl) |>.step (.terminate _ _)
      |>.step (.next rfl) |>.step (.resume woken rfl) |>.step (.next rfl)
  exact ⟨_, run, rfl⟩

end Run

end RecordQuery
