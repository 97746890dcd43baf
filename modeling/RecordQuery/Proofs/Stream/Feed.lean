import RecordQuery.Proofs.Stream.Steps
import RecordQuery.Stream.Delivery

/-!
What a feed gives to a consumer that does not close it: the records that are buffered, in hand and
waiting, in this order and each once, and then the end of the delivery. No step of the delivery changes
what is ahead, and a delivery that can go no further has left something to read, so a consumer of a
feed never waits. How much room the stream has plays no part in it.
-/

namespace RecordQuery

/-- How a stream ends for a consumer that stays. A stream that is let go of has failed. -/
def Ending.terminal : Ending → Terminal
  | .success => .completed
  | .failure error => .failed error
  | .released => .failed .abandoned

theorem Ending.signal_eq {stream : RecordStream} (not_closed : stream.closed = false)
    (ending : Ending) : ending.signal stream = stream.terminate ending.terminal := by
  cases ending with
  | success => rfl
  | failure error => rfl
  | released =>
    rw [signal, RecordStream.abandon, not_closed]
    rfl

/-- How a delivery ends touches neither the records that are buffered nor whether the stream is closed. -/
theorem Ending.signal_kept (ending : Ending) (stream : RecordStream) :
    (ending.signal stream).closed = stream.closed ∧ (ending.signal stream).buffered = stream.buffered := by
  cases ending with
  | success => exact ⟨rfl, rfl⟩
  | failure error => exact ⟨rfl, rfl⟩
  | released =>
    rw [signal, RecordStream.abandon]
    split <;> exact ⟨rfl, rfl⟩

theorem Ending.capacity_signal (ending : Ending) (stream : RecordStream) :
    (ending.signal stream).capacity = stream.capacity := by
  cases ending with
  | success => rfl
  | failure error => rfl
  | released =>
    rw [signal, RecordStream.abandon]
    split <;> rfl

namespace Delivery

variable {delivery next : Delivery} {stream after : RecordStream}

/-- A step hands out a record, brings the record in hand into the stream, gives up because it is
refused, or signals the end. -/
theorem step?_cases (stepped : delivery.step? stream = some (next, after)) :
    ∃ ending, delivery.ending = some ending ∧
      ((∃ record rest, delivery.inHand = none ∧ delivery.waiting = record :: rest ∧ after = stream ∧
          next = { delivery with
            waiting := rest, inHand := some record, handedOut := delivery.handedOut + 1 }) ∨
        (∃ record, delivery.inHand = some record ∧ stream.push? record = some (true, after) ∧
          next = { delivery with inHand := none }) ∨
        (∃ record, delivery.inHand = some record ∧ stream.push? record = some (false, stream) ∧
          next = delivery.stop ∧ after = stream.abandon) ∨
        (delivery.inHand = none ∧ delivery.waiting = [] ∧ next = delivery.stop ∧
          after = ending.signal stream)) := by
  unfold step? at stepped
  split at stepped
  · cases stepped
  · next ending record going held =>
    refine ⟨ending, going, ?_⟩
    rw [Option.map_eq_some_iff] at stepped
    obtain ⟨⟨accepted, pushed⟩, push, stepped⟩ := stepped
    cases accepted with
    | true =>
      cases stepped
      exact Or.inr (Or.inl ⟨record, held, push, rfl⟩)
    | false =>
      obtain ⟨_, rfl⟩ := RecordStream.of_push?_refused push
      cases stepped
      exact Or.inr (Or.inr (Or.inl ⟨record, held, push, rfl, rfl⟩))
  · next ending record rest going held waiting =>
    cases stepped
    exact ⟨ending, going, Or.inl ⟨record, rest, held, waiting, rfl, rfl⟩⟩
  · next ending going held waiting =>
    cases stepped
    exact ⟨ending, going, Or.inr (Or.inr (Or.inr ⟨held, waiting, rfl, rfl⟩))⟩

/-- A step neither opens nor closes the stream, and puts nothing into a closed one. -/
theorem step?_kept (stepped : delivery.step? stream = some (next, after)) :
    after.closed = stream.closed ∧ (stream.closed = true → after.buffered = stream.buffered) := by
  obtain ⟨ending, _, action⟩ := step?_cases stepped
  obtain ⟨_, _, _, _, rfl, _⟩ | ⟨_, _, pushed, _⟩ | ⟨_, _, _, _, rfl⟩ | ⟨_, _, _, rfl⟩ := action
  · exact ⟨rfl, fun _ => rfl⟩
  · obtain ⟨not_closed, _, _, rfl⟩ := RecordStream.of_push?_accepted pushed
    refine ⟨rfl, ?_⟩
    rw [not_closed]
    exact nofun
  · obtain ⟨closed, buffered⟩ := Ending.released.signal_kept stream
    exact ⟨closed, fun _ => buffered⟩
  · obtain ⟨closed, buffered⟩ := ending.signal_kept stream
    exact ⟨closed, fun _ => buffered⟩

theorem capacity_step? (stepped : delivery.step? stream = some (next, after)) :
    after.capacity = stream.capacity := by
  obtain ⟨ending, _, action⟩ := step?_cases stepped
  obtain ⟨_, _, _, _, rfl, _⟩ | ⟨_, _, pushed, _⟩ | ⟨_, _, _, _, rfl⟩ | ⟨_, _, _, rfl⟩ := action
  · rfl
  · obtain ⟨_, _, _, rfl⟩ := RecordStream.of_push?_accepted pushed
    rfl
  · exact Ending.released.capacity_signal stream
  · exact ending.capacity_signal stream

/-- A delivery that can go no further is over, or waits for room with a record in hand. -/
theorem step?_eq_none (blocked : delivery.step? stream = none) :
    delivery.ending = none ∨ ∃ record, delivery.inHand = some record ∧ stream.push? record = none := by
  unfold step? at blocked
  split at blocked
  · next ended => exact Or.inl ended
  · next record _ held =>
    rw [Option.map_eq_none_iff] at blocked
    exact Or.inr ⟨record, held, blocked⟩
  · cases blocked
  · cases blocked

/-- What every step keeps, a run keeps. -/
theorem run_induct {motive : Delivery → RecordStream → Prop}
    (step : ∀ {delivery next stream after}, delivery.step? stream = some (next, after) →
      motive delivery stream → motive next after)
    (start : motive delivery stream) :
    motive (delivery.run stream).1 (delivery.run stream).2 := by
  unfold run
  generalize delivery.stepsLeft = steps
  induction steps generalizing delivery stream with
  | zero => exact start
  | succ steps ih =>
    unfold runFor
    split
    · exact start
    · next stepped => exact ih (step stepped start)

end Delivery

namespace Feed

/-- What the consumer has still to be given, in order. -/
def ahead (feed : Feed) : List Record :=
  feed.stream.buffered ++ feed.delivery.inHand.toList ++ feed.delivery.waiting

/-- Will give `records` to the consumer, and then the end. -/
structure Carries (feed : Feed) (records : List Record) (terminal : Terminal) : Prop where
  not_closed : feed.stream.closed = false
  ahead_eq : feed.ahead = records
  /-- The end is still to be signalled, or it is, and then the delivery has nothing left. -/
  ends : (∃ ending, feed.delivery.ending = some ending ∧ feed.stream.terminal = none ∧
      ending.terminal = terminal) ∨
    (feed.delivery.ending = none ∧ feed.stream.terminal = some terminal ∧
      feed.delivery.inHand = none ∧ feed.delivery.waiting = [])

variable {feed : Feed} {records : List Record} {terminal : Terminal}

theorem Carries.step {delivery next : Delivery} {stream after : RecordStream}
    (carries : Carries ⟨stream, delivery⟩ records terminal)
    (stepped : delivery.step? stream = some (next, after)) :
    Carries ⟨after, next⟩ records terminal := by
  obtain ⟨not_closed, rfl, ends⟩ := carries
  obtain ⟨ending, going, action⟩ := Delivery.step?_cases stepped
  obtain ⟨_, same, unended, rfl⟩ | ⟨ended, _⟩ := ends
  · obtain rfl := Option.some.inj (going.symm.trans same)
    obtain ⟨record, rest, held, waiting, rfl, rfl⟩ | ⟨record, held, pushed, rfl⟩ |
      ⟨record, _, pushed, _⟩ | ⟨held, waiting, rfl, rfl⟩ := action
    · refine ⟨not_closed, ?_, Or.inl ⟨ending, going, unended, rfl⟩⟩
      simp [ahead, held, waiting]
    · obtain ⟨_, _, _, rfl⟩ := RecordStream.of_push?_accepted pushed
      refine ⟨not_closed, ?_, Or.inl ⟨ending, going, unended, rfl⟩⟩
      simp [ahead, held]
    · obtain ⟨closed | ended, _⟩ := RecordStream.of_push?_refused pushed
      · rw [not_closed] at closed
        cases closed
      · rw [unended] at ended
        cases ended
    · rw [Ending.signal_eq not_closed]
      refine ⟨not_closed, ?_, Or.inr ⟨rfl, ?_, rfl, rfl⟩⟩
      · simp [ahead, held, waiting, Delivery.stop, RecordStream.terminate]
      · rw [RecordStream.terminate, unended]
        rfl
  · rw [going] at ended
    cases ended

/-- Can go no further until the consumer takes something. -/
def Settled (feed : Feed) : Prop := feed.delivery.step? feed.stream = none

theorem settled_resume (feed : Feed) (stream : RecordStream) : (feed.resume stream).Settled :=
  feed.delivery.step?_run stream

theorem settled_start (capacity : Capacity) (delivery : Delivery) :
    (start capacity delivery).Settled :=
  delivery.step?_run _

theorem Carries.run {delivery : Delivery} {stream : RecordStream}
    (carries : Carries ⟨stream, delivery⟩ records terminal) :
    Carries ⟨(delivery.run stream).2, (delivery.run stream).1⟩ records terminal :=
  Delivery.run_induct (motive := fun delivery stream => Carries ⟨stream, delivery⟩ records terminal)
    (fun stepped carries => carries.step stepped) carries

/-- A feed that has settled and carries records has one to give. -/
theorem Carries.buffered {record : Record} {rest : List Record}
    (carries : feed.Carries (record :: rest) terminal) (settled : feed.Settled) :
    ∃ later, feed.stream.buffered = record :: later := by
  obtain ⟨_, ahead_eq, ends⟩ := carries
  rw [ahead] at ahead_eq
  obtain ended | ⟨held, _, waits⟩ := Delivery.step?_eq_none settled
  · obtain ⟨ending, going, _⟩ | ⟨_, _, nothing_held, nothing_waiting⟩ := ends
    · rw [ended] at going
      cases going
    · rw [nothing_held, nothing_waiting, Option.toList_none, List.append_nil, List.append_nil]
        at ahead_eq
      exact ⟨rest, ahead_eq⟩
  · obtain ⟨_, _, full⟩ := RecordStream.of_push?_eq_none waits
    have pos := Capacity.pos_of_not_hasRoom full
    obtain ⟨first, later, buffered⟩ := List.exists_cons_of_length_pos pos
    rw [buffered, List.cons_append, List.cons_append, List.cons.injEq] at ahead_eq
    exact ⟨later, by rw [buffered, ahead_eq.1]⟩

/-- A settled feed gives the first record that it carries, and carries the others on. -/
theorem Carries.next?_record {record : Record} {rest : List Record}
    (carries : feed.Carries (record :: rest) terminal) (settled : feed.Settled) :
    ∃ stream, feed.stream.next? = some (.record record, stream) ∧
      (feed.resume stream).Carries rest terminal := by
  obtain ⟨later, buffered⟩ := carries.buffered settled
  refine ⟨_, RecordStream.next?_of_buffered buffered, Carries.run ?_⟩
  obtain ⟨not_closed, ahead_eq, ends⟩ := carries
  refine ⟨not_closed, ?_, ends⟩
  rw [ahead, buffered, List.cons_append, List.cons_append] at ahead_eq
  exact (List.cons.inj ahead_eq).2

/-- A settled feed that carries no more records gives the end, and stays as it is. -/
theorem Carries.next?_end (carries : feed.Carries [] terminal) (settled : feed.Settled) :
    feed.stream.next? = some (terminal.item, feed.stream) ∧
      (feed.resume feed.stream).Carries [] terminal := by
  refine ⟨?_, Carries.run carries⟩
  obtain ⟨_, ahead_eq, ends⟩ := carries
  rw [ahead, List.append_eq_nil_iff, List.append_eq_nil_iff, Option.toList_eq_nil_iff] at ahead_eq
  obtain ⟨⟨empty, nothing_held⟩, _⟩ := ahead_eq
  obtain ⟨ending, going, _⟩ | ⟨_, signalled, _⟩ := ends
  · obtain ended | ⟨_, held, _⟩ := Delivery.step?_eq_none settled
    · rw [ended] at going
      cases going
    · rw [nothing_held] at held
      cases held
  · exact RecordStream.next?_of_terminal empty signalled

/-- A feed that has settled does not let the consumer wait. -/
theorem Carries.next?_ne_none (carries : feed.Carries records terminal) (settled : feed.Settled) :
    feed.stream.next? ≠ none := by
  intro waits
  cases records with
  | nil =>
    rw [(carries.next?_end settled).1] at waits
    cases waits
  | cons record rest =>
    obtain ⟨stream, taken, _⟩ := carries.next?_record settled
    rw [taken] at waits
    cases waits

/-- A record that the consumer is given is the first of those that the feed carries. -/
theorem Carries.of_record {record : Record} {stream : RecordStream}
    (carries : feed.Carries records terminal) (taken : feed.stream.next? = some (.record record, stream)) :
    ∃ rest, records = record :: rest ∧ Carries ⟨stream, feed.delivery⟩ rest terminal := by
  obtain ⟨_, later, buffered, same, rfl⟩ | ⟨empty, _⟩ := RecordStream.next?_cases taken
  · cases same
    obtain ⟨not_closed, rfl, ends⟩ := carries
    refine ⟨later ++ feed.delivery.inHand.toList ++ feed.delivery.waiting, ?_, not_closed, rfl, ends⟩
    rw [ahead, buffered, List.cons_append, List.cons_append]
  · exact absurd rfl (RecordStream.not_record_of_empty empty taken record)

/-- An end that the consumer is given is that of the feed, which carries no more records. -/
theorem Carries.of_end {given : Terminal} {stream : RecordStream}
    (carries : feed.Carries records terminal) (taken : feed.stream.next? = some (given.item, stream)) :
    records = [] ∧ given = terminal := by
  obtain ⟨not_closed, rfl, ends⟩ := carries
  obtain ⟨_, _, _, same, _⟩ | ⟨empty, _, ended⟩ := RecordStream.next?_cases taken
  · cases given <;> cases same
  obtain ⟨signalled, is_signalled, same⟩ | ⟨_, closed, _⟩ := ended
  · obtain ⟨_, _, unended, _⟩ | ⟨_, recorded, none_held, none_waiting⟩ := ends
    · rw [unended] at is_signalled
      cases is_signalled
    · refine ⟨by rw [ahead, empty, none_held, none_waiting]; rfl, ?_⟩
      rw [recorded] at is_signalled
      rw [Option.some.inj is_signalled]
      exact Terminal.item_injective same
  · rw [not_closed] at closed
    cases closed

/-- A delivery that has not begun carries what it is to hand out. -/
theorem carries_unbegun (capacity : Capacity) (records : List Record) (ending : Ending) :
    Carries ⟨{ capacity }, { waiting := records, ending := some ending }⟩ records ending.terminal :=
  ⟨rfl, rfl, Or.inl ⟨ending, rfl, rfl, rfl⟩⟩

/-- A new feed carries what its delivery was started with. -/
theorem carries_start (capacity : Capacity) (records : List Record) (ending : Ending) :
    (start capacity { waiting := records, ending := some ending }).Carries records ending.terminal :=
  (carries_unbegun capacity records ending).run

theorem capacity_start (capacity : Capacity) (delivery : Delivery) :
    (start capacity delivery).stream.capacity = capacity :=
  Delivery.run_induct (motive := fun _ stream => stream.capacity = capacity)
    (fun stepped same => (Delivery.capacity_step? stepped).trans same) rfl

/-- Without a bound on its stream a delivery does not wait for the consumer. -/
theorem buffered_start_unbounded (records : List Record) (ending : Ending) :
    (start .unbounded { waiting := records, ending := some ending }).stream.buffered = records := by
  have carries := carries_start .unbounded records ending
  have settled := settled_start .unbounded { waiting := records, ending := some ending }
  have capacity := capacity_start .unbounded { waiting := records, ending := some ending }
  generalize start .unbounded { waiting := records, ending := some ending } = feed at *
  obtain ended | ⟨record, _, waits⟩ := Delivery.step?_eq_none settled
  · obtain ⟨_, going, _⟩ | ⟨_, _, none_held, none_waiting⟩ := carries.ends
    · rw [ended] at going
      cases going
    · have ahead := carries.ahead_eq
      simpa [Feed.ahead, none_held, none_waiting] using ahead
  · obtain ⟨_, _, full⟩ := RecordStream.of_push?_eq_none waits
    rw [capacity] at full
    cases full

theorem length_ahead_le (feed : Feed) :
    feed.ahead.length ≤ feed.stream.buffered.length + feed.delivery.waiting.length + 1 := by
  rw [ahead, List.length_append, List.length_append]
  have held : feed.delivery.inHand.toList.length ≤ 1 := by
    cases feed.delivery.inHand with
    | none => exact Nat.zero_le 1
    | some record => exact Nat.le_refl 1
  omega

end Feed

end RecordQuery
