import RecordQuery.Proofs.Engine.Delivery
import RecordQuery.Proofs.Engine.Exchange

/-!
A cursor that is closed stops the delivery. On a closed stream no push waits and none is accepted, so
what the delivery still does is settled at that moment: a record that it holds is refused, and it gives
up; if it holds none it hands out one more, if it has one, which is refused in its turn. The close may
come between any two steps, also while the delivery sleeps, which it wakes.
-/

namespace RecordQuery

namespace Delivery

/-- The steps that a delivery still takes if all its pushes are refused. Each but the last hands out a
record. -/
def stepsIfRefused (delivery : Delivery) : Nat :=
  match delivery.ending, delivery.inHand, delivery.waiting with
  | none, _, _ => 0
  | some _, none, _ :: _ => 2
  | some _, _, _ => 1

variable {delivery next : Delivery} {stream after : RecordStream}

theorem stepsIfRefused_le (delivery : Delivery) : delivery.stepsIfRefused ≤ 2 := by
  unfold stepsIfRefused
  split <;> decide

theorem exists_ending (going : delivery.isEnded = false) :
    ∃ ending, delivery.ending = some ending :=
  Option.isSome_iff_exists.1 (Option.isNone_eq_false_iff.1 going)

theorem stepsIfRefused_of_inHand {record : Record} (going : delivery.isEnded = false)
    (held : delivery.inHand = some record) : delivery.stepsIfRefused = 1 := by
  obtain ⟨ending, ends⟩ := exists_ending going
  rw [stepsIfRefused, ends, held]

/-- A delivery into a closed stream comes one step nearer to its end. -/
theorem step?_of_closed (closed : stream.closed = true)
    (stepped : delivery.step? stream = some (next, after)) :
    next.stepsIfRefused + 1 = delivery.stepsIfRefused ∧
      next.handedOut + (next.stepsIfRefused - 1) =
        delivery.handedOut + (delivery.stepsIfRefused - 1) := by
  obtain ⟨ending, going, action⟩ := step?_cases stepped
  obtain ⟨record, rest, held, waiting, _, rfl⟩ | ⟨record, _, pushed, _⟩ | ⟨record, held, _, rfl, _⟩ |
    ⟨held, waiting, rfl, _⟩ := action
  · simp [stepsIfRefused, going, held, waiting]
  · -- A closed stream accepts nothing.
    rw [RecordStream.push?_of_closed closed] at pushed
    cases pushed
  · simp [stepsIfRefused, going, held, stop]
  · simp [stepsIfRefused, going, held, waiting, stop]

/-- No delivery waits at a closed stream. -/
theorem step?_ne_none_of_closed (closed : stream.closed = true) (going : delivery.isEnded = false) :
    delivery.step? stream ≠ none := by
  intro blocked
  obtain ended | ⟨record, _, waits⟩ := step?_eq_none blocked
  · rw [isEnded, ended] at going
    cases going
  · rw [RecordStream.push?_of_closed closed] at waits
    cases waits

/-- A record in hand is refused, and the delivery stops without a signal. -/
theorem step?_refused {record : Record} (closed : stream.closed = true)
    (going : delivery.isEnded = false) (held : delivery.inHand = some record) :
    delivery.step? stream = some (delivery.stop, stream) := by
  obtain ⟨ending, ends⟩ := exists_ending going
  simp only [step?, ends, held, RecordStream.push?_of_closed closed, Option.map_some,
    RecordStream.abandon_of_closed closed]
  rfl

end Delivery

namespace Exchange

def Act.isDelivered : Act → Bool
  | .delivered => true
  | _ => false

/-- The stream is closed, and so many steps are left to the delivery, all but the last for a record. -/
structure Cancelled (exchange : Exchange) (steps handedOut : Nat) : Prop where
  closed : exchange.feed.stream.closed = true
  empty : exchange.feed.stream.buffered = []
  awake : exchange.deliverySleeps = false
  steps_eq : exchange.feed.delivery.stepsIfRefused = steps
  handedOut_eq : exchange.feed.delivery.handedOut + (steps - 1) = handedOut

variable {exchange after : Exchange} {act : Act} {steps handedOut : Nat}

theorem Cancelled.step (cancelled : exchange.Cancelled steps handedOut) (step : Step exchange act after) :
    ∃ left, steps = left + [act].countP Act.isDelivered ∧ after.Cancelled left handedOut := by
  obtain ⟨closed, empty, awake, rfl, rfl⟩ := cancelled
  cases step with
  | deliver _ stepped =>
    obtain ⟨closed_eq, buffered_eq⟩ := Delivery.step?_kept stepped
    obtain ⟨fewer, same⟩ := Delivery.step?_of_closed closed stepped
    exact ⟨_, fewer.symm, closed_eq.trans closed, (buffered_eq closed).trans empty, awake, rfl, same⟩
  | park _ going blocked => exact absurd blocked (Delivery.step?_ne_none_of_closed closed going)
  | answer _ called =>
    have untouched := Cursor.stream_of_next? called
    obtain rfl | ⟨_, record, rest, buffered, _⟩ := untouched
    · refine ⟨_, rfl, closed, empty, ?_, rfl, rfl⟩
      rw [awake, Bool.false_and]
    · rw [empty] at buffered
      cases buffered
  | wait _ _ => exact ⟨_, rfl, closed, empty, awake, rfl, rfl⟩
  | close _ =>
    have untouched : (exchange.cursor.close exchange.feed.stream).2 = exchange.feed.stream := by
      rw [Cursor.close]
      split
      · rfl
      · exact RecordStream.close_of_closed closed
    rw [untouched]
    refine ⟨_, rfl, closed, empty, ?_, rfl, rfl⟩
    rw [awake, Bool.false_and]

theorem Cancelled.run {acts : List Act} (cancelled : exchange.Cancelled steps handedOut)
    (run : Run exchange acts after) :
    ∃ left, steps = left + acts.countP Act.isDelivered ∧ after.Cancelled left handedOut := by
  induction run with
  | start => exact ⟨steps, rfl, cancelled⟩
  | step _ step ih =>
    obtain ⟨left, steps_eq, cancelled⟩ := ih
    obtain ⟨left', left_eq, cancelled⟩ := cancelled.step step
    refine ⟨left', ?_, cancelled⟩
    rw [List.countP_append, steps_eq, left_eq, Nat.add_right_comm, Nat.add_assoc]

/-- A cancelled delivery goes on to its end without waiting. -/
theorem Cancelled.deliver (cancelled : exchange.Cancelled steps handedOut)
    (going : exchange.feed.delivery.isEnded = false) : ∃ next, Step exchange .delivered next := by
  cases stepped : exchange.feed.delivery.step? exchange.feed.stream with
  | none => exact absurd stepped (Delivery.step?_ne_none_of_closed cancelled.closed going)
  | some next => exact ⟨_, .deliver cancelled.awake stepped⟩

/-- A stream that is closed in a run, whenever that was, has cancelled the delivery. -/
theorem Sound.cancelled (sound : exchange.Sound) (closed : exchange.feed.stream.closed = true) :
    exchange.Cancelled exchange.feed.delivery.stepsIfRefused
      (exchange.feed.delivery.handedOut + (exchange.feed.delivery.stepsIfRefused - 1)) where
  closed := closed
  empty := sound.dropped closed
  awake := by
    refine Bool.eq_false_iff.2 fun sleeps => ?_
    obtain ⟨_, record, _, waits⟩ := sound.delivery_waits sleeps
    rw [RecordStream.push?_of_closed closed] at waits
    cases waits
  steps_eq := rfl
  handedOut_eq := rfl

/-- Closing the cursor closes the stream and leaves the delivery as it is. -/
theorem Sound.of_close (sound : exchange.Sound) (step : Step exchange .closed after) :
    after.feed.stream.closed = true ∧ after.feed.delivery = exchange.feed.delivery := by
  have after_sound := sound.step step
  cases step with
  | close awake => exact ⟨after_sound.closed_with_cursor (Cursor.isClosed_close ..), rfl⟩

end Exchange

namespace Engine

open Exchange

variable {engine : Engine} {store : MemoryStore} {query : Query}

/-- After the cursor was closed, at whatever point of a run, the store hands out at most one record
more, none is buffered and every push is refused. A push that was waiting wakes up and is refused, and
then nothing more is handed out. -/
theorem close_stops_delivery {plan : Plan} {records : List Record}
    (planned : Plan.ofQuery store query = .ok plan)
    (selects : engine.selected? store query plan = some records) :
    ∃ after, engine.execute store query =
        (.ok { cursor := { columns := engine.columns query },
               feed := .start engine.config.capacity (store.deliver records).1 }, after) ∧
      ∀ (capacity : Capacity) (acts later : List Act) (before closed last : Exchange),
        Run (.start (engine.columns query) capacity (store.deliver records).1) acts before →
        before.Step .closed closed → Run closed later last →
        (RecordStore.noteHandedOut after last.feed.delivery.handedOut).fetched ≤
          (RecordStore.noteHandedOut after before.feed.delivery.handedOut).fetched + 1 ∧
        last.feed.stream.buffered = [] ∧
        (∀ record, last.feed.stream.push? record = some (false, last.feed.stream)) ∧
        (last.feed.delivery.isEnded = false → ∃ next, last.Step .delivered next) ∧
        later.countP Act.isDelivered ≤ 2 ∧
        (before.deliverySleeps = true → ∃ record,
          before.feed.delivery.inHand = some record ∧ before.feed.stream.push? record = none ∧
          closed.deliverySleeps = false ∧ closed.feed.delivery = before.feed.delivery ∧
          closed.feed.delivery.step? closed.feed.stream =
            some (closed.feed.delivery.stop, closed.feed.stream) ∧
          last.feed.delivery.handedOut = before.feed.delivery.handedOut) := by
  obtain ⟨lastScan, lastQuery, runs⟩ := engine.execute_of_selected? planned selects
  rw [MemoryStore.fst_deliver]
  refine ⟨_, runs, ?_⟩
  intro capacity acts later before closed last run close afterwards
  have sound := run.sound (sound_start ..)
  obtain ⟨is_closed, same_delivery⟩ := sound.of_close close
  have cancelled := (sound.step close).cancelled is_closed
  rw [same_delivery] at cancelled
  obtain ⟨left, steps_eq, ended⟩ := cancelled.run afterwards
  have few := Delivery.stepsIfRefused_le before.feed.delivery
  have handedOut_eq := ended.handedOut_eq
  refine ⟨?_, ended.empty, RecordStream.push?_of_closed ended.closed, ?_, ?_, ?_⟩
  · change store.fetched + _ ≤ store.fetched + _ + 1
    omega
  · exact ended.deliver
  · omega
  · intro sleeps
    obtain ⟨going, record, held, waits⟩ := sound.delivery_waits sleeps
    have one := Delivery.stepsIfRefused_of_inHand going held
    refine ⟨record, held, waits, cancelled.awake, same_delivery, ?_, ?_⟩
    · rw [same_delivery]
      exact Delivery.step?_refused is_closed going held
    · omega

/-- Of three records one is in the stream and one waits for room when the cursor is closed; the third is
never handed out. -/
theorem third_record_not_handed_out :
    let person : Int64 → Key := fun id => ⟨⟨"test", "people"⟩, .int id⟩
    let store := MemoryStore.put {} (person 1) [] true |>.put (person 2) [] true
      |>.put (person 3) [] true
    let query : Query := { table := ⟨"test", "people"⟩ }
    let engine : Engine := ⟨{}, ∅⟩
    ∃ records before closed last, Plan.ofQuery store query = .ok (.scan none) ∧
      engine.selected? store query (.scan none) = some records ∧ records.length = 3 ∧
      Run (.start (engine.columns query) (.bounded 1) (store.deliver records).1)
        [.delivered, .delivered, .delivered, .deliverySlept] before ∧
      before.Step .closed closed ∧ Run closed [.delivered] last ∧
      before.feed.stream.buffered.length = 1 ∧ last.feed.stream.buffered = [] ∧
      last.feed.delivery.isEnded = true ∧ last.feed.delivery.handedOut = 2 := by
  intro person store query engine
  have planned : Plan.ofQuery store query = .ok (.scan none) := rfl
  have three : (selected store query { expression := engine.config.expressionFor query } true).length =
      3 := by decide +kernel
  obtain ⟨first, second, third, records_eq⟩ : ∃ first second third,
      selected store query { expression := engine.config.expressionFor query } true =
        [first, second, third] := by
    match selected store query { expression := engine.config.expressionFor query } true, three with
    | [first, second, third], _ => exact ⟨first, second, third, rfl⟩
  have selects : engine.selected? store query (.scan none) = some [first, second, third] :=
    congrArg some records_eq
  let cursor : Cursor := { columns := engine.columns query }
  let full : RecordStream := { capacity := .bounded 1, buffered := [first] }
  let going : Delivery :=
    { waiting := [third], inHand := some second, ending := some .success, handedOut := 2 }
  have run : Run (.start cursor.columns full.capacity (store.deliver [first, second, third]).1)
      [.delivered, .delivered, .delivered, .deliverySlept]
      { cursor, feed := ⟨full, going⟩, deliverySleeps := true } :=
    .step (.step (.step (.step .start (.deliver rfl rfl)) (.deliver rfl rfl)) (.deliver rfl rfl))
      (.park rfl rfl rfl)
  have close : Step { cursor, feed := ⟨full, going⟩, deliverySleeps := true } .closed
      { cursor := { cursor with position := .closed }, feed := ⟨full.close, going⟩ } :=
    .close rfl
  have refused : Run { cursor := { cursor with position := .closed }, feed := ⟨full.close, going⟩ }
      [.delivered]
      { cursor := { cursor with position := .closed }, feed := ⟨full.close, going.stop⟩ } :=
    .step .start (.deliver rfl rfl)
  obtain ⟨_, _, stops⟩ := @close_stops_delivery engine store query _ _ planned selects
  obtain ⟨_, empty, _, _, _, parked⟩ := stops _ _ _ _ _ _ run close refused
  obtain ⟨_, _, _, _, _, _, handedOut⟩ := parked rfl
  exact ⟨_, _, _, _, planned, selects, rfl, run, close, refused, rfl, empty, rfl, handedOut⟩

end Engine

end RecordQuery
