import RecordQuery.Stream.Basic

/-!
The delivery of a command's records into a stream. A delivery hands out one record after the other;
each goes into the stream before the next is handed out, and waits while the stream is full. After
the last one it signals how it ended. If a record is refused, because the consumer has closed the
stream, the delivery stops and releases the stream without a signal.
-/

namespace RecordQuery

/-- What follows the last record of a delivery. -/
inductive Ending where
  | success
  | failure (error : StoreError)
  /-- The store lets go of the stream without a signal. -/
  | released
  deriving DecidableEq

/-- The stream after the signal. -/
def Ending.signal : Ending → RecordStream → RecordStream
  | .success, stream => stream.complete
  | .failure error, stream => stream.fail error
  | .released, stream => stream.abandon

structure Delivery where
  /-- The records that are not handed out yet. -/
  waiting : List Record := []
  /-- A record that is handed out and not yet in the stream. -/
  inHand : Option Record := none
  /-- What is still to be signalled; missing when the delivery is over. -/
  ending : Option Ending
  /-- How many records have been handed out. -/
  handedOut : Nat := 0

namespace Delivery

/-- A delivery with nothing left to do. -/
def ended : Delivery := { ending := none }

def isEnded (delivery : Delivery) : Bool := delivery.ending.isNone

def stop (delivery : Delivery) : Delivery :=
  { delivery with waiting := [], inHand := none, ending := none }

/-- The next step of the delivery; none while it waits for room and when it is over. -/
def step? (delivery : Delivery) (stream : RecordStream) : Option (Delivery × RecordStream) :=
  match delivery.ending, delivery.inHand, delivery.waiting with
  | none, _, _ => none
  | some _, some record, _ =>
    (stream.push? record).map fun (accepted, stream) =>
      if accepted then ({ delivery with inHand := none }, stream)
      else (delivery.stop, stream.abandon)
  | some _, none, record :: rest =>
    some ({ delivery with
      waiting := rest, inHand := some record, handedOut := delivery.handedOut + 1 }, stream)
  | some ending, none, [] => some (delivery.stop, ending.signal stream)

/-- A bound on the steps that are left. -/
def stepsLeft (delivery : Delivery) : Nat :=
  if delivery.isEnded then 0
  else 2 * delivery.waiting.length + (if delivery.inHand.isSome then 1 else 0) + 1

theorem stepsLeft_step? {delivery next : Delivery} {stream after : RecordStream}
    (stepped : delivery.step? stream = some (next, after)) : next.stepsLeft < delivery.stepsLeft := by
  obtain ⟨waiting, inHand, ending, handedOut⟩ := delivery
  cases ending with
  | none => simp [step?] at stepped
  | some ending =>
    cases inHand with
    | some record =>
      simp only [step?, Option.map_eq_some_iff] at stepped
      obtain ⟨⟨accepted, pushed⟩, _, stepped⟩ := stepped
      cases accepted <;> cases stepped <;> simp [stepsLeft, isEnded, stop]
    | none =>
      cases waiting with
      | nil =>
        simp only [step?, Option.some.injEq, Prod.mk.injEq] at stepped
        rw [← stepped.1]; simp [stepsLeft, isEnded, stop]
      | cons record rest =>
        simp only [step?, Option.some.injEq, Prod.mk.injEq] at stepped
        rw [← stepped.1]; simp [stepsLeft, isEnded]; omega

def runFor : Nat → Delivery → RecordStream → Delivery × RecordStream
  | 0, delivery, stream => (delivery, stream)
  | steps + 1, delivery, stream =>
    match delivery.step? stream with
    | none => (delivery, stream)
    | some (next, after) => runFor steps next after

/-- Lets the delivery go on until it waits or is over. -/
def run (delivery : Delivery) (stream : RecordStream) : Delivery × RecordStream :=
  runFor delivery.stepsLeft delivery stream

theorem step?_runFor {steps : Nat} {delivery : Delivery} (enough : delivery.stepsLeft ≤ steps)
    (stream : RecordStream) :
    (runFor steps delivery stream).1.step? (runFor steps delivery stream).2 = none := by
  induction steps generalizing delivery stream with
  | zero =>
    obtain ⟨waiting, inHand, ending, handedOut⟩ := delivery
    cases ending with
    | none => rfl
    | some ending => simp [stepsLeft, isEnded] at enough
  | succ steps ih =>
    unfold runFor
    split
    · assumption
    · next stepped => exact ih (by have := stepsLeft_step? stepped; omega) _

theorem step?_run (delivery : Delivery) (stream : RecordStream) :
    (delivery.run stream).1.step? (delivery.run stream).2 = none :=
  step?_runFor (Nat.le_refl _) stream

/-- What a listener is given that gives up at the record numbered `last`, counted from one: the
records, and the ending unless it gave up. -/
def handOut (delivery : Delivery) (last : Option Nat) : List Record × Option Ending :=
  match last with
  | none => (delivery.waiting, delivery.ending)
  | some number =>
    if 0 < number ∧ number ≤ delivery.waiting.length then (delivery.waiting.take number, none)
    else (delivery.waiting, delivery.ending)

end Delivery

/-- A stream with the delivery that fills it, which goes on whenever it can. -/
structure Feed where
  stream : RecordStream
  delivery : Delivery

namespace Feed

/-- Starts a delivery into a new stream. -/
def start (capacity : Capacity) (delivery : Delivery) : Feed :=
  let (delivery, stream) := delivery.run { capacity }
  ⟨stream, delivery⟩

/-- A stream that holds all that it will ever hold. -/
def finished (capacity : Capacity) (records : List Record) : Feed :=
  ⟨{ capacity, buffered := records, terminal := some .completed }, .ended⟩

/-- Replaces the stream by what a consumer has left of it, and lets the delivery go on. -/
def resume (feed : Feed) (stream : RecordStream) : Feed :=
  let (delivery, stream) := feed.delivery.run stream
  ⟨stream, delivery⟩

def next? (feed : Feed) : Option (Item × Feed) :=
  feed.stream.next?.map fun (item, stream) => (item, feed.resume stream)

def close (feed : Feed) : Feed := feed.resume feed.stream.close

end Feed

end RecordQuery
