import RecordQuery.Stream.Basic

/-!
The listener through which a store reports to a stream. A signal of the end uses it up. A store may also
let go of it without a signal; the listener then looks whether the consumer is still there, and, if so,
signals that the records were abandoned. Others may act on the stream between the two.
-/

namespace RecordQuery

inductive Listener where
  | listening
  /-- Let go of without a signal while the stream was open; the failure is not signalled yet. -/
  | leaving
  | gone
  deriving DecidableEq

namespace Listener

/-- What becomes of a listener that is let go of without a signal. -/
def released (stream : RecordStream) : Listener := if stream.closed then .gone else .leaving

theorem released_eq_gone_iff {stream : RecordStream} :
    released stream = .gone ↔ stream.closed = true := by
  unfold released
  split
  · next closed => exact iff_of_true rfl closed
  · next still_open => exact iff_of_false nofun still_open

/-- A listener that is let go of while nobody else acts abandons the stream. -/
theorem abandon_eq (stream : RecordStream) :
    stream.abandon = if released stream = .leaving then stream.fail .abandoned else stream := by
  unfold RecordStream.abandon released
  split <;> rfl

end Listener

end RecordQuery
