import RecordQuery.Record
import RecordQuery.Store.Error

/-!
Record streams: a queue between the store, which pushes records and signals once how they end, and
one consumer, which takes them in order and may close the stream. Each operation is one atomic step
on the state; where the caller has to wait the step has no result. A record is accepted only before
the end is signalled and before the stream is closed, and an end never waits for room.
-/

namespace RecordQuery

/-- How many records may wait in a stream. -/
inductive Capacity where
  /-- At least one always fits. -/
  | bounded (limit : Nat)
  | unbounded
  deriving DecidableEq, Repr

def Capacity.hasRoom : Capacity → Nat → Bool
  | .bounded limit, length => length < max limit 1
  | .unbounded, _ => true

/-- How the records of a stream end. -/
inductive Terminal where
  | completed
  | failed (error : StoreError)
  deriving DecidableEq

/-- What a consumer is given. -/
inductive Item where
  | record (record : Record)
  | finished
  | failed (error : StoreError)

structure RecordStream where
  capacity : Capacity
  buffered : List Record := []
  terminal : Option Terminal := none
  closed : Bool := false

namespace RecordStream

def isTerminated (stream : RecordStream) : Bool := stream.terminal.isSome

/-- Pushes a record and tells whether it was accepted; no result while there is no room for it. -/
def push? (stream : RecordStream) (record : Record) : Option (Bool × RecordStream) :=
  if stream.closed || stream.isTerminated then some (false, stream)
  else if stream.capacity.hasRoom stream.buffered.length then
    some (true, { stream with buffered := stream.buffered ++ [record] })
  else none

/-- Signals the end; only the first signal counts. -/
def terminate (stream : RecordStream) (terminal : Terminal) : RecordStream :=
  { stream with terminal := stream.terminal.or (some terminal) }

def complete (stream : RecordStream) : RecordStream := stream.terminate .completed

def fail (stream : RecordStream) (error : StoreError) : RecordStream :=
  stream.terminate (.failed error)

/-- The producer goes away without a signal: a failure, unless the consumer is gone too. -/
def abandon (stream : RecordStream) : RecordStream :=
  if stream.closed then stream else stream.fail .abandoned

/-- Takes the next record or, after the last one, learns how they ended; no result while the stream
is empty and may still be filled. -/
def next? (stream : RecordStream) : Option (Item × RecordStream) :=
  match stream.buffered, stream.terminal with
  | record :: rest, _ => some (.record record, { stream with buffered := rest })
  | [], some .completed => some (.finished, stream)
  | [], some (.failed error) => some (.failed error, stream)
  | [], none => if stream.closed then some (.finished, stream) else none

/-- The consumer goes away, and what is waiting is dropped. -/
def close (stream : RecordStream) : RecordStream :=
  if stream.closed then stream else { stream with closed := true, buffered := [] }

end RecordStream

/-- A reader that stops by itself: the records, then the failure if there is one, then nothing. -/
structure RecordIterator where
  exhausted : Bool := false

namespace RecordIterator

def next? (iterator : RecordIterator) (stream : RecordStream) :
    Option (Option Item × RecordIterator × RecordStream) :=
  if iterator.exhausted then some (none, iterator, stream)
  else
    (stream.next?).map fun (item, stream) =>
      match item with
      | .record record => (some (.record record), iterator, stream)
      | .finished => (none, ⟨true⟩, stream)
      | .failed error => (some (.failed error), ⟨true⟩, stream)

end RecordIterator

end RecordQuery
