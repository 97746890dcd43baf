import RecordQuery.Stream.Basic

/-!
A stream with the pushes that wait at it for room. A push that finds no room is parked. Taking a
record wakes the push that has been parked longest and was not woken yet, closing wakes all of them,
and nothing else wakes any. A woken push tries again when its turn comes, and is parked again if it
still finds no room.
-/

namespace RecordQuery

structure ParkedPush where
  record : Record
  woken : Bool := false

structure Channel where
  stream : RecordStream
  /-- In the order in which they were parked. -/
  parked : List ParkedPush := []

namespace Channel

def new (capacity : Capacity) : Channel := ⟨{ capacity }, []⟩

/-- Pushes a record; the result is missing if the push was parked. -/
def push (channel : Channel) (record : Record) : Option Bool × Channel :=
  match channel.stream.push? record with
  | some (accepted, stream) => (some accepted, { channel with stream })
  | none => (none, { channel with parked := channel.parked ++ [⟨record, false⟩] })

/-- Wakes the first push that still sleeps. -/
def wakeOne : List ParkedPush → List ParkedPush
  | [] => []
  | push :: rest =>
    if push.woken then push :: wakeOne rest else { push with woken := true } :: rest

def wakeAll (parked : List ParkedPush) : List ParkedPush :=
  parked.map fun push => { push with woken := true }

def terminate (channel : Channel) (terminal : Terminal) : Channel :=
  { channel with stream := channel.stream.terminate terminal }

def abandon (channel : Channel) : Channel := { channel with stream := channel.stream.abandon }

def next? (channel : Channel) : Option (Item × Channel) :=
  match channel.stream.next? with
  | some (.record record, stream) => some (.record record, ⟨stream, wakeOne channel.parked⟩)
  | some (item, stream) => some (item, { channel with stream })
  | none => none

def close (channel : Channel) : Channel :=
  if channel.stream.closed then channel
  else ⟨channel.stream.close, wakeAll channel.parked⟩

/-- Lets the woken push at a position try again; the result is missing if it is parked anew. -/
def resume? (channel : Channel) (position : Nat) : Option (Option Bool × Channel) :=
  match channel.parked[position]? with
  | some ⟨record, true⟩ =>
    let others := channel.parked.eraseIdx position
    match channel.stream.push? record with
    | some (accepted, stream) => some (some accepted, ⟨stream, others⟩)
    | none => some (none, { channel with parked := others ++ [⟨record, false⟩] })
  | _ => none

/-- Lets the first woken push try again. -/
def resumeFirst? (channel : Channel) : Option (Option Bool × Channel) :=
  (channel.parked.findIdx? ParkedPush.woken).bind channel.resume?

end Channel

end RecordQuery
