import RecordQuery.Proofs.Stream.Steps
import RecordQuery.Stream.Parking

/-!
Runs of a channel. Producers, of which there may be any number, push records and signal ends; a push
that finds no room is parked, and tries again once it was woken and its turn comes, or a later push gets
ahead of it. The consumer takes items and may close the stream. Each of these is one step, and a run is
any order of them. Parking decides when a push is tried, not what it does: on the stream itself a tried
push acts as one that was never parked.
-/

namespace RecordQuery

/-- What one step of a channel was. -/
inductive Event where
  /-- A push was tried; the result is missing if it was parked. -/
  | pushed (record : Record) (result : Option Bool)
  | signalled (terminal : Terminal)
  | taken (item : Item)
  | closed

inductive Step : Channel → Event → Channel → Prop
  | push {channel after : Channel} {record : Record} {result : Option Bool}
    (tried : channel.push record = (result, after)) : Step channel (.pushed record result) after
  | resume {channel after : Channel} {position : Nat} {record : Record} {result : Option Bool}
    (woken : channel.parked[position]? = some ⟨record, true⟩)
    (tried : channel.resume? position = some (result, after)) :
    Step channel (.pushed record result) after
  | terminate (channel : Channel) (terminal : Terminal) :
    Step channel (.signalled terminal) (channel.terminate terminal)
  | next {channel after : Channel} {item : Item} (given : channel.next? = some (item, after)) :
    Step channel (.taken item) after
  | close (channel : Channel) : Step channel .closed channel.close

/-- The events of a run in their order. -/
inductive Run (start : Channel) : List Event → Channel → Prop
  | start : Run start [] start
  | step {events : List Event} {channel after : Channel} {event : Event}
    (run : Run start events channel) (step : Step channel event after) :
    Run start (events ++ [event]) after

/-- What an event does to the stream, wherever its push was waiting. -/
def Event.Acts : Event → RecordStream → RecordStream → Prop
  | .pushed record (some accepted), stream, after => stream.push? record = some (accepted, after)
  | .pushed record none, stream, after => stream.push? record = none ∧ after = stream
  | .signalled terminal, stream, after => after = stream.terminate terminal
  | .taken item, stream, after => stream.next? = some (item, after)
  | .closed, stream, after => after = stream.close

theorem Channel.stream_close (channel : Channel) :
    channel.close.stream = channel.stream.close := by
  unfold close RecordStream.close
  split <;> rfl

theorem Step.acts {channel after : Channel} {event : Event} (step : Step channel event after) :
    event.Acts channel.stream after.stream := by
  cases step with
  | push tried =>
    unfold Channel.push at tried
    split at tried
    · next accepted stream pushed =>
      cases tried
      exact pushed
    · next pushed =>
      cases tried
      exact ⟨pushed, rfl⟩
  | resume woken tried =>
    unfold Channel.resume? at tried
    rw [woken] at tried
    dsimp only at tried
    split at tried
    · next accepted stream pushed =>
      cases tried
      exact pushed
    · next pushed =>
      cases tried
      exact ⟨pushed, rfl⟩
  | terminate terminal => rfl
  | next given =>
    unfold Channel.next? at given
    split at given
    · next taken =>
      cases given
      exact taken
    · next taken =>
      cases given
      exact taken
    · cases given
  | close => exact channel.stream_close

/-- A run splits before and after each of its events. -/
theorem Run.split {start last : Channel} {before after : List Event} {event : Event}
    (run : Run start (before ++ event :: after) last) :
    ∃ middle next, Run start before middle ∧ Step middle event next ∧ Run next after last := by
  generalize whole : before ++ event :: after = events at run
  induction run generalizing after with
  | start => exact absurd whole (List.append_ne_nil_of_right_ne_nil _ (List.cons_ne_nil _ _))
  | @step events channel next final run step ih =>
    obtain rfl | ⟨earlier, newest, rfl⟩ := List.eq_nil_or_concat after
    · obtain ⟨rfl, rfl⟩ := List.append_singleton_inj.1 whole
      exact ⟨channel, next, run, step, .start⟩
    · rw [List.concat_eq_append] at whole ⊢
      rw [← List.cons_append, ← List.append_assoc, List.append_singleton_inj] at whole
      obtain ⟨same, rfl⟩ := whole
      obtain ⟨middle, next', first, split, rest⟩ := ih same
      exact ⟨middle, next', first, split, rest.step step⟩

end RecordQuery
