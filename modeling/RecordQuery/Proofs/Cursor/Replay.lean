import Mathlib.Data.List.Basic
import Mathlib.Data.List.Induction
import RecordQuery.Proofs.Engine.Rows
import RecordQuery.Proofs.Stream.Accounts

/-!
A cursor as a replay of its stream. Producers act on the stream while the cursor is read, moved and
closed, in any order. The answers to the calls for the next row then follow the stream's accounts: one row
for each accepted record, and after the last one the end, which a failure is told of once. The position,
the record that stands there and what the columns show of it are read off the same history, in which the
reads leave no trace.
-/

namespace RecordQuery

/-- Pushes and signals are what producers do; taking and closing are left to the cursor. -/
def Event.byProducer : Event → Bool
  | .pushed _ _ => true
  | .signalled _ => true
  | .taken _ => false
  | .closed => false

namespace Cursor

/-- What was done to a cursor or to the stream that it reads, with the answer. -/
inductive Call where
  | produced (event : Event)
  | next (result : Except QueryError Bool)
  | got (index : Nat) (result : Except QueryError Value)
  | closed

inductive Step : Cursor → RecordStream → Call → Cursor → RecordStream → Prop
  | produce {cursor : Cursor} {stream after : RecordStream} {event : Event}
    (by_producer : event.byProducer = true) (acts : event.Acts stream after) :
    Step cursor stream (.produced event) cursor after
  | next {cursor moved : Cursor} {stream after : RecordStream} {result : Except QueryError Bool}
    (given : cursor.next? stream = some (result, moved, after)) :
    Step cursor stream (.next result) moved after
  | get (cursor : Cursor) (stream : RecordStream) (index : Nat) :
    Step cursor stream (.got index (cursor.get index)) cursor stream
  | close (cursor : Cursor) (stream : RecordStream) :
    Step cursor stream .closed (cursor.close stream).1 (cursor.close stream).2

/-- A new cursor over a new stream, and the calls that followed in their order. -/
inductive Replay (columns : List Column) (capacity : Capacity) :
    List Call → Cursor → RecordStream → Prop
  | start : Replay columns capacity [] { columns } { capacity }
  | step {calls : List Call} {call : Call} {cursor moved : Cursor} {stream after : RecordStream}
    (replay : Replay columns capacity calls cursor stream)
    (step : Step cursor stream call moved after) : Replay columns capacity (calls ++ [call]) moved after

namespace Call

def event? : Call → Option Event
  | .produced event => some event
  | _ => none

def result? : Call → Option (Except QueryError Bool)
  | .next result => some result
  | _ => none

/-- The records that the stream accepted, in the order of acceptance. -/
def accepted (calls : List Call) : List Record := Event.accepted (calls.filterMap event?)

/-- The first end that was signalled. -/
def signal? (calls : List Call) : Option Terminal := Event.firstSignal? (calls.filterMap event?)

/-- The answers to the calls for the next row. -/
def results (calls : List Call) : List (Except QueryError Bool) := calls.filterMap result?

def isRow : Except QueryError Bool → Bool
  | .ok true => true
  | _ => false

/-- A read of a column. -/
def isRead : Call → Bool
  | .got _ _ => true
  | _ => false

/-- How many rows there have been. -/
def rows (calls : List Call) : Nat := (results calls).countP isRow

/-- The latest call for a row gave one, the record of which is this, and nothing was closed. -/
structure OnRecord (calls : List Call) (record : Record) : Prop where
  not_closed : .closed ∉ calls
  latest : (results calls).getLast? = some (.ok true)
  record_eq : (accepted calls)[rows calls - 1]? = some record

/-- A row for each accepted record, the end of the stream, and from then on that there are no more. -/
def Told (calls : List Call) : Prop :=
  ∃ terminal more, signal? calls = some terminal ∧
    results calls = List.replicate (accepted calls).length (.ok true) ++
      terminal.outcome :: List.replicate more (.ok false)

/-- A row for each of the first accepted records; or for all of them, and what follows the last. -/
def InOrder (calls : List Call) : Prop :=
  (∃ count ≤ (accepted calls).length, results calls = List.replicate count (.ok true)) ∨ Told calls

/-- Where the calls bring an open cursor. -/
inductive Leads (calls : List Call) : Cursor → Prop
  | beforeFirst {columns : List Column} (none_yet : results calls = []) :
    Leads calls ⟨columns, none, .beforeFirst⟩
  | onRow {columns : List Column} {record : Record} (count : Nat)
    (answered : results calls = List.replicate (count + 1) (.ok true))
    (at_count : (accepted calls)[count]? = some record) : Leads calls ⟨columns, some record, .onRow⟩
  | afterLast {columns : List Column} (told : Told calls) : Leads calls ⟨columns, none, .afterLast⟩

variable (calls : List Call)

theorem accepted_produced (event : Event) :
    accepted (calls ++ [.produced event]) = accepted calls ++ event.accepted?.toList := by
  rw [accepted, List.filterMap_append, accepted]
  exact Event.accepted_concat ..

theorem signal?_produced (event : Event) :
    signal? (calls ++ [.produced event]) = (signal? calls).or event.signal? := by
  rw [signal?, List.filterMap_append, signal?]
  exact Event.firstSignal?_concat ..

theorem results_next (result : Except QueryError Bool) :
    results (calls ++ [.next result]) = results calls ++ [result] := List.filterMap_append

theorem rows_next (result : Except QueryError Bool) :
    rows (calls ++ [.next result]) = rows calls + if isRow result then 1 else 0 := by
  rw [rows, results_next, List.countP_append, List.countP_singleton, rows]

theorem of_no_event (call : Call) (no_event : call.event? = none) :
    accepted (calls ++ [call]) = accepted calls ∧ signal? (calls ++ [call]) = signal? calls := by
  simp [accepted, signal?, List.filterMap_append, no_event]

theorem of_no_result (call : Call) (no_result : call.result? = none) :
    results (calls ++ [call]) = results calls ∧ rows (calls ++ [call]) = rows calls := by
  simp [rows, results, List.filterMap_append, no_result]

variable {calls}

theorem rows_of_replicate {count : Nat} (answered : results calls = List.replicate count (.ok true)) :
    rows calls = count := by
  rw [rows, answered, List.countP_replicate, isRow, if_pos rfl]

/-- Once the end is told, a row is not the latest answer. -/
theorem Told.latest_ne (told : Told calls) : (results calls).getLast? ≠ some (.ok true) := by
  obtain ⟨terminal, more, _, told⟩ := told
  intro latest
  rw [told, List.getLast?_append_cons] at latest
  obtain row | row := List.mem_cons.1 (List.mem_of_getLast? latest)
  · cases terminal <;> cases row
  · cases (List.mem_replicate.1 row).2

end Call

open Call

/-- Before the end there has been a row at each call, and no other answer. -/
theorem Call.Leads.results_of_reading {calls : List Call} {cursor : Cursor}
    (leads : Leads calls cursor) (reading : cursor.Reading) :
    results calls = List.replicate (rows calls) (.ok true) := by
  cases leads with
  | beforeFirst none_yet =>
    rw [rows, none_yet]
    rfl
  | onRow _ answered _ => rw [rows_of_replicate answered, answered]
  | afterLast _ => exact absurd reading (not_reading_afterLast rfl)

/-- In step, the record that is held is the one to be had. -/
theorem InStep.current_eq_ok {cursor : Cursor} (in_step : cursor.InStep) (record : Record) :
    cursor.current = .ok record ↔ cursor.record = some record := by
  obtain ⟨columns, held, position⟩ := cursor
  cases held with
  | none => cases position <;> exact iff_of_false nofun nofun
  | some held =>
    obtain rfl : position = .onRow := in_step.1 rfl
    rw [Option.some.injEq]
    exact Except.ok.injEq held record ▸ Iff.rfl

/-- Every read of a column comes to the record. -/
theorem get_eq_of_current {cursor : Cursor} {record : Record} {column : Column} {index : Nat}
    (current : cursor.current = .ok record) (at_index : cursor.columns[index]? = some column) :
    cursor.get index = .ok (shown column record) := by
  simp only [get, current, at_index]
  rfl

/-- How a cursor and its stream stand after the calls; `events` is what the stream has seen of them. -/
structure Standing (columns : List Column) (capacity : Capacity) (calls : List Call)
    (events : List Event) (cursor : Cursor) (stream : RecordStream) : Prop where
  columns_eq : cursor.columns = columns
  accounts : Accounts capacity events stream
  accepted_eq : Event.accepted events = accepted calls
  signal?_eq : Event.firstSignal? events = signal? calls
  returned_eq : (Event.returned events).length = rows calls
  closed_iff : .closed ∈ events ↔ .closed ∈ calls
  isClosed_iff : cursor.isClosed = true ↔ .closed ∈ calls
  leads : .closed ∉ calls → Leads calls cursor

namespace Standing

variable {columns : List Column} {capacity : Capacity} {calls : List Call} {events : List Event}
  {cursor moved : Cursor} {stream after : RecordStream}

theorem start (columns : List Column) (capacity : Capacity) :
    Standing columns capacity [] [] { columns } { capacity } where
  columns_eq := rfl
  accounts := .new capacity
  accepted_eq := rfl
  signal?_eq := rfl
  returned_eq := rfl
  closed_iff := by simp
  isClosed_iff := by simp [isClosed]
  leads _ := .beforeFirst rfl

theorem not_closed (standing : Standing columns capacity calls events cursor stream)
    (reading : cursor.Reading) : .closed ∉ calls := by
  intro closed
  have position := standing.isClosed_iff.2 closed
  obtain before | on := reading
  · rw [isClosed, before] at position
    cases position
  · rw [isClosed, on] at position
    cases position

/-- An open cursor has shown the accepted records but for those that are buffered. -/
theorem balanced (standing : Standing columns capacity calls events cursor stream)
    (still_open : .closed ∉ calls) :
    ∃ shown, accepted calls = shown ++ stream.buffered ∧ shown.length = rows calls := by
  have balanced := standing.accounts.balanced (mt standing.closed_iff.1 still_open)
  rw [standing.accepted_eq] at balanced
  exact ⟨_, balanced, standing.returned_eq⟩

/-- What producers do leads an open cursor nowhere else; after the end nothing is accepted. -/
theorem leads_produced (standing : Standing columns capacity calls events cursor stream)
    {event : Event} (acts : event.Acts stream after) (leads : Leads calls cursor) :
    Leads (calls ++ [.produced event]) cursor := by
  have answered : results (calls ++ [.produced event]) = results calls := (of_no_result _ _ rfl).1
  cases leads with
  | beforeFirst none_yet => exact .beforeFirst (answered.trans none_yet)
  | onRow count rows at_count =>
    refine .onRow count (answered.trans rows) ?_
    obtain ⟨within, _⟩ := List.getElem?_eq_some_iff.1 at_count
    rw [accepted_produced, List.getElem?_append_left within, at_count]
  | afterLast told =>
    obtain ⟨terminal, more, signalled, told⟩ := told
    have none_accepted : event.accepted? = none := by
      cases event with
      | pushed record result =>
        obtain _ | _ | _ := result
        · rfl
        · rfl
        · obtain ⟨_, unended, _⟩ := RecordStream.of_push?_accepted acts
          rw [standing.accounts.terminal_eq, standing.signal?_eq, signalled] at unended
          cases unended
      | _ => rfl
    refine .afterLast ⟨terminal, more, ?_, ?_⟩
    · rw [signal?_produced, signalled, Option.some_or]
    · rw [answered, accepted_produced, none_accepted, Option.toList_none, List.append_nil, told]

/-- A call in which the stream has no part. -/
theorem answer (standing : Standing columns capacity calls events cursor stream) {call : Call}
    (closed_mem : .closed ∈ calls ++ [call] ↔ .closed ∈ calls) (no_event : call.event? = none)
    (rows_eq : rows (calls ++ [call]) = rows calls) (columns_eq : moved.columns = cursor.columns)
    (isClosed_eq : moved.isClosed = cursor.isClosed)
    (leads : .closed ∉ calls → Leads (calls ++ [call]) moved) :
    Standing columns capacity (calls ++ [call]) events moved stream := by
  obtain ⟨accepted_eq, signal?_eq⟩ := of_no_event calls call no_event
  constructor
  case columns_eq => rw [columns_eq, standing.columns_eq]
  case accounts => exact standing.accounts
  case accepted_eq => rw [standing.accepted_eq, accepted_eq]
  case signal?_eq => rw [standing.signal?_eq, signal?_eq]
  case returned_eq => rw [standing.returned_eq, rows_eq]
  case closed_iff => rw [closed_mem, standing.closed_iff]
  case isClosed_iff => rw [isClosed_eq, closed_mem, standing.isClosed_iff]
  case leads => rwa [closed_mem]

/-- A call in which the stream takes part by an event. -/
theorem extend (standing : Standing columns capacity calls events cursor stream) {call : Call}
    {event : Event} (acts : event.Acts stream after)
    (accepted_eq : accepted (calls ++ [call]) = accepted calls ++ event.accepted?.toList)
    (signal?_eq : signal? (calls ++ [call]) = (signal? calls).or event.signal?)
    (rows_eq : rows (calls ++ [call]) = rows calls + event.returned?.toList.length)
    (closed_iff : .closed = event ↔ .closed = call) (columns_eq : moved.columns = cursor.columns)
    (isClosed_iff : moved.isClosed = true ↔ .closed ∈ calls ++ [call])
    (leads : .closed ∉ calls ++ [call] → Leads (calls ++ [call]) moved) :
    Standing columns capacity (calls ++ [call]) (events ++ [event]) moved after := by
  constructor
  case columns_eq => rw [columns_eq, standing.columns_eq]
  case accounts => exact standing.accounts.step acts
  case accepted_eq => rw [Event.accepted_concat, accepted_eq, standing.accepted_eq]
  case signal?_eq => rw [Event.firstSignal?_concat, signal?_eq, standing.signal?_eq]
  case returned_eq => rw [Event.returned_concat, List.length_append, rows_eq, standing.returned_eq]
  case closed_iff =>
    rw [List.mem_append, List.mem_append, List.mem_singleton, List.mem_singleton, closed_iff,
      standing.closed_iff]
  case isClosed_iff => exact isClosed_iff
  case leads => exact leads

theorem produce (standing : Standing columns capacity calls events cursor stream) {event : Event}
    (by_producer : event.byProducer = true) (acts : event.Acts stream after) :
    Standing columns capacity (calls ++ [.produced event]) (events ++ [event]) cursor after := by
  have closed_mem := mem_concat_iff_of_ne calls (.produced event) .closed nofun
  refine standing.extend acts (accepted_produced ..) (signal?_produced ..) ?rows ?stays rfl ?isClosed ?leads
  case rows =>
    rw [(of_no_result calls (.produced event) rfl).2]
    cases event with
    | taken item => cases by_producer
    | _ => rfl
  case stays =>
    refine iff_of_false ?_ (fun same => nomatch same)
    rintro rfl
    cases by_producer
  case isClosed => rw [closed_mem, standing.isClosed_iff]
  case leads =>
    intro still_open
    exact standing.leads_produced acts (standing.leads (mt closed_mem.2 still_open))

/-- The next accepted record is shown. -/
theorem next_row (standing : Standing columns capacity calls events cursor stream)
    (reading : cursor.Reading) {record : Record}
    (taken : stream.next? = some (.record record, after)) :
    Standing columns capacity (calls ++ [.next (.ok true)]) (events ++ [.taken (.record record)])
      { cursor with record := some record, position := .onRow } after := by
  have still_open := standing.not_closed reading
  have answered := (standing.leads still_open).results_of_reading reading
  obtain ⟨shown, balanced, shown_length⟩ := standing.balanced still_open
  have at_rows : (accepted calls)[rows calls]? = some record := by
    obtain ⟨_, rest, buffered, same, _⟩ | ⟨empty, _⟩ := RecordStream.next?_cases taken
    · cases same
      rw [balanced, buffered, ← shown_length, List.getElem?_append_right (Nat.le_refl _), Nat.sub_self]
      rfl
    · exact absurd rfl (RecordStream.not_record_of_empty empty taken record)
  obtain ⟨accepted_eq, signal?_eq⟩ := of_no_event calls (.next (.ok true)) rfl
  have closed_mem := mem_concat_iff_of_ne calls (.next (.ok true)) .closed nofun
  have acts : Event.Acts (.taken (.record record)) stream after := taken
  refine standing.extend acts ?accepted ?signal ?rows ?stays rfl ?isClosed fun _ =>
    .onRow (rows calls) ?shown ?held
  case accepted => exact accepted_eq.trans (List.append_nil _).symm
  case signal => exact signal?_eq.trans (Option.or_none).symm
  case rows =>
    rw [rows_next]
    rfl
  case stays => exact iff_of_false (fun same => nomatch same) (fun same => nomatch same)
  case isClosed =>
    rw [closed_mem]
    exact iff_of_false (fun same => nomatch same) still_open
  case shown => rw [results_next, answered, rows_of_replicate answered, List.replicate_succ']
  case held => rw [accepted_eq, at_rows]

/-- All accepted records were shown, and the first end that was signalled is told. -/
theorem next_end (standing : Standing columns capacity calls events cursor stream)
    (reading : cursor.Reading) {terminal : Terminal}
    (taken : stream.next? = some (terminal.item, after)) :
    Standing columns capacity (calls ++ [.next terminal.outcome]) events
      { cursor with record := none, position := .afterLast } after := by
  have still_open := standing.not_closed reading
  have answered := (standing.leads still_open).results_of_reading reading
  obtain ⟨shown, balanced, shown_length⟩ := standing.balanced still_open
  obtain ⟨_, _, _, same, _⟩ | ⟨empty, rfl, ended⟩ := RecordStream.next?_cases taken
  · cases terminal <;> cases same
  have all_shown : rows calls = (accepted calls).length := by
    rw [balanced, empty, List.append_nil, shown_length]
  have signalled : signal? calls = some terminal := by
    rw [← standing.signal?_eq, ← standing.accounts.terminal_eq]
    obtain ⟨_, signalled, same⟩ | ⟨_, closed, _⟩ := ended
    · rw [signalled, Terminal.item_injective same]
    · exact absurd (standing.closed_iff.1 (standing.accounts.closed_iff.1 closed)) still_open
  obtain ⟨accepted_eq, signal?_eq⟩ := of_no_event calls (.next terminal.outcome) rfl
  have closed_mem := mem_concat_iff_of_ne calls (.next terminal.outcome) .closed nofun
  refine standing.answer closed_mem rfl ?rows rfl ?kept fun _ =>
    .afterLast ⟨terminal, 0, signal?_eq.trans signalled, ?told⟩
  case rows =>
    rw [rows_next]
    cases terminal <;> rfl
  case kept =>
    exact (Bool.eq_false_iff.2 (mt standing.isClosed_iff.1 still_open)).symm
  case told =>
    rw [results_next, accepted_eq, answered, rows_of_replicate answered, all_shown]
    rfl

/-- After the end, and when it is closed, a cursor stays where it is. -/
theorem next_stays (standing : Standing columns capacity calls events cursor stream)
    {result : Except QueryError Bool} (not_reading : ¬cursor.Reading) (no_row : result ≠ .ok true)
    (of_last : cursor.position = .afterLast → result = .ok false) :
    Standing columns capacity (calls ++ [.next result]) events cursor stream := by
  have closed_mem := mem_concat_iff_of_ne calls (.next result) .closed nofun
  refine standing.answer closed_mem rfl ?rows rfl rfl fun still_open => ?leads
  case rows =>
    rw [rows_next, if_neg, Nat.add_zero]
    intro row
    unfold isRow at row
    split at row
    · exact no_row rfl
    · cases row
  case leads =>
    cases standing.leads still_open with
    | beforeFirst _ => exact absurd (Or.inl rfl) not_reading
    | onRow _ _ _ => exact absurd (Or.inr rfl) not_reading
    | afterLast told =>
      obtain ⟨terminal, more, signalled, told⟩ := told
      obtain ⟨accepted_eq, signal?_eq⟩ := of_no_event calls (.next result) rfl
      refine .afterLast ⟨terminal, more + 1, signal?_eq.trans signalled, ?_⟩
      rw [results_next, accepted_eq, told, of_last rfl, List.append_assoc, List.cons_append,
        List.replicate_succ']

/-- A read of a column changes nothing. -/
theorem read (standing : Standing columns capacity calls events cursor stream) {index : Nat}
    {result : Except QueryError Value} :
    Standing columns capacity (calls ++ [.got index result]) events cursor stream := by
  obtain ⟨results_eq, rows_eq⟩ := of_no_result calls (.got index result) rfl
  have closed_mem := mem_concat_iff_of_ne calls (.got index result) .closed nofun
  refine standing.answer closed_mem rfl rows_eq rfl rfl fun still_open => ?_
  obtain ⟨accepted_eq, signal?_eq⟩ := of_no_event calls (.got index result) rfl
  cases standing.leads still_open with
  | beforeFirst none_yet => exact .beforeFirst (results_eq.trans none_yet)
  | onRow count answered at_count =>
    exact .onRow count (results_eq.trans answered) (accepted_eq.symm ▸ at_count)
  | afterLast told =>
    obtain ⟨terminal, more, signalled, told⟩ := told
    exact .afterLast ⟨terminal, more, signal?_eq.trans signalled, by rw [results_eq, accepted_eq, told]⟩

theorem close (standing : Standing columns capacity calls events cursor stream) :
    ∃ events, Standing columns capacity (calls ++ [.closed]) events (cursor.close stream).1
      (cursor.close stream).2 := by
  have closed_mem : .closed ∈ calls ++ [Call.closed] := List.mem_concat_self
  obtain ⟨accepted_eq, signal?_eq⟩ := of_no_event calls .closed rfl
  have rows_eq : rows (calls ++ [.closed]) = rows calls := (of_no_result _ _ rfl).2
  by_cases closed : cursor.isClosed = true
  · have was_closed := standing.isClosed_iff.1 closed
    refine ⟨events, ?_⟩
    rw [Cursor.close, if_pos closed]
    exact standing.answer (iff_of_true closed_mem was_closed) rfl rows_eq rfl rfl fun still_open =>
      absurd was_closed still_open
  · have acts : Event.Acts .closed stream stream.close := rfl
    refine ⟨events ++ [.closed], ?_⟩
    rw [Cursor.close, if_neg closed]
    exact standing.extend acts (accepted_eq.trans (List.append_nil _).symm)
      (signal?_eq.trans (Option.or_none).symm) rows_eq (iff_of_true rfl rfl) rfl
      (iff_of_true rfl closed_mem) fun still_open => absurd closed_mem still_open

/-- Each step keeps the standing. -/
theorem step {call : Call} (standing : Standing columns capacity calls events cursor stream)
    (step : Step cursor stream call moved after) :
    ∃ events, Standing columns capacity (calls ++ [call]) events moved after := by
  cases step with
  | produce by_producer acts => exact ⟨_, standing.produce by_producer acts⟩
  | next given =>
    obtain ⟨reading, ⟨record, taken, rfl, rfl⟩ | ⟨terminal, taken, rfl, rfl⟩⟩ |
      ⟨not_reading, no_row, rfl, rfl, of_last⟩ := next?_cases given
    · exact ⟨_, standing.next_row reading taken⟩
    · exact ⟨_, standing.next_end reading taken⟩
    · exact ⟨_, standing.next_stays not_reading no_row of_last⟩
  | get => exact ⟨_, standing.read⟩
  | close => exact standing.close

theorem inOrder (standing : Standing columns capacity calls events cursor stream)
    (still_open : .closed ∉ calls) : InOrder calls := by
  cases standing.leads still_open with
  | beforeFirst none_yet => exact Or.inl ⟨0, Nat.zero_le _, none_yet⟩
  | onRow count answered at_count =>
    exact Or.inl ⟨count + 1, (List.getElem?_eq_some_iff.1 at_count).1, answered⟩
  | afterLast told => exact Or.inr told

/-- A call waits only at an open cursor that has shown all there is, before any end. -/
theorem of_waits (standing : Standing columns capacity calls events cursor stream)
    (waits : cursor.next? stream = none) :
    .closed ∉ calls ∧ signal? calls = none ∧
      results calls = List.replicate (accepted calls).length (.ok true) := by
  obtain ⟨reading, starved⟩ := next?_eq_none waits
  obtain ⟨empty, unended, _⟩ := RecordStream.of_next?_eq_none starved
  have still_open := standing.not_closed reading
  obtain ⟨shown, balanced, shown_length⟩ := standing.balanced still_open
  refine ⟨still_open, ?_, ?_⟩
  · rw [← standing.signal?_eq, ← standing.accounts.terminal_eq, unended]
  · rw [(standing.leads still_open).results_of_reading reading, balanced, empty, List.append_nil,
      shown_length]

theorem of_closed (standing : Standing columns capacity calls events cursor stream)
    (closed : .closed ∈ calls) :
    stream.closed = true ∧ stream.buffered = [] ∧
      cursor.next? stream = some (.error .closed, cursor, stream) := by
  have closed_events := standing.closed_iff.2 closed
  refine ⟨standing.accounts.closed_iff.2 closed_events, standing.accounts.dropped closed_events, ?_⟩
  have position : cursor.position = .closed := eq_of_beq (standing.isClosed_iff.2 closed)
  rw [Cursor.next?, position]

/-- The record of the latest row is held, and no other one. -/
theorem record_iff (standing : Standing columns capacity calls events cursor stream)
    (in_step : cursor.InStep) (record : Record) : cursor.record = some record ↔ OnRecord calls record := by
  constructor
  case mp =>
    intro held
    have on : cursor.position = .onRow := in_step.1 (Option.isSome_of_mem held)
    have still_open := standing.not_closed (Or.inr on)
    cases standing.leads still_open with
    | beforeFirst _ => cases held
    | afterLast _ => cases held
    | onRow _ answered at_count =>
      cases held
      refine ⟨still_open, ?_, ?_⟩
      · rw [answered, List.replicate_succ', List.getLast?_concat]
      · rw [rows_of_replicate answered, Nat.add_sub_cancel, at_count]
  case mpr =>
    rintro ⟨still_open, latest, at_last⟩
    cases standing.leads still_open with
    | beforeFirst none_yet =>
      rw [none_yet] at latest
      cases latest
    | onRow _ answered at_count =>
      rw [rows_of_replicate answered, Nat.add_sub_cancel, at_count] at at_last
      exact at_last
    | afterLast told => exact absurd latest told.latest_ne

end Standing

namespace Replay

variable {columns : List Column} {capacity : Capacity} {calls before after : List Call}
  {cursor : Cursor} {stream : RecordStream}

theorem standing (replay : Replay columns capacity calls cursor stream) :
    ∃ events, Standing columns capacity calls events cursor stream := by
  induction replay with
  | start => exact ⟨_, .start columns capacity⟩
  | step _ step ih =>
    obtain ⟨_, standing⟩ := ih
    exact standing.step step

/-- Every step keeps the record and the position in step. -/
theorem inStep_of_step {call : Call} {moved : Cursor} {later : RecordStream}
    (step : Step cursor stream call moved later) (in_step : cursor.InStep) : moved.InStep := by
  cases step with
  | produce _ _ => exact in_step
  | next given => exact in_step.next? given
  | get => exact in_step
  | close => exact in_step.close stream

/-- However often the cursor is moved, read and closed, it holds a record on a row and nowhere else. -/
theorem inStep (replay : Replay columns capacity calls cursor stream) : cursor.InStep := by
  induction replay with
  | start => exact inStep_new columns
  | step _ step ih => exact inStep_of_step step ih

/-- A replay splits before each of its calls. -/
theorem split {call : Call} (replay : Replay columns capacity (before ++ call :: after) cursor stream) :
    ∃ earlier moved middle next, Replay columns capacity before earlier middle ∧
      Step earlier middle call moved next := by
  generalize whole : before ++ call :: after = calls at replay
  induction replay generalizing after with
  | start => exact absurd whole (List.append_ne_nil_of_right_ne_nil _ (List.cons_ne_nil _ _))
  | @step calls newest cursor moved stream next replay step ih =>
    obtain rfl | ⟨between, last, rfl⟩ := List.eq_nil_or_concat after
    · obtain ⟨rfl, rfl⟩ := List.append_singleton_inj.1 whole
      exact ⟨cursor, moved, stream, next, replay, step⟩
    · rw [List.concat_eq_append, ← List.cons_append, ← List.append_assoc,
        List.append_singleton_inj] at whole
      exact ih whole.1

theorem of_append (replay : Replay columns capacity (before ++ after) cursor stream) :
    ∃ earlier middle, Replay columns capacity before earlier middle := by
  cases after with
  | nil =>
    rw [List.append_nil] at replay
    exact ⟨cursor, stream, replay⟩
  | cons call after =>
    obtain ⟨earlier, _, middle, _, first, _⟩ := replay.split
    exact ⟨earlier, middle, first⟩

theorem inOrder_of_append (replay : Replay columns capacity (before ++ after) cursor stream)
    (still_open : .closed ∉ before) : InOrder before := by
  obtain ⟨_, _, first⟩ := replay.of_append
  obtain ⟨_, standing⟩ := first.standing
  exact standing.inOrder still_open

theorem next_of_closed {result : Except QueryError Bool}
    (replay : Replay columns capacity (before ++ .next result :: after) cursor stream)
    (closed : .closed ∈ before) : result = .error .closed := by
  obtain ⟨_, _, _, _, first, step⟩ := replay.split
  obtain ⟨_, standing⟩ := first.standing
  obtain ⟨_, _, answered⟩ := standing.of_closed closed
  cases step with
  | next given =>
    cases answered.symm.trans given
    rfl

/-- Reads leave the cursor on its record. -/
theorem onRecord_of_reads {reads : List Call} {record : Record}
    (all_reads : ∀ call ∈ reads, call.isRead = true) (on_record : OnRecord before record) :
    OnRecord (before ++ reads) record := by
  induction reads using List.reverseRecOn with
  | nil => rwa [List.append_nil]
  | append_singleton reads call ih =>
    rw [← List.append_assoc]
    obtain ⟨not_closed, latest, record_eq⟩ :=
      ih fun call listed => all_reads call (List.mem_append_left _ listed)
    have is_read := all_reads call List.mem_concat_self
    cases call with
    | got index result =>
      obtain ⟨accepted_eq, _⟩ := of_no_event (before ++ reads) (.got index result) rfl
      obtain ⟨results_eq, rows_eq⟩ :=
        of_no_result (before ++ reads) (.got index result) rfl
      have closed_mem := mem_concat_iff_of_ne (before ++ reads) (.got index result) .closed nofun
      refine ⟨mt closed_mem.1 not_closed, ?_, ?_⟩
      · rw [results_eq, latest]
      · rw [accepted_eq, rows_eq, record_eq]
    | _ => cases is_read

theorem got_on_record {index : Nat} {result : Except QueryError Value} {record : Record}
    {column : Column}
    (replay : Replay columns capacity (before ++ .got index result :: after) cursor stream)
    (on_record : OnRecord before record) (at_index : columns[index]? = some column) :
    result = .ok (shown column record) := by
  obtain ⟨earlier, _, _, _, first, step⟩ := replay.split
  obtain ⟨_, standing⟩ := first.standing
  have in_step := first.inStep
  have current := (in_step.current_eq_ok record).2 ((standing.record_iff in_step record).2 on_record)
  cases step with
  | get => exact get_eq_of_current current (standing.columns_eq.symm ▸ at_index)

/-- A cursor gives its stream again, whatever the order of the calls. Until it is closed the answers are a
row for each accepted record, in the order of acceptance, then the end, a failure being told of once, and
then that there are no more; it waits only for a record or an end still to come. Once closed it gives only
that it is closed, and its stream is closed and empty. It holds a record in the position on a row, and in
no other one: the record of the latest row, which can be had just then. There a column shows the user key
or a bin of this record, however often it is read. -/
theorem follows_stream (replay : Replay columns capacity calls cursor stream) :
    (∀ before after, calls = before ++ after → .closed ∉ before → InOrder before) ∧
    (cursor.next? stream = none → .closed ∉ calls ∧ signal? calls = none ∧
      results calls = List.replicate (accepted calls).length (.ok true)) ∧
    (.closed ∈ calls → stream.closed = true ∧ stream.buffered = [] ∧
      cursor.next? stream = some (.error .closed, cursor, stream)) ∧
    (∀ before result after, calls = before ++ .next result :: after → .closed ∈ before →
      result = .error .closed) ∧
    (cursor.record.isSome = true ↔ cursor.position = .onRow) ∧
    (∀ record, (cursor.record = some record ↔ OnRecord calls record) ∧
      (cursor.current = .ok record ↔ OnRecord calls record)) ∧
    ∀ before reads index result after record column,
      calls = before ++ reads ++ .got index result :: after → OnRecord before record →
      (∀ call ∈ reads, call.isRead = true) → columns[index]? = some column →
      result = .ok (if column.name = keyField then record.userKey?.getD .nil
        else (record.bin? column.name).getD .nil) := by
  obtain ⟨_, standing⟩ := replay.standing
  have in_step := replay.inStep
  refine ⟨?in_order, standing.of_waits, standing.of_closed, ?after_close, in_step, fun record => ?held,
    ?shown⟩
  case in_order =>
    rintro before after rfl still_open
    exact replay.inOrder_of_append still_open
  case after_close =>
    rintro before result after rfl closed
    exact replay.next_of_closed closed
  case held =>
    rw [in_step.current_eq_ok, and_self]
    exact standing.record_iff in_step record
  case shown =>
    rintro before reads index result after record column rfl on_record all_reads at_index
    exact replay.got_on_record (onRecord_of_reads all_reads on_record) at_index

/-- Two rows, a failure that is told of once, and the close. -/
theorem two_rows_then_failure :
    let table : TableName := ⟨"test", "people"⟩
    let columns : List Column :=
      [⟨table, .other, "__key", "__key"⟩, ⟨table, .integer, "age", "age"⟩]
    let first : Record := { key := some ⟨table, .string "a"⟩, bins := [("age", .int 30)], generation := 1 }
    let second : Record := { key := none, bins := [], generation := 1 }
    let shown : List Call :=
      [.produced (.pushed first (some true)), .produced (.pushed second none), .next (.ok true),
        .got 1 (.ok (.int 30)), .got 0 (.ok (.string "a"))]
    let told : List Call := shown ++
      [.produced (.pushed second (some true)), .produced (.signalled (.failed .abandoned)),
        .next (.ok true), .next (.error (.store .abandoned)), .next (.ok false), .next (.ok false)]
    let cursor : Cursor := ⟨columns, none, .closed⟩
    let stream : RecordStream := ⟨.bounded 1, [], some (.failed .abandoned), true⟩
    Replay columns (.bounded 1) (told ++ [.closed, .next (.error .closed)]) cursor stream ∧
      InOrder told ∧ cursor.next? stream = some (.error .closed, cursor, stream) ∧
      (Except.ok (.string "a") : Except QueryError Value) = .ok (first.userKey?.getD .nil) := by
  intro table columns first second shown told cursor stream
  have push : Step { columns } { capacity := .bounded 1 } (.produced (.pushed first (some true)))
      { columns } ⟨.bounded 1, [first], none, false⟩ := .produce rfl rfl
  have park : Step { columns } ⟨.bounded 1, [first], none, false⟩ (.produced (.pushed second none))
      { columns } ⟨.bounded 1, [first], none, false⟩ := .produce rfl ⟨rfl, rfl⟩
  have retry : Step ⟨columns, some first, .onRow⟩ ⟨.bounded 1, [], none, false⟩
      (.produced (.pushed second (some true))) ⟨columns, some first, .onRow⟩
      ⟨.bounded 1, [second], none, false⟩ := .produce rfl rfl
  have fail : Step ⟨columns, some first, .onRow⟩ ⟨.bounded 1, [second], none, false⟩
      (.produced (.signalled (.failed .abandoned))) ⟨columns, some first, .onRow⟩
      ⟨.bounded 1, [second], some (.failed .abandoned), false⟩ := .produce rfl rfl
  have on_first : Replay columns (.bounded 1) shown ⟨columns, some first, .onRow⟩
      ⟨.bounded 1, [], none, false⟩ :=
    Replay.start.step push |>.step park |>.step (.next rfl) |>.step (.get _ _ 1)
      |>.step (.get _ _ 0)
  have ended : Replay columns (.bounded 1) told ⟨columns, none, .afterLast⟩
      ⟨.bounded 1, [], some (.failed .abandoned), false⟩ :=
    on_first.step retry |>.step fail |>.step (.next rfl) |>.step (.next rfl) |>.step (.next rfl)
      |>.step (.next rfl)
  have replay : Replay columns (.bounded 1) (told ++ [.closed, .next (.error .closed)]) cursor stream :=
    ended.step (.close _ _) |>.step (.next rfl)
  obtain ⟨in_order, _, after_close, _, _, _, reads⟩ := replay.follows_stream
  have still_open : .closed ∉ told := by simp [told, shown]
  obtain ⟨_, _, closed⟩ := after_close (by simp)
  refine ⟨replay, in_order told _ rfl still_open, closed, ?_⟩
  have on_record : OnRecord (shown.take 3) first := ⟨by simp [shown], rfl, rfl⟩
  exact reads (shown.take 3) [.got 1 (.ok (.int 30))] 0 _ _ first _ rfl on_record (by simp [isRead]) rfl

end Replay

end Cursor

end RecordQuery
