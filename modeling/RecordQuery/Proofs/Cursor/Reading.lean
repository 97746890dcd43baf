import RecordQuery.Proofs.Cursor.Replay
import RecordQuery.Proofs.Engine.Projection

/-!
Reading a cursor. There is something to read on a row and nowhere else: that is where the cursor stands if
the latest call for the next row gave one and nothing was closed since. Every read comes to the record of
the row, each in its own way, so elsewhere it is refused, as closed after the close and for want of a row
before the first and after the last. Only where there are no columns the values of all of them are read
without coming to the record, and so are never refused. No read leaves a trace: the cursor and its stream
are those of a replay in which nobody reads.
-/

namespace RecordQuery.Cursor

/-- What can be asked of the row. -/
inductive Read where
  | get (index : Nat)
  | getByLabel (label : String)
  | row
  | key
  | current

inductive Answer where
  | value (value : Value)
  | row (values : List Value)
  | key (key : Option Key)
  | record (record : Record)

def Read.answer (cursor : Cursor) : Read → Except QueryError Answer
  | .get index => (cursor.get index).map .value
  | .getByLabel label => (cursor.getByLabel label).map .value
  | .row => cursor.row.map .row
  | .key => cursor.key.map .key
  | .current => cursor.current.map .record

/-- What was done with a cursor and with the stream that it reads, with the answers. -/
inductive Use where
  | produced (event : Event)
  | next (result : Except QueryError Bool)
  | read (read : Read) (answer : Except QueryError Answer)
  | closed

/-- A new cursor over a new stream, and the uses that followed in their order. -/
inductive Session (columns : List Column) (capacity : Capacity) :
    List Use → Cursor → RecordStream → Prop
  | start : Session columns capacity [] { columns } { capacity }
  | produce {uses : List Use} {cursor : Cursor} {stream after : RecordStream} {event : Event}
    (session : Session columns capacity uses cursor stream) (by_producer : event.byProducer = true)
    (acts : event.Acts stream after) : Session columns capacity (uses ++ [.produced event]) cursor after
  | next {uses : List Use} {cursor moved : Cursor} {stream after : RecordStream}
    {result : Except QueryError Bool} (session : Session columns capacity uses cursor stream)
    (given : cursor.next? stream = some (result, moved, after)) :
    Session columns capacity (uses ++ [.next result]) moved after
  | read {uses : List Use} {cursor : Cursor} {stream : RecordStream}
    (session : Session columns capacity uses cursor stream) (read : Read) :
    Session columns capacity (uses ++ [.read read (read.answer cursor)]) cursor stream
  | close {uses : List Use} {cursor : Cursor} {stream : RecordStream}
    (session : Session columns capacity uses cursor stream) :
    Session columns capacity (uses ++ [.closed]) (cursor.close stream).1 (cursor.close stream).2

namespace Use

/-- The call of a replay, in which reads do not count. -/
def call? : Use → Option Call
  | .produced event => some (.produced event)
  | .next result => some (.next result)
  | .read _ _ => none
  | .closed => some .closed

/-- What can bring a cursor somewhere else. -/
def moves : Use → Bool
  | .next _ => true
  | .closed => true
  | _ => false

def lastMove? (uses : List Use) : Option Use := (uses.filter moves).getLast?

/-- The latest call for the next row gave one, and nothing was closed since. -/
def OnRow (uses : List Use) : Prop := lastMove? uses = some (.next (.ok true))

/-- Why there is no row to read. -/
def Refused (uses : List Use) : QueryError → Prop
  | .closed => .closed ∈ uses
  | .noCurrentRow => .closed ∉ uses ∧ ¬OnRow uses
  | _ => False

variable (uses : List Use) {use : Use}

theorem lastMove?_concat (moved : use.moves = true) : lastMove? (uses ++ [use]) = some use := by
  rw [lastMove?, List.filter_append, List.filter_singleton, moved, cond_true,
    List.getLast?_concat]

theorem onRow_concat_next (result : Except QueryError Bool) :
    OnRow (uses ++ [.next result]) ↔ result = .ok true := by
  rw [OnRow, lastMove?_concat uses rfl, Option.some.injEq, next.injEq]

theorem not_onRow_concat_closed : ¬OnRow (uses ++ [.closed]) := by
  rw [OnRow, lastMove?_concat uses rfl]
  exact fun same => nomatch same

theorem onRow_concat (stays : use.moves = false) : OnRow (uses ++ [use]) ↔ OnRow uses := by
  have unmoved : lastMove? (uses ++ [use]) = lastMove? uses := by
    rw [lastMove?, List.filter_append, List.filter_singleton, stays, cond_false,
      List.append_nil, lastMove?]
  rw [OnRow, unmoved, OnRow]

end Use

open Use

variable {cursor moved : Cursor} {stream after : RecordStream}

/-- A call brings the cursor onto a row exactly if it says so. -/
theorem onRow_of_next? {result : Except QueryError Bool}
    (given : cursor.next? stream = some (result, moved, after)) :
    moved.position = .onRow ↔ result = .ok true := by
  obtain ⟨_, ⟨record, _, rfl, rfl⟩ | ⟨terminal, _, rfl, rfl⟩⟩ | ⟨not_reading, no_row, rfl, _⟩ :=
    next?_cases given
  · exact iff_of_true rfl rfl
  · refine iff_of_false (fun on => nomatch on) ?_
    cases terminal <;> exact fun same => nomatch same
  · exact iff_of_false (fun on => not_reading (Or.inr on)) no_row

theorem position_of_isClosed (closed : cursor.isClosed = true) : cursor.position = .closed :=
  eq_of_beq closed

/-- Where the record of the row cannot be had, nothing else can, except for the values of no columns. -/
theorem refused_of_current {error : QueryError} (refused : cursor.current = .error error) :
    cursor.key = .error error ∧ (∀ index, cursor.get index = .error error) ∧
      (cursor.columns ≠ [] → cursor.row = .error error) ∧
      ∀ label, cursor.getByLabel label = (cursor.findColumn label).bind fun _ => .error error := by
  have get_refused (index : Nat) : cursor.get index = .error error := by
    rw [get, refused]
    rfl
  refine ⟨?key, get_refused, fun some_column => ?row, fun label => ?label⟩
  case key =>
    rw [key, refused]
    rfl
  case row =>
    obtain ⟨count, length⟩ := Nat.exists_eq_add_one_of_ne_zero (mt List.length_eq_zero_iff.1 some_column)
    rw [row, length, List.range_succ_eq_map, List.mapM_cons, get_refused]
    rfl
  case label =>
    rw [getByLabel]
    cases cursor.findColumn label with
    | error unknown => rfl
    | ok index => exact get_refused index

theorem row_of_no_columns (none_shown : cursor.columns = []) : cursor.row = .ok [] := by
  rw [row, none_shown]
  rfl

namespace Session

variable {columns : List Column} {capacity : Capacity} {uses : List Use}

/-- The reads can be left out. -/
theorem replay (session : Session columns capacity uses cursor stream) :
    Replay columns capacity (uses.filterMap call?) cursor stream := by
  induction session with
  | start => exact .start
  | produce _ by_producer acts ih =>
    rw [List.filterMap_append]
    exact ih.step (.produce by_producer acts)
  | next _ given ih =>
    rw [List.filterMap_append]
    exact ih.step (.next given)
  | read _ _ ih =>
    rw [List.filterMap_append]
    exact (List.append_nil _).symm ▸ ih
  | close _ ih =>
    rw [List.filterMap_append]
    exact ih.step (.close _ _)

theorem columns_eq (session : Session columns capacity uses cursor stream) :
    cursor.columns = columns := by
  obtain ⟨_, standing⟩ := session.replay.standing
  exact standing.columns_eq

theorem isClosed_iff (session : Session columns capacity uses cursor stream) :
    cursor.isClosed = true ↔ .closed ∈ uses := by
  obtain ⟨_, standing⟩ := session.replay.standing
  rw [standing.isClosed_iff, List.mem_filterMap]
  constructor
  · rintro ⟨use, mem, same⟩
    cases use <;> cases same
    exact mem
  · intro mem
    exact ⟨.closed, mem, rfl⟩

/-- The latest move tells whether the cursor stands on a row. -/
theorem onRow_iff (session : Session columns capacity uses cursor stream) :
    cursor.position = .onRow ↔ OnRow uses := by
  induction session with
  | start => exact iff_of_false (fun on => nomatch on) (fun on => nomatch on)
  | produce _ _ _ ih => rw [onRow_concat _ rfl, ih]
  | next _ given _ => rw [onRow_concat_next, onRow_of_next? given]
  | read _ _ ih => rw [onRow_concat _ rfl, ih]
  | @close uses cursor stream _ _ =>
    refine iff_of_false ?_ (not_onRow_concat_closed _)
    intro on
    have position := position_of_isClosed (isClosed_close cursor stream)
    rw [on] at position
    cases position

theorem current_of_refused (session : Session columns capacity uses cursor stream) {error : QueryError}
    (refused : Refused uses error) : cursor.current = .error error := by
  cases error with
  | closed => rw [current, position_of_isClosed (session.isClosed_iff.2 refused)]
  | noCurrentRow =>
    obtain ⟨still_open, off_row⟩ := refused
    have not_closed := mt session.isClosed_iff.1 still_open
    have not_on := mt session.onRow_iff.1 off_row
    have no_record : cursor.record = none :=
      Option.not_isSome_iff_eq_none.1 (mt session.replay.inStep.1 not_on)
    rw [current, no_record]
    split
    · next position => exact absurd (beq_iff_eq.2 position) not_closed
    · rfl
  | _ => exact refused.elim

/-- Off the row there is always a reason. -/
theorem refused_of_off_row (off_row : ¬OnRow uses) : ∃ error, Refused uses error := by
  by_cases closed : .closed ∈ uses
  · exact ⟨.closed, closed⟩
  · exact ⟨.noCurrentRow, closed, off_row⟩

/-- What is read off the row is the empty row of a cursor without columns. -/
theorem read_off_row (session : Session columns capacity uses cursor stream) (off_row : ¬OnRow uses)
    {read : Read} {answer : Answer} (answered : read.answer cursor = .ok answer) :
    read = .row ∧ columns = [] := by
  obtain ⟨error, refused⟩ := refused_of_off_row off_row
  have current := session.current_of_refused refused
  obtain ⟨key, get, row, label⟩ := refused_of_current current
  cases read with
  | get index =>
    rw [Read.answer, get] at answered
    cases answered
  | getByLabel name =>
    rw [Read.answer, label] at answered
    cases found : cursor.findColumn name with
    | error unknown =>
      rw [found] at answered
      cases answered
    | ok index =>
      rw [found] at answered
      cases answered
  | row =>
    refine ⟨rfl, Decidable.byContradiction fun some_column => ?_⟩
    rw [Read.answer, row (session.columns_eq ▸ some_column)] at answered
    cases answered
  | key =>
    rw [Read.answer, key] at answered
    cases answered
  | current =>
    rw [Read.answer, current] at answered
    cases answered

theorem read_on_row (session : Session columns capacity uses cursor stream) (on_row : OnRow uses) :
    ∃ record, cursor.current = .ok record ∧ cursor.key = .ok record.key ∧
      cursor.row = .ok (record.rowUnder columns) ∧
      ∀ index column, columns[index]? = some column → cursor.get index = .ok (shown column record) ∧
        ∀ label, cursor.findColumn label = .ok index →
          cursor.getByLabel label = .ok (shown column record) := by
  have on := session.onRow_iff.2 on_row
  obtain ⟨record, held⟩ := Option.isSome_iff_exists.1 (session.replay.inStep.2 on)
  obtain ⟨shown_columns, kept, position⟩ := cursor
  obtain rfl : shown_columns = columns := session.columns_eq
  obtain rfl : kept = some record := held
  obtain rfl : position = .onRow := on
  refine ⟨record, rfl, rfl, row_onRow .., fun index column at_index => ?_⟩
  have given : get ⟨shown_columns, some record, .onRow⟩ index = .ok (shown column record) :=
    get_eq_of_current rfl at_index
  refine ⟨given, fun label found => ?_⟩
  rw [getByLabel, found]
  exact given

/-- A cursor is read on a row and nowhere else, whatever has been done with it: where the latest call for
the next row gave one and nothing was closed since. There every column has a value. Elsewhere each read is
refused, after the close as closed, and otherwise for want of a row. The exception is the row of a cursor
without columns, which is read everywhere. The reads leave no trace on the cursor or its stream. -/
theorem readable_on_row_only (session : Session columns capacity uses cursor stream) :
    (∀ (read : Read) (answer : Answer), read.answer cursor = .ok answer →
      OnRow uses ∨ read = .row ∧ columns = []) ∧
    (OnRow uses → ∃ record, cursor.current = .ok record ∧ cursor.key = .ok record.key ∧
      cursor.row = .ok (record.rowUnder columns) ∧
      ∀ index column, columns[index]? = some column → cursor.get index = .ok (shown column record) ∧
        ∀ label, cursor.findColumn label = .ok index →
          cursor.getByLabel label = .ok (shown column record)) ∧
    (∀ error, Refused uses error →
      cursor.current = .error error ∧ cursor.key = .error error ∧
      (∀ index, cursor.get index = .error error) ∧
      (∀ label, cursor.getByLabel label = (cursor.findColumn label).bind fun _ => .error error) ∧
      (columns ≠ [] → cursor.row = .error error)) ∧
    (columns = [] → cursor.row = .ok []) ∧
    Replay columns capacity (uses.filterMap call?) cursor stream := by
  refine ⟨fun read answer answered => ?on_row_only, session.read_on_row, fun error refused => ?refused,
    fun none_shown => row_of_no_columns (session.columns_eq.trans none_shown), session.replay⟩
  case on_row_only =>
    by_cases on_row : OnRow uses
    · exact Or.inl on_row
    · exact Or.inr (session.read_off_row on_row answered)
  case refused =>
    have current := session.current_of_refused refused
    obtain ⟨key, get, row, label⟩ := refused_of_current current
    exact ⟨current, key, get, label, session.columns_eq ▸ row⟩

/-- Before the first row there is nothing to read, on it there is, and once closed there is nothing again. -/
theorem person_read_on_row_only :
    let table : TableName := ⟨"test", "people"⟩
    let columns : List Column :=
      [⟨table, .other, "__key", "__key"⟩, ⟨table, .integer, "age", "age"⟩]
    let person : Record :=
      { key := some ⟨table, .string "a"⟩, bins := [("age", .int 30)], generation := 1 }
    let pushed : List Use :=
      [.read .row (.error .noCurrentRow), .produced (.pushed person (some true))]
    let shown : List Use :=
      pushed ++ [.next (.ok true), .read .row (.ok (.row [.string "a", .int 30]))]
    let closed : Cursor := ⟨columns, none, .closed⟩
    Session columns .unbounded (shown ++ [.closed]) closed ⟨.unbounded, [], none, true⟩ ∧
      Cursor.row { columns } = .error .noCurrentRow ∧
      Read.answer ⟨columns, some person, .onRow⟩ .row = .ok (.row [.string "a", .int 30]) ∧ OnRow shown ∧
      closed.row = .error .closed ∧ closed.key = .error .closed := by
  intro table columns person pushed shown closed
  have before : Session columns .unbounded pushed { columns } ⟨.unbounded, [person], none, false⟩ :=
    Session.start.read .row |>.produce rfl rfl
  have on_row : Session columns .unbounded shown ⟨columns, some person, .onRow⟩
      ⟨.unbounded, [], none, false⟩ :=
    before.next rfl |>.read .row
  have after : Session columns .unbounded (shown ++ [.closed]) closed ⟨.unbounded, [], none, true⟩ :=
    on_row.close
  have not_yet : Refused pushed .noCurrentRow := ⟨by simp [pushed], fun on => nomatch on⟩
  have no_more : Refused (shown ++ [.closed]) .closed := List.mem_concat_self
  obtain ⟨_, _, refused_before, _⟩ := before.readable_on_row_only
  obtain ⟨only_on_row, _⟩ := on_row.readable_on_row_only
  obtain ⟨_, _, refused_after, _⟩ := after.readable_on_row_only
  obtain ⟨_, _, _, _, row_before⟩ := refused_before _ not_yet
  obtain ⟨_, key_after, _, _, row_after⟩ := refused_after _ no_more
  have answered : Read.answer ⟨columns, some person, .onRow⟩ .row = .ok (.row [.string "a", .int 30]) := rfl
  have read_there : OnRow shown := (only_on_row .row _ answered).resolve_right fun ⟨_, none_shown⟩ =>
    nomatch none_shown
  exact ⟨after, row_before nofun, answered, read_there, row_after nofun, key_after⟩

/-- Without columns the row is read before the first one, and of a closed cursor. -/
theorem row_without_columns_read_anywhere :
    let closed : Cursor := ⟨[], none, .closed⟩
    Session [] .unbounded [] { columns := [] } { capacity := .unbounded } ∧ ¬OnRow [] ∧
      Read.answer { columns := [] } .row = .ok (.row []) ∧
      Session [] .unbounded [.closed] closed ⟨.unbounded, [], none, true⟩ ∧ Refused [.closed] .closed ∧
      ¬OnRow [.closed] ∧ Read.answer closed .row = .ok (.row []) := by
  intro closed
  have after_close : Session [] .unbounded [.closed] closed ⟨.unbounded, [], none, true⟩ :=
    Session.start.close
  have not_yet : ¬OnRow [] := fun on => nomatch on
  exact ⟨.start, not_yet, rfl, after_close, List.mem_cons_self, not_onRow_concat_closed [], rfl⟩

end Session

end RecordQuery.Cursor
