import RecordQuery.Proofs.Decimal.Layout
import RecordQuery.Proofs.Json.Document

/-!
What is written is read back. The text of a value is read by as many steps as it has characters, whatever
follows it, so that the parts of a container can be read one after the other up to its end. Every value
comes back as it was, but for the doubles: of a double its numeral comes back, to which it is the nearest
double, and null if it is no number.
-/

namespace RecordQuery.Json

open RecordQuery.Text (hexDigit hexDigit? hexDigit?_hexDigit)

/-- A piece of a string that stands for a character. -/
inductive PieceOf : Reader.Piece → Char → Prop
  | char (c : Char) : PieceOf (.char c) c
  | control {c : Char} (low : c < ' ') : PieceOf (.unit c.toNat) c

/-- A character is read from its escape. -/
theorem pieces_escape (found : List Reader.Piece) (c : Char) (rest : List Char) :
    ∃ piece, PieceOf piece c ∧
      Reader.pieces found (escape c ++ rest) = Reader.pieces (piece :: found) rest := by
  unfold escape
  split_ifs with quote backslash backspace formFeed lineFeed carriageReturn tab low
  · exact ⟨_, .char c, by rw [quote]; rfl⟩
  · exact ⟨_, .char c, by rw [backslash]; rfl⟩
  · exact ⟨_, .char c, by rw [backspace]; rfl⟩
  · exact ⟨_, .char c, by rw [formFeed]; rfl⟩
  · exact ⟨_, .char c, by rw [lineFeed]; rfl⟩
  · exact ⟨_, .char c, by rw [carriageReturn]; rfl⟩
  · exact ⟨_, .char c, by rw [tab]; rfl⟩
  · have bound : c.toNat < 32 := low
    have high : hexDigit? (hexDigit (c.toNat / 16)) = some (c.toNat / 16) := hexDigit?_hexDigit (by omega)
    have last : hexDigit? (hexDigit (c.toNat % 16)) = some (c.toNat % 16) := hexDigit?_hexDigit (by omega)
    have zero : hexDigit? '0' = some 0 := by decide
    have whole : c.toNat / 16 * 16 + c.toNat % 16 = c.toNat := by omega
    exact ⟨_, .control low, by simp [Reader.pieces, high, last, zero, whole]⟩
  · exact ⟨_, .char c, by simp [Reader.pieces, backslash, low]⟩

theorem pieces_flatMap (characters : List Char) (found : List Reader.Piece) (rest : List Char) :
    ∃ pieces, List.Forall₂ PieceOf pieces characters ∧
      Reader.pieces found (characters.flatMap escape ++ '"' :: rest) =
        some (found.reverse ++ pieces, rest) := by
  induction characters generalizing found with
  | nil => exact ⟨[], .nil, by simp [Reader.pieces]⟩
  | cons c characters ih =>
    obtain ⟨piece, piece_of, first⟩ := pieces_escape found c (characters.flatMap escape ++ '"' :: rest)
    obtain ⟨pieces, others, read⟩ := ih (piece :: found)
    refine ⟨piece :: pieces, .cons piece_of others, ?_⟩
    rw [List.flatMap_cons, List.append_assoc, first, read]
    simp

theorem characters?_of_pieces {pieces : List Reader.Piece} {characters : List Char}
    (pieces_of : List.Forall₂ PieceOf pieces characters) (found : List Char) :
    Reader.characters? found pieces = some (found.reverse ++ characters) := by
  induction pieces_of generalizing found with
  | nil => simp [Reader.characters?]
  | @cons piece c pieces characters piece_of others ih =>
    cases piece_of with
    | char => simp [Reader.characters?, ih]
    | control low =>
      have bound : c.toNat < 32 := low
      have no_surrogate : ¬(0xD800 ≤ c.toNat ∧ c.toNat < 0xDC00) ∧ ¬(0xDC00 ≤ c.toNat ∧ c.toNat < 0xE000) ∧
          ¬(0xD800 ≤ c.toNat ∧ c.toNat < 0xE000) := by omega
      have read : Reader.characters? found (.unit c.toNat :: pieces) =
          Reader.characters? (Char.ofNat c.toNat :: found) pieces := by
        obtain - | ⟨_ | _, _⟩ := others <;> simp [Reader.characters?, no_surrogate]
      rw [read, ih, Char.ofNat_toNat]
      simp

theorem string_flatMap (text : String) (rest : List Char) :
    Reader.string (text.toList.flatMap escape ++ '"' :: rest) = some (some text, rest) := by
  obtain ⟨pieces, pieces_of, read⟩ := pieces_flatMap text.toList [] rest
  simp [Reader.string, read, characters?_of_pieces pieces_of]

theorem toList_quote (text : String) :
    (quote text).toList = '"' :: (text.toList.flatMap escape ++ ['"']) := by
  simp [quote]

/-- What is read for a value that was written. A double is read from a numeral to which it is the nearest
double, and one that is no number is written as null. -/
inductive ReadsAs : Json → Document → Prop
  | null : ReadsAs .null .null
  | bool (value : Bool) : ReadsAs (.bool value) (.bool value)
  | int (value : Int) : ReadsAs (.int value) (.int value)
  | float {x : Float} {p : ℚ} {numeral : Numeral} (no_integer : numeral.integer? = none)
    (sign : numeral.negative = FloatLayout.isNegative x) (nearest : NearestDouble numeral.number x p) :
    ReadsAs (.float x) numeral.document
  | noNumber {x : Float} (no_number : x.isFinite = false) : ReadsAs (.float x) .null
  | string (value : String) : ReadsAs (.string value) (.string value)
  | array {items : List Json} {documents : List Document} (length_eq : items.length = documents.length)
    (each : ∀ pair ∈ items.zip documents, ReadsAs pair.1 pair.2) : ReadsAs (.array items) (.array documents)
  | object {fields : Fields Json} {documents : Fields Document} (names_eq : fields.names = documents.names)
    (each : ∀ pair ∈ fields.zip documents, ReadsAs pair.1.2 pair.2.2) :
    ReadsAs (.object fields) (.object documents)

/-- Integers that 64 bits can hold, in at most so many containers. -/
inductive Writable : Nat → Json → Prop
  | null (depth : Nat) : Writable depth .null
  | bool (depth : Nat) (value : Bool) : Writable depth (.bool value)
  | int (depth : Nat) {value : Int} (least : Int64.minValue.toInt ≤ value) (greatest : value < UInt64.size) :
    Writable depth (.int value)
  | float (depth : Nat) (value : Float) : Writable depth (.float value)
  | string (depth : Nat) (value : String) : Writable depth (.string value)
  | array {depth : Nat} {items : List Json} (items_writable : ∀ item ∈ items, Writable depth item) :
    Writable (depth + 1) (.array items)
  | object {depth : Nat} {fields : Fields Json} (values_writable : ∀ field ∈ fields, Writable depth field.2) :
    Writable (depth + 1) (.object fields)

theorem Writable.mono {depth more : Nat} {json : Json} (writable : Writable depth json) (le : depth ≤ more) :
    Writable more json := by
  induction writable generalizing more with
  | null => exact .null more
  | bool _ value => exact .bool more value
  | int _ least greatest => exact .int more least greatest
  | float _ value => exact .float more value
  | string _ value => exact .string more value
  | array _ ih =>
    obtain ⟨more, rfl⟩ := Nat.exists_eq_add_of_le' le
    exact .array fun item mem => ih item mem (Nat.le_add_left _ more)
  | object _ ih =>
    obtain ⟨more, rfl⟩ := Nat.exists_eq_add_of_le' le
    exact .object fun field mem => ih field mem (Nat.le_add_left _ more)

/-- The text of the value is read, whatever follows, by as many steps as it has characters. -/
def ReadsBack (depth : Nat) (json : Json) : Prop :=
  ∀ (fuel : Nat) (rest : List Char), json.write.toList.length ≤ fuel → EndsNumeral rest →
    ∃ document, json.ReadsAs document ∧
      Reader.value fuel depth (json.write.toList ++ rest) = some (document, rest)

namespace Reader

theorem skipBlanks_of_head {c : Char} (rest : List Char)
    (solid : c ≠ ' ' ∧ c ≠ '\t' ∧ c ≠ '\n' ∧ c ≠ '\r') : skipBlanks (c :: rest) = c :: rest := by
  simp [skipBlanks, solid]

theorem skipBlanks_skipBlanks (text : List Char) : skipBlanks (skipBlanks text) = skipBlanks text := by
  induction text with
  | nil => rfl
  | cons c rest ih =>
    by_cases blank : c = ' ' ∨ c = '\t' ∨ c = '\n' ∨ c = '\r'
    · have skipped : skipBlanks (c :: rest) = skipBlanks rest := by
        simp [skipBlanks, or_assoc, blank]
      rw [skipped, ih]
    · rw [not_or, not_or, not_or] at blank
      rw [skipBlanks_of_head rest blank, skipBlanks_of_head rest blank]

theorem value_skipBlanks (fuel depth : Nat) (text : List Char) :
    value fuel depth (skipBlanks text) = value fuel depth text := by
  cases fuel with
  | zero => rfl
  | succ fuel => rw [value, value, skipBlanks_skipBlanks]

theorem elements_skipBlanks (fuel depth : Nat) (text : List Char) :
    elements fuel depth (skipBlanks text) = elements fuel depth text := by
  cases fuel with
  | zero => rfl
  | succ fuel => rw [elements, elements, value_skipBlanks]

/-- A number begins with a digit or with its sign. -/
theorem head_of_number {text : List Char} {document : Document} {rest : List Char}
    (read : number text = some (document, rest)) :
    ∃ c others, text = c :: others ∧ (c = '-' ∨ c.isDigit = true) := by
  cases text with
  | nil => cases read
  | cons c others =>
    refine ⟨c, others, rfl, ?_⟩
    by_contra neither
    rw [not_or] at neither
    have no_minus : minus (c :: others) = (false, c :: others) := by
      simp [minus, neither.1]
    have no_digit : Reader.whole (c :: others) = none := by
      simp [Reader.whole, digits, neither.2]
    rw [number, Reader.numeral, no_minus] at read
    simp only [no_digit] at read
    cases read

theorem value_of_number {text : List Char} {document : Document} {rest : List Char}
    (read : number text = some (document, rest)) (fuel depth : Nat) :
    value (fuel + 1) depth text = some (document, rest) := by
  obtain ⟨c, others, rfl, head⟩ := head_of_number read
  have other (d : Char) (no_numeral : ¬(d = '-' ∨ d.isDigit = true)) : c ≠ d :=
    fun same => no_numeral (same ▸ head)
  have solid : c ≠ ' ' ∧ c ≠ '\t' ∧ c ≠ '\n' ∧ c ≠ '\r' :=
    ⟨other _ (by decide), other _ (by decide), other _ (by decide), other _ (by decide)⟩
  rw [value, skipBlanks_of_head others solid]
  split
  case h_7 => exact read
  all_goals
    next same => exact absurd (List.cons.inj same).1 (other _ (by decide))

theorem members_skipBlanks (fuel depth : Nat) (text : List Char) :
    members fuel depth (skipBlanks text) = members fuel depth text := by
  cases fuel with
  | zero => rfl
  | succ fuel => rw [members, members, skipBlanks_skipBlanks]

/-- No element begins with the closing bracket. -/
theorem elements_closing (fuel depth : Nat) (rest : List Char) :
    elements fuel depth (']' :: rest) = none := by
  cases fuel with
  | zero => rfl
  | succ fuel => cases fuel <;> rfl

/-- No field begins with the closing brace. -/
theorem members_closing (fuel depth : Nat) (rest : List Char) :
    members fuel depth ('\x7d' :: rest) = none := by
  cases fuel <;> rfl

section Steps

variable {fuel depth : Nat} {text rest : List Char} {document : Document}

theorem elements_last (read : value fuel depth text = some (document, ']' :: rest)) :
    elements (fuel + 1) depth text = some ([document], rest) := by
  have solid : skipBlanks (']' :: rest) = ']' :: rest := skipBlanks_of_head rest (by decide)
  simp only [elements, read, Option.bind_eq_bind, Option.bind_some, solid]
  rfl

theorem elements_comma {documents : List Document} {later : List Char}
    (read : value fuel depth text = some (document, ',' :: later))
    (others : elements fuel depth later = some (documents, rest)) :
    elements (fuel + 1) depth text = some (document :: documents, rest) := by
  have solid : skipBlanks (',' :: later) = ',' :: later := skipBlanks_of_head later (by decide)
  simp only [elements, read, Option.bind_eq_bind, Option.bind_some, solid, others]
  rfl

variable {name : String} {body : List Char}

theorem members_last (read_name : string text = some (some name, ':' :: body))
    (read : value fuel depth body = some (document, '\x7d' :: rest)) :
    members (fuel + 1) depth ('"' :: text) = some (some [(name, document)], rest) := by
  have quoted : skipBlanks ('"' :: text) = '"' :: text := skipBlanks_of_head text (by decide)
  have solid : skipBlanks (':' :: body) = ':' :: body := skipBlanks_of_head body (by decide)
  have closed : skipBlanks ('\x7d' :: rest) = '\x7d' :: rest := skipBlanks_of_head rest (by decide)
  simp only [members, quoted, read_name, read, Option.bind_eq_bind, Option.bind_some, solid, closed]
  rfl

theorem members_comma {documents : Fields Document} {later : List Char}
    (read_name : string text = some (some name, ':' :: body))
    (read : value fuel depth body = some (document, ',' :: later))
    (others : members fuel depth later = some (some documents, rest)) :
    members (fuel + 1) depth ('"' :: text) = some (some ((name, document) :: documents), rest) := by
  have quoted : skipBlanks ('"' :: text) = '"' :: text := skipBlanks_of_head text (by decide)
  have solid : skipBlanks (':' :: body) = ':' :: body := skipBlanks_of_head body (by decide)
  have comma : skipBlanks (',' :: later) = ',' :: later := skipBlanks_of_head later (by decide)
  simp only [members, quoted, read_name, read, Option.bind_eq_bind, Option.bind_some, solid, comma, others]
  rfl

theorem value_array {documents : List Document} (read : elements fuel depth text = some (documents, rest)) :
    value (fuel + 1) (depth + 1) ('[' :: text) = some (.array documents, rest) := by
  have opened : skipBlanks ('[' :: text) = '[' :: text := skipBlanks_of_head text (by decide)
  rw [← elements_skipBlanks] at read
  simp only [value, opened]
  split
  · next closed =>
    rw [closed, elements_closing] at read
    cases read
  · rw [Nat.add_sub_cancel, read]
    rfl

theorem value_object {documents : Fields Document}
    (read : members fuel depth text = some (some documents, rest)) :
    value (fuel + 1) (depth + 1) ('\x7b' :: text) = some (.object documents, rest) := by
  have opened : skipBlanks ('\x7b' :: text) = '\x7b' :: text := skipBlanks_of_head text (by decide)
  rw [← members_skipBlanks] at read
  simp only [value, opened]
  split
  · next closed =>
    rw [closed, members_closing] at read
    cases read
  · rw [Nat.add_sub_cancel, read]
    rfl

end Steps

end Reader

theorem endsNumeral_cons {c : Char} (rest : List Char)
    (other : c.isDigit = false ∧ c ≠ '.' ∧ c ≠ 'e' ∧ c ≠ 'E') : EndsNumeral (c :: rest) := by
  rintro _ ⟨⟩
  exact other

/-- Elements are read up to the closing bracket. -/
theorem elements_writeItems {depth : Nat} {items : List Json} (some_item : items ≠ [])
    (read_back : ∀ item ∈ items, ReadsBack depth item) (fuel : Nat) (rest : List Char)
    (enough : (String.intercalate "," (writeItems items)).toList.length < fuel) :
    ∃ documents, List.Forall₂ ReadsAs items documents ∧
      Reader.elements fuel depth ((String.intercalate "," (writeItems items)).toList ++ ']' :: rest) =
        some (documents, rest) := by
  induction items generalizing fuel with
  | nil => exact absurd rfl some_item
  | cons item others ih =>
    obtain ⟨fuel, rfl⟩ := Nat.exists_eq_add_one.2 (Nat.zero_lt_of_lt enough)
    obtain ⟨first, later⟩ := List.forall_mem_cons.1 read_back
    -- A comma stands only between two elements, and makes up for the step that the first one takes.
    cases others with
    | nil =>
      rw [writeItems, writeItems, String.intercalate_singleton] at enough ⊢
      obtain ⟨document, reads_as, read⟩ := first fuel _ (Nat.le_of_lt_succ enough)
        (endsNumeral_cons (c := ']') rest (by decide))
      exact ⟨[document], .cons reads_as .nil, Reader.elements_last read⟩
    | cons next others =>
      have text : (String.intercalate "," (writeItems (item :: next :: others))).toList =
          item.write.toList ++ ',' :: (String.intercalate "," (writeItems (next :: others))).toList := by
        rw [writeItems, writeItems, String.intercalate_cons_cons, String.toList_append, String.toList_append,
          List.append_assoc]
        rfl
      rw [text, List.length_append, List.length_cons] at enough
      obtain ⟨document, reads_as, read⟩ := first fuel _ (by omega)
        (endsNumeral_cons (c := ',') _ (by decide))
      obtain ⟨documents, others_read_as, others_read⟩ :=
        ih (List.cons_ne_nil _ _) later fuel (by omega)
      refine ⟨document :: documents, .cons reads_as others_read_as, ?_⟩
      rw [text, List.append_assoc, List.cons_append]
      exact Reader.elements_comma read others_read

/-- Fields are read up to the closing brace. -/
theorem members_writeFields {depth : Nat} {fields : Fields Json} (some_field : fields ≠ [])
    (read_back : ∀ field ∈ fields, ReadsBack depth field.2) (fuel : Nat) (rest : List Char)
    (enough : (String.intercalate "," (writeFields fields)).toList.length < fuel) :
    ∃ documents : Fields Document,
      List.Forall₂ (fun field document => field.1 = document.1 ∧ field.2.ReadsAs document.2)
        fields documents ∧
      Reader.members fuel depth ((String.intercalate "," (writeFields fields)).toList ++ '\x7d' :: rest) =
        some (some documents, rest) := by
  induction fields generalizing fuel with
  | nil => exact absurd rfl some_field
  | cons field others ih =>
    obtain ⟨name, json⟩ := field
    obtain ⟨fuel, rfl⟩ := Nat.exists_eq_add_one.2 (Nat.zero_lt_of_lt enough)
    obtain ⟨first, later⟩ := List.forall_mem_cons.1 read_back
    have text_of_field : (quote name ++ ":" ++ json.write).toList =
        '"' :: (name.toList.flatMap escape ++ '"' :: ':' :: json.write.toList) := by
      rw [String.toList_append, String.toList_append, toList_quote]
      simp
    cases others with
    | nil =>
      rw [writeFields, writeFields, String.intercalate_singleton, text_of_field] at enough ⊢
      rw [List.length_cons, List.length_append, List.length_cons, List.length_cons] at enough
      obtain ⟨document, reads_as, read⟩ := first fuel _ (by dsimp only; omega)
        (endsNumeral_cons (c := '\x7d') rest (by decide))
      refine ⟨[(name, document)], .cons ⟨rfl, reads_as⟩ .nil, ?_⟩
      simp only [List.cons_append, List.append_assoc]
      exact Reader.members_last (string_flatMap name _) read
    | cons next others =>
      have text : (String.intercalate "," (writeFields ((name, json) :: next :: others))).toList =
          '"' :: (name.toList.flatMap escape ++ '"' :: ':' :: (json.write.toList ++
            ',' :: (String.intercalate "," (writeFields (next :: others))).toList)) := by
        obtain ⟨nextName, nextJson⟩ := next
        rw [writeFields, writeFields, String.intercalate_cons_cons, String.toList_append,
          String.toList_append, text_of_field]
        simp only [List.cons_append, List.append_assoc]
        rfl
      rw [text, List.length_cons, List.length_append, List.length_cons, List.length_cons, List.length_append,
        List.length_cons] at enough
      obtain ⟨document, reads_as, read⟩ := first fuel _ (by dsimp only; omega)
        (endsNumeral_cons (c := ',') _ (by decide))
      obtain ⟨documents, others_read_as, others_read⟩ :=
        ih (List.cons_ne_nil _ _) later fuel (by omega)
      refine ⟨(name, document) :: documents, .cons ⟨rfl, reads_as⟩ others_read_as, ?_⟩
      rw [text]
      simp only [List.cons_append, List.append_assoc]
      exact Reader.members_comma (string_flatMap name _) read others_read

theorem ReadsAs.array_of_forall₂ {items : List Json} {documents : List Document}
    (each : List.Forall₂ ReadsAs items documents) : ReadsAs (.array items) (.array documents) := by
  obtain ⟨length_eq, each⟩ := List.forall₂_iff_zip.1 each
  exact .array length_eq fun pair mem => each mem

theorem ReadsAs.object_of_forall₂ {fields : Fields Json} {documents : Fields Document}
    (each : List.Forall₂ (fun field document => field.1 = document.1 ∧ field.2.ReadsAs document.2)
      fields documents) : ReadsAs (.object fields) (.object documents) := by
  have names_eq : fields.names = documents.names := by
    induction each with
    | nil => rfl
    | cons first _ ih => exact congrArg₂ List.cons first.1 ih
  obtain ⟨_, each⟩ := List.forall₂_iff_zip.1 each
  exact .object names_eq fun pair mem => (each mem).2

theorem readsBack_of_number {json : Json}
    (reads : ∀ rest : List Char, EndsNumeral rest → ∃ document, json.ReadsAs document ∧
      Reader.number (json.write.toList ++ rest) = some (document, rest)) (depth : Nat) :
    ReadsBack depth json := by
  intro fuel rest enough ends
  have some_text : 0 < json.write.toList.length := by
    obtain ⟨_, _, read⟩ := reads [] nofun
    obtain ⟨c, others, text, _⟩ := Reader.head_of_number read
    rw [List.append_nil] at text
    rw [text]
    exact Nat.succ_pos _
  obtain ⟨fuel, rfl⟩ := Nat.exists_eq_add_one.2 (Nat.lt_of_lt_of_le some_text enough)
  obtain ⟨document, reads_as, read⟩ := reads rest ends
  exact ⟨document, reads_as, Reader.value_of_number read fuel depth⟩

theorem readsBack_null {json : Json} (depth : Nat) (text : json.write = "null")
    (reads_as : json.ReadsAs .null) : ReadsBack depth json := by
  intro fuel rest enough _
  rw [text] at enough ⊢
  obtain ⟨fuel, rfl⟩ := Nat.exists_eq_add_one.2 (Nat.lt_of_lt_of_le (by decide) enough)
  exact ⟨.null, reads_as, rfl⟩

theorem readsBack_float (depth : Nat) (x : Float) : ReadsBack depth (.float x) := by
  by_cases finite : x.isFinite = true
  · refine readsBack_of_number (fun rest ends => ?_) depth
    obtain ⟨numeral, p, read, no_integer, sign, nearest⟩ := Decimal.numeral_writeFloat finite ends
    refine ⟨numeral.document, .float no_integer sign nearest, ?_⟩
    rw [write, Reader.number, read, Option.map_some]
  · refine readsBack_null depth ?_ (.noNumber (Bool.eq_false_of_not_eq_true finite))
    rw [write, writeFloat, if_neg finite]

theorem readsBack_array {depth : Nat} {items : List Json}
    (read_back : ∀ item ∈ items, ReadsBack depth item) : ReadsBack (depth + 1) (.array items) := by
  intro fuel rest enough _
  have text : (write (.array items)).toList =
      '[' :: ((String.intercalate "," (writeItems items)).toList ++ [']']) := by
    rw [write, String.toList_append, String.toList_append]
    rfl
  rw [text] at enough ⊢
  rw [List.length_cons, List.length_append, List.length_singleton] at enough
  obtain ⟨fuel, rfl⟩ := Nat.exists_eq_add_one.2 (show 0 < fuel by omega)
  simp only [List.cons_append, List.append_assoc, List.nil_append]
  cases items with
  | nil => exact ⟨.array [], .array_of_forall₂ .nil, rfl⟩
  | cons item others =>
    obtain ⟨documents, reads_as, read⟩ := elements_writeItems (List.cons_ne_nil item others) read_back
      fuel rest (by omega)
    exact ⟨.array documents, .array_of_forall₂ reads_as, Reader.value_array read⟩

theorem readsBack_object {depth : Nat} {fields : Fields Json}
    (read_back : ∀ field ∈ fields, ReadsBack depth field.2) : ReadsBack (depth + 1) (.object fields) := by
  intro fuel rest enough _
  have text : (write (.object fields)).toList =
      '\x7b' :: ((String.intercalate "," (writeFields fields)).toList ++ ['\x7d']) := by
    rw [write, String.toList_append, String.toList_append]
    rfl
  rw [text] at enough ⊢
  rw [List.length_cons, List.length_append, List.length_singleton] at enough
  obtain ⟨fuel, rfl⟩ := Nat.exists_eq_add_one.2 (show 0 < fuel by omega)
  simp only [List.cons_append, List.append_assoc, List.nil_append]
  cases fields with
  | nil => exact ⟨.object [], .object_of_forall₂ .nil, rfl⟩
  | cons field others =>
    obtain ⟨documents, reads_as, read⟩ := members_writeFields (List.cons_ne_nil field others) read_back
      fuel rest (by omega)
    exact ⟨.object documents, .object_of_forall₂ reads_as, Reader.value_object read⟩

/-- Whatever can be written is read back. -/
theorem Writable.readsBack {depth : Nat} {json : Json} (writable : Writable depth json) :
    ReadsBack depth json := by
  induction writable with
  | null depth => exact readsBack_null depth rfl .null
  | bool depth value =>
    intro fuel rest enough _
    have some_text : 0 < (write (.bool value)).toList.length := by
      cases value <;> decide
    obtain ⟨fuel, rfl⟩ := Nat.exists_eq_add_one.2 (Nat.lt_of_lt_of_le some_text enough)
    refine ⟨.bool value, .bool value, ?_⟩
    cases value <;> rfl
  | @int depth value least greatest =>
    refine readsBack_of_number (fun rest ends => ?_) depth
    exact ⟨.int value, .int value, number_toString least greatest ends⟩
  | float depth x => exact readsBack_float depth x
  | string depth value =>
    intro fuel rest enough _
    rw [write, toList_quote] at enough ⊢
    obtain ⟨fuel, rfl⟩ := Nat.exists_eq_add_one.2 (Nat.lt_of_lt_of_le (Nat.succ_pos _) enough)
    refine ⟨.string value, .string value, ?_⟩
    have quoted := Reader.skipBlanks_of_head (c := '"') (value.toList.flatMap escape ++ '"' :: rest)
      (by decide)
    simp only [List.cons_append, List.append_assoc, List.nil_append, Reader.value, quoted, string_flatMap]
    rfl
  | array items_writable ih => exact readsBack_array ih
  | object values_writable ih => exact readsBack_object ih

/-- The text of a value is a document that stands for the value. -/
theorem Writable.parse_write {json : Json} (writable : Writable Reader.maxDepth json) :
    ∃ document, Document.parse json.write = some document ∧ json.ReadsAs document := by
  obtain ⟨document, reads_as, read⟩ := writable.readsBack (2 * json.write.toList.length + 2) []
    (by omega) nofun
  rw [List.append_nil] at read
  refine ⟨document, ?_, reads_as⟩
  simp only [Document.parse, read, Option.bind_eq_bind, Option.bind_some]
  rfl

end RecordQuery.Json
