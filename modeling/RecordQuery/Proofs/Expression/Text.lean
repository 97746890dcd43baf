import RecordQuery.Proofs.Expression.Induction

/-!
The text of an expression whose booleans are written as integers. A boolean is spelled with more letters
than the integer that stands for it, and a text grows with each of its parts. So the text tells whether
there was a boolean to write: it is shorter then, and else the expression is as it was.
-/

namespace RecordQuery

/-- The change leaves the item as it is, or makes its text shorter. -/
def Shortens {α : Type} (change : α → α) (text : α → String) (item : α) : Prop :=
  change item = item ∨ (text (change item)).length < (text item).length

namespace Shortens

variable {α β γ : Type} {change : α → α} {text : α → String} {change' : β → β} {text' : β → String}
  {change'' : γ → γ} {text'' : γ → String} {item : α} {item' : β}

theorem text_eq_iff (shortens : Shortens change text item) :
    text (change item) = text item ↔ change item = item := by
  constructor
  · intro same
    obtain kept | shorter := shortens
    · exact kept
    · rw [same] at shorter
      exact absurd shorter (Nat.lt_irrefl _)
  · exact congrArg text

theorem length_le (shortens : Shortens change text item) :
    (text (change item)).length ≤ (text item).length := by
  obtain kept | shorter := shortens
  · exact Nat.le_of_eq (by rw [kept])
  · exact Nat.le_of_lt shorter

/-- A whole with two parts, in a text whose length is that of theirs but for a constant. -/
theorem both (first : Shortens change text item) (second : Shortens change' text' item')
    (whole : α → β → γ) (around : Nat)
    (changed : change'' (whole item item') = whole (change item) (change' item'))
    (shown : ∀ part part', (text'' (whole part part')).length =
      (text part).length + (text' part').length + around) :
    Shortens change'' text'' (whole item item') := by
  have first_le := first.length_le
  have second_le := second.length_le
  rw [Shortens, changed, shown, shown]
  obtain kept | shorter := first
  · obtain kept' | shorter' := second
    · exact Or.inl (by rw [kept, kept'])
    · exact Or.inr (by omega)
  · exact Or.inr (by omega)

theorem one (shortens : Shortens change text item) (whole : α → γ) (around : Nat)
    (changed : change'' (whole item) = whole (change item))
    (shown : ∀ part, (text'' (whole part)).length = (text part).length + around) :
    Shortens change'' text'' (whole item) := by
  have nothing : Shortens id (fun _ : Unit => "") () := Or.inl rfl
  exact shortens.both nothing (fun part _ => whole part) around changed fun part _ => shown part

/-- A list of items, with a separator between any two of their texts. -/
theorem intercalate (separator : String) {items : List α}
    (each : ∀ item ∈ items, Shortens change text item) :
    Shortens (List.map change) (fun items => separator.intercalate (items.map text)) items := by
  induction items with
  | nil => exact Or.inl rfl
  | cons item rest ih =>
    have first := each item List.mem_cons_self
    have others := ih fun other mem => each other (List.mem_cons_of_mem item mem)
    cases rest with
    | nil =>
      refine first.one (fun item => [item]) 0 rfl fun part => ?_
      rw [List.map_singleton, String.intercalate_singleton, Nat.add_zero]
    | cons next rest =>
      have first_le := first.length_le
      have others_le := others.length_le
      simp only [Shortens, List.map_cons, String.intercalate_cons_cons, String.length_append]
        at others others_le ⊢
      obtain kept | shorter := first
      · obtain others_kept | others_shorter := others
        · exact Or.inl (by rw [kept, others_kept])
        · exact Or.inr (by omega)
      · exact Or.inr (by omega)

end Shortens

theorem Value.texts_eq_map (items : List Value) : texts items = items.map text := by
  induction items with
  | nil => rfl
  | cons item rest ih => rw [texts, ih, List.map_cons]

namespace Expression

theorem shortens_boolAsInt (value : Value) : Shortens boolAsInt Value.text value := by
  cases value with
  | bool value =>
    right
    cases value <;> decide +kernel
  | _ => exact Or.inl rfl

/-- The brackets around the parts of a connective stand there just if there are parts. -/
theorem shortens_joined (word empty : String) {parts : List Expression}
    (each : ∀ part ∈ parts, Shortens boolsAsInts text part) :
    Shortens boolsAsIntsIn (fun parts => joined (texts parts) word empty) parts := by
  cases parts with
  | nil => exact Or.inl rfl
  | cons part rest =>
    have bracketed (first : Expression) (others : List Expression) :
        (joined (texts (first :: others)) word empty).length =
          (word.intercalate ((first :: others).map text)).length + ("(".length + ")".length) := by
      rw [joined, texts_eq_map, List.map_cons, List.isEmpty_cons, if_neg Bool.false_ne_true]
      simp only [String.length_append]
      omega
    obtain kept | shorter := Shortens.intercalate word each
    · left
      rw [boolsAsIntsIn_eq_map, kept]
    · right
      rw [boolsAsIntsIn_eq_map, List.map_cons, bracketed, bracketed]
      exact Nat.add_lt_add_right shorter _

theorem shortens_boolsAsInts (expression : Expression) : Shortens boolsAsInts text expression := by
  induction expression with
  | value operand => exact (shortens_boolAsInt operand).one Expression.value 0 rfl fun _ => rfl
  | compare comparison left right left_ih right_ih =>
    refine left_ih.both right_ih (Expression.compare comparison)
      (" ".length + comparison.symbol.length + " ".length) rfl fun left right => ?_
    rw [text]
    simp only [String.length_append]
    omega
  | oneOf operand values ih =>
    have values_shorten := Shortens.intercalate ", " fun value (_ : value ∈ values) =>
      shortens_boolAsInt value
    refine ih.both values_shorten Expression.oneOf (" in ".length + "[".length + "]".length) rfl
      fun operand values => ?_
    rw [text, Value.text, Value.texts_eq_map]
    simp only [String.length_append]
    omega
  | and parts ih => exact (shortens_joined " and " "true" ih).one Expression.and 0 rfl fun _ => rfl
  | or parts ih => exact (shortens_joined " or " "false" ih).one Expression.or 0 rfl fun _ => rfl
  | not part ih =>
    refine ih.one Expression.not ("not(".length + ")".length) rfl fun part => ?_
    rw [text]
    simp only [String.length_append]
    omega
  | _ => exact Or.inl rfl

/-- Written with integers for booleans, an expression is shown as it was just if it is what it was. -/
theorem text_boolsAsInts_eq_iff (expression : Expression) :
    expression.boolsAsInts.text = expression.text ↔ expression.boolsAsInts = expression :=
  expression.shortens_boolsAsInts.text_eq_iff

end Expression

end RecordQuery
