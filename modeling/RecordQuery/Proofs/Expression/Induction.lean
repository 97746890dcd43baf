import RecordQuery.Expression

/-!
Induction over expressions, with one hypothesis for each part of a connective. Writing the booleans of an
expression as integers, and showing it, go through such parts as through any list.
-/

namespace RecordQuery.Expression

@[elab_as_elim, induction_eliminator]
theorem induct {motive : Expression → Prop}
    (value : ∀ operand, motive (.value operand))
    (bin : ∀ name, motive (.bin name))
    (key : motive .key)
    (binExists : ∀ name, motive (.binExists name))
    (keyExists : motive .keyExists)
    (compare : ∀ comparison left right, motive left → motive right →
      motive (.compare comparison left right))
    (oneOf : ∀ operand values, motive operand → motive (.oneOf operand values))
    (and : ∀ parts, (∀ part ∈ parts, motive part) → motive (.and parts))
    (or : ∀ parts, (∀ part ∈ parts, motive part) → motive (.or parts))
    (not : ∀ part, motive part → motive (.not part))
    (expression : Expression) : motive expression := by
  refine @Expression.rec motive (fun parts => ∀ part ∈ parts, motive part)
    value bin key binExists keyExists compare oneOf and or not ?_ ?_ expression
  · simp
  · intro first rest first_holds rest_hold
    simpa using ⟨first_holds, rest_hold⟩

theorem boolsAsIntsIn_eq_map (parts : List Expression) :
    boolsAsIntsIn parts = parts.map boolsAsInts := by
  induction parts with
  | nil => rfl
  | cons part rest ih => rw [boolsAsIntsIn, ih, List.map_cons]

theorem texts_eq_map (parts : List Expression) : texts parts = parts.map text := by
  induction parts with
  | nil => rfl
  | cons part rest ih => rw [texts, ih, List.map_cons]

end RecordQuery.Expression
