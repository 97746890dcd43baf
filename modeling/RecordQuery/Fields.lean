/-!
Maps from names to values, kept as lists in ascending name order. The list form lets a map stand
inside an inductive type, so that a nested value and a record's bins share one representation.
Names are ordered by code point, which is also the order of their UTF-8 bytes. Main statements:
looking up after `insert`, and after `restrict`.
-/

namespace RecordQuery

abbrev Fields (α : Type) := List (String × α)

namespace Fields

variable {α β : Type}

def get? : Fields α → String → Option α
  | [], _ => none
  | (key, value) :: rest, name => if key = name then some value else get? rest name

def contains (fields : Fields α) (name : String) : Bool := (fields.get? name).isSome

/-- Adds a field at its place in the order; a field of the same name is replaced. -/
def insert : Fields α → String → α → Fields α
  | [], name, value => [(name, value)]
  | (key, old) :: rest, name, value =>
    if name < key then (name, value) :: (key, old) :: rest
    else if name = key then (name, value) :: rest
    else (key, old) :: insert rest name value

/-- Of several pairs with one name the last counts. -/
def ofPairs (pairs : List (String × α)) : Fields α :=
  pairs.foldl (fun fields pair => Fields.insert fields pair.1 pair.2) []

/-- `newer` wins over `older` where both have a field. -/
def merge (older newer : Fields α) : Fields α :=
  newer.foldl (fun fields pair => Fields.insert fields pair.1 pair.2) older

def names (fields : Fields α) : List String := fields.map Prod.fst

/-- Keeps the fields whose name is listed. -/
def restrict (fields : Fields α) (kept : List String) : Fields α :=
  fields.filter fun pair => kept.contains pair.1

def mapValues (change : α → β) (fields : Fields α) : Fields β :=
  fields.map fun pair => (pair.1, change pair.2)

@[simp] theorem get?_nil (name : String) : Fields.get? ([] : Fields α) name = none := rfl

theorem get?_cons (key : String) (value : α) (rest : Fields α) (name : String) :
    Fields.get? ((key, value) :: rest) name = if key = name then some value else rest.get? name := rfl

theorem get?_insert (fields : Fields α) (name : String) (value : α) (other : String) :
    (Fields.insert fields name value).get? other =
      if name = other then some value else fields.get? other := by
  induction fields with
  | nil => rfl
  | cons head rest ih =>
    obtain ⟨key, old⟩ := head
    unfold Fields.insert
    split
    · rfl
    · split
      · next same => subst same; simp only [get?_cons]; split <;> rfl
      · next different =>
        simp only [get?_cons, ih]
        split
        · next here =>
          subst here
          simp [different]
        · rfl

theorem get?_restrict (fields : Fields α) (kept : List String) (name : String) :
    (fields.restrict kept).get? name = if name ∈ kept then fields.get? name else none := by
  induction fields with
  | nil => simp [restrict]
  | cons head rest ih =>
    obtain ⟨key, value⟩ := head
    by_cases listed : key ∈ kept <;> by_cases here : key = name
    · subst here; simp [restrict, get?_cons, listed]
    · simpa [restrict, get?_cons, listed, here] using ih
    · subst here; simpa [restrict, listed] using ih
    · simpa [restrict, get?_cons, listed, here] using ih

end Fields

end RecordQuery
