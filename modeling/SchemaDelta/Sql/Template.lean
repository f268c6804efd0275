/-!
# Statement templates

A template is a list of literal texts and named slots. A slot has a literal text before and after it
that appears only when the slot is filled, so an optional clause that is left out takes its
separators with it. An empty value counts as none.
-/

namespace SchemaDelta.Sql

/-- A literal text, or a slot with the texts that frame its value. -/
inductive Piece where
  | text (t : String)
  | slot (name : String) (before : String) (after : String)

/-- A named list of segments. -/
structure Template where
  name : String
  segments : List Piece

/-- The values of slots; the newest value of a name comes first. -/
structure SlotValues where
  entries : List (String × String) := []

namespace SlotValues

/-- The slot has the value. -/
def set (v : SlotValues) (name value : String) : SlotValues :=
  ⟨(name, value) :: v.entries⟩

/-- The slot has the value, if there is one. -/
def opt (v : SlotValues) (name : String) (value : Option String) : SlotValues :=
  match value with
  | some t => v.set name t
  | none => v

/-- The slot has the keyword, if the condition holds. -/
def flag (v : SlotValues) (name : String) (on : Bool) (keyword : String) : SlotValues :=
  if on then v.set name keyword else v

/-- The last value of a slot, unless it is empty. -/
def get? (v : SlotValues) (name : String) : Option String :=
  (v.entries.lookup name).filter fun t => !t.isEmpty

/-- The values of a list of slots. -/
def ofList (entries : List (String × String)) : SlotValues :=
  entries.foldl (fun v e => v.set e.1 e.2) {}

/-- The last value that was set is found, unless it is empty. -/
theorem get?_set_self (v : SlotValues) (name value : String) :
    (v.set name value).get? name = if value.isEmpty then none else some value := by
  simp only [get?, set, List.lookup_cons_self, Option.filter_some]
  cases value.isEmpty <;> rfl

/-- Other slots keep their values. -/
theorem get?_set_of_ne (v : SlotValues) {name other : String} (h : other ≠ name)
    (value : String) : (v.set name value).get? other = v.get? other := by
  have h' : (other == name) = false := by simpa using h
  simp [get?, set, List.lookup_cons, h']

end SlotValues

/-- The text of a segment. -/
def Piece.fill (v : SlotValues) : Piece → String
  | .text t => t
  | .slot name before after =>
    match v.get? name with
    | some value => before ++ value ++ after
    | none => ""

namespace Template

/-- The names of the slots, in order. -/
def slots (t : Template) : List String :=
  t.segments.filterMap fun
    | .slot name _ _ => some name
    | .text _ => none

/-- The text of the template with the given values. -/
def fill (t : Template) (v : SlotValues) : String :=
  String.join (t.segments.map (Piece.fill v))

end Template

end SchemaDelta.Sql
