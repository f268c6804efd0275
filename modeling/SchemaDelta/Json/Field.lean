import SchemaDelta.Json.Number
import SchemaDelta.Text.Blank

/-!
# Reading fields

Documents are edited by hand and filled in part: a flag may be the text `"true"`, a length may be
empty, an object of options may be a list of one object. Each reader here accepts the spellings of
its field and takes anything else for an absent field, so no field makes its record fail. A key that
is absent reads like `null`.
-/

namespace SchemaDelta.Json

open Text

/-- A text that is not blank, as it stands; a number counts as its text. -/
def text? : Json → Option String
  | .string s => if blank s then none else some s
  | .number n => some n.text
  | _ => none

/-- A natural number of 32 bits, or a text that denotes one. -/
def count? : Json → Option Nat
  | .number n => n.toNat?.filter (· < wordBound)
  | .string s => readNat? wordBound (trim s)
  | _ => none

/-- A truth value: a boolean, a number that is zero or not, or one of six words. -/
def truth? : Json → Option Bool
  | .bool b => some b
  | .number n => some (!n.isZero)
  | .string s =>
    match (trim s).toLower with
    | "true" | "yes" | "1" => some true
    | "false" | "no" | "0" => some false
    | _ => none
  | _ => none

/-- A flag holds only where it is said to hold. -/
def flag (v : Json) : Bool :=
  v.truth?.getD false

/-- An element is active unless it is said not to be. -/
def active (v : Json) : Bool :=
  v.truth?.getD true

/-- The texts of a list, or a text alone. -/
def texts : Json → List String
  | .array items => items.filterMap fun
    | .string s => some s
    | _ => none
  | .string s => [s]
  | _ => []

/-- The elements of a list that `read?` accepts; an object alone is a list of one. -/
def list {α : Type} (read? : Json → Option α) : Json → List α
  | .array items => items.filterMap read?
  | .object entries => (read? (.object entries)).toList
  | _ => []

/-- The entries of an object whose values `read?` accepts. -/
def table {α : Type} (read? : Json → Option α) : Json → List (String × α)
  | .object entries => entries.filterMap fun e => (read? e.2).map (e.1, ·)
  | _ => []

/-- A nested value, or the first element where a list holds it. -/
def inner? {α : Type} (read? : Json → Option α) : Json → Option α
  | .array [] => none
  | .array (v :: _) => read? v
  | v => read? v

/-- A nested value, and `absent` where there is none. -/
def nested {α : Type} (read? : Json → Option α) (absent : α) (v : Json) : α :=
  (inner? read? v).getD absent

/-- A nested value that may be missing: it is when the field is `null` or empty. Any other value
counts as given, and as `absent` when `read?` does not accept it. -/
def nested? {α : Type} (read? : Json → Option α) (absent : α) : Json → Option α
  | .null | .array [] | .object [] => none
  | v => some (nested read? absent v)

/-! ## Records -/

/-- The entries of a value that is an object. -/
def object? : Json → Option Entries
  | .object entries => some entries
  | _ => none

/-- The entries of a record with the given keys. A list stands for the values of the first keys, in
order, and must not be longer than they are. -/
def record? (keys : List String) : Json → Option Entries
  | .object entries => some entries
  | .array items => if items.length ≤ keys.length then some (keys.zip items) else none
  | _ => none

namespace Entries

/-- The text of a key. -/
def text? (r : Entries) (key : String) : Option String := (r.value key).text?

/-- The number of a key. -/
def count? (r : Entries) (key : String) : Option Nat := (r.value key).count?

/-- The flag of a key. -/
def flag (r : Entries) (key : String) : Bool := (r.value key).flag

/-- The texts of a key. -/
def texts (r : Entries) (key : String) : List String := (r.value key).texts

/-- The list of a key. -/
def list {α : Type} (r : Entries) (read? : Json → Option α) (key : String) : List α :=
  (r.value key).list read?

/-- Whether the element is active. -/
def active (r : Entries) : Bool := (r.value "isActivated").active

end Entries

end SchemaDelta.Json
