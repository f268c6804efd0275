import SchemaDelta.Text.Digits
import SchemaDelta.Text.Blank

/-!
# Database releases

A release is named by a text such as `21c` or `12cR2` that begins with its major version. From
version 21 on the database has a type for JSON; before that, JSON is stored as character data.
-/

namespace SchemaDelta.DataType

open Text

/-- The number that the name of a release begins with. -/
def major? (release : String) : Option Nat :=
  readDigits? wordBound ((trim release).toList.takeWhile Char.isDigit)

/-- The release is known to have a type for JSON. -/
def hasJson (release : Option String) : Bool :=
  match release.bind major? with
  | some v => 21 ≤ v
  | none => false

/-- The type name that stands for `typeName` in the release. -/
def inRelease (typeName : String) (release : Option String) : String :=
  if typeName = "JSON" ∧ hasJson release = false then "CLOB" else typeName

/-- Only the name of the JSON type depends on the release. -/
theorem inRelease_of_ne {typeName : String} (h : typeName ≠ "JSON") (release : Option String) :
    inRelease typeName release = typeName := by
  simp [inRelease, h]

end SchemaDelta.DataType
