/-!
# Decimal digits

Natural numbers are written with the digits 0 to 9 and no sign. They are read from such digits after
an optional plus sign, and only below a bound.
-/

namespace SchemaDelta.Text

/-- The number that a list of decimal digits denotes. -/
def digitsValue (ds : List Char) : Nat :=
  ds.foldl (fun n d => n * 10 + (d.toNat - '0'.toNat)) 0

/-- The number that the text denotes: digits alone, at least one, and a value below `bound`. -/
def readDigits? (bound : Nat) (ds : List Char) : Option Nat :=
  if ds ≠ [] ∧ ds.all Char.isDigit ∧ digitsValue ds < bound then some (digitsValue ds) else none

/-- The number that the text denotes, with a plus sign in front of the digits allowed. -/
def readNat? (bound : Nat) (s : String) : Option Nat :=
  match s.toList with
  | '+' :: ds => readDigits? bound ds
  | ds => readDigits? bound ds

/-- Qualifiers, error codes and release numbers are natural numbers below this bound. -/
def wordBound : Nat := Nat.pow 2 32

/-- The decimal digits of a natural number. -/
def showNat (n : Nat) : String :=
  Nat.repr n

end SchemaDelta.Text
