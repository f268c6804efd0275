import SchemaDelta.Text.Digits
import SchemaDelta.Text.Blank

/-!
# Type clauses

A type clause is a type name with the qualifiers that the type carries: a length for characters and
raw data, with its unit for two of them; precision and scale for numbers; fractional seconds and a
time zone for time stamps; leading precisions for intervals. Other qualifiers leave no trace.
-/

namespace SchemaDelta.DataType

open Text

/-- The unit of a length. -/
inductive LengthUnit where
  | byte
  | char
deriving DecidableEq

namespace LengthUnit

/-- The unit with the given name, without regard to case and padding. -/
def ofName? (name : String) : Option LengthUnit :=
  match (trim name).toLower with
  | "byte" => some byte
  | "char" => some char
  | _ => none

/-- The keyword of a unit. -/
def keyword : LengthUnit → String
  | byte => "BYTE"
  | char => "CHAR"

end LengthUnit

/-- The qualifiers of a type. -/
structure Qualifiers where
  length : Option Nat := none
  lengthUnit : Option LengthUnit := none
  precision : Option Nat := none
  scale : Option Nat := none
  fractSecPrecision : Option Nat := none
  withTimeZone : Bool := false
  localTimeZone : Bool := false
  yearPrecision : Option Nat := none
  dayPrecision : Option Nat := none
deriving DecidableEq

/-- The types whose length has a unit. -/
def unitTypes : List String := ["CHAR", "VARCHAR2"]

/-- The types that have a length. -/
def lengthTypes : List String := ["CHAR", "VARCHAR2", "NCHAR", "NVARCHAR2", "RAW", "UROWID"]

/-- The number in parentheses, if there is one. -/
def parenthesized (n : Option Nat) : String :=
  match n with
  | some n => "(" ++ showNat n ++ ")"
  | none => ""

/-- The precision of a number; a scale without precision is written with a star. -/
def numberPrecision (precision : Option Nat) : String :=
  match precision.filter (0 < ·) with
  | some p => showNat p
  | none => "*"

/-- The time zone of a time stamp. -/
def timeZone (q : Qualifiers) : String :=
  if q.localTimeZone then " WITH LOCAL TIME ZONE"
  else if q.withTimeZone then " WITH TIME ZONE"
  else ""

/-- The clause of a type that has neither length nor precision. -/
def temporalClause (t : String) (q : Qualifiers) : String :=
  match t with
  | "TIMESTAMP" => "TIMESTAMP" ++ parenthesized q.fractSecPrecision ++ timeZone q
  | "INTERVAL YEAR" => "INTERVAL YEAR" ++ parenthesized q.yearPrecision ++ " TO MONTH"
  | "INTERVAL DAY" =>
    "INTERVAL DAY" ++ parenthesized q.dayPrecision ++ " TO SECOND" ++
      parenthesized q.fractSecPrecision
  | _ => t

/-- The clause of a type that has no length. -/
def numericClause (t : String) (q : Qualifiers) : String :=
  if t = "NUMBER" then
    match q.precision, q.scale with
    | none, none => t
    | p, some s => t ++ "(" ++ numberPrecision p ++ "," ++ showNat s ++ ")"
    | p, none => t ++ "(" ++ numberPrecision p ++ ")"
  else if t = "FLOAT" then t ++ parenthesized q.precision
  else temporalClause t q

/-- The type clause of a type with the given qualifiers. -/
def clause (typeName : String) (q : Qualifiers) : String :=
  let t := trim typeName
  if t ∈ lengthTypes then
    match q.length, q.lengthUnit with
    | none, _ => t
    | some n, some u =>
      if t ∈ unitTypes then t ++ "(" ++ showNat n ++ " " ++ u.keyword ++ ")"
      else t ++ "(" ++ showNat n ++ ")"
    | some n, none => t ++ "(" ++ showNat n ++ ")"
  else numericClause t q

end SchemaDelta.DataType
