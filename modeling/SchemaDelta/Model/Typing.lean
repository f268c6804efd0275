import SchemaDelta.Json.Field

/-!
# Type fields in the model

What a column, an attribute or a user-defined type says about its data type: a reference to a type
of the model, a logical kind, a native mode, and qualifiers.
-/

namespace SchemaDelta.Model

/-- The fields of a column, attribute or type that bear on its data type. -/
structure Typing where
  /-- The path of a type of the model. -/
  reference : Option String := none
  /-- The logical kind, under the key `type`. -/
  kind : Option String := none
  /-- The native type name. -/
  mode : Option String := none
  childType : Option String := none
  length : Option Nat := none
  maxLength : Option Nat := none
  precision : Option Nat := none
  scale : Option Nat := none
  lengthSemantics : Option String := none
  fractSecPrecision : Option Nat := none
  withTimeZone : Bool := false
  localTimeZone : Bool := false
  yearPrecision : Option Nat := none
  dayPrecision : Option Nat := none

namespace Typing

/-- The keys of the type fields, in the order of a positional record. -/
def keys : List String :=
  ["$ref", "type", "mode", "childType", "length", "maxLength", "precision", "scale",
    "lengthSemantics", "fractSecPrecision", "withTimeZone", "localTimeZone", "yearPrecision",
    "dayPrecision"]

/-- The type fields among the entries of a record. -/
def ofEntries (r : Json.Entries) : Typing where
  reference := r.text? "$ref"
  kind := r.text? "type"
  mode := r.text? "mode"
  childType := r.text? "childType"
  length := r.count? "length"
  maxLength := r.count? "maxLength"
  precision := r.count? "precision"
  scale := r.count? "scale"
  lengthSemantics := r.text? "lengthSemantics"
  fractSecPrecision := r.count? "fractSecPrecision"
  withTimeZone := r.flag "withTimeZone"
  localTimeZone := r.flag "localTimeZone"
  yearPrecision := r.count? "yearPrecision"
  dayPrecision := r.count? "dayPrecision"

/-- Reads type fields that stand alone. -/
def read? (v : Json) : Option Typing :=
  (v.record? keys).map ofEntries

end Typing

end SchemaDelta.Model
