import SchemaDelta.Text.Blank

/-!
# Equivalent types

Two tables lead to native types. Logical kinds have a default type and are matched as they stand.
Type names of other databases have an equivalent, some with a length, precision or scale that comes
with it; they are matched without regard to case and padding. Case is that of the ASCII letters.
-/

namespace SchemaDelta.DataType

open Text

/-- A type name with the qualifiers that it implies. -/
structure Resolved where
  typeName : String
  length : Option Nat := none
  precision : Option Nat := none
  scale : Option Nat := none
deriving DecidableEq

/-- The default types of the logical kinds. -/
def kindDefaults : List (String × String) :=
  [("number", "numeric"), ("string", "nvarchar2"), ("date", "date"), ("timestamp", "timestamp"),
    ("binary", "raw"), ("boolean", "numeric"), ("document", "bfile"), ("array", "json"),
    ("objectId", "char"), ("default", "nvarchar2")]

/-- A type without qualifiers. -/
def plain (typeName : String) : Resolved := ⟨typeName, none, none, none⟩

/-- A type with a length. -/
def withLength (typeName : String) (length : Nat) : Resolved :=
  ⟨typeName, some length, none, none⟩

/-- A type with a precision. -/
def withPrecision (typeName : String) (precision : Nat) : Resolved :=
  ⟨typeName, none, some precision, none⟩

/-- A type with a precision and a scale. -/
def withScale (typeName : String) (precision scale : Nat) : Resolved :=
  ⟨typeName, none, some precision, some scale⟩

/-- The native equivalents of the type names of other databases. -/
def equivalents : List (String × Resolved) :=
  [("character", plain "char"),
    ("character varying", plain "varchar"),
    ("char varying", plain "varchar"),
    ("national char", plain "nchar"),
    ("national character", plain "nchar"),
    ("national char varying", plain "nvarchar2"),
    ("national character varying", plain "nvarchar2"),
    ("nchar varying", plain "nvarchar2"),
    ("long varchar", plain "long"),
    ("text", plain "long"),
    ("ntext", plain "long"),
    ("string", plain "nvarchar2"),
    ("uniqueidentifier", withLength "char" 36),
    ("uuid", withLength "char" 36),
    ("tinyint", withPrecision "number" 5),
    ("small int", withPrecision "number" 5),
    ("shortinteger", withPrecision "number" 5),
    ("shortint", withPrecision "number" 5),
    ("smallint", withPrecision "number" 5),
    ("int", withPrecision "number" 10),
    ("integer", withPrecision "number" 10),
    ("longinteger", withPrecision "number" 20),
    ("bigint", withPrecision "number" 20),
    ("int8", withPrecision "number" 20),
    ("bit", withPrecision "number" 1),
    ("shortdecimal", withScale "number" 5 0),
    ("decimal", withScale "number" 5 0),
    ("real", withLength "float" 23),
    ("double precision", plain "number"),
    ("small money", withScale "float" 16 2),
    ("money", withScale "float" 16 2),
    ("datetime", plain "date"),
    ("small datetime", plain "date"),
    ("image", plain "long raw"),
    ("binary", plain "raw"),
    ("varbinary", plain "raw")]

/-- The default type of a logical kind. -/
def kindDefault? (kind : String) : Option String :=
  kindDefaults.lookup kind

/-- The native equivalent of a type name, without regard to case and padding. -/
def equivalent? (name : String) : Option Resolved :=
  equivalents.lookup (trim name).toLower

/-- The native equivalent of a type name; a name that has none stands for itself. -/
def ofName (name : String) : Resolved :=
  (equivalent? name).getD (plain name)

/-- The native type, in upper case, of a column with the given mode or else logical kind. A mode is
taken as a native name, a kind leads to its default type, and either may have an equivalent. -/
def ofColumn (mode kind : Option String) : Resolved :=
  match mode <|> kind.map fun k => (kindDefault? k).getD k with
  | some candidate =>
    let r := ofName candidate
    { r with typeName := (trim r.typeName).toUpper }
  | none => plain ""

end SchemaDelta.DataType
