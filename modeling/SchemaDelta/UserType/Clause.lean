import SchemaDelta.Column.Clause
import SchemaDelta.UserType.Basic

/-!
# The creation of a type

An object type has a body of attributes, a collection type an element type and perhaps a size.
-/

namespace SchemaDelta

open Sql Text

/-- The size of an array that does not state its own. -/
def defaultArraySize : Nat := 64

namespace Collection

/-- The size in parentheses after the keyword. -/
def sizeText (c : Collection) : String :=
  match c.kind, c.size with
  | _, some n => showNat n
  | .varray, none => showNat defaultArraySize
  | .table, none => ""

/-- The type of the elements. -/
def elementText (c : Collection) : String :=
  if c.elementNullable then c.elementType else c.elementType ++ " NOT NULL"

end Collection

namespace UserType

/-- The qualified name of a type. -/
def qualifiedName (t : UserType) : String :=
  qualified t.name t.schema

/-- The creation of a type. -/
def createText (t : UserType) : String :=
  match t.body with
  | .object attributes =>
    Form.createObjectType.fill (.ofList
      [("name", t.qualifiedName),
        ("properties", composite (attributes.map Column.attributeLine) ",\n\t" t.active)])
  | .collection c =>
    Form.createCollectionType.fill (.ofList
      [("name", t.qualifiedName), ("collectionType", c.kind.keyword), ("size", c.sizeText),
        ("datatype", c.elementText),
        ("notPersistable", if c.notPersistable then "NOT PERSISTABLE" else "")])

/-- The statement that creates a type. -/
def createUnit (t : UserType) : Fragment :=
  ⟨t.createText, t.active⟩

end UserType

end SchemaDelta
