import SchemaDelta.Column.Basic
import SchemaDelta.Model.UserType
import SchemaDelta.Text.Pieces

/-!
# User-defined types

A type is an object with attributes, or a collection: an array of bounded size or a table.
-/

namespace SchemaDelta

open Text

/-- The kinds of collections. -/
inductive Collection.Kind where
  | varray
  | table

namespace Collection.Kind

/-- The kind that a mode names: an array if it contains the word in any case, else a table. -/
def ofMode (mode : String) : Collection.Kind :=
  if contains "varray" mode.toLower then varray else table

/-- The keyword of a kind. -/
def keyword : Collection.Kind → String
  | varray => "VARRAY"
  | table => "TABLE"

end Collection.Kind

/-- A collection of elements of one type. -/
structure Collection where
  kind : Collection.Kind
  size : Option Nat
  elementType : String
  elementNullable : Bool
  notPersistable : Bool

/-- What a type is made of. -/
inductive UserTypeBody where
  | object (attributes : List Column)
  | collection (c : Collection)

/-- A user-defined type. -/
structure UserType where
  name : String
  schema : Option String := none
  body : UserTypeBody
  active : Bool := true

/-- The node describes an object type: it says so, or it neither says that it is a collection nor
has an element type. -/
def Model.UserType.isObject (t : Model.UserType) : Bool :=
  match t.typing.childType with
  | some "object_udt" => true
  | some "collection_udt" => false
  | _ => t.ofType.isNone

/-- The collection that a node describes. The elements have the native type of the node and its
qualifiers. -/
def Collection.ofNode (t : Model.UserType) (ctx : Context) : Collection :=
  let element : Model.Typing :=
    { t.typing with mode := t.ofType, kind := none, childType := none, reference := none }
  { kind := Collection.Kind.ofMode (t.typing.mode.getD "")
    size := t.size
    elementType := (DataType.resolve element ctx.release).clause
    elementNullable := t.nullable
    notPersistable := t.notPersistable }

/-- The type that a node describes, if it has a name. -/
def UserType.ofNode? (t : Model.UserType) (ctx : Context) : Option UserType :=
  t.typeName?.map fun name =>
    { name := name
      schema := ctx.schema
      body :=
        if t.isObject then .object (t.fields.columns t.required ctx)
        else .collection (Collection.ofNode t ctx)
      active := t.active }

end SchemaDelta
