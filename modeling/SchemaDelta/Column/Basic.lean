import SchemaDelta.DataType.Resolve
import SchemaDelta.Model.Field

/-!
# Columns

A column of a table, or an attribute of an object type, with its native type and the constraints
that stand in its line.
-/

namespace SchemaDelta

/-- Where and for what database an entity is described. -/
structure Context where
  /-- The schema that the entity belongs to. -/
  schema : Option String := none
  /-- The release of the database. -/
  release : Option String := none

namespace Model.Field

/-- The primary key stands in the column's line only for a column outside composite keys. -/
def inlinePrimaryKey (f : Model.Field) : Bool :=
  f.primaryKey && !f.compositePrimaryKey && !f.compositeUniqueKey

/-- The unique key stands in the column's line only for a column outside composite unique keys, and
never beside the primary key. -/
def inlineUnique (f : Model.Field) : Bool :=
  f.unique && !f.compositeUniqueKey && !f.inlinePrimaryKey

/-- No column has two inline keys. -/
theorem not_inlineUnique_of_inlinePrimaryKey {f : Model.Field} (h : f.inlinePrimaryKey = true) :
    f.inlineUnique = false := by
  simp [inlineUnique, h]

end Model.Field

/-- A column of a table, or an attribute of an object type. -/
structure Column where
  name : String
  type : DataType.Native
  nullable : Bool := true
  default : Option String := none
  encryption : Option Model.Encryption := none
  /-- The options of an inline primary key. -/
  primaryKey : Option Model.KeyOptions := none
  /-- The options of an inline unique key. -/
  unique : Option Model.KeyOptions := none
  comment : Option String := none
  active : Bool := true

/-- The column that a field describes. It is nullable unless `required` names it. -/
def Column.ofNode (name : String) (f : Model.Field) (required : List String) (ctx : Context) :
    Column where
  name := name
  type := DataType.resolve f.typing ctx.release
  nullable := !required.contains name
  default := f.default
  encryption := f.encryption
  primaryKey := if f.inlinePrimaryKey then some f.primaryKeyOptions else none
  unique := if f.inlineUnique then some f.uniqueKeyOptions else none
  comment := f.refDescription <|> f.description
  active := f.active

/-- The columns that a list of fields describes. -/
def Model.Fields.columns (fields : Model.Fields) (required : List String) (ctx : Context) :
    List Column :=
  fields.map fun e => Column.ofNode e.1 e.2 required ctx

end SchemaDelta
