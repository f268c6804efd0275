import SchemaDelta.Schema
import SchemaDelta.Table.Clause
import SchemaDelta.UserType.Clause
import SchemaDelta.View.Clause

/-!
# Steps of a script

A script is planned as a list of steps before it is written. A step creates or drops an entity, or
changes one column of a table or one attribute of an object type. Each step is written as statements
that belong together: a table comes with its comments and its indexes. Existing tables and types are
given by their qualified names.
-/

namespace SchemaDelta

open Sql

/-- One step of a script. -/
inductive Step where
  | createSchema (s : Schema)
  | dropSchema (s : Schema)
  | createTable (t : Table)
  | dropTable (table : String)
  | addColumn (table : String) (tableActive : Bool) (c : Column)
  | dropColumn (table column : String)
  | renameColumn (table old new : String)
  | modifyColumn (table column type : String)
  | createView (v : View)
  | dropView (v : View)
  | createType (t : UserType)
  | dropType (t : UserType)
  /-- The attribute is added live or not, whatever it says of itself. -/
  | addAttribute (type : String) (active : Bool) (c : Column)
  | dropAttribute (type name : String)
  | modifyAttribute (type name dataType : String)

namespace Step

/-- A live statement of the given form. -/
def live (form : Template) (values : List (String × String)) : List Fragment :=
  [⟨form.fill (.ofList values), true⟩]

/-- The statements of a step. -/
def units : Step → List Fragment
  | createSchema s => [s.createUnit]
  | dropSchema s => live Form.dropUser [("name", quote s.name)]
  | createTable t => t.createUnits ++ t.indexUnits
  | dropTable table => live Form.dropTable [("name", table)]
  | addColumn table tableActive c =>
    [⟨Form.addColumn.fill (.ofList [("name", table), ("column", c.line.text)]),
      c.active && tableActive⟩]
  | dropColumn table column => live Form.dropColumn [("name", table), ("column", quote column)]
  | renameColumn table old new =>
    live Form.renameColumn [("name", table), ("oldName", quote old), ("newName", quote new)]
  | modifyColumn table column type =>
    live Form.modifyColumn [("name", table), ("column", quote column), ("type", type)]
  | createView v => v.createUnits
  | dropView v => live Form.dropView [("name", v.qualifiedName)]
  | createType t => [t.createUnit]
  | dropType t => live Form.dropType [("name", t.qualifiedName)]
  | addAttribute type active c =>
    [⟨Form.addAttribute.fill (.ofList [("name", type), ("attribute", c.attributeLine.text)]),
      active⟩]
  | dropAttribute type name => live Form.dropAttribute [("name", type), ("attribute", quote name)]
  | modifyAttribute type name dataType =>
    live Form.modifyAttribute [("name", type), ("attribute", quote name), ("type", dataType)]

/-- Every step has a statement. -/
theorem units_ne_nil (s : Step) : s.units ≠ [] := by
  cases s <;> simp [units, live, Table.createUnits, View.createUnits]

end Step

end SchemaDelta
