import SchemaDelta.Column.Basic
import SchemaDelta.Model.View

/-!
# Views

A view with its query, which is a text of its own or made of the view's keys.
-/

namespace SchemaDelta

open Text

/-- A key of a view: an expression, or a column with its table and alias. -/
inductive ViewKey where
  | expression (text : String)
  | column (table : Option String) (name : String) (shownAs : Option String) (active : Bool)

/-- The key that a node describes: an expression that is not blank, or a column with a name. -/
def ViewKey.ofNode? : Model.ViewKey → Option ViewKey
  | .expression s => (trimmed? s).map .expression
  | .column c => c.name.map fun n => .column c.table n c.shownAs c.active

/-- A view. -/
structure View where
  name : String
  schema : Option String := none
  keys : List ViewKey := []
  orReplace : Bool := false
  force : Bool := false
  editionable : Bool := false
  editioning : Bool := false
  selectStatement : Option String := none
  description : Option String := none
  ifNotExist : Bool := false
  active : Bool := true

/-- The view that a node describes, if it has a name. -/
def View.ofNode? (v : Model.View) (ctx : Context) : Option View :=
  (v.code <|> v.name).map fun name =>
    { name := name
      schema := ctx.schema
      keys := v.keys.filterMap ViewKey.ofNode?
      orReplace := v.orReplace
      force := v.force
      editionable := v.editionable
      editioning := v.editioning
      selectStatement := v.selectStatement.bind trimmed?
      description := v.description
      ifNotExist := v.ifNotExist
      active := v.active }

/-- The view has a query. -/
def View.hasQuery (v : View) : Bool :=
  v.selectStatement.isSome || !v.keys.isEmpty

end SchemaDelta
