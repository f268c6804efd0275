import SchemaDelta.Model.Entity

/-!
# Views in the model

A view with its keys. A key is the text of an expression, or a column of a table.
-/

namespace SchemaDelta.Model

/-- A column that a view shows. -/
structure ViewColumn where
  name : Option String := none
  table : Option String := none
  shownAs : Option String := none
  active : Bool := true

/-- Reads a column. The table stands under one of two keys, and not under both. -/
def ViewColumn.read? (v : Json) : Option ViewColumn :=
  (v.record? ["name", "tableName", "alias", "isActivated"]).bind fun r =>
    if (r.value? "tableName").isSome ∧ (r.value? "entityName").isSome then none
    else some
      { name := r.text? "name"
        table := r.text? "tableName" <|> r.text? "entityName"
        shownAs := r.text? "alias"
        active := r.active }

/-- A key of a view. -/
inductive ViewKey where
  | expression (text : String)
  | column (c : ViewColumn)

/-- Reads a key. -/
def ViewKey.read? : Json → Option ViewKey
  | .string s => some (.expression s)
  | v => (ViewColumn.read? v).map .column

/-- A view of the model. -/
structure View where
  code : Option String := none
  name : Option String := none
  keys : List ViewKey := []
  orReplace : Bool := false
  force : Bool := false
  editionable : Bool := false
  editioning : Bool := false
  selectStatement : Option String := none
  description : Option String := none
  ifNotExist : Bool := false
  active : Bool := true
  mark : Option EntityMark := none

/-- A view from the entries of a record. -/
def View.ofEntries (r : Json.Entries) : View where
  code := r.text? "code"
  name := r.text? "name"
  keys := r.list ViewKey.read? "keys"
  orReplace := r.flag "or_replace"
  force := r.flag "force"
  editionable := r.flag "editionable"
  editioning := r.flag "editioning"
  selectStatement := r.text? "selectStatement"
  description := r.text? "description"
  ifNotExist := r.flag "ifNotExist"
  active := r.active
  mark := EntityMark.ofEntries? r

/-- Reads a view. -/
def View.read? (v : Json) : Option View :=
  (v.record? ["code", "name", "keys", "or_replace", "force", "editionable", "editioning",
    "selectStatement", "description", "ifNotExist", "isActivated", "compMod"]).map
    View.ofEntries

end SchemaDelta.Model
