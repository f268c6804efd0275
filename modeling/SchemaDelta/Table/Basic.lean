import SchemaDelta.Column.Basic
import SchemaDelta.Table.Index
import SchemaDelta.Table.Partition

/-!
# Tables

A table with its columns, constraints, indexes and options, ready to be written.
-/

namespace SchemaDelta

open Text

/-- The kinds of tables. -/
inductive Table.Kind where
  | regular
  | temporary (scope : String)
  | sharded
  | duplicated
  | immutable
  | blockchain (immutable : Bool)

/-- The kind of table that a node describes; of several the first in this order. -/
def Table.Kind.ofNode (t : Model.Table) : Table.Kind :=
  if t.temporary then .temporary (t.temporaryType.getD "global").toUpper
  else if t.sharded then .sharded
  else if t.duplicated then .duplicated
  else if t.immutable then .immutable
  else match t.blockchain with
    | some b => .blockchain b.immutable
    | none => .regular

/-- The words between `CREATE` and `TABLE`. -/
def Table.Kind.words? : Table.Kind → Option String
  | regular => none
  | temporary scope => some (scope ++ " TEMPORARY")
  | sharded => some "SHARDED"
  | duplicated => some "DUPLICATED"
  | immutable => some "IMMUTABLE"
  | blockchain true => some "IMMUTABLE BLOCKCHAIN"
  | blockchain false => some "BLOCKCHAIN"

/-- A check constraint. -/
structure Check where
  name : Option String := none
  expression : String
  description : Option String := none

/-- The check constraint that a node describes, if it has an expression. -/
def Check.ofNode? (n : Model.Check) : Option Check :=
  n.expression.map fun e =>
    { name := n.name, expression := trim e, description := n.description <|> n.comments }

/-- A table. -/
structure Table where
  name : String
  schema : Option String := none
  columns : List Column := []
  keys : List TableKey := []
  checks : List Check := []
  foreignKeys : List ForeignKey := []
  kind : Table.Kind := .regular
  storage : Option Model.Storage := none
  external : Option Model.ExternalAccess := none
  blockchain : Option Model.Blockchain := none
  partitioning : Option Partitioning := none
  selectStatement : Option String := none
  description : Option String := none
  indexes : List Index := []
  ifNotExist : Bool := false
  active : Bool := true

/-- The table that a node describes, if it has a name. -/
def Table.ofNode? (t : Model.Table) (ctx : Context) : Option Table :=
  t.tableName?.map fun name =>
    { name := name
      schema := ctx.schema
      columns := t.fields.columns t.required ctx
      keys := t.keyConstraints
      checks := t.checks.filterMap Check.ofNode?
      kind := Table.Kind.ofNode t
      storage := t.storage
      external := t.external
      blockchain := t.blockchain
      partitioning := t.partitioning.map fun p => Partitioning.ofNode p t.fields
      selectStatement := t.selectStatement.bind trimmed?
      description := t.description
      indexes := t.indexes.filterMap fun i => Index.ofNode? i t.fields
      ifNotExist := t.ifNotExist
      active := t.active }

end SchemaDelta
