import SchemaDelta.Key.Basic
import SchemaDelta.Sql.Form

/-!
# Key clauses

The text of key constraints, inline and in the body of a table, and of foreign keys in their two
forms.
-/

namespace SchemaDelta

open Sql Text

/-- The trimmed texts that have content, with a space between them. -/
def spaced (parts : List (Option String)) : String :=
  join " " (parts.filterMap fun p => p.bind trimmed?)

/-- The options of a key: deferral, reliance, index, validation and exceptions, in this order. -/
def Model.KeyOptions.clause (o : Model.KeyOptions) : String :=
  spaced [o.deferClause, o.rely, o.indexClause, o.validate, o.exceptionClause]

/-- The name of a constraint in quotes, or nothing. -/
def quotedName (name : Option String) : String :=
  (name.map quote).getD ""

/-- A key constraint; an inline one has no list of columns. -/
def keyText (kind : TableKey.Kind) (columns : String) (o : Model.KeyOptions) : String :=
  Form.keyConstraint.fill (.ofList
    [("constraintName", quotedName o.constraint?), ("keyType", kind.keyword),
      ("columns", columns), ("options", o.clause)])

/-- A key constraint in the body of a table. -/
def TableKey.fragment (k : TableKey) (parentActive : Bool) : Fragment :=
  ⟨keyText k.kind (columnTuple (k.columns.map KeyMember.quoted) parentActive) k.options, k.active⟩

/-- The columns of one side of a foreign key. In an active key the inactive ones are commented. -/
def sideText (columns : List KeyMember) (keyActive : Bool) : String :=
  let names (cs : List KeyMember) := join ", " (cs.map fun c => quote c.name)
  if keyActive then
    match columns.filter fun c => !c.active with
    | [] => names columns
    | dead => names (columns.filter KeyMember.active) ++ " " ++ commentedInline (names dead)
  else names columns

namespace ForeignKey

/-- The slots that both forms of a foreign key share. -/
def values (k : ForeignKey) (schema : Option String) : List (String × String) :=
  [("name", quotedName k.name), ("foreignKey", sideText k.foreignColumns k.active),
    ("primaryTable", qualified k.primaryTable (k.primarySchema <|> schema)),
    ("primaryKey", sideText k.primaryColumns k.active)]

/-- A foreign key in the body of a table. -/
def fragment (k : ForeignKey) (schema : Option String) : Fragment :=
  ⟨Form.foreignKeyConstraint.fill (.ofList (k.values schema)), k.active⟩

/-- A foreign key as a statement of its own. -/
def statement (k : ForeignKey) (schema : Option String) : Fragment :=
  let table := qualified k.foreignTable (k.foreignSchema <|> schema)
  ⟨Form.createForeignKey.fill (.ofList (("foreignTable", table) :: k.values schema)), k.active⟩

end ForeignKey

end SchemaDelta
