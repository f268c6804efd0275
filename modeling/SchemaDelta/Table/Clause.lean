import SchemaDelta.Column.Clause
import SchemaDelta.Table.Basic

/-!
# The creation of a table

A table is created with a body, which holds columns, keys, checks and foreign keys, and with options
after it, one a line. Comments on the table and its columns follow as statements of their own.
-/

namespace SchemaDelta

open Sql Text

/-! ## Check constraints -/

/-- The parentheses are balanced when `depth` more have been opened before. -/
def balancedFrom : Nat → List Char → Bool
  | depth, [] => depth = 0
  | depth, '(' :: r => balancedFrom (depth + 1) r
  | 0, ')' :: _ => false
  | depth + 1, ')' :: r => balancedFrom depth r
  | depth, _ :: r => balancedFrom depth r

/-- The trimmed expression without the pair of parentheses that encloses all of it. -/
def stripParens (expression : String) : String :=
  let s := trimChars expression.toList
  let inner := (s.drop 1).dropLast
  if 2 ≤ s.length ∧ s.head? = some '(' ∧ s.getLast? = some ')' ∧ balancedFrom 0 inner then
    String.ofList (trimChars inner)
  else String.ofList s

/-- A check constraint in the body of a table. -/
def Check.fragment (c : Check) : Fragment :=
  ⟨Form.checkConstraint.fill (.ofList
    [("name", quotedName c.name), ("expression", stripParens c.expression)]), true⟩

/-! ## Options -/

/-- The retention and hashing of a blockchain table. -/
def Model.Blockchain.clause? (b : Model.Blockchain) : Option String :=
  let text := spaced [b.tableRetention, b.rowRetention, b.hashAndFormat]
  if text.isEmpty then none else some text

/-- The organization of a table, with the tablespace and logging of an internal one. -/
def Model.Storage.clause (s : Model.Storage) : String :=
  let organization := (s.organization.map String.toUpper).getD "HEAP"
  if organization = "EXTERNAL" then "ORGANIZATION EXTERNAL"
  else
    "ORGANIZATION " ++ organization ++
      (s.tablespace.map fun t => " TABLESPACE " ++ quote t).getD "" ++
      if s.logging then " LOGGING" else " NOLOGGING"

/-- A file of an external table, with its directory. -/
def Model.Location.text? (l : Model.Location) : Option String :=
  l.specifier.map fun s =>
    (l.directory.map fun d => d ++ ":").getD "" ++ literal s

/-- The access parameters of an external table: a query comes before a format. -/
def Model.ExternalAccess.parameters (e : Model.ExternalAccess) : String :=
  if e.parameterType = some "NONE" then ""
  else
    match e.subquery.map ("USING CLOB " ++ ·) <|> e.formatSpec with
    | some p => " ACCESS PARAMETERS " ++ p
    | none => ""

/-- The access to an external table, if it has a driver. -/
def Model.ExternalAccess.clause? (e : Model.ExternalAccess) : Option String :=
  e.driver.map fun driver =>
    let locations := match e.locations.filterMap Model.Location.text? with
      | [] => ""
      | ls => " LOCATION (" ++ join ", " ls ++ ")"
    "(TYPE " ++ driver.toUpper ++
      (e.defaultDirectory.map fun d => " DEFAULT DIRECTORY " ++ d).getD "" ++ e.parameters ++
      locations ++ ") REJECT LIMIT " ++ e.rejectLimit.getD "UNLIMITED"

namespace Table

/-- The qualified name of a table. -/
def qualifiedName (t : Table) : String :=
  qualified t.name t.schema

/-- The options after the body, one a line. -/
def options (t : Table) : String :=
  let clauses := [t.blockchain.bind Model.Blockchain.clause?, t.storage.map Model.Storage.clause,
    t.external.bind Model.ExternalAccess.clause?, t.partitioning.bind fun p => p.clause? t.active,
    t.selectStatement.map ("AS " ++ ·)]
  join "\n" (clauses.filterMap id)

/-! ## Statements -/

/-- The members of the body: columns, keys, checks and foreign keys, in this order. -/
def members (t : Table) : List Fragment :=
  t.columns.map Column.line ++ t.keys.map (fun k => k.fragment t.active) ++
    t.checks.map Check.fragment ++ t.foreignKeys.map fun k => k.fragment t.schema

/-- The creation of a table, without its end. -/
def createText (t : Table) : String :=
  Form.createTable.fill (.ofList
    [("tableType", t.kind.words?.getD ""), ("name", t.qualifiedName),
      ("tableProps", composite t.members ",\n\t" t.active), ("options", t.options)])

/-- The comment on a table, if there is one. -/
def commentUnit? (t : Table) : Option Fragment :=
  (t.description.filter fun d => !blank d).map fun d =>
    ⟨commentOn "TABLE" t.qualifiedName d, t.active⟩

/-- The statements that create a table: its own, its comment and those of its columns. -/
def createUnits (t : Table) : List Fragment :=
  ⟨guarded t.createText t.ifNotExist nameInUse, t.active⟩ ::
    t.commentUnit?.toList ++
    t.columns.filterMap fun c => c.commentUnit? t.qualifiedName t.active

/-- The statements that create the indexes of a table. -/
def indexUnits (t : Table) : List Fragment :=
  t.indexes.map fun i => i.statement t.name t.schema t.active

end Table

end SchemaDelta
