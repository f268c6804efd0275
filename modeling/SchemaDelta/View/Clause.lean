import SchemaDelta.Sql.Fragment
import SchemaDelta.Sql.Statement
import SchemaDelta.View.Basic

/-!
# The creation of a view

A query that is made of keys lists the keys after `SELECT` and each table once, in the order of
first use, after `FROM`.
-/

namespace SchemaDelta

open Sql Text

/-- The source of a column key: the qualified name of its table. -/
def ViewKey.source? (schema : Option String) : ViewKey → Option String
  | .column (some table) _ _ _ => some (qualified table schema)
  | _ => none

/-- A key in the list of a query. -/
def ViewKey.fragment (schema : Option String) (k : ViewKey) : Fragment :=
  match k with
  | .expression e => ⟨e, true⟩
  | .column _ name shownAs active =>
    let source := ((k.source? schema).map (· ++ ".")).getD ""
    let alternative := (shownAs.map fun a => " as " ++ quote a).getD ""
    ⟨source ++ quote name ++ alternative, active⟩

/-- The elements of a list, each at its first place only. -/
def firstUses (names : List String) : List String :=
  names.foldl (fun seen n => if seen.contains n then seen else seen ++ [n]) []

namespace View

/-- The qualified name of a view. -/
def qualifiedName (v : View) : String :=
  qualified v.name v.schema

/-- The tables of the keys, each once, in the order of first use. -/
def sources (v : View) : List String :=
  firstUses (v.keys.filterMap (ViewKey.source? v.schema))

/-- The query that is made of the keys. -/
def keyQuery (v : View) : String :=
  Form.viewSelect.fill (.ofList
    [("keys", composite (v.keys.map (ViewKey.fragment v.schema)) ",\n\t\t" v.active),
      ("tableName", join ", " v.sources)])

/-- The creation of a view, without its end. -/
def createText (v : View) : String :=
  let words := (if v.editionable then ["EDITIONABLE"] else []) ++
    if v.editioning then ["EDITIONING"] else []
  Form.createView.fill (.ofList
    [("orReplace", if v.orReplace then "OR REPLACE" else ""),
      ("force", if v.force then "FORCE" else ""), ("viewType", join " " words),
      ("name", v.qualifiedName), ("selectStatement", v.selectStatement.getD v.keyQuery)])

/-- The comment on a view, if there is one. -/
def commentUnit? (v : View) : Option Fragment :=
  (v.description.filter fun d => !blank d).map fun d =>
    ⟨commentOn "TABLE" v.qualifiedName d, v.active⟩

/-- The statements that create a view: its own and its comment. -/
def createUnits (v : View) : List Fragment :=
  ⟨guarded v.createText v.ifNotExist nameInUse, v.active⟩ :: v.commentUnit?.toList

end View

end SchemaDelta
