import SchemaDelta.Column.Basic
import SchemaDelta.Key.Clause
import SchemaDelta.Sql.Statement

/-!
# Column lines

The line of a column in the body of a table, the line of an attribute in the body of an object type,
and the comments on columns.
-/

namespace SchemaDelta

open Sql Text

/-- The encryption of a column. -/
def Model.Encryption.clause (e : Model.Encryption) : String :=
  "ENCRYPT" ++ (e.algorithm.map fun a => " USING " ++ literal a).getD "" ++
    (e.integrity.map fun i => " " ++ literal i).getD "" ++
    if e.noSalt then " NO SALT" else ""

namespace Column

/-- The constraints in the line of a column. -/
def constraints (c : Column) : String :=
  join " " <|
    (if c.nullable then [] else ["NOT NULL"]) ++
    (c.primaryKey.map (keyText .primary "")).toList ++
    (c.unique.map (keyText .unique "")).toList

/-- The line of a column in the body of a table. -/
def line (c : Column) : Fragment :=
  ⟨Form.columnDefinition.fill (.ofList
    [("name", quote c.name), ("type", c.type.clause), ("default", c.default.getD ""),
      ("encrypt", (c.encryption.map Model.Encryption.clause).getD ""),
      ("constraints", c.constraints)]), c.active⟩

/-- The line of an attribute in the body of an object type. -/
def attributeLine (c : Column) : Fragment :=
  ⟨Form.attributeDefinition.fill (.ofList [("name", quote c.name), ("type", c.type.clause)]),
    c.active⟩

/-- The comment on a column of the table with the given qualified name, if there is one. -/
def commentUnit? (c : Column) (table : String) (tableActive : Bool) : Option Fragment :=
  (c.comment.filter fun t => !blank t).map fun t =>
    ⟨commentOn "COLUMN" (table ++ "." ++ quote c.name) t, tableActive && c.active⟩

end Column

end SchemaDelta
