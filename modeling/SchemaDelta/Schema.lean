import SchemaDelta.Model.Entity
import SchemaDelta.Sql.Fragment
import SchemaDelta.Sql.Statement

/-!
# Schemas

A schema of the database is a user that cannot log in.
-/

namespace SchemaDelta

open Sql

/-- A schema to create. -/
structure Schema where
  name : String
  ifNotExist : Bool := false
  active : Bool := true

namespace Schema

/-- The schema that a node under the given key describes. -/
def ofNode (key : String) (n : Model.Schema) : Schema where
  name := (n.code <|> n.name).getD key
  ifNotExist := n.ifNotExist
  active := n.active

/-- The statement that creates a schema. -/
def createUnit (s : Schema) : Fragment :=
  ⟨guarded (Form.createSchema.fill (.ofList [("schemaName", quote s.name)])) s.ifNotExist
    userNameInUse, s.active⟩

end Schema

end SchemaDelta
