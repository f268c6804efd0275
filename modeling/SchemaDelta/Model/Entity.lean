import SchemaDelta.Json.Field

/-!
# Entities in the model

The marker that says what happened to a table, view or type as a whole, the schema, and the name of
an entity.
-/

namespace SchemaDelta.Model

/-- What a delta says of a whole entity. -/
structure EntityMark where
  created : Bool := false
  deleted : Bool := false
  /-- The schema of the entity. -/
  keyspaceName : Option String := none

/-- Reads a marker. -/
def EntityMark.read? (v : Json) : Option EntityMark :=
  (v.record? ["created", "deleted", "keyspaceName"]).map fun r =>
    { created := r.flag "created"
      deleted := r.flag "deleted"
      keyspaceName := r.text? "keyspaceName" }

/-- The marker of an entity, under the key `compMod`. -/
def EntityMark.ofEntries? (r : Json.Entries) : Option EntityMark :=
  (r.value "compMod").nested? EntityMark.read? {}

/-- The name of an entity: its code, else the name of its collection, else its name. -/
def nameAmong? (code collectionName name : Option String) : Option String :=
  code <|> collectionName <|> name

/-- A schema of the database, which is a user. -/
structure Schema where
  code : Option String := none
  name : Option String := none
  ifNotExist : Bool := false
  active : Bool := true

/-- Reads a schema. -/
def Schema.read? (v : Json) : Option Schema :=
  (v.record? ["code", "name", "ifNotExist", "isActivated"]).map fun r =>
    { code := r.text? "code"
      name := r.text? "name"
      ifNotExist := r.flag "ifNotExist"
      active := r.active }

end SchemaDelta.Model
