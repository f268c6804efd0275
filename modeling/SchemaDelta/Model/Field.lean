import SchemaDelta.Model.Key
import SchemaDelta.Model.Typing

/-!
# Fields in the model

A field is a column of a table or an attribute of an object type. A field that has changed bears its
old and its new state.
-/

namespace SchemaDelta.Model

/-- The old or the new state of a changed field. -/
structure FieldState where
  name : Option String := none
  kind : Option String := none
  mode : Option String := none

/-- Reads a state. -/
def FieldState.read? (v : Json) : Option FieldState :=
  (v.record? ["name", "type", "mode"]).map fun r =>
    { name := r.text? "name", kind := r.text? "type", mode := r.text? "mode" }

/-- The change of a field. -/
structure FieldChange where
  old : FieldState := {}
  new : FieldState := {}

namespace FieldChange

/-- Reads a change. -/
def read? (v : Json) : Option FieldChange :=
  (v.record? ["oldField", "newField"]).map fun r =>
    { old := (r.value "oldField").nested FieldState.read? {}
      new := (r.value "newField").nested FieldState.read? {} }

/-- The name has changed. -/
def changesName (c : FieldChange) : Bool :=
  c.old.name != c.new.name

/-- The kind or the mode has changed. -/
def changesType (c : FieldChange) : Bool :=
  c.old.kind != c.new.kind || c.old.mode != c.new.mode

end FieldChange

/-- How a column is encrypted. -/
structure Encryption where
  algorithm : Option String := none
  integrity : Option String := none
  noSalt : Bool := false

/-- Reads an encryption. -/
def Encryption.read? (v : Json) : Option Encryption :=
  (v.record? ["ENCRYPTION_ALGORITHM", "INTEGRITY_ALGORITHM", "noSalt"]).map fun r =>
    { algorithm := r.text? "ENCRYPTION_ALGORITHM"
      integrity := r.text? "INTEGRITY_ALGORITHM"
      noSalt := r.flag "noSalt" }

/-- A column of a table, or an attribute of an object type. -/
structure Field where
  guid : Option String := none
  code : Option String := none
  name : Option String := none
  typing : Typing := {}
  ofType : Option String := none
  primaryKey : Bool := false
  unique : Bool := false
  compositePrimaryKey : Bool := false
  compositeUniqueKey : Bool := false
  primaryKeyOptions : KeyOptions := {}
  uniqueKeyOptions : KeyOptions := {}
  default : Option String := none
  description : Option String := none
  refDescription : Option String := none
  encryption : Option Encryption := none
  active : Bool := true
  change : Option FieldChange := none

/-- Reads a field, which must be an object. -/
def Field.read? (v : Json) : Option Field :=
  v.object?.map fun r =>
    { guid := r.text? "GUID"
      code := r.text? "code"
      name := r.text? "name"
      typing := Typing.ofEntries r
      ofType := r.text? "ofType"
      primaryKey := r.flag "primaryKey"
      unique := r.flag "unique"
      compositePrimaryKey := r.flag "compositePrimaryKey"
      compositeUniqueKey := r.flag "compositeUniqueKey"
      primaryKeyOptions := (r.value "primaryKeyOptions").nested KeyOptions.read? {}
      uniqueKeyOptions := (r.value "uniqueKeyOptions").nested KeyOptions.read? {}
      default := r.text? "default"
      description := r.text? "description"
      refDescription := r.text? "refDescription"
      encryption := (r.value "encryption").nested? Encryption.read? {}
      active := r.active
      change := (r.value "compMod").nested? FieldChange.read? {} }

/-- The fields of an entity, each under its key, in the order in which they are declared. -/
abbrev Fields := List (String × Field)

end SchemaDelta.Model
