import SchemaDelta.Json.Field

/-!
# Keys in the model

References to columns, the options of a key constraint, and the composite keys of a table.
-/

namespace SchemaDelta.Model

/-- A reference to a column, by identifier or by name. -/
structure ColumnRef where
  keyId : Option String := none
  name : Option String := none
  /-- The sort order, under the key `type`. -/
  order : Option String := none

namespace ColumnRef

/-- A reference from the entries of a record. -/
def ofEntries (r : Json.Entries) : ColumnRef where
  keyId := r.text? "keyId"
  name := r.text? "name"
  order := r.text? "type"

/-- Reads a reference. -/
def read? (v : Json) : Option ColumnRef :=
  (v.record? ["keyId", "name", "type"]).map ofEntries

end ColumnRef

/-- The options of a key constraint. -/
structure KeyOptions where
  constraintName : Option String := none
  name : Option String := none
  deferClause : Option String := none
  rely : Option String := none
  indexClause : Option String := none
  validate : Option String := none
  exceptionClause : Option String := none

namespace KeyOptions

/-- Options from the entries of a record. -/
def ofEntries (r : Json.Entries) : KeyOptions where
  constraintName := r.text? "constraintName"
  name := r.text? "name"
  deferClause := r.text? "deferClause"
  rely := r.text? "rely"
  indexClause := r.text? "indexClause"
  validate := r.text? "validate"
  exceptionClause := r.text? "exceptionClause"

/-- Reads options. -/
def read? (v : Json) : Option KeyOptions :=
  (v.record? ["constraintName", "name", "deferClause", "rely", "indexClause", "validate",
    "exceptionClause"]).map ofEntries

/-- The name of the constraint: its own, or else the name of the options. -/
def constraint? (o : KeyOptions) : Option String :=
  o.constraintName <|> o.name

end KeyOptions

/-- One entry of a table's list of primary or unique keys. -/
structure CompositeKey where
  primary : List ColumnRef := []
  unique : List ColumnRef := []
  options : KeyOptions := {}

/-- Reads a composite key, whose options stand beside the references in one object. -/
def CompositeKey.read? (v : Json) : Option CompositeKey :=
  v.object?.map fun r =>
    { primary := r.list ColumnRef.read? "compositePrimaryKey"
      unique := r.list ColumnRef.read? "compositeUniqueKey"
      options := KeyOptions.ofEntries r }

end SchemaDelta.Model
