import SchemaDelta.Model.Entity
import SchemaDelta.Model.Field

/-!
# Types in the model

A type that the model defines: an object type with attributes, or a collection of elements.
-/

namespace SchemaDelta.Model

/-- A type that the model defines. -/
structure UserType where
  code : Option String := none
  name : Option String := none
  typing : Typing := {}
  /-- The native type of the elements of a collection. -/
  ofType : Option String := none
  size : Option Nat := none
  notPersistable : Bool := false
  nullable : Bool := true
  fields : Fields := []
  required : List String := []
  description : Option String := none
  active : Bool := true
  mark : Option EntityMark := none

/-- Reads a type, which must be an object. -/
def UserType.read? (v : Json) : Option UserType :=
  v.object?.map fun r =>
    { code := r.text? "code"
      name := r.text? "name"
      typing := Typing.ofEntries r
      ofType := r.text? "ofType"
      size := r.count? "size"
      notPersistable := r.flag "notPersistable"
      nullable := (r.value "nullable").active
      fields := (r.value "properties").table Field.read?
      required := r.texts "required"
      description := r.text? "description"
      active := r.active
      mark := EntityMark.ofEntries? r }

/-- The name of a type: its code, else its name. -/
def UserType.typeName? (t : UserType) : Option String :=
  t.code <|> t.name

end SchemaDelta.Model
