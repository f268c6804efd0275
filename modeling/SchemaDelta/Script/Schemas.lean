import SchemaDelta.Script.Plan

/-!
# Changes of schemas

Added schemas are created, and then deleted ones are dropped.
-/

namespace SchemaDelta

/-- The schema that an item describes. -/
def Item.schemaDef? (i : Item) : Option Schema :=
  (i.entity? Model.Schema.read?).map fun d => Schema.ofNode d.key d.node

/-- The steps of the schemas. -/
def schemaSteps (c : Category) : List Step :=
  (c.added.filterMap Item.schemaDef?).map .createSchema ++
    (c.deleted.filterMap Item.schemaDef?).map .dropSchema

end SchemaDelta
