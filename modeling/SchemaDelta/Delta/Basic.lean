import SchemaDelta.Delta.Item

/-!
# Delta documents

A delta has four categories of entities, and a category has three lists of items: added, deleted
and modified. Each level is found directly or under the key `properties`, and a lone item needs no
list.
-/

namespace SchemaDelta

/-- The items of one category of entities. -/
structure Category where
  added : List Item := []
  deleted : List Item := []
  modified : List Item := []

/-- A delta of a model. -/
structure Delta where
  containers : Category := {}
  entities : Category := {}
  views : Category := {}
  modelDefinitions : Category := {}

/-- The value of a key, directly or under `properties`. -/
def Json.level? (v : Json) (key : String) : Option Json :=
  v.object?.bind fun r =>
    r.value? key <|> ((r.value? "properties").bind Json.object?).bind fun p => p.value? key

/-- The items of a list. -/
def Item.list (v : Option Json) : List Item :=
  match v.bind fun v => v.level? "items" with
  | some items => items.list Item.read?
  | none => []

/-- A category, which is empty when it is absent. -/
def Category.ofJson (v : Option Json) : Category where
  added := Item.list (v.bind fun v => v.level? "added")
  deleted := Item.list (v.bind fun v => v.level? "deleted")
  modified := Item.list (v.bind fun v => v.level? "modified")

namespace Delta

/-- The delta that an object stands for. -/
def ofJson? (v : Json) : Option Delta :=
  v.object?.map fun _ =>
    { containers := Category.ofJson (v.level? "containers")
      entities := Category.ofJson (v.level? "entities")
      views := Category.ofJson (v.level? "views")
      modelDefinitions := Category.ofJson (v.level? "modelDefinitions") }

/-- The four categories. -/
def categories (d : Delta) : List Category :=
  [d.containers, d.entities, d.views, d.modelDefinitions]

/-- No category has an item. -/
def isEmpty (d : Delta) : Bool :=
  d.categories.all fun c => c.added.isEmpty && c.deleted.isEmpty && c.modified.isEmpty

end Delta

end SchemaDelta
