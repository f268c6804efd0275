import SchemaDelta.Model.Entity

/-!
# Items of a delta

An item is the node of one entity under the key of the entity. The node may hold an overlay, its
role, whose values come before the node's own; the fields of the entity are not overlaid. What
happened to the entity is read from the node itself, and its schema from the node with the overlay.
-/

namespace SchemaDelta

/-- What happened to an entity. -/
inductive EntityChange where
  | created
  | deleted
  /-- The entity is marked, but neither as created nor as deleted. -/
  | marked
  /-- The entity is not marked: only some of its fields have changed. -/
  | fields
deriving DecidableEq

/-- The change that a marker stands for. -/
def EntityChange.ofMark : Option Model.EntityMark → EntityChange
  | none => fields
  | some m => if m.created then created else if m.deleted then deleted else marked

/-- The node of an entity under its key. -/
structure Item where
  key : String
  node : Json

/-- An entity together with what happened to it. -/
structure Changed (α : Type) where
  key : String
  change : EntityChange
  schema : Option String
  node : α

/-- The entries of the role come before those of the node, apart from the fields. -/
def overlay (node role : Json.Entries) : Json.Entries :=
  role.foldl
    (fun acc e => if e.1 = "properties" then acc else Json.Entries.insert e.1 e.2 acc) node

/-- The first entry of a role is laid over a node before the others, unless it holds the fields. -/
theorem overlay_cons (node role : Json.Entries) (e : String × Json) :
    overlay node (e :: role) =
      overlay (if e.1 = "properties" then node else Json.Entries.insert e.1 e.2 node) role := rfl

/-- The marker of a node. -/
def markOf? (node : Json) : Option Model.EntityMark :=
  (node.record? ["compMod"]).bind Model.EntityMark.ofEntries?

/-- An object is marked by its own marker. -/
theorem markOf?_object (r : Json.Entries) :
    markOf? (.object r) = Model.EntityMark.ofEntries? r := rfl

namespace Item

/-- The item that an object stands for: its first entry. A lone key `properties` that holds an
object wraps the entry. -/
def read? : Json → Option Item
  | .object [("properties", .object inner)] => inner.head?.map fun e => ⟨e.1, e.2⟩
  | .object entries => entries.head?.map fun e => ⟨e.1, e.2⟩
  | _ => none

/-- The node with its role laid over it. -/
def withRole (i : Item) : Json :=
  match i.node with
  | .object node =>
    match Json.Entries.value "role" node with
    | .object role => .object (overlay node role)
    | _ => .object node
  | node => node

/-- What happened to the entity. -/
def change (i : Item) : EntityChange :=
  EntityChange.ofMark (markOf? i.node)

/-- The schema of the entity. -/
def schema? (i : Item) : Option String :=
  (markOf? i.withRole).bind Model.EntityMark.keyspaceName

/-- The entity that the item describes, with its change. -/
def entity? {α : Type} (read? : Json → Option α) (i : Item) : Option (Changed α) :=
  (read? i.withRole).map fun node => ⟨i.key, i.change, i.schema?, node⟩

end Item

end SchemaDelta
