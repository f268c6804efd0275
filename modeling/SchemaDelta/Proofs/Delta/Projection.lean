import SchemaDelta.Delta.Item
import SchemaDelta.Model.View
import SchemaDelta.Proofs.Activation.Body
import SchemaDelta.UserType.Basic

/-!
# Every object is an entity of every kind

Whether a value is read as a table, a view, a type or a schema is decided by its outer shape alone
(`Json.isSome_read?_iff`): what stands in the fields of an object, at any depth, is read or is taken
for absent, and the entity stays. A role that is laid over a node keeps it an object, and keeps the
fields of the entity, so no item that holds an object is lost (`Item.projects`), and each object
among its properties is a column or an attribute, under its key and in its place.
-/

namespace SchemaDelta

open Json (Entries)

/-! ## The outer shape decides -/

/-- The value can be read as a record of the given length: it is an object, or a list that is not
longer. -/
def Json.IsRecord (length : Nat) : Json → Prop
  | .object _ => True
  | .array items => items.length ≤ length
  | _ => False

theorem Json.isSome_record?_iff {keys : List String} {v : Json} :
    (v.record? keys).isSome ↔ v.IsRecord keys.length := by
  cases v with
  | object entries => simp [record?, IsRecord]
  | array items =>
    rw [record?, IsRecord]
    split <;> simp [*]
  | _ => simp [record?, IsRecord]

/-- The values that an entity of each kind is read from. A type may not be a list: its entries are
gone through twice, for the type and for what it shares with the fields. -/
theorem Json.isSome_read?_iff (v : Json) :
    ((Model.Table.read? v).isSome ↔ v.IsRecord 23) ∧
      ((Model.View.read? v).isSome ↔ v.IsRecord 12) ∧
      ((Model.UserType.read? v).isSome ↔ ∃ r, v = .object r) ∧
      ((Model.Schema.read? v).isSome ↔ v.IsRecord 4) := by
  refine ⟨?_, ?_, ?_, ?_⟩
  · rw [Model.Table.read?, Option.isSome_map, isSome_record?_iff]
    rfl
  · rw [Model.View.read?, Option.isSome_map, isSome_record?_iff]
    rfl
  · rw [Model.UserType.read?, Option.isSome_map]
    cases v <;> simp [object?]
  · rw [Model.Schema.read?, Option.isSome_map, isSome_record?_iff]
    rfl

/-! ## The fields of an entity -/

/-- The fields are the given objects, one by one, and so are the columns that they describe. -/
structure Model.Fields.ReadFrom (fields : Model.Fields) (objects : List (String × Entries)) :
    Prop where
  read : fields.map (fun e => (e.1, some e.2)) =
    objects.map fun e => (e.1, Field.read? (.object e.2))
  named : ∀ required ctx, (fields.columns required ctx).map Column.name = objects.map Prod.fst

theorem Model.Fields.readFrom_table (v : Json) :
    ReadFrom (v.table Field.read?) v.objects where
  read := read_objects v
  named required ctx := by
    have hkeys := congrArg (List.map Prod.fst) (read_objects v)
    rw [List.map_map, List.map_map] at hkeys
    rw [columns, List.map_map]
    exact hkeys

/-! ## Projections -/

/-- A projection of a node gives an entity of each kind. The columns of the table and the attributes
of the type are the given objects. -/
structure Projects (project : {α : Type} → (Json → Option α) → Option α)
    (objects : List (String × Entries)) : Prop where
  table : ∃ n, project Model.Table.read? = some n ∧ n.fields.ReadFrom objects ∧
    ∀ ctx t, Table.ofNode? n ctx = some t → t.columns = n.fields.columns n.required ctx
  view : ∃ n, project Model.View.read? = some n
  userType : ∃ n, project Model.UserType.read? = some n ∧ n.fields.ReadFrom objects ∧
    ∀ ctx t, UserType.ofNode? n ctx = some t →
      t.body = if n.isObject then .object (n.fields.columns n.required ctx)
        else .collection (Collection.ofNode n ctx)
  schema : ∃ n, project Model.Schema.read? = some n

/-- An object is an entity of each kind. -/
theorem Json.projects_object (r : Entries) :
    Projects (fun read? => read? (.object r)) (r.value "properties").objects := by
  obtain ⟨htable, hview, htype, hschema⟩ := Json.isSome_read?_iff (.object r)
  obtain ⟨table, htable⟩ := Option.isSome_iff_exists.1 (htable.2 trivial)
  obtain ⟨view, hview⟩ := Option.isSome_iff_exists.1 (hview.2 trivial)
  obtain ⟨type, htype⟩ := Option.isSome_iff_exists.1 (htype.2 ⟨r, rfl⟩)
  obtain ⟨schema, hschema⟩ := Option.isSome_iff_exists.1 (hschema.2 trivial)
  refine ⟨⟨table, htable, ?_, fun ctx t ht => (Table.parts_ofNode ht).1⟩, ⟨view, hview⟩,
    ⟨type, htype, ?_, fun ctx t ht => ?_⟩, ⟨schema, hschema⟩⟩
  · obtain rfl := Option.some.inj htable
    exact Model.Fields.readFrom_table _
  · obtain rfl := Option.some.inj htype
    exact Model.Fields.readFrom_table _
  · obtain ⟨name, -, rfl⟩ := Option.map_eq_some_iff.1 ht
    rfl

/-! ## Items -/

/-- The fields of an entity are not overlaid. -/
theorem value?_overlay_properties (node role : Entries) :
    (overlay node role).value? "properties" = node.value? "properties" := by
  induction role generalizing node with
  | nil => rfl
  | cons e role ih =>
    rw [overlay_cons, ih]
    split_ifs with hkey
    · rfl
    · exact Entries.value?_insert_of_ne (Ne.symm hkey) e.2 node

namespace Item

/-- A role leaves a node an object with the same fields of the entity. -/
theorem withRole_object {i : Item} {r : Entries} (h : i.node = .object r) :
    ∃ w : Entries, i.withRole = .object w ∧ w.value "properties" = r.value "properties" := by
  unfold withRole
  rw [h]
  dsimp only
  split
  · exact ⟨_, rfl, by rw [Entries.value, value?_overlay_properties, Entries.value]⟩
  · exact ⟨r, rfl, rfl⟩

/-- The entity that an item describes is what its node with the role is read as. -/
theorem map_node_entity? {α : Type} (read? : Json → Option α) (i : Item) :
    (i.entity? read?).map Changed.node = read? i.withRole := by
  rw [entity?, Option.map_map]
  exact congrFun Option.map_id (read? i.withRole)

/-- Every object is an entity of each kind, whatever its fields hold, and so is every item that
holds it, with the same columns and attributes: they are the objects among its properties. -/
theorem projects (key : String) (r : Entries) :
    Projects (fun read? => read? (.object r)) (r.value "properties").objects ∧
      Projects (fun read? => (entity? read? ⟨key, .object r⟩).map Changed.node)
        (r.value "properties").objects := by
  refine ⟨Json.projects_object r, ?_⟩
  obtain ⟨w, hw, hproperties⟩ := withRole_object (i := ⟨key, .object r⟩) rfl
  have hproject : (fun {α : Type} (read? : Json → Option α) =>
      (entity? read? ⟨key, .object r⟩).map Changed.node) = fun {α} read? => read? (.object w) := by
    funext α read?
    rw [map_node_entity?, hw]
  rw [hproject, ← hproperties]
  exact Json.projects_object w

/-- A type of two attributes, though nothing in it is as it should be. -/
example : (entity? Model.UserType.read? ⟨"t", .object
      [("code", .array []), ("size", .string "many"), ("required", .bool true),
        ("properties", .object
          [("b", .object [("type", .object []), ("compMod", .array [.bool true])]), ("x", .null),
            ("y", .array [.object []]), ("a", .object [])]),
        ("role", .object [("properties", .null), ("compMod", .string "created")])]⟩).map
      (fun d => d.node.fields.map Prod.fst) = some ["b", "a"] := by
  decide +kernel

/-- A reader of objects loses none of the items that hold objects, and keeps their order. -/
theorem map_key_entities {α : Type} {read? : Json → Option α}
    (hread : ∀ r, ∃ n, read? (.object r) = some n) {items : List Item}
    (h : ∀ i ∈ items, ∃ r, i.node = .object r) :
    (items.filterMap (entity? read?)).map Changed.key = items.map Item.key := by
  induction items with
  | nil => rfl
  | cons i items ih =>
    obtain ⟨⟨r, hr⟩, hrest⟩ := List.forall_mem_cons.1 h
    obtain ⟨w, hw, -⟩ := withRole_object hr
    obtain ⟨n, hn⟩ := hread w
    have hentity : entity? read? i = some ⟨i.key, i.change, i.schema?, n⟩ := by
      rw [entity?, hw, hn, Option.map_some]
    rw [List.filterMap_cons_some hentity, List.map_cons, List.map_cons, ih hrest]

/-- A category whose items hold objects has an entity for each of them, of whatever kind, in
order. -/
theorem keys_of_objects {items : List Item} (h : ∀ i ∈ items, ∃ r, i.node = .object r) :
    (items.filterMap (entity? Model.Table.read?)).map Changed.key = items.map Item.key ∧
      (items.filterMap (entity? Model.View.read?)).map Changed.key = items.map Item.key ∧
      (items.filterMap (entity? Model.UserType.read?)).map Changed.key = items.map Item.key ∧
      (items.filterMap (entity? Model.Schema.read?)).map Changed.key = items.map Item.key :=
  ⟨map_key_entities (fun r => (Json.projects_object r).table.imp fun _ hn => hn.1) h,
    map_key_entities (fun r => (Json.projects_object r).view) h,
    map_key_entities (fun r => (Json.projects_object r).userType.imp fun _ hn => hn.1) h,
    map_key_entities (fun r => (Json.projects_object r).schema) h⟩

end Item

end SchemaDelta
