import Mathlib.Tactic.SplitIfs
import SchemaDelta.Delta.Basic

/-!
# The lists of a document

A document has twelve lists of items: each of its four categories has one of added, one of deleted
and one of modified items. `Json.insertItem` inserts a value into one of them, wherever the document
keeps it, and `ofJson?_insertItem` says that the delta of the document changes at that place only.
-/

namespace SchemaDelta

/-! ## Places -/

/-- The lists of a category. -/
inductive ItemList where
  | added
  | deleted
  | modified
deriving DecidableEq

/-- The categories of a delta. -/
inductive EntityKind where
  | schema
  | table
  | view
  | type
deriving DecidableEq

/-- One of the lists of a delta. -/
structure Place where
  kind : EntityKind
  list : ItemList

/-- The key of a list in a document. -/
def ItemList.key : ItemList → String
  | added => "added"
  | deleted => "deleted"
  | modified => "modified"

/-- The key of a category in a document. -/
def EntityKind.key : EntityKind → String
  | schema => "containers"
  | table => "entities"
  | view => "views"
  | type => "modelDefinitions"

theorem ItemList.key_inj {k l : ItemList} : k.key = l.key ↔ k = l := by
  cases k <;> cases l <;> decide

theorem EntityKind.key_inj {k l : EntityKind} : k.key = l.key ↔ k = l := by
  cases k <;> cases l <;> decide

theorem ItemList.key_ne (k : ItemList) : k.key ≠ "properties" := by
  cases k <;> decide

theorem EntityKind.key_ne (k : EntityKind) : k.key ≠ "properties" := by
  cases k <;> decide

namespace Category

/-- The items of a list. -/
def items (c : Category) : ItemList → List Item
  | .added => c.added
  | .deleted => c.deleted
  | .modified => c.modified

/-- The category with other items in one of its lists. -/
def setItems (c : Category) (k : ItemList) (items : List Item) : Category :=
  match k with
  | .added => { c with added := items }
  | .deleted => { c with deleted := items }
  | .modified => { c with modified := items }

theorem items_setItems (c : Category) (k l : ItemList) (items : List Item) :
    (c.setItems k items).items l = if l = k then items else c.items l := by
  cases k <;> cases l <;> rfl

theorem ext_items {c e : Category} (h : ∀ k, c.items k = e.items k) : c = e := by
  cases c
  cases e
  simpa using ⟨h .added, h .deleted, h .modified⟩

end Category

namespace Delta

/-- The category of a kind of entities. -/
def category (d : Delta) : EntityKind → Category
  | .schema => d.containers
  | .table => d.entities
  | .view => d.views
  | .type => d.modelDefinitions

/-- The delta with another category. -/
def setCategory (d : Delta) (k : EntityKind) (c : Category) : Delta :=
  match k with
  | .schema => { d with containers := c }
  | .table => { d with entities := c }
  | .view => { d with views := c }
  | .type => { d with modelDefinitions := c }

theorem category_setCategory (d : Delta) (k l : EntityKind) (c : Category) :
    (d.setCategory k c).category l = if l = k then c else d.category l := by
  cases k <;> cases l <;> rfl

theorem ext_category {d e : Delta} (h : ∀ k, d.category k = e.category k) : d = e := by
  cases d
  cases e
  simpa using ⟨h .schema, h .table, h .view, h .type⟩

/-- The items at a place. -/
def items (d : Delta) (p : Place) : List Item :=
  (d.category p.kind).items p.list

/-- The delta with other items at a place. -/
def setItems (d : Delta) (p : Place) (items : List Item) : Delta :=
  d.setCategory p.kind ((d.category p.kind).setItems p.list items)

end Delta

/-! ## Insertion into a document -/

namespace Json

/-- The value with the key on it, where the key is found: directly or under `properties`. A key that
is not found is set directly. -/
def setLevel (v : Json) (key : String) (x : Json) : Json :=
  match v with
  | .object r =>
    match (Entries.value? "properties" r).bind object? with
    | some p =>
      if (Entries.value? key r).isNone && (p.value? key).isSome then
        .object (Entries.insert "properties" (.object (Entries.insert key x p)) r)
      else .object (Entries.insert key x r)
    | none => .object (Entries.insert key x r)
  | _ => .object [(key, x)]

/-- The elements of a list, in which an object alone is the only one. -/
def elements : Json → List Json
  | .array items => items
  | .object r => [.object r]
  | _ => []

/-- The document with a value at position `n` of one of its lists, or at the end of a list that is
shorter. -/
def insertItem (doc : Json) (p : Place) (n : Nat) (item : Json) : Json :=
  let category := (doc.level? p.kind.key).getD (.object [])
  let list := (category.level? p.list.key).getD (.object [])
  let items := ((list.level? "items").map elements).getD []
  doc.setLevel p.kind.key <| category.setLevel p.list.key <|
    list.setLevel "items" (.array (items.take n ++ item :: items.drop n))

/-- The key that was set is found. -/
theorem level?_setLevel_self (v : Json) {key : String} (hkey : key ≠ "properties") (x : Json) :
    (v.setLevel key x).level? key = some x := by
  have hdirect (r : Entries) : (Json.object (Entries.insert key x r)).level? key = some x := by
    simp [level?, object?, Entries.value?_insert_self]
  unfold setLevel
  split
  · next r =>
    split
    · next p hp =>
      split_ifs with hunder
      · -- The key stands under `properties`, and not beside it.
        rw [Bool.and_eq_true, Option.isNone_iff_eq_none] at hunder
        simp [level?, object?, Entries.value?_insert_of_ne hkey, hunder.1,
          Entries.value?_insert_self]
      · exact hdirect r
    · exact hdirect r
  · exact hdirect []

/-- Other keys keep their values. -/
theorem level?_setLevel_of_ne (v : Json) {key other : String} (h : other ≠ key)
    (hkey : key ≠ "properties") (hother : other ≠ "properties") (x : Json) :
    (v.setLevel key x).level? other = v.level? other := by
  have hdirect (r : Entries) :
      (Json.object (Entries.insert key x r)).level? other = (Json.object r).level? other := by
    simp [level?, object?, Entries.value?_insert_of_ne h, Entries.value?_insert_of_ne hkey.symm]
  unfold setLevel
  split
  · next r =>
    split
    · next p hp =>
      split_ifs
      · simp [level?, object?, Entries.value?_insert_of_ne hother, Entries.value?_insert_self,
          Entries.value?_insert_of_ne h, hp]
      · exact hdirect r
    · exact hdirect r
  · next hobject =>
    -- A value that is not an object has no keys.
    have hnone : v.object? = none := by
      cases v with
      | object r => exact absurd rfl (hobject r)
      | _ => rfl
    have hempty : (Json.object []).level? other = none := rfl
    rw [show Json.object [(key, x)] = .object (Entries.insert key x []) from rfl, hdirect, hempty,
      level?, hnone, Option.bind_none]

theorem exists_setLevel (v : Json) (key : String) (x : Json) :
    ∃ r, v.setLevel key x = .object r := by
  unfold setLevel
  split
  · split
    · split_ifs <;> exact ⟨_, rfl⟩
    · exact ⟨_, rfl⟩
  · exact ⟨_, rfl⟩

/-- A value that is missing has no more keys than an empty object. -/
theorem level?_getD (o : Option Json) (key : String) :
    (o.getD (.object [])).level? key = o.bind fun v => v.level? key := by
  cases o <;> rfl

/-- A list is read element by element. -/
theorem list_eq_filterMap {α : Type} (read? : Json → Option α) (v : Json) :
    v.list read? = v.elements.filterMap read? := by
  cases v with
  | object r => cases h : read? (.object r) <;> simp [list, elements, h]
  | _ => rfl

end Json

/-- The items of a list are read element by element. -/
theorem Item.list_eq_filterMap (o : Option Json) :
    Item.list o =
      (((o.bind fun v => v.level? "items").map Json.elements).getD []).filterMap Item.read? := by
  unfold Item.list
  cases o.bind fun v => v.level? "items" with
  | none => rfl
  | some items => exact Json.list_eq_filterMap Item.read? items

namespace Category

theorem items_ofJson (o : Option Json) (k : ItemList) :
    (Category.ofJson o).items k = Item.list (o.bind fun v => v.level? k.key) := by
  cases k <;> rfl

/-- A category that is missing reads like an empty object. -/
theorem ofJson_getD (o : Option Json) :
    Category.ofJson (some (o.getD (.object []))) = Category.ofJson o := by
  cases o <;> rfl

/-- A list that is set changes this list of the category only. -/
theorem ofJson_setLevel (v : Json) (k : ItemList) (x : Json) :
    Category.ofJson (some (v.setLevel k.key x)) =
      (Category.ofJson (some v)).setItems k (Item.list (some x)) := by
  refine ext_items fun l => ?_
  rw [items_ofJson, items_setItems, Option.bind_some]
  by_cases hl : l = k
  · subst hl
    rw [if_pos rfl, Json.level?_setLevel_self _ l.key_ne]
  · have hkey : l.key ≠ k.key := fun h => hl (ItemList.key_inj.1 h)
    rw [if_neg hl, Json.level?_setLevel_of_ne _ hkey k.key_ne l.key_ne, items_ofJson,
      Option.bind_some]

end Category

namespace Delta

theorem category_ofJson? {v : Json} {d : Delta} (h : ofJson? v = some d) (k : EntityKind) :
    d.category k = Category.ofJson (v.level? k.key) := by
  obtain ⟨r, -, rfl⟩ := Option.map_eq_some_iff.1 h
  cases k <;> rfl

/-- A category that is set changes this category of the delta only. -/
theorem ofJson?_setLevel {v : Json} {d : Delta} (h : ofJson? v = some d) (k : EntityKind)
    (x : Json) :
    ofJson? (v.setLevel k.key x) = some (d.setCategory k (Category.ofJson (some x))) := by
  obtain ⟨e, he⟩ : ∃ e, ofJson? (v.setLevel k.key x) = some e := by
    obtain ⟨r, hr⟩ := Json.exists_setLevel v k.key x
    exact ⟨_, by rw [hr]; rfl⟩
  rw [he, Option.some_inj]
  refine ext_category fun l => ?_
  rw [category_ofJson? he, category_setCategory]
  by_cases hl : l = k
  · subst hl
    rw [if_pos rfl, Json.level?_setLevel_self _ l.key_ne]
  · have hkey : l.key ≠ k.key := fun h => hl (EntityKind.key_inj.1 h)
    rw [if_neg hl, Json.level?_setLevel_of_ne _ hkey k.key_ne l.key_ne, category_ofJson? h]

/-- A value in one list of a document is an item at its place in the delta, or nothing at all if it
is no item, and all else in the delta stays as it is. -/
theorem ofJson?_insertItem (r : Json.Entries) (p : Place) (n : Nat) (item : Json) :
    ∃ d before after, ofJson? (.object r) = some d ∧ d.items p = before ++ after ∧
      ofJson? ((Json.object r).insertItem p n item) =
        some (d.setItems p (before ++ (Item.read? item).toList ++ after)) := by
  obtain ⟨d, hd⟩ : ∃ d, ofJson? (.object r) = some d := ⟨_, rfl⟩
  let list := ((Json.object r).level? p.kind.key).bind fun v => v.level? p.list.key
  let elements := ((list.bind fun v => v.level? "items").map Json.elements).getD []
  refine ⟨d, (elements.take n).filterMap Item.read?, (elements.drop n).filterMap Item.read?, hd,
    ?_, ?_⟩
  · rw [items, category_ofJson? hd, Category.items_ofJson, Item.list_eq_filterMap,
      ← List.filterMap_append, List.take_append_drop]
  · have hitem : (item :: elements.drop n).filterMap Item.read? =
        (Item.read? item).toList ++ (elements.drop n).filterMap Item.read? := by
      cases h : Item.read? item <;> simp [h]
    rw [Json.insertItem, ofJson?_setLevel hd, Category.ofJson_setLevel, Category.ofJson_getD,
      ← category_ofJson? hd, Item.list_eq_filterMap, Option.bind_some,
      Json.level?_setLevel_self _ (by decide)]
    simp only [Json.level?_getD, Option.map_some, Option.getD_some, Json.elements]
    rw [List.filterMap_append, hitem, ← List.append_assoc]
    rfl

end Delta

end SchemaDelta
