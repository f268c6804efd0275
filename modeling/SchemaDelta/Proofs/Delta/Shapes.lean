import Mathlib.Data.List.Basic
import SchemaDelta.Proofs.Delta.Places
import SchemaDelta.Script.Basic

/-!
# Flat and wrapped documents

Each level of a document may stand under a key `properties` of its own: the document, its
categories, their lists and the items. A `Shape` says which levels do, level by level and item by
item, and which lone items stand in a list; `Shape.document` puts a flat document into that shape.
All shapes of a document are read as the same delta (`Shape.ofJson?_document`).

A level is wrapped as the lone key, and its own keys are found under it (`level?_wrapIf`). Items are
unwrapped by a rule of their own, which is about objects with one key (`Item.read?_wrapIf`).
-/

namespace SchemaDelta

/-! ## One level -/

namespace Json

/-- The value, or an object that holds it under the key `properties` and nothing else. -/
def wrapIf (wrapped : Bool) (v : Json) : Json :=
  if wrapped then .object [("properties", v)] else v

/-- The value of a key that stands on the object itself. -/
def direct? (v : Json) (key : String) : Option Json :=
  v.object?.bind fun r => r.value? key

/-- The value is no object with a key `properties`. -/
def Bare (v : Json) : Prop :=
  v.direct? "properties" = none

/-- An object with its values changed, each as its key says. -/
def mapValues (f : String → Json → Json) : Json → Json
  | .object r => .object (r.map fun e => (e.1, f e.1 e.2))
  | v => v

/-- On a bare value a key is found only where it stands. -/
theorem level?_of_bare {v : Json} (h : v.Bare) (key : String) : v.level? key = v.direct? key := by
  unfold Bare direct? at h
  unfold level? direct?
  cases hv : v.object? with
  | none => rfl
  | some r =>
    rw [hv, Option.bind_some] at h
    simp [h]

/-- A level has the same keys when it is wrapped. -/
theorem level?_wrapIf {v : Json} (h : v.Bare) {key : String} (hkey : key ≠ "properties")
    (wrapped : Bool) : (v.wrapIf wrapped).level? key = v.level? key := by
  cases wrapped with
  | false => rfl
  | true =>
    have hnone : Entries.value? key [("properties", v)] = none := by
      simp [Entries.value?, hkey]
    have hself : Entries.value? "properties" [("properties", v)] = some v := by
      simp [Entries.value?]
    rw [level?_of_bare h]
    simp [wrapIf, level?, direct?, object?, hnone, hself]

theorem value?_map (f : String → Json → Json) (r : Entries) (key : String) :
    Entries.value? key (r.map fun e => (e.1, f e.1 e.2)) = (r.value? key).map (f key) := by
  unfold Entries.value?
  induction r with
  | nil => rfl
  | cons e r ih =>
    rw [List.map_cons, List.lookup_cons, List.lookup_cons, ih]
    cases hkey : key == e.1 with
    | false => rfl
    | true => rw [← eq_of_beq hkey]; rfl

theorem direct?_mapValues (f : String → Json → Json) (v : Json) (key : String) :
    (v.mapValues f).direct? key = (v.direct? key).map (f key) := by
  cases v with
  | object r => exact value?_map f r key
  | _ => rfl

/-- Values are changed, but the keys stay. -/
theorem Bare.mapValues {v : Json} (h : v.Bare) (f : String → Json → Json) :
    (v.mapValues f).Bare := by
  rw [Bare, direct?_mapValues, h, Option.map_none]

/-- The changed value of a key is found, whether the level is wrapped or not. -/
theorem level?_wrapIf_mapValues {v : Json} (h : v.Bare) (f : String → Json → Json) {key : String}
    (hkey : key ≠ "properties") (wrapped : Bool) :
    ((v.mapValues f).wrapIf wrapped).level? key = (v.level? key).map (f key) := by
  rw [level?_wrapIf (h.mapValues f) hkey, level?_of_bare (h.mapValues f), level?_of_bare h,
    direct?_mapValues]

end Json

/-! ## Items -/

/-- The value is an item whose key is not `properties`. -/
def Json.FlatItem (v : Json) : Prop :=
  v.object?.isSome = true ∧ v.Bare

/-- An item is the same when it is wrapped, whether it has one key, several or none. -/
theorem Item.read?_wrapIf {v : Json} (h : v.FlatItem) (wrapped : Bool) :
    Item.read? (v.wrapIf wrapped) = Item.read? v := by
  cases wrapped with
  | false => rfl
  | true =>
    obtain ⟨hobject, hbare⟩ := h
    cases v with
    | object r =>
      have hread : Item.read? (.object r) = r.head?.map fun e => ⟨e.1, e.2⟩ := by
        unfold Item.read?
        split
        · next hr =>
          -- The lone key of such an item would be `properties`.
          cases hr
          cases hbare
        · next hr =>
          cases hr
          rfl
        · next hr => exact absurd rfl (hr r)
      rw [hread]
      rfl
    | _ => cases hobject

/-- The items of a list are the same, whichever of them are wrapped. -/
theorem Item.filterMap_wrapIf {items : List Json} (h : ∀ i ∈ items, i.FlatItem)
    (wrapped : Nat → Bool) :
    (items.mapIdx fun n i => i.wrapIf (wrapped n)).filterMap Item.read? =
      items.filterMap Item.read? := by
  induction items generalizing wrapped with
  | nil => rfl
  | cons i items ih =>
    obtain ⟨hi, hitems⟩ := List.forall_mem_cons.1 h
    rw [List.mapIdx_cons, List.filterMap_cons, List.filterMap_cons, read?_wrapIf hi,
      ih hitems fun n => wrapped (n + 1)]

/-! ## Shapes -/

/-- The list with the given key. -/
def ItemList.ofKey? (key : String) : Option ItemList :=
  [added, deleted, modified].find? fun l => l.key = key

/-- The category with the given key. -/
def EntityKind.ofKey? (key : String) : Option EntityKind :=
  [schema, table, view, type].find? fun k => k.key = key

theorem ItemList.ofKey?_key (l : ItemList) : ofKey? l.key = some l := by
  cases l <;> decide

theorem EntityKind.ofKey?_key (k : EntityKind) : ofKey? k.key = some k := by
  cases k <;> decide

/-- Which levels of a document are wrapped, and which lone items stand in a list. -/
structure Shape where
  documentWrapped : Bool
  categoryWrapped : EntityKind → Bool
  listWrapped : Place → Bool
  /-- The items of a list are counted from zero. -/
  itemWrapped : Place → Nat → Bool
  itemListed : Place → Bool

namespace Shape

variable (s : Shape)

/-- The items of a list in this shape. -/
def items (p : Place) : Json → Json
  | .array items => .array (items.mapIdx fun n i => i.wrapIf (s.itemWrapped p n))
  | .object r =>
    let item := (Json.object r).wrapIf (s.itemWrapped p 0)
    if s.itemListed p then .array [item] else item
  | v => v

/-- A list in this shape. -/
def list (p : Place) (v : Json) : Json :=
  (v.mapValues fun key x => if key = "items" then s.items p x else x).wrapIf (s.listWrapped p)

/-- A category in this shape. -/
def category (k : EntityKind) (v : Json) : Json :=
  (v.mapValues fun key x => (ItemList.ofKey? key).elim x fun l => s.list ⟨k, l⟩ x).wrapIf
    (s.categoryWrapped k)

/-- A document in this shape. -/
def document (v : Json) : Json :=
  (v.mapValues fun key x => (EntityKind.ofKey? key).elim x fun k => s.category k x).wrapIf
    s.documentWrapped

end Shape

/-! ## Flat documents -/

/-- The list is not wrapped, and neither is an item of it. -/
def Json.FlatList (v : Json) : Prop :=
  v.Bare ∧ ∀ items ∈ v.level? "items", ∀ i ∈ items.elements, i.FlatItem

/-- No level of the category is wrapped. -/
def Json.FlatCategory (v : Json) : Prop :=
  v.Bare ∧ ∀ l : ItemList, ∀ x ∈ v.level? l.key, x.FlatList

/-- The document is an object, and no level of it is wrapped. -/
def Json.FlatDocument (v : Json) : Prop :=
  v.object?.isSome = true ∧ v.Bare ∧ ∀ k : EntityKind, ∀ x ∈ v.level? k.key, x.FlatCategory

namespace Shape

open Json

variable (s : Shape)

/-- The items of a list are read in any shape. -/
theorem list_items {v : Json} (h : ∀ i ∈ v.elements, i.FlatItem) (p : Place) :
    (s.items p v).list Item.read? = v.list Item.read? := by
  rw [list_eq_filterMap, list_eq_filterMap]
  cases v with
  | array items => exact Item.filterMap_wrapIf h (s.itemWrapped p)
  | object r =>
    have hitem := Item.read?_wrapIf (h _ List.mem_cons_self) (s.itemWrapped p 0)
    -- A lone item is its own list, and it is an object in either shape.
    have helements : (s.items p (.object r)).elements =
        [(Json.object r).wrapIf (s.itemWrapped p 0)] := by
      unfold Shape.items
      cases s.itemListed p with
      | true => rfl
      | false => cases s.itemWrapped p 0 <;> rfl
    rw [helements, elements, List.filterMap_cons, List.filterMap_cons, hitem]
  | _ => rfl

/-- A list is read in any shape. -/
theorem itemList_list {v : Json} (h : v.FlatList) (p : Place) :
    Item.list (some (s.list p v)) = Item.list (some v) := by
  obtain ⟨hbare, hitems⟩ := h
  unfold Item.list Shape.list
  rw [Option.bind_some, Option.bind_some, level?_wrapIf_mapValues hbare _ (by decide)]
  cases hv : v.level? "items" with
  | none => rfl
  | some items => exact s.list_items (hitems items hv) p

/-- A category is read in any shape. -/
theorem ofJson_category {v : Json} (h : v.FlatCategory) (k : EntityKind) :
    Category.ofJson (some (s.category k v)) = Category.ofJson (some v) := by
  obtain ⟨hbare, hlists⟩ := h
  refine Category.ext_items fun l => ?_
  rw [Category.items_ofJson, Category.items_ofJson, Option.bind_some, Option.bind_some,
    Shape.category, level?_wrapIf_mapValues hbare _ l.key_ne, ItemList.ofKey?_key]
  cases hv : v.level? l.key with
  | none => rfl
  | some x => exact s.itemList_list (hlists l x hv) ⟨k, l⟩

/-- A flat document stands for the same delta in any shape, and so it has the same script. -/
theorem ofJson?_document {v : Json} (h : v.FlatDocument) :
    ∃ d, Delta.ofJson? v = some d ∧ Delta.ofJson? (s.document v) = some d ∧
      ∀ release, Script.ofJson (s.document v) release = Script.ofJson v release := by
  obtain ⟨hobject, hbare, hcategories⟩ := h
  obtain ⟨d, hd⟩ : ∃ d, Delta.ofJson? v = some d := by
    obtain ⟨r, hr⟩ := Option.isSome_iff_exists.1 hobject
    exact ⟨_, by rw [Delta.ofJson?, hr]; rfl⟩
  obtain ⟨e, he⟩ : ∃ e, Delta.ofJson? (s.document v) = some e := by
    cases v with
    | object r =>
      unfold document
      cases s.documentWrapped <;> exact ⟨_, rfl⟩
    | _ => cases hobject
  have hsame : e = d := by
    refine Delta.ext_category fun k => ?_
    rw [Delta.category_ofJson? he, Delta.category_ofJson? hd, document,
      level?_wrapIf_mapValues hbare _ k.key_ne, EntityKind.ofKey?_key]
    cases hv : v.level? k.key with
    | none => rfl
    | some x => exact s.ofJson_category (hcategories k x hv) k
  rw [hsame] at he
  exact ⟨d, hd, he, fun release => by rw [Script.ofJson, Script.ofJson, he, hd]⟩

/-- A table in a list of items and a lone view: the flat document, and one in which the document,
its categories, the list of the view and the first table are wrapped. -/
theorem ofJson?_document_of_tables :
    let s : Shape := ⟨true, fun _ => true, fun p => p.kind = .view, fun _ n => n = 0, fun _ => true⟩
    let table (name : String) := Json.object [(name, .object [("name", .string name)])]
    let flat := Json.object
      [("entities", .object [("added", .object [("items", .array [table "t", table "u"])])]),
        ("views", .object [("deleted", .object [("items", table "v")])])]
    let wrapped := Json.object [("properties", .object
      [("entities", .object [("properties", .object [("added", .object
          [("items", .array [.object [("properties", table "t")], table "u"])])])]),
        ("views", .object [("properties", .object [("deleted", .object [("properties", .object
          [("items", .array [.object [("properties", table "v")]])])])])])])]
    flat.FlatDocument ∧ s.document flat = wrapped ∧
      ∃ d, Delta.ofJson? flat = some d ∧ Delta.ofJson? wrapped = some d ∧
        d.entities.added.map Item.key = ["t", "u"] ∧ d.views.deleted.map Item.key = ["v"] := by
  intro s table flat wrapped
  have hflat : flat.FlatDocument := by
    refine ⟨rfl, rfl, fun k x hx => ?_⟩
    cases k <;> cases hx <;> refine ⟨rfl, fun l x hx => ?_⟩ <;> cases l <;> cases hx <;>
      refine ⟨rfl, fun x hx => ?_⟩ <;> cases hx <;> intro i hi
    · rcases List.mem_pair.1 hi with rfl | rfl <;> exact ⟨rfl, rfl⟩
    · rw [List.mem_singleton.1 hi]
      exact ⟨rfl, rfl⟩
  have hwrapped : s.document flat = wrapped := rfl
  obtain ⟨d, hd, hwrap, -⟩ := s.ofJson?_document hflat
  refine ⟨hflat, hwrapped, d, hd, hwrapped ▸ hwrap, ?_⟩
  cases hd
  exact ⟨rfl, rfl⟩

end Shape

end SchemaDelta
