import SchemaDelta.Delta.Basic
import SchemaDelta.Proofs.Model.EntityTexts

/-!
# The texts of a delta

The property of a document goes down to the items of its lists, to the nodes with their roles, and
to the entities that are read from them.
-/

namespace SchemaDelta

open Json

/-- The key of an item is of the class, and its node has the property. -/
structure Item.Granted (P : Json → Prop) (p : String → Prop) (i : Item) : Prop where
  key : p i.key
  node : P i.node

/-- All items of a category. -/
structure Category.Granted (P : Json → Prop) (p : String → Prop) (c : Category) : Prop where
  added : ∀ i ∈ c.added, i.Granted P p
  deleted : ∀ i ∈ c.deleted, i.Granted P p
  modified : ∀ i ∈ c.modified, i.Granted P p

/-- All categories of a delta. -/
structure Delta.Granted (P : Json → Prop) (p : String → Prop) (d : Delta) : Prop where
  containers : d.containers.Granted P p
  entities : d.entities.Granted P p
  views : d.views.Granted P p
  modelDefinitions : d.modelDefinitions.Granted P p

/-- An entity whose key and schema are of the class and whose node satisfies `Q`. -/
structure Changed.Texts {α : Type} (p : String → Prop) (Q : α → Prop) (d : Changed α) : Prop where
  key : p d.key
  schema : ∀ s ∈ d.schema, p s
  node : Q d.node

namespace Json.Grants

variable {P : Json → Prop} {p : String → Prop} {v : Json}

/-! ## Entities -/

/-- A role leaves the property as it is. -/
theorem withRole (g : Grants P p) {i : Item} (h : P i.node) : P i.withRole := by
  unfold Item.withRole
  split
  · next node hnode =>
    rw [hnode] at h
    have hrole := g.field (g.entries h) "role"
    split
    · next role hr =>
      rw [hr] at hrole
      exact g.overlay h hrole
    · exact h
  · exact h

/-- The schema in a marker. -/
theorem mark (g : Grants P p) (h : P v) : ∀ m ∈ markOf? v, Given p m.keyspaceName := by
  intro m hm
  obtain ⟨r, hr, hmark⟩ := Option.bind_eq_some_iff.1 hm
  have hfield := g.field (g.record h hr) "compMod"
  exact g.nested? (Q := fun m => Given p m.keyspaceName) hfield (Model.EntityMark.texts_read? g)
    (given_none p) m hmark

variable {α : Type} {read? : Json → Option α} {Q : α → Prop}

/-- The entity of an item. -/
theorem entity (g : Grants P p) (hread : ∀ {w x}, P w → read? w = some x → Q x) {i : Item}
    (h : i.Granted P p) {d : Changed α} (hd : i.entity? read? = some d) : d.Texts p Q := by
  obtain ⟨node, hnode, rfl⟩ := Option.map_eq_some_iff.1 hd
  have hrole : P i.withRole := g.withRole h.node
  refine ⟨h.key, fun s hs => ?_, hread hrole hnode⟩
  obtain ⟨m, hm, hms⟩ := Option.bind_eq_some_iff.1 hs
  exact (g.mark hrole m hm s hms).1

/-! ## Documents -/

/-- The value of a key, directly or one level down. -/
theorem level (g : Grants P p) (h : P v) {key : String} : ∀ w ∈ v.level? key, P w := by
  have hvalue {r : Entries} (hr : r.Granted P) (k : String) : ∀ w ∈ r.value? k, P w := by
    intro w hw
    obtain ⟨l, m, rfl, -⟩ := List.lookup_eq_some_iff.1 hw
    exact hr (k, w) (by simp)
  intro w hw
  obtain ⟨r, hr, hrw⟩ := Option.bind_eq_some_iff.1 hw
  have hentries := g.entries (Grants.object h hr)
  -- The key stands in the object, or else among its properties.
  rw [Option.orElse_eq_orElse, Option.orElse_eq_or, Option.or_eq_some_iff] at hrw
  rcases hrw with hrw | ⟨-, hrw⟩
  · exact hvalue hentries key w hrw
  · obtain ⟨e, he, hew⟩ := Option.bind_eq_some_iff.1 hrw
    obtain ⟨u, hu, hue⟩ := Option.bind_eq_some_iff.1 he
    exact hvalue (g.entries (Grants.object (hvalue hentries _ u hu) hue)) key w hew

/-- The item that a value stands for. -/
theorem item_read? (g : Grants P p) (h : P v) {i : Item} (hi : Item.read? v = some i) :
    i.Granted P p := by
  have hhead {r : Entries} (hr : P (.object r))
      (hri : (r.head?.map fun e => (⟨e.1, e.2⟩ : Item)) = some i) : i.Granted P p := by
    obtain ⟨e, he, rfl⟩ := Option.map_eq_some_iff.1 hri
    have hmem := List.mem_of_head? he
    exact ⟨g.key hr hmem, g.value hr hmem⟩
  unfold Item.read? at hi
  split at hi
  -- A lone key wraps the entry.
  · next inner =>
    exact hhead (g.value (e := ("properties", .object inner)) h (by simp)) hi
  · exact hhead h hi
  · simp at hi

/-- The items of a list. -/
theorem items (g : Grants P p) {o : Option Json} (h : ∀ w ∈ o, P w) :
    ∀ i ∈ Item.list o, i.Granted P p := by
  intro i hi
  unfold Item.list at hi
  split at hi
  · next w hw =>
    obtain ⟨u, hu, huw⟩ := Option.bind_eq_some_iff.1 hw
    exact g.list (g.level (h u hu) w huw) (fun hx hxi => g.item_read? hx hxi) i hi
  · simp at hi

theorem category (g : Grants P p) {o : Option Json} (h : ∀ w ∈ o, P w) :
    (Category.ofJson o).Granted P p := by
  have hlevel (key : String) : ∀ w ∈ o.bind fun v => v.level? key, P w := by
    intro w hw
    obtain ⟨u, hu, huw⟩ := Option.bind_eq_some_iff.1 hw
    exact g.level (h u hu) w huw
  exact ⟨g.items (hlevel "added"), g.items (hlevel "deleted"), g.items (hlevel "modified")⟩

/-- The delta of a document. -/
theorem delta (g : Grants P p) (h : P v) {d : Delta} (hd : Delta.ofJson? v = some d) :
    d.Granted P p := by
  obtain ⟨r, -, rfl⟩ := Option.map_eq_some_iff.1 hd
  exact ⟨g.category (g.level h), g.category (g.level h), g.category (g.level h),
    g.category (g.level h)⟩

end Json.Grants

end SchemaDelta
