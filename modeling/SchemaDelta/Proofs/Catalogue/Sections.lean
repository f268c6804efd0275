import SchemaDelta.Proofs.Catalogue.Statements
import SchemaDelta.Proofs.Script.Blocks

/-!
# Views and types that are replaced

The views of a section, and its types, are dropped before any is created. So the statements of the
section can be made one after another exactly when the names it drops differ and are in use, and the
names it creates differ and are free once the others are gone (`foldlM_catalogueChanges_iff`). An
item counts only if it has the marker of its list and a name; it creates an object only if it is
active and, for a view, has a query.
-/

namespace SchemaDelta

open Catalogue

/-! ## What a section says -/

/-- The qualified name of the view that a delta describes. -/
def ViewSteps.name? (d : Changed Model.View) : Option String :=
  (view? d).map View.qualifiedName

/-- The name of the view, where it is active and has a query. -/
def ViewSteps.createdName? (d : Changed Model.View) : Option String :=
  ((view? d).filter fun v => v.active && v.hasQuery).map View.qualifiedName

/-- The qualified name of the type that a delta describes. -/
def TypeSteps.name? (d : Changed Model.UserType) : Option String :=
  d.node.typeName?.map fun n => Sql.qualified n d.schema

/-- The name of the type, where it is active. -/
def TypeSteps.createdName? (d : Changed Model.UserType) : Option String :=
  if d.node.active then name? d else none

/-- The sections of views and of types. -/
def Catalogue.Kind.entity : Kind → EntityKind
  | view => .view
  | type => .type

namespace Category

/-- The names that a section drops, in order. -/
def dropped (c : Category) : Kind → List String
  | .view => (entitiesWith Model.View.read? .deleted c.deleted).filterMap ViewSteps.name?
  | .type => (entitiesWith Model.UserType.read? .deleted c.deleted).filterMap TypeSteps.name?

/-- The names that a section creates, in order. -/
def created (c : Category) : Kind → List String
  | .view => (entitiesWith Model.View.read? .created c.added).filterMap ViewSteps.createdName?
  | .type => (entitiesWith Model.UserType.read? .created c.added).filterMap TypeSteps.createdName?

end Category

/-! ## The changes of a section -/

/-- Where each entity makes a change under some name, or none, the list makes the changes of the
names. -/
theorem catalogueChanges_planItems {α : Type} {read? : Json → Option α} {k : Kind}
    {stepsOf : Changed α → List Step} {name? : Changed α → Option String} {make : String → Change}
    (h : ∀ d, (stepsOf d).flatMap (Step.catalogueChanges k) = ((name? d).map make).toList)
    (items : List Item) (change : EntityChange) :
    (planItems read? items change stepsOf).flatMap (Step.catalogueChanges k) =
      ((entitiesWith read? change items).filterMap name?).map make := by
  rw [planItems_eq_flatMap, List.flatMap_assoc, List.map_filterMap,
    List.filterMap_eq_flatMap_toList]
  exact List.flatMap_congr fun d _ => h d

/-- Phases over attributes create and drop nothing. -/
theorem catalogueChanges_attributes {α : Type} {read? : Json → Option α}
    {stepsOf : Changed α → List Step} (h : ∀ d, ∀ s ∈ stepsOf d, s.OnAttribute)
    (items : List Item) (change : EntityChange) :
    (planItems read? items change stepsOf).flatMap (Step.catalogueChanges .type) = [] := by
  rw [List.flatMap_eq_nil_iff]
  intro s hs
  obtain ⟨-, -, d, -, -, hds⟩ := mem_planItems.1 hs
  exact Step.catalogueChanges_onAttribute (h d s hds) _

theorem ViewSteps.catalogueChanges_drop (d : Changed Model.View) :
    (drop d).flatMap (Step.catalogueChanges .view) = ((name? d).map .drop).toList := by
  unfold drop name?
  cases view? d with
  | none => rfl
  | some v => simp [Step.catalogueChanges_dropView]

theorem ViewSteps.catalogueChanges_create (d : Changed Model.View) :
    (create d).flatMap (Step.catalogueChanges .view) = ((createdName? d).map .create).toList := by
  unfold create createdName?
  cases view? d with
  | none => rfl
  | some v =>
    cases hquery : v.hasQuery <;> cases hactive : v.active <;>
      simp [Step.catalogueChanges_createView, Option.filter, hquery, hactive]

namespace TypeSteps

variable (release : Option String) (d : Changed Model.UserType)

theorem catalogueChanges_drop :
    (drop release d).flatMap (Step.catalogueChanges .type) = ((name? d).map .drop).toList := by
  unfold drop name? type? UserType.ofNode?
  cases d.node.typeName? with
  | none => rfl
  | some n => simp [Step.catalogueChanges_dropType, UserType.qualifiedName, Changed.context]

theorem catalogueChanges_create :
    (create release d).flatMap (Step.catalogueChanges .type) =
      ((createdName? d).map .create).toList := by
  unfold create createdName? name? type? UserType.ofNode?
  cases d.node.typeName? with
  | none => simp
  | some n =>
    cases d.node.active <;>
      simp [Step.catalogueChanges_createType, UserType.qualifiedName, Changed.context]

theorem onAttribute_attributeAdditions : ∀ s ∈ attributeAdditions release d, s.OnAttribute := by
  intro s hs
  obtain ⟨name, -, -, hs⟩ := exists_of_mem_named hs
  obtain ⟨e, -, rfl⟩ := List.mem_map.1 hs
  trivial

theorem onAttribute_attributeRemovals : ∀ s ∈ attributeRemovals d, s.OnAttribute := by
  intro s hs
  obtain ⟨name, -, -, hs⟩ := exists_of_mem_named hs
  obtain ⟨e, -, rfl⟩ := List.mem_map.1 hs
  trivial

theorem onAttribute_attributeChanges : ∀ s ∈ attributeChanges release d, s.OnAttribute := by
  intro s hs
  obtain ⟨name, -, -, hs⟩ := exists_of_mem_named hs
  rcases List.mem_append.1 hs with hs | hs
  · obtain ⟨f, -, hs⟩ := List.mem_flatMap.1 hs
    cases hr : f.change.rename? with
    | none => simp [hr] at hs
    | some n =>
      rw [hr] at hs
      rcases List.mem_pair.1 hs with rfl | rfl <;> trivial
  · obtain ⟨f, -, hs⟩ := List.mem_filterMap.1 hs
    obtain ⟨t, -, rfl⟩ := Option.map_eq_some_iff.1 hs
    trivial

end TypeSteps

namespace Category

/-- The changes that the statements of a section make to the catalogue of a kind, in order. -/
def catalogueChanges (c : Category) (release : Option String) (k : Kind) : List Change :=
  (k.entity.steps release c).flatMap (Step.catalogueChanges k)

/-- The statements of a section drop the names that the section drops, and then create those that it
creates. -/
theorem catalogueChanges_eq (c : Category) (release : Option String) (k : Kind) :
    c.catalogueChanges release k =
      (c.dropped k).map Change.drop ++ (c.created k).map Change.create := by
  cases k with
  | view =>
    simp only [catalogueChanges, Kind.entity, EntityKind.steps, viewSteps, List.flatMap_append,
      catalogueChanges_planItems ViewSteps.catalogueChanges_drop,
      catalogueChanges_planItems ViewSteps.catalogueChanges_create]
    rfl
  | type =>
    simp only [catalogueChanges, Kind.entity, EntityKind.steps, typeSteps, List.flatMap_append,
      catalogueChanges_planItems (TypeSteps.catalogueChanges_drop release),
      catalogueChanges_planItems (TypeSteps.catalogueChanges_create release),
      catalogueChanges_attributes (TypeSteps.onAttribute_attributeAdditions release),
      catalogueChanges_attributes TypeSteps.onAttribute_attributeRemovals,
      catalogueChanges_attributes (TypeSteps.onAttribute_attributeChanges release), List.append_nil]
    rfl

/-- The statements of a section can be made one after another from the catalogue `s`, so that none
drops a missing name or creates one that is in use, exactly when the names that the section drops
differ and are in `s`, and those that it creates differ and are not in `s` without the dropped ones.
In the end the catalogue is `s` without the dropped names and with the created ones. -/
theorem foldlM_catalogueChanges_iff (c : Category) (release : Option String) (k : Kind)
    (s t : Finset String) :
    (c.catalogueChanges release k).foldlM Change.exec s = some t ↔
      (c.dropped k).Nodup ∧ (∀ n ∈ c.dropped k, n ∈ s) ∧
        (c.created k).Nodup ∧ (∀ n ∈ c.created k, n ∉ s \ (c.dropped k).toFinset) ∧
          t = s \ (c.dropped k).toFinset ∪ (c.created k).toFinset := by
  rw [catalogueChanges_eq, foldlM_exec_iff]

/-- A type whose name is dropped can be created again. An inactive one is not created. -/
example :
    let c := Category.ofJson (some (.object
      [("deleted", .object [("items", .array [.object [("1", .object [("name", .string "t"),
        ("compMod", .object [("deleted", .bool true)])])]])]),
      ("added", .object [("items", .array [
        .object [("2", .object [("name", .string " t"),
          ("compMod", .object [("created", .bool true)])])],
        .object [("3", .object [("name", .string "u"), ("isActivated", .bool false),
          ("compMod", .object [("created", .bool true)])])]])])]))
    (c.catalogueChanges none .type).foldlM Change.exec {"\"t\""} = some {"\"t\""} := by
  decide +kernel

end Category

end SchemaDelta
