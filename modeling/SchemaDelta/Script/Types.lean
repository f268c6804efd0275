import SchemaDelta.Script.Plan

/-!
# Changes of types

Whole types are dropped and created first. Then attributes are added to, dropped from and changed in
the object types that remain. An attribute is renamed by dropping it and adding it under its new
name; the changes of attribute types come after all renamings of the type. Collections have no
attributes to change.
-/

namespace SchemaDelta

open Sql

namespace TypeSteps

/-- The type that a delta describes. -/
def type? (release : Option String) (d : Changed Model.UserType) : Option UserType :=
  UserType.ofNode? d.node (d.context release)

/-- The removal of the type. -/
def drop (release : Option String) (d : Changed Model.UserType) : List Step :=
  ((type? release d).map .dropType).toList

/-- The creation of the type. -/
def create (release : Option String) (d : Changed Model.UserType) : List Step :=
  ((type? release d).map .createType).toList

/-- The steps on an object type that has a name. -/
def named (f : String → List Step) (d : Changed Model.UserType) : List Step :=
  match d.node.typeName? with
  | some name => if d.node.isObject then f (qualified name d.schema) else []
  | none => []

/-- The steps on an object type are made from its qualified name. -/
theorem exists_of_mem_named {f : String → List Step} {d : Changed Model.UserType} {s : Step}
    (hs : s ∈ named f d) :
    ∃ name, d.node.typeName? = some name ∧ d.node.isObject = true ∧
      s ∈ f (qualified name d.schema) := by
  unfold named at hs
  cases hname : d.node.typeName? with
  | none => simp [hname] at hs
  | some name =>
    cases hobject : d.node.isObject with
    | false => simp [hname, hobject] at hs
    | true => exact ⟨name, rfl, rfl, by simpa [hname, hobject] using hs⟩

/-- The attribute that a field describes. -/
def attributeOf (release : Option String) (d : Changed Model.UserType) (name : String)
    (f : Model.Field) : Column :=
  Column.ofNode name f d.node.required (d.context release)

/-- The additions of attributes. -/
def attributeAdditions (release : Option String) (d : Changed Model.UserType) : List Step :=
  named (fun type => d.node.fields.unchanged.map fun e =>
    .addAttribute type (e.2.active && d.node.active) (attributeOf release d e.1 e.2)) d

/-- The removals of attributes. -/
def attributeRemovals (d : Changed Model.UserType) : List Step :=
  named (fun type => d.node.fields.unchanged.map fun e => .dropAttribute type e.1) d

/-- The renaming of an attribute: the old one is dropped, and the current one is added under its new
name. -/
def renameAttribute (type : String) (current : Column) (names : String × String) : List Step :=
  [.dropAttribute type names.1, .addAttribute type true { current with name := names.2 }]

/-- The changes of attributes: renamings first, then types. -/
def attributeChanges (release : Option String) (d : Changed Model.UserType) : List Step :=
  named (fun type =>
    let changed := d.node.fields.changed
    changed.flatMap (fun f =>
      (f.change.rename?.map
        (renameAttribute type (attributeOf release d f.name f.field))).getD []) ++
      changed.filterMap fun f => f.change.retype?.map (.modifyAttribute type f.name)) d

end TypeSteps

/-- The steps of the types. -/
def typeSteps (c : Category) (release : Option String) : List Step :=
  let plan := planItems Model.UserType.read?
  plan c.deleted .deleted (TypeSteps.drop release) ++
    plan c.added .created (TypeSteps.create release) ++
    plan c.added .fields (TypeSteps.attributeAdditions release) ++
    plan c.deleted .fields TypeSteps.attributeRemovals ++
    plan c.modified .fields (TypeSteps.attributeChanges release)

end SchemaDelta
