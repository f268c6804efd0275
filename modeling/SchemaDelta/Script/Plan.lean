import SchemaDelta.Script.Step
import SchemaDelta.Delta.Basic

/-!
# Planning a category

Each phase of a category takes the items of one list in order and turns those with one kind of
change into steps, so the steps of an item depend on that item alone.
-/

namespace SchemaDelta

/-- The steps of an item that can be read and has the given change. -/
def Item.steps {α : Type} (read? : Json → Option α) (change : EntityChange)
    (stepsOf : Changed α → List Step) (i : Item) : List Step :=
  match i.entity? read? with
  | some d => if d.change = change then stepsOf d else []
  | none => []

/-- The steps of a list of items. -/
def planItems {α : Type} (read? : Json → Option α) (items : List Item) (change : EntityChange)
    (stepsOf : Changed α → List Step) : List Step :=
  items.flatMap (Item.steps read? change stepsOf)

/-- The steps of a plan are those of the entities that can be read and have the given change. -/
theorem mem_planItems {α : Type} {read? : Json → Option α} {items : List Item}
    {change : EntityChange} {stepsOf : Changed α → List Step} {s : Step} :
    s ∈ planItems read? items change stepsOf ↔
      ∃ i ∈ items, ∃ d, i.entity? read? = some d ∧ d.change = change ∧ s ∈ stepsOf d := by
  unfold planItems Item.steps
  rw [List.mem_flatMap]
  refine exists_congr fun i => and_congr_right fun _ => ?_
  cases i.entity? read? with
  | none => simp
  | some d => by_cases h : d.change = change <;> simp [h]

/-- The entities of a list that can be read and have the given change. -/
def entitiesWith {α : Type} (read? : Json → Option α) (change : EntityChange) (items : List Item) :
    List (Changed α) :=
  (items.filterMap (Item.entity? read?)).filter fun d => d.change = change

/-- The steps of a list are those of its entities with the change. -/
theorem planItems_eq_flatMap {α : Type} (read? : Json → Option α) (items : List Item)
    (change : EntityChange) (stepsOf : Changed α → List Step) :
    planItems read? items change stepsOf = (entitiesWith read? change items).flatMap stepsOf := by
  induction items with
  | nil => rfl
  | cons i items ih =>
    unfold planItems entitiesWith at ih ⊢
    rw [List.flatMap_cons, ih, List.filterMap_cons]
    unfold Item.steps
    cases i.entity? read? with
    | none => rfl
    | some d => by_cases h : d.change = change <;> simp [h]

/-- Where the entity of a delta lives, for a release of the database. -/
def Changed.context {α : Type} (d : Changed α) (release : Option String) : Context :=
  ⟨d.schema, release⟩

/-- The native type of a field's state, without qualifiers, if there is one. -/
def Model.FieldState.type? (s : Model.FieldState) : Option String :=
  let t := (DataType.ofColumn s.mode s.kind).typeName
  if t.isEmpty then none else some t

/-- The old and the new name of a field that is renamed, where both are known. -/
def Model.FieldChange.rename? (c : Model.FieldChange) : Option (String × String) :=
  if c.changesName then c.old.name.bind fun old => c.new.name.map fun new => (old, new) else none

/-- The new type of a field whose type has changed, where it is known. -/
def Model.FieldChange.retype? (c : Model.FieldChange) : Option String :=
  if c.changesType then c.new.type? else none

/-- The fields that bear no change of their own. -/
def Model.Fields.unchanged (fields : Model.Fields) : Model.Fields :=
  fields.filter fun e => e.2.change.isNone

/-- A field that bears a change of its own. -/
structure ChangedField where
  name : String
  field : Model.Field
  change : Model.FieldChange

/-- The fields that bear a change of their own. -/
def Model.Fields.changed (fields : Model.Fields) : List ChangedField :=
  fields.filterMap fun e => e.2.change.map fun c => ⟨e.1, e.2, c⟩

end SchemaDelta
