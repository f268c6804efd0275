import Mathlib.Data.List.Basic
import SchemaDelta.Proofs.Delta.Places
import SchemaDelta.Script.Basic

/-!
# The steps of one item

A category is planned in phases, each over one list of items. An item is taken by one phase at most,
so its steps stand together in the script: `steps_insertItem` says that a value put into a document
puts one block into the script and disturbs nothing else. `Item.block` tells the block from the item
alone, case by case.
-/

namespace SchemaDelta

open Sql

/-! ## What an item contributes -/

/-- The old and the new name of a field, where both are given and differ. -/
def Model.Field.renaming? (f : Model.Field) : Option (String × String) :=
  match f.change with
  | some ⟨⟨some old, _, _⟩, ⟨some new, _, _⟩⟩ => if old = new then none else some (old, new)
  | _ => none

/-- The new type of a field, where kind or mode differ and the type has a name. -/
def Model.Field.retyping? (f : Model.Field) : Option String :=
  match f.change with
  | some ⟨⟨_, oldKind, oldMode⟩, ⟨_, kind, mode⟩⟩ =>
    let type := (DataType.ofColumn mode kind).typeName
    if oldKind = kind ∧ oldMode = mode ∨ type = "" then none else some type
  | none => none

namespace ItemList

/-- The steps of a table in one of the lists. A table without a name has none. -/
def tableBlock (list : ItemList) (release : Option String) (d : Changed Model.Table) : List Step :=
  match Table.ofNode? d.node (d.context release) with
  | none => []
  | some t =>
    let table := qualified t.name t.schema
    let new := d.node.fields.filter fun e => e.2.change.isNone
    match list, d.change with
    | .added, .created => [.createTable t]
    | .deleted, .deleted => [.dropTable table]
    | .added, .fields => new.map fun e =>
      .addColumn table t.active (Column.ofNode e.1 e.2 d.node.required (d.context release))
    | .deleted, .fields => new.map fun e => .dropColumn table e.1
    | .modified, .fields =>
      (d.node.fields.filterMap fun e => e.2.renaming?.map fun n => .renameColumn table n.1 n.2) ++
        d.node.fields.filterMap fun e => e.2.retyping?.map fun type => .modifyColumn table e.1 type
    | _, _ => []

/-- The steps of a view in one of the lists. A view without a name has none, and neither has a new
view without a query. -/
def viewBlock (list : ItemList) (d : Changed Model.View) : List Step :=
  match View.ofNode? d.node (d.context none) with
  | none => []
  | some v =>
    match list, d.change with
    | .added, .created => if v.hasQuery then [.createView v] else []
    | .deleted, .deleted => [.dropView v]
    | _, _ => []

/-- The steps of a type in one of the lists. A type without a name has none, and a collection has no
attributes to change. -/
def typeBlock (list : ItemList) (release : Option String) (d : Changed Model.UserType) :
    List Step :=
  match UserType.ofNode? d.node (d.context release) with
  | none => []
  | some t =>
    let type := qualified t.name t.schema
    let new := d.node.fields.filter fun e => e.2.change.isNone
    let column (e : String × Model.Field) : Column :=
      Column.ofNode e.1 e.2 d.node.required (d.context release)
    match list, d.change, d.node.isObject with
    | .added, .created, _ => [.createType t]
    | .deleted, .deleted, _ => [.dropType t]
    | .added, .fields, true => new.map fun e =>
      .addAttribute type (e.2.active && t.active) (column e)
    | .deleted, .fields, true => new.map fun e => .dropAttribute type e.1
    | .modified, .fields, true =>
      (d.node.fields.flatMap fun e =>
        match e.2.renaming? with
        | some (old, new) =>
          [.dropAttribute type old, .addAttribute type true { column e with name := new }]
        | none => []) ++
        d.node.fields.filterMap fun e => e.2.retyping?.map fun t => .modifyAttribute type e.1 t
    | _, _, _ => []

end ItemList

/-- The steps of an item at a place. An item that cannot be read has none. -/
def Item.block (p : Place) (release : Option String) (i : Item) : List Step :=
  match p.kind with
  | .schema =>
    match p.list, i.entity? Model.Schema.read? with
    | .added, some d => [.createSchema (Schema.ofNode d.key d.node)]
    | .deleted, some d => [.dropSchema (Schema.ofNode d.key d.node)]
    | _, _ => []
  | .table => (i.entity? Model.Table.read?).elim [] (p.list.tableBlock release)
  | .view => (i.entity? Model.View.read?).elim [] p.list.viewBlock
  | .type => (i.entity? Model.UserType.read?).elim [] (p.list.typeBlock release)

/-- The steps of a value at a place. A value that is no item has none. -/
def Place.block (p : Place) (release : Option String) (v : Json) : List Step :=
  (Item.read? v).elim [] (Item.block p release)

/-! ## Phases -/

/-- A phase turns the items of one list into steps, item by item. -/
structure Phase where
  list : ItemList
  steps : Item → List Step

namespace Phase

/-- The steps of a phase. -/
def run (f : Phase) (c : Category) : List Step :=
  (c.items f.list).flatMap f.steps

/-- The steps of an item of the given list. -/
def stepsIn (f : Phase) (k : ItemList) (i : Item) : List Step :=
  if f.list = k then f.steps i else []

/-- No item is taken by two phases over its list. -/
def Exclusive (phases : List Phase) : Prop :=
  phases.Pairwise fun f g => f.list = g.list → ∀ i, f.steps i = [] ∨ g.steps i = []

/-- Other lists do not matter to a phase. -/
theorem run_setItems_of_ne {f : Phase} {k : ItemList} (h : f.list ≠ k) (c : Category)
    (items : List Item) : f.run (c.setItems k items) = f.run c := by
  rw [run, run, Category.items_setItems, if_neg h]

/-- An item that a phase does not take leaves its steps as they are. -/
theorem run_setItems_of_nil {f : Phase} {c : Category} {k : ItemList} {l r : List Item}
    (hc : c.items k = l ++ r) {i : Item} (hi : f.stepsIn k i = []) :
    f.run (c.setItems k (l ++ i :: r)) = f.run c := by
  by_cases hk : f.list = k
  · subst hk
    rw [stepsIn, if_pos rfl] at hi
    rw [run, run, Category.items_setItems, if_pos rfl, hc]
    simp [hi]
  · exact run_setItems_of_ne hk c _

/-- An item puts one block into the steps of exclusive phases, and leaves the others as they are. -/
theorem exists_block {phases : List Phase} (hx : Exclusive phases) {c : Category} {k : ItemList}
    {l r : List Item} (hc : c.items k = l ++ r) (i : Item) :
    ∃ before after, phases.flatMap (run · c) = before ++ after ∧
      phases.flatMap (run · (c.setItems k (l ++ i :: r))) =
        before ++ phases.flatMap (stepsIn · k i) ++ after := by
  induction phases with
  | nil => exact ⟨[], [], rfl, rfl⟩
  | cons f phases ih =>
    obtain ⟨hf, hx⟩ := List.pairwise_cons.1 hx
    by_cases hi : f.stepsIn k i = []
    · -- The block comes from a later phase, if from any.
      obtain ⟨before, after, hold, hnew⟩ := ih hx
      refine ⟨f.run c ++ before, after, ?_, ?_⟩
      · rw [List.flatMap_cons, hold, List.append_assoc]
      · rw [List.flatMap_cons, List.flatMap_cons, hnew, run_setItems_of_nil hc hi, hi]
        simp
    · -- The item is taken by this phase, so no later one takes it.
      obtain ⟨hk, hsteps⟩ : f.list = k ∧ f.steps i ≠ [] := by
        unfold stepsIn at hi
        split_ifs at hi with hk
        · exact ⟨hk, hi⟩
        · exact absurd rfl hi
      have hrest : ∀ g ∈ phases, g.stepsIn k i = [] := by
        intro g hg
        unfold stepsIn
        split_ifs with hgk
        · exact (hf g hg (hk.trans hgk.symm) i).resolve_left hsteps
        · rfl
      have hnil : phases.flatMap (stepsIn · k i) = [] := List.flatMap_eq_nil_iff.2 hrest
      have hsame : phases.flatMap (run · (c.setItems k (l ++ i :: r))) =
          phases.flatMap (run · c) :=
        List.flatMap_congr fun g hg => run_setItems_of_nil hc (hrest g hg)
      refine ⟨l.flatMap f.steps, r.flatMap f.steps ++ phases.flatMap (run · c), ?_, ?_⟩
      · simp [run, hk, hc]
      · rw [List.flatMap_cons, List.flatMap_cons, hnil, hsame, stepsIn, if_pos hk, run,
          Category.items_setItems, if_pos hk]
        simp

end Phase

/-- An item is taken for one kind of change only. -/
theorem Item.steps_eq_nil {α : Type} {read? : Json → Option α} {c e : EntityChange} (h : c ≠ e)
    (f g : Changed α → List Step) (i : Item) : steps read? c f i = [] ∨ steps read? e g i = [] := by
  unfold steps
  cases i.entity? read? with
  | none => exact .inl rfl
  | some d =>
    by_cases hc : d.change = c
    · exact .inr (if_neg fun he => h (hc.symm.trans he))
    · exact .inl (if_neg hc)

namespace EntityKind

/-- The phases of a category, in order. -/
def phases (release : Option String) : EntityKind → List Phase
  | schema =>
    [⟨.added, fun i => (i.schemaDef?.map .createSchema).toList⟩,
      ⟨.deleted, fun i => (i.schemaDef?.map .dropSchema).toList⟩]
  | table =>
    let steps := Item.steps Model.Table.read?
    [⟨.added, steps .created (TableSteps.create release)⟩,
      ⟨.deleted, steps .deleted TableSteps.drop⟩,
      ⟨.added, steps .fields (TableSteps.columnAdditions release)⟩,
      ⟨.deleted, steps .fields TableSteps.columnRemovals⟩,
      ⟨.modified, steps .fields TableSteps.columnChanges⟩]
  | view =>
    let steps := Item.steps Model.View.read?
    [⟨.deleted, steps .deleted ViewSteps.drop⟩, ⟨.added, steps .created ViewSteps.create⟩]
  | type =>
    let steps := Item.steps Model.UserType.read?
    [⟨.deleted, steps .deleted (TypeSteps.drop release)⟩,
      ⟨.added, steps .created (TypeSteps.create release)⟩,
      ⟨.added, steps .fields (TypeSteps.attributeAdditions release)⟩,
      ⟨.deleted, steps .fields TypeSteps.attributeRemovals⟩,
      ⟨.modified, steps .fields (TypeSteps.attributeChanges release)⟩]

/-- Two phases over one list take different kinds of change. -/
theorem exclusive_phases (k : EntityKind) (release : Option String) :
    Phase.Exclusive (k.phases release) := by
  cases k <;> simp [Phase.Exclusive, phases, Item.steps_eq_nil]

/-- The steps of a category. -/
def steps (release : Option String) (c : Category) : EntityKind → List Step
  | schema => schemaSteps c
  | table => tableSteps c release
  | view => viewSteps c
  | type => typeSteps c release

/-- A category is planned phase by phase. -/
theorem steps_eq_phases (k : EntityKind) (release : Option String) (c : Category) :
    k.steps release c = (k.phases release).flatMap (Phase.run · c) := by
  cases k with
  | schema =>
    have hschema (items : List Item) (f : Schema → Step) :
        (items.filterMap Item.schemaDef?).map f =
          items.flatMap fun i => (i.schemaDef?.map f).toList := by
      rw [List.map_filterMap, List.filterMap_eq_flatMap_toList]
    simp [steps, schemaSteps, phases, Phase.run, Category.items, hschema]
  | table => simp [steps, tableSteps, planItems, phases, Phase.run, Category.items]
  | view => simp [steps, viewSteps, planItems, phases, Phase.run, Category.items]
  | type => simp [steps, typeSteps, planItems, phases, Phase.run, Category.items]

end EntityKind

/-! ## The block of an item -/

theorem Model.Field.renaming?_eq (f : Model.Field) :
    f.renaming? = f.change.bind Model.FieldChange.rename? := by
  unfold renaming? Model.FieldChange.rename? Model.FieldChange.changesName
  rcases f.change with - | ⟨⟨- | old, oldKind, oldMode⟩, ⟨- | new, kind, mode⟩⟩
  · rfl
  · rfl
  · rfl
  · simp
  · by_cases h : old = new <;> simp [h]

theorem Model.Field.retyping?_eq (f : Model.Field) :
    f.retyping? = f.change.bind Model.FieldChange.retype? := by
  unfold retyping? Model.FieldChange.retype? Model.FieldChange.changesType Model.FieldState.type?
  rcases f.change with - | ⟨⟨oldName, oldKind, oldMode⟩, ⟨name, kind, mode⟩⟩
  · rfl
  · by_cases hk : oldKind = kind
    · by_cases hm : oldMode = mode <;> simp [hk, hm]
    · simp [hk]

/-- What is planned from the changes of fields is planned from the fields. -/
theorem Model.Fields.filterMap_changed {α : Type} (fields : Model.Fields)
    (g : ChangedField → Option α) :
    fields.changed.filterMap g =
      fields.filterMap fun e => e.2.change.bind fun c => g ⟨e.1, e.2, c⟩ := by
  unfold changed
  rw [List.filterMap_filterMap]
  refine List.filterMap_congr fun e _ => ?_
  cases e.2.change <;> rfl

theorem Model.Fields.flatMap_changed {α : Type} (fields : Model.Fields)
    (g : ChangedField → List α) :
    fields.changed.flatMap g =
      fields.flatMap fun e => (e.2.change.map fun c => g ⟨e.1, e.2, c⟩).getD [] := by
  unfold changed
  induction fields with
  | nil => rfl
  | cons e fields ih =>
    rw [List.flatMap_cons, ← ih]
    cases h : e.2.change <;> simp [h]

/-- A table that is given has a name, so the steps on it are planned. -/
theorem TableSteps.named_of_some {d : Changed Model.Table} {release : Option String} {t : Table}
    (h : Table.ofNode? d.node (d.context release) = some t) (f : String → List Step) :
    TableSteps.named f d = f (qualified t.name t.schema) := by
  obtain ⟨n, hn, rfl⟩ := Option.map_eq_some_iff.1 h
  simp [named, name?, hn, Changed.context]

theorem TableSteps.named_of_none {d : Changed Model.Table} {ctx : Context}
    (h : Table.ofNode? d.node ctx = none) (f : String → List Step) :
    TableSteps.named f d = [] := by
  simp [named, name?, Option.map_eq_none_iff.1 h]

/-- A type that is given has a name, so the steps on it are planned if it is an object type. -/
theorem TypeSteps.named_of_some {d : Changed Model.UserType} {release : Option String}
    {t : UserType} (h : UserType.ofNode? d.node (d.context release) = some t)
    (f : String → List Step) :
    TypeSteps.named f d = if d.node.isObject then f (qualified t.name t.schema) else [] := by
  obtain ⟨n, hn, rfl⟩ := Option.map_eq_some_iff.1 h
  simp [named, hn, Changed.context]

theorem TypeSteps.named_of_none {d : Changed Model.UserType} {ctx : Context}
    (h : UserType.ofNode? d.node ctx = none) (f : String → List Step) :
    TypeSteps.named f d = [] := by
  simp [named, Option.map_eq_none_iff.1 h]

namespace ItemList

variable (list : ItemList) (release : Option String)

/-- The block of a table is what the phase for its list and its change makes of it. -/
theorem tableBlock_eq (d : Changed Model.Table) :
    list.tableBlock release d =
      match list, d.change with
      | .added, .created => TableSteps.create release d
      | .deleted, .deleted => TableSteps.drop d
      | .added, .fields => TableSteps.columnAdditions release d
      | .deleted, .fields => TableSteps.columnRemovals d
      | .modified, .fields => TableSteps.columnChanges d
      | _, _ => [] := by
  unfold tableBlock
  cases h : Table.ofNode? d.node (d.context release) with
  | none =>
    have hn := TableSteps.named_of_none h
    cases list <;> cases d.change <;>
      simp [TableSteps.create, TableSteps.drop, TableSteps.columnAdditions,
        TableSteps.columnRemovals, TableSteps.columnChanges, h, hn]
  | some t =>
    have hn := TableSteps.named_of_some h
    have hactive : t.active = d.node.active := by
      obtain ⟨n, -, rfl⟩ := Option.map_eq_some_iff.1 h
      rfl
    cases list with
    | added =>
      cases d.change with
      | created => simp [TableSteps.create, h]
      | fields =>
        simp [TableSteps.columnAdditions, hn, hactive, Model.Fields.columns, Model.Fields.unchanged]
      | _ => rfl
    | deleted =>
      cases d.change with
      | deleted => simp [TableSteps.drop, hn]
      | fields => simp [TableSteps.columnRemovals, hn, Model.Fields.unchanged]
      | _ => rfl
    | modified =>
      cases d.change with
      | fields =>
        simp only [TableSteps.columnChanges, hn, Model.Fields.filterMap_changed]
        refine congrArg₂ _ (List.filterMap_congr fun e _ => ?_) (List.filterMap_congr fun e _ => ?_)
        · rw [Model.Field.renaming?_eq, Option.map_bind]
          rfl
        · rw [Model.Field.retyping?_eq, Option.map_bind]
          rfl
      | _ => rfl

/-- The block of a view is what the phase for its list and its change makes of it. -/
theorem viewBlock_eq (d : Changed Model.View) :
    list.viewBlock d =
      match list, d.change with
      | .added, .created => ViewSteps.create d
      | .deleted, .deleted => ViewSteps.drop d
      | _, _ => [] := by
  unfold viewBlock
  have hview : ViewSteps.view? d = View.ofNode? d.node (d.context none) := rfl
  cases h : View.ofNode? d.node (d.context none) with
  | none =>
    rw [h] at hview
    cases list <;> cases d.change <;> simp [ViewSteps.create, ViewSteps.drop, hview]
  | some v =>
    rw [h] at hview
    cases list with
    | added =>
      cases d.change with
      | created => cases hq : v.hasQuery <;> simp [ViewSteps.create, hview, hq, Option.filter]
      | _ => rfl
    | deleted =>
      cases d.change with
      | deleted => simp [ViewSteps.drop, hview]
      | _ => rfl
    | modified => rfl

/-- The block of a type is what the phase for its list and its change makes of it. -/
theorem typeBlock_eq (d : Changed Model.UserType) :
    list.typeBlock release d =
      match list, d.change with
      | .added, .created => TypeSteps.create release d
      | .deleted, .deleted => TypeSteps.drop release d
      | .added, .fields => TypeSteps.attributeAdditions release d
      | .deleted, .fields => TypeSteps.attributeRemovals d
      | .modified, .fields => TypeSteps.attributeChanges release d
      | _, _ => [] := by
  unfold typeBlock
  have htype : TypeSteps.type? release d = UserType.ofNode? d.node (d.context release) := rfl
  cases h : UserType.ofNode? d.node (d.context release) with
  | none =>
    rw [h] at htype
    have hn := TypeSteps.named_of_none h
    cases list <;> cases d.change <;>
      simp [TypeSteps.create, TypeSteps.drop, TypeSteps.attributeAdditions,
        TypeSteps.attributeRemovals, TypeSteps.attributeChanges, htype, hn]
  | some t =>
    rw [h] at htype
    have hn := TypeSteps.named_of_some h
    have hactive : t.active = d.node.active := by
      obtain ⟨n, -, rfl⟩ := Option.map_eq_some_iff.1 h
      rfl
    cases list with
    | added =>
      cases d.change with
      | created => simp [TypeSteps.create, htype]
      | fields =>
        cases hobject : d.node.isObject <;>
          simp [TypeSteps.attributeAdditions, hn, hactive, hobject, TypeSteps.attributeOf,
            Model.Fields.unchanged]
      | _ => rfl
    | deleted =>
      cases d.change with
      | deleted => simp [TypeSteps.drop, htype]
      | fields =>
        cases hobject : d.node.isObject <;>
          simp [TypeSteps.attributeRemovals, hn, hobject, Model.Fields.unchanged]
      | _ => rfl
    | modified =>
      cases d.change with
      | fields =>
        cases hobject : d.node.isObject with
        | false => simp [TypeSteps.attributeChanges, hn, hobject]
        | true =>
          simp only [TypeSteps.attributeChanges, hn, hobject, if_true,
            Model.Fields.filterMap_changed, Model.Fields.flatMap_changed,
            Model.Field.renaming?_eq, Model.Field.retyping?_eq, Option.map_bind, Function.comp_def]
          refine congrArg₂ _ (List.flatMap_congr fun e _ => ?_) rfl
          cases e.2.change with
          | none => rfl
          | some c =>
            cases hr : c.rename? <;>
              simp [hr, TypeSteps.renameAttribute, TypeSteps.attributeOf]
      | _ => rfl

end ItemList

/-- The phases of a category make the block of an item, between them. -/
theorem Item.block_eq (kind : EntityKind) (list : ItemList) (release : Option String) (i : Item) :
    (kind.phases release).flatMap (Phase.stepsIn · list i) = i.block ⟨kind, list⟩ release := by
  cases kind with
  | schema =>
    cases h : i.entity? Model.Schema.read? <;> cases list <;>
      simp [EntityKind.phases, Phase.stepsIn, block, schemaDef?, h]
  | table =>
    cases h : i.entity? Model.Table.read? with
    | none => cases list <;> simp [EntityKind.phases, Phase.stepsIn, block, steps, h]
    | some d =>
      cases list <;> cases hc : d.change <;>
        simp [EntityKind.phases, Phase.stepsIn, block, steps, h, hc, ItemList.tableBlock_eq]
  | view =>
    cases h : i.entity? Model.View.read? with
    | none => cases list <;> simp [EntityKind.phases, Phase.stepsIn, block, steps, h]
    | some d =>
      cases list <;> cases hc : d.change <;>
        simp [EntityKind.phases, Phase.stepsIn, block, steps, h, hc, ItemList.viewBlock_eq]
  | type =>
    cases h : i.entity? Model.UserType.read? with
    | none => cases list <;> simp [EntityKind.phases, Phase.stepsIn, block, steps, h]
    | some d =>
      cases list <;> cases hc : d.change <;>
        simp [EntityKind.phases, Phase.stepsIn, block, steps, h, hc, ItemList.typeBlock_eq]

/-! ## Scripts -/

/-- The categories in the order of a script. -/
def EntityKind.all : List EntityKind := [schema, table, view, type]

namespace Script

/-- A script is planned category by category. -/
theorem steps_ofDelta (d : Delta) (release : Option String) :
    (ofDelta d release).steps = EntityKind.all.flatMap fun k => k.steps release (d.category k) := by
  simp [EntityKind.all, EntityKind.steps, Delta.category, ofDelta, steps]

/-- The steps of a script are those of the items of its delta. -/
theorem mem_steps_ofDelta {d : Delta} {release : Option String} {a : Step} :
    a ∈ (ofDelta d release).steps ↔ ∃ p, ∃ i ∈ d.items p, a ∈ i.block p release := by
  rw [steps_ofDelta, List.mem_flatMap]
  constructor
  · rintro ⟨kind, -, ha⟩
    rw [EntityKind.steps_eq_phases, List.mem_flatMap] at ha
    obtain ⟨f, hf, ha⟩ := ha
    obtain ⟨i, hi, ha⟩ := List.mem_flatMap.1 ha
    refine ⟨⟨kind, f.list⟩, i, hi, ?_⟩
    rw [← Item.block_eq, List.mem_flatMap]
    exact ⟨f, hf, by rwa [Phase.stepsIn, if_pos rfl]⟩
  · rintro ⟨⟨kind, list⟩, i, hi, ha⟩
    rw [← Item.block_eq, List.mem_flatMap] at ha
    obtain ⟨f, hf, ha⟩ := ha
    unfold Phase.stepsIn at ha
    split at ha
    · next hlist =>
      subst hlist
      refine ⟨kind, by cases kind <;> decide, ?_⟩
      rw [EntityKind.steps_eq_phases]
      exact List.mem_flatMap.2 ⟨f, hf, List.mem_flatMap.2 ⟨i, hi, ha⟩⟩
    · cases ha

theorem mem_units_ofDelta {d : Delta} {release : Option String} {u : Fragment} :
    u ∈ (ofDelta d release).units ↔
      ∃ p, ∃ i ∈ d.items p, u ∈ (i.block p release).flatMap Step.units := by
  simp only [units, List.mem_flatMap, mem_steps_ofDelta]
  constructor
  · rintro ⟨a, ⟨p, i, hi, ha⟩, hu⟩
    exact ⟨p, i, hi, a, ha, hu⟩
  · rintro ⟨p, i, hi, a, ha, hu⟩
    exact ⟨a, ⟨p, i, hi, ha⟩, hu⟩

/-- A category that gets one block more gives the script one block more. -/
theorem exists_block_setCategory (d : Delta) (release : Option String) {k : EntityKind}
    {c : Category} {before block after : List Step}
    (hold : k.steps release (d.category k) = before ++ after)
    (hnew : k.steps release c = before ++ block ++ after) :
    ∃ before after, (ofDelta d release).steps = before ++ after ∧
      (ofDelta (d.setCategory k c) release).steps = before ++ block ++ after := by
  obtain ⟨front, back, hall⟩ : ∃ front back, EntityKind.all = front ++ k :: back :=
    List.append_of_mem (by cases k <;> decide)
  have hnodup : (front ++ k :: back).Nodup := hall ▸ (by decide : EntityKind.all.Nodup)
  obtain ⟨hfront, hback⟩ : k ∉ front ∧ k ∉ back := by
    rw [List.nodup_append, List.nodup_cons] at hnodup
    exact ⟨fun h => hnodup.2.2 k h k List.mem_cons_self rfl, hnodup.2.1.1⟩
  -- The other categories are those of the old delta.
  have hsame {ks : List EntityKind} (h : k ∉ ks) :
      (ks.flatMap fun l => l.steps release ((d.setCategory k c).category l)) =
        ks.flatMap fun l => l.steps release (d.category l) := by
    refine List.flatMap_congr fun l hl => ?_
    have hne : l ≠ k := fun he => h (he ▸ hl)
    rw [Delta.category_setCategory, if_neg hne]
  refine ⟨(front.flatMap fun l => l.steps release (d.category l)) ++ before,
    after ++ back.flatMap fun l => l.steps release (d.category l), ?_, ?_⟩
  · rw [steps_ofDelta, hall, List.flatMap_append, List.flatMap_cons, hold]
    simp only [List.append_assoc]
  · rw [steps_ofDelta, hall, List.flatMap_append, List.flatMap_cons, hsame hfront, hsame hback,
      Delta.category_setCategory, if_pos rfl, hnew]
    simp only [List.append_assoc]

/-- A value that is inserted into a list of a document inserts one block into the steps of its
script, and all other steps stay as they are. The block depends on nothing but the place, the
release and the value. -/
theorem steps_insertItem (r : Json.Entries) (p : Place) (n : Nat) (item : Json)
    (release : Option String) :
    ∃ s t before after, ofJson (.object r) release = .ok s ∧
      ofJson ((Json.object r).insertItem p n item) release = .ok t ∧
      s.steps = before ++ after ∧ t.steps = before ++ p.block release item ++ after := by
  obtain ⟨d, l, l', hd, hitems, hinsert⟩ := Delta.ofJson?_insertItem r p n item
  have hold : ofJson (.object r) release = .ok (ofDelta d release) := by rw [ofJson, hd]
  have hnew : ofJson ((Json.object r).insertItem p n item) release =
      .ok (ofDelta (d.setItems p (l ++ (Item.read? item).toList ++ l')) release) := by
    rw [ofJson, hinsert]
  obtain ⟨before, after, hb, ha⟩ : ∃ before after,
      p.kind.steps release (d.category p.kind) = before ++ after ∧
      p.kind.steps release ((d.category p.kind).setItems p.list
          (l ++ (Item.read? item).toList ++ l')) = before ++ p.block release item ++ after := by
    simp only [EntityKind.steps_eq_phases]
    cases hi : Item.read? item with
    | none =>
      -- A value that is no item leaves the list as it is.
      have hsame : (d.category p.kind).setItems p.list (l ++ l') = d.category p.kind := by
        rw [← hitems]
        refine Category.ext_items fun k => ?_
        rw [Category.items_setItems]
        split_ifs with hk
        · rw [hk, Delta.items]
        · rfl
      refine ⟨(p.kind.phases release).flatMap (Phase.run · (d.category p.kind)), [], by simp, ?_⟩
      simp [hsame, Place.block, hi]
    | some i =>
      have hblock : p.block release item = (p.kind.phases release).flatMap
          (Phase.stepsIn · p.list i) := by
        rw [Item.block_eq, Place.block, hi, Option.elim_some]
      rw [hblock]
      simpa using Phase.exists_block (p.kind.exclusive_phases release) hitems i
  obtain ⟨before, after, hs, ht⟩ := exists_block_setCategory d release hb ha
  exact ⟨_, _, before, after, hold, hnew, hs, ht⟩

end Script

end SchemaDelta
