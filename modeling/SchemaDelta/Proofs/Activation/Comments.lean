import SchemaDelta.Proofs.Script.Blocks

/-!
# Comments on what is deactivated

`Item.inactiveUnits` takes the statements of an item that are about something deactivated: all
statements of a deactivated entity, and those of an active entity that are about one of its
deactivated members. This module follows the phases that plan the added items: there they are the
comments, and the phases over other lists have no comments at all.
-/

namespace SchemaDelta

open Sql Text

/-! ## Comments among statements -/

namespace Sql

/-- A comment is longer than its text. -/
theorem commented_ne (text : String) : commented text ≠ text := by
  intro h
  have hlength := congrArg String.length h
  unfold commented at hlength
  split at hlength <;> simp only [String.length_append] at hlength
  · have : ("/*\n" : String).length = 3 := rfl
    omega
  · have : ("-- " : String).length = 3 := rfl
    omega

/-- A statement is written as a comment only if it is inactive. -/
theorem Fragment.write_eq_commented_iff {u : Fragment} :
    u.write = commented u.text ↔ u.active = false := by
  cases hu : u.active with
  | true => simpa [write, hu] using (commented_ne u.text).symm
  | false => simp [write, hu]

/-- The statements that are written as comments. -/
def comments (units : List Fragment) : List Fragment :=
  units.filter fun u => !u.active

theorem mem_comments {units : List Fragment} {u : Fragment} :
    u ∈ comments units ↔ u ∈ units ∧ u.active = false := by
  rw [comments, List.mem_filter, Bool.not_eq_true']

theorem comments_append (l r : List Fragment) : comments (l ++ r) = comments l ++ comments r :=
  List.filter_append ..

theorem comments_flatMap {α : Type} (l : List α) (f : α → List Fragment) :
    comments (l.flatMap f) = l.flatMap fun a => comments (f a) :=
  List.filter_flatMap ..

theorem comments_eq_self {units : List Fragment} (h : ∀ u ∈ units, u.active = false) :
    comments units = units := by
  refine List.filter_eq_self.2 fun u hu => ?_
  rw [h u hu, Bool.not_false]

theorem comments_eq_nil {units : List Fragment} (h : ∀ u ∈ units, u.active = true) :
    comments units = [] := by
  refine List.filter_eq_nil_iff.2 fun u hu => ?_
  rw [h u hu, Bool.not_true]
  exact Bool.false_ne_true

end Sql

/-! ## What is about something deactivated -/

/-- The fields that are deactivated. -/
def Model.Fields.inactive (fields : Model.Fields) : Model.Fields :=
  fields.filter fun e => !e.2.active

/-- The table with its deactivated columns only. -/
def Model.Table.onlyInactive (t : Model.Table) : Model.Table :=
  { t with fields := t.fields.inactive }

/-- The type with its deactivated attributes only. -/
def Model.UserType.onlyInactive (t : Model.UserType) : Model.UserType :=
  { t with fields := t.fields.inactive }

@[simp] theorem Model.Table.active_onlyInactive (t : Model.Table) :
    t.onlyInactive.active = t.active := rfl

@[simp] theorem Model.UserType.active_onlyInactive (t : Model.UserType) :
    t.onlyInactive.active = t.active := rfl

/-- The comments on the deactivated columns of a new table, and its deactivated indexes. -/
def Table.inactiveUnits (t : Table) : List Fragment :=
  ((t.columns.filter fun c => !c.active).filterMap fun c =>
    c.commentUnit? t.qualifiedName t.active) ++
    (t.indexes.filter fun i => !i.active).map fun i => i.statement t.name t.schema t.active

namespace ItemList

variable (list : ItemList) (release : Option String)

/-- The statements about something deactivated, of a table in one of the lists: all of them for a
deactivated table, and those of its deactivated columns and indexes for another. -/
def inactiveTable (d : Changed Model.Table) : List Fragment :=
  let units (d : Changed Model.Table) := (list.tableBlock release d).flatMap Step.units
  if d.node.active then
    match list, d.change with
    | _, .fields => units { d with node := d.node.onlyInactive }
    | .added, .created => (Table.ofNode? d.node (d.context release)).elim [] Table.inactiveUnits
    | _, _ => []
  else units d

/-- The statements of a deactivated view in one of the lists. -/
def inactiveView (d : Changed Model.View) : List Fragment :=
  if d.node.active then [] else (list.viewBlock d).flatMap Step.units

/-- The statements about something deactivated, of a type in one of the lists: all of them for a
deactivated type, and those of its deactivated attributes for another. -/
def inactiveType (d : Changed Model.UserType) : List Fragment :=
  let units (d : Changed Model.UserType) := (list.typeBlock release d).flatMap Step.units
  if d.node.active then
    if d.change = .fields then units { d with node := d.node.onlyInactive } else []
  else units d

end ItemList

/-- The statements of an item that are about something deactivated. -/
def Item.inactiveUnits (p : Place) (release : Option String) (i : Item) : List Fragment :=
  match p.kind with
  | .schema => (i.entity? Model.Schema.read?).elim [] fun d =>
      if d.node.active then [] else (i.block p release).flatMap Step.units
  | .table => (i.entity? Model.Table.read?).elim [] (p.list.inactiveTable release)
  | .view => (i.entity? Model.View.read?).elim [] p.list.inactiveView
  | .type => (i.entity? Model.UserType.read?).elim [] (p.list.inactiveType release)

/-! ## New entities -/

/-- All statements of a deactivated table are comments. -/
theorem Table.comments_of_inactive {t : Table} (h : t.active = false) :
    comments (t.createUnits ++ t.indexUnits) = t.createUnits ++ t.indexUnits := by
  refine comments_eq_self fun u hu => ?_
  rcases List.mem_append.1 hu with hu | hu
  · rcases List.mem_append.1 hu with hu | hu
    · rcases List.mem_cons.1 hu with rfl | hu
      · exact h
      · obtain ⟨-, -, rfl⟩ := Option.map_eq_some_iff.1 (Option.mem_toList.1 hu)
        exact h
    · obtain ⟨c, -, hc⟩ := List.mem_filterMap.1 hu
      obtain ⟨-, -, rfl⟩ := Option.map_eq_some_iff.1 hc
      simp [h]
  · obtain ⟨i, -, rfl⟩ := List.mem_map.1 hu
    simp [Index.statement, h]

/-- The comments of an active table are those about its deactivated columns and indexes. -/
theorem Table.comments_of_active {t : Table} (h : t.active = true) :
    comments (t.createUnits ++ t.indexUnits) = t.inactiveUnits := by
  have hown : comments (⟨guarded t.createText t.ifNotExist nameInUse, t.active⟩ ::
      t.commentUnit?.toList) = [] := by
    refine comments_eq_nil fun u hu => ?_
    rcases List.mem_cons.1 hu with rfl | hu
    · exact h
    · obtain ⟨-, -, rfl⟩ := Option.map_eq_some_iff.1 (Option.mem_toList.1 hu)
      exact h
  -- A comment on a column is as active as the column.
  have hcolumns : comments (t.columns.filterMap fun c => c.commentUnit? t.qualifiedName t.active) =
      (t.columns.filter fun c => !c.active).filterMap fun c =>
        c.commentUnit? t.qualifiedName t.active := by
    rw [comments, List.filter_filterMap, List.filterMap_filter]
    refine List.filterMap_congr fun c _ => ?_
    unfold Column.commentUnit?
    cases c.comment.filter fun t => !blank t with
    | none => simp
    | some text => cases hc : c.active <;> simp [h, Option.filter]
  have hindexes : comments t.indexUnits =
      (t.indexes.filter fun i => !i.active).map fun i => i.statement t.name t.schema t.active := by
    rw [comments, indexUnits, List.filter_map]
    refine congrArg _ (List.filter_congr fun i _ => ?_)
    simp [Index.statement, h]
  rw [comments_append, createUnits, comments_append, hown, hcolumns, hindexes, List.nil_append,
    inactiveUnits]

theorem View.comments_createUnits (v : View) :
    comments v.createUnits = if v.active then [] else v.createUnits := by
  have hall : ∀ u ∈ v.createUnits, u.active = v.active := by
    intro u hu
    rcases List.mem_cons.1 hu with rfl | hu
    · rfl
    · obtain ⟨-, -, rfl⟩ := Option.map_eq_some_iff.1 (Option.mem_toList.1 hu)
      rfl
  cases hv : v.active with
  | true => exact comments_eq_nil fun u hu => (hall u hu).trans hv
  | false => exact comments_eq_self fun u hu => (hall u hu).trans hv

/-! ## The comments of an item -/

/-- Steps without comments have none together. -/
theorem comments_flatMap_eq_nil {α : Type} {l : List α} {f : α → List Fragment}
    (h : ∀ a ∈ l, comments (f a) = []) : comments (l.flatMap f) = [] := by
  rw [comments_flatMap]
  exact List.flatMap_eq_nil_iff.2 h

/-- Where a step is a comment just when its field is deactivated, the comments are the steps of the
deactivated fields. -/
theorem comments_flatMap_unchanged {fields : Model.Fields}
    {f : String × Model.Field → List Fragment}
    (h : ∀ e ∈ fields, comments (f e) = if e.2.active then [] else f e) :
    comments (fields.unchanged.flatMap f) = fields.inactive.unchanged.flatMap f := by
  induction fields with
  | nil => rfl
  | cons e fields ih =>
    have ih := ih fun x hx => h x (List.mem_cons_of_mem e hx)
    have he := h e List.mem_cons_self
    unfold Model.Fields.unchanged Model.Fields.inactive at *
    cases hchange : e.2.change.isNone <;> cases hactive : e.2.active <;>
      simp [hchange, hactive, comments_append, ih, he]

/-- The name of a table does not depend on its columns. -/
theorem TableSteps.named_onlyInactive (f : String → List Step) (d : Changed Model.Table) :
    named f { d with node := d.node.onlyInactive } = named f d := rfl

/-- The name of a type does not depend on its attributes. -/
theorem TypeSteps.named_onlyInactive (f : String → List Step) (d : Changed Model.UserType) :
    named f { d with node := d.node.onlyInactive } = named f d := rfl

/-- The comments among the additions of columns are those of the deactivated columns, or all of them
for a deactivated table. -/
theorem TableSteps.comments_columnAdditions (release : Option String) (d : Changed Model.Table) :
    comments ((columnAdditions release d).flatMap Step.units) =
      if d.node.active then
        (columnAdditions release { d with node := d.node.onlyInactive }).flatMap Step.units
      else (columnAdditions release d).flatMap Step.units := by
  unfold columnAdditions
  rw [named_onlyInactive]
  unfold named
  cases name? d with
  | none => cases d.node.active <;> rfl
  | some table =>
    simp only [Model.Fields.columns, List.map_map, List.flatMap_map]
    cases hd : d.node.active with
    | true =>
      rw [if_pos rfl, Model.Table.active_onlyInactive, hd]
      refine comments_flatMap_unchanged fun e _ => ?_
      cases he : e.2.active <;> simp [Step.units, comments, Column.ofNode, he]
    | false =>
      refine comments_eq_self fun u hu => ?_
      obtain ⟨e, -, hu⟩ := List.mem_flatMap.1 hu
      rw [List.mem_singleton.1 hu, Bool.and_false]

/-- The comments among the additions of attributes are those of the deactivated attributes, or all
of them for a deactivated type. -/
theorem TypeSteps.comments_attributeAdditions (release : Option String)
    (d : Changed Model.UserType) :
    comments ((attributeAdditions release d).flatMap Step.units) =
      if d.node.active then
        (attributeAdditions release { d with node := d.node.onlyInactive }).flatMap Step.units
      else (attributeAdditions release d).flatMap Step.units := by
  unfold attributeAdditions
  rw [named_onlyInactive]
  unfold named
  cases d.node.typeName? with
  | none => cases d.node.active <;> rfl
  | some name =>
    cases d.node.isObject with
    | false => cases d.node.active <;> rfl
    | true =>
      simp only [if_true, List.flatMap_map]
      cases hd : d.node.active with
      | true =>
        rw [if_pos rfl, Model.UserType.active_onlyInactive, hd]
        refine comments_flatMap_unchanged fun e _ => ?_
        cases e.2.active <;> simp [Step.units, comments]
      | false =>
        refine comments_eq_self fun u hu => ?_
        obtain ⟨e, -, hu⟩ := List.mem_flatMap.1 hu
        rw [List.mem_singleton.1 hu]
        exact Bool.and_false _

namespace ItemList

variable {list : ItemList} (release : Option String)

/-- Only tables among the added ones have comments. -/
theorem comments_tableBlock_of_ne (h : list ≠ .added) (d : Changed Model.Table) :
    comments ((list.tableBlock release d).flatMap Step.units) = [] := by
  refine comments_flatMap_eq_nil fun s hs => ?_
  rw [tableBlock_eq] at hs
  split at hs
  · exact absurd rfl h
  · obtain ⟨name, -, -, hs⟩ := TableSteps.exists_of_mem_named hs
    rw [List.mem_singleton.1 hs]
    rfl
  · exact absurd rfl h
  · obtain ⟨name, -, -, hs⟩ := TableSteps.exists_of_mem_named hs
    obtain ⟨e, -, rfl⟩ := List.mem_map.1 hs
    rfl
  · obtain ⟨name, -, -, hs⟩ := TableSteps.exists_of_mem_named hs
    rcases List.mem_append.1 hs with hs | hs
    · obtain ⟨f, -, hf⟩ := List.mem_filterMap.1 hs
      obtain ⟨n, -, rfl⟩ := Option.map_eq_some_iff.1 hf
      rfl
    · obtain ⟨f, -, hf⟩ := List.mem_filterMap.1 hs
      obtain ⟨type, -, rfl⟩ := Option.map_eq_some_iff.1 hf
      rfl
  · cases hs

/-- The comments of an added table are its statements about something deactivated. -/
theorem comments_tableBlock_added (d : Changed Model.Table) :
    comments ((ItemList.added.tableBlock release d).flatMap Step.units) =
      ItemList.added.inactiveTable release d := by
  unfold inactiveTable
  simp only [tableBlock_eq]
  cases d.change with
  | created =>
    unfold TableSteps.create
    cases ht : Table.ofNode? d.node (d.context release) with
    | none => cases d.node.active <;> rfl
    | some t =>
      have hactive : t.active = d.node.active := by
        obtain ⟨n, -, rfl⟩ := Option.map_eq_some_iff.1 ht
        rfl
      cases hd : d.node.active with
      | true => simpa [Step.units] using t.comments_of_active (hactive.trans hd)
      | false => simpa [Step.units] using t.comments_of_inactive (hactive.trans hd)
  | fields => exact TableSteps.comments_columnAdditions release d
  | deleted => cases d.node.active <;> rfl
  | marked => cases d.node.active <;> rfl

/-- Only types among the added ones have comments. -/
theorem comments_typeBlock_of_ne (h : list ≠ .added) (d : Changed Model.UserType) :
    comments ((list.typeBlock release d).flatMap Step.units) = [] := by
  refine comments_flatMap_eq_nil fun s hs => ?_
  unfold typeBlock at hs
  split at hs
  · cases hs
  · split at hs
    · exact absurd rfl h
    · rw [List.mem_singleton.1 hs]
      rfl
    · exact absurd rfl h
    · obtain ⟨e, -, rfl⟩ := List.mem_map.1 hs
      rfl
    · rcases List.mem_append.1 hs with hs | hs
      -- A renaming drops one attribute and adds another, which is live whatever its field says.
      · obtain ⟨e, -, hs⟩ := List.mem_flatMap.1 hs
        split at hs
        · rcases List.mem_pair.1 hs with rfl | rfl <;> rfl
        · cases hs
      · obtain ⟨e, -, he⟩ := List.mem_filterMap.1 hs
        obtain ⟨type, -, rfl⟩ := Option.map_eq_some_iff.1 he
        rfl
    · cases hs

/-- The comments of an added type are its statements about something deactivated. -/
theorem comments_typeBlock_added (d : Changed Model.UserType) :
    comments ((ItemList.added.typeBlock release d).flatMap Step.units) =
      ItemList.added.inactiveType release d := by
  unfold inactiveType
  simp only [typeBlock_eq]
  cases d.change with
  | created =>
    unfold TypeSteps.create
    cases ht : TypeSteps.type? release d with
    | none => cases d.node.active <;> rfl
    | some t =>
      have hactive : t.active = d.node.active := by
        obtain ⟨n, -, rfl⟩ := Option.map_eq_some_iff.1 ht
        rfl
      cases hd : d.node.active <;>
        simp [Step.units, UserType.createUnit, comments, hactive, hd]
  | fields => exact TypeSteps.comments_attributeAdditions release d
  | deleted => cases d.node.active <;> rfl
  | marked => cases d.node.active <;> rfl

/-- The comments of a view are the statements of a deactivated one, among the added views only. -/
theorem comments_viewBlock (list : ItemList) (d : Changed Model.View) :
    comments ((list.viewBlock d).flatMap Step.units) =
      if list = .added then list.inactiveView d else [] := by
  unfold inactiveView
  rw [viewBlock_eq]
  split
  · rw [if_pos rfl, ViewSteps.create]
    cases hv : ViewSteps.view? d with
    | none => cases d.node.active <;> rfl
    | some v =>
      have hactive : v.active = d.node.active := by
        obtain ⟨n, -, rfl⟩ := Option.map_eq_some_iff.1 hv
        rfl
      cases hq : v.hasQuery with
      | false => cases d.node.active <;> simp [Option.filter, hq, comments]
      | true => simpa [Option.filter, hq, Step.units, hactive] using v.comments_createUnits
  · rw [if_neg (by decide), ViewSteps.drop]
    cases ViewSteps.view? d <;> rfl
  · simp [comments]

end ItemList

end SchemaDelta
