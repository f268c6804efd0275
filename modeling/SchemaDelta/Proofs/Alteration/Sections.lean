import SchemaDelta.Proofs.Alteration.Statements
import SchemaDelta.Proofs.Script.Blocks

/-!
# From the old columns to the new ones

A section of a delta says of a table, in any number of items, which columns are added, dropped,
renamed and retyped. The script makes one alteration after another, in the order of its phases:
`alterations_eq` says that the statements of the script are the steps of the section's diff. So
whether they carry the old columns to the new ones is a matter of names alone
(`execAll_alterations`).
-/

namespace SchemaDelta

open Sql Text

/-! ## What a section says of a table -/

/-- The items of a list that are about columns of the table, and not about the table as a whole. -/
def alteredIn (items : List Item) (table : String) : List (Changed Model.Table) :=
  (items.filterMap (Item.entity? Model.Table.read?)).filter fun d =>
    d.change = .fields ∧ TableSteps.name? d = some table

namespace Changed

/-- The trimmed names of the fields that bear no change of their own. -/
def columns (d : Changed Model.Table) : List String :=
  d.node.fields.unchanged.map fun e => trim e.1

/-- The renamings and then the modifications of columns, each in the order of the fields. -/
def columnChanges (d : Changed Model.Table) : List ColumnChange :=
  (d.node.fields.filterMap fun e => e.2.renaming?.map fun n => .rename (trim n.1) (trim n.2)) ++
    d.node.fields.filterMap fun e => e.2.retyping?.map fun _ => .modify (trim e.1)

end Changed

namespace Category

/-- What a section says of the columns of a table. -/
def columnDiff (c : Category) (table : String) : ColumnDiff where
  added := (alteredIn c.added table).flatMap Changed.columns
  dropped := (alteredIn c.deleted table).flatMap Changed.columns
  changes := (alteredIn c.modified table).flatMap Changed.columnChanges

/-- The alterations that the script of a section makes on a table, in order. -/
def alterations (c : Category) (table : String) (release : Option String) : List Alteration :=
  (tableSteps c release).flatMap (Step.alterations table)

/-- The section describes a consistent change of the columns `old` of a table. All that it adds is
active, and what has changed stands under its new name. -/
structure Alters (c : Category) (table : String) (old : Finset String) : Prop where
  consistent : (c.columnDiff table).Consistent old
  active : ∀ d ∈ alteredIn c.added table, d.node.active = true ∧
    ∀ e ∈ d.node.fields, e.2.active = true
  keyed : ∀ d ∈ alteredIn c.modified table, ∀ e ∈ d.node.fields, ∀ change ∈ e.2.change,
    change.new.name = some e.1

end Category

/-! ## The alterations of the script -/

namespace TableSteps

variable {d : Changed Model.Table} {name : String} {schema : Option String}

/-- Steps on another table make no alteration. -/
theorem alterations_of_ne {steps : List Step} (habout : ∀ s ∈ steps, About d s)
    (h : name? d ≠ some (qualified name schema)) :
    steps.flatMap (Step.alterations (qualified name schema)) = [] := by
  rw [List.flatMap_eq_nil_iff]
  intro s hs
  obtain ⟨other, hother, hexisting⟩ := habout s hs
  exact Step.alterations_of_ne hexisting fun he => h (he ▸ hother)

theorem named_of_name {table : String} (h : name? d = some table) (f : String → List Step) :
    named f d = f table := by
  simp [named, h]

/-- Active columns are added one by one. -/
theorem alterations_columnAdditions (h : name? d = some (qualified name schema))
    (htable : d.node.active = true) (hfields : ∀ e ∈ d.node.fields, e.2.active = true)
    (release : Option String) :
    (columnAdditions release d).flatMap (Step.alterations (qualified name schema)) =
      d.columns.map .add := by
  rw [columnAdditions, named_of_name h, Model.Fields.columns, List.map_map, List.flatMap_map,
    Changed.columns, List.map_map, List.map_eq_flatMap]
  refine List.flatMap_congr fun e he => ?_
  have hactive : e.2.active = true := hfields e (List.mem_filter.1 he).1
  rw [Function.comp_apply, Step.alterations_addColumn,
    if_pos ⟨rfl, by simp [Column.ofNode, hactive, htable]⟩]
  rfl

theorem alterations_columnRemovals (h : name? d = some (qualified name schema)) :
    (columnRemovals d).flatMap (Step.alterations (qualified name schema)) =
      d.columns.map .drop := by
  rw [columnRemovals, named_of_name h, List.flatMap_map, Changed.columns, List.map_map,
    List.map_eq_flatMap]
  refine List.flatMap_congr fun e _ => ?_
  rw [Step.alterations_dropColumn, if_pos rfl]
  rfl

/-- Steps for those elements that have some value make an alteration for each of them. -/
theorem alterations_filterMap {α β : Type} (xs : List α) (value? : α → Option β) {step : β → Step}
    {table : String} {make : β → Alteration} (h : ∀ b, (step b).alterations table = [make b]) :
    (xs.filterMap fun a => (value? a).map step).flatMap (Step.alterations table) =
      xs.filterMap fun a => (value? a).map make := by
  rw [← List.map_filterMap, ← List.map_filterMap, List.flatMap_map, List.map_eq_flatMap]
  exact List.flatMap_congr fun b _ => h b

theorem alterations_columnChanges (h : name? d = some (qualified name schema)) :
    (columnChanges d).flatMap (Step.alterations (qualified name schema)) =
      d.columnChanges.map .change := by
  have hplan : columnChanges d =
      (d.node.fields.filterMap fun e =>
        e.2.renaming?.map fun n => .renameColumn (qualified name schema) n.1 n.2) ++
      d.node.fields.filterMap fun e => (e.2.retyping?.map fun t => (e.1, t)).map fun n =>
        .modifyColumn (qualified name schema) n.1 n.2 := by
    simp [columnChanges, named_of_name h, Model.Fields.filterMap_changed, Model.Field.renaming?_eq,
      Model.Field.retyping?_eq, Option.map_bind, Function.comp_def]
  have hrename (n : String × String) :
      (Step.renameColumn (qualified name schema) n.1 n.2).alterations (qualified name schema) =
        [.change (.rename (trim n.1) (trim n.2))] := by
    rw [Step.alterations_renameColumn, if_pos rfl]
  have hmodify (n : String × String) :
      (Step.modifyColumn (qualified name schema) n.1 n.2).alterations (qualified name schema) =
        [.change (.modify (trim n.1))] := by
    rw [Step.alterations_modifyColumn, if_pos rfl]
  rw [hplan, List.flatMap_append, alterations_filterMap _ _ hrename,
    alterations_filterMap _ _ hmodify]
  simp [Changed.columnChanges, List.map_filterMap, Function.comp_def]

end TableSteps

/-- The alterations of a phase are those of the items that are about columns of the table. -/
theorem alterations_planItems {stepsOf : Changed Model.Table → List Step} {name : String}
    {schema : Option String} (habout : ∀ d, ∀ s ∈ stepsOf d, TableSteps.About d s)
    (items : List Item) :
    (planItems Model.Table.read? items .fields stepsOf).flatMap
        (Step.alterations (qualified name schema)) =
      (alteredIn items (qualified name schema)).flatMap fun d =>
        (stepsOf d).flatMap (Step.alterations (qualified name schema)) := by
  have haltered : alteredIn items (qualified name schema) =
      (entitiesWith Model.Table.read? .fields items).filter fun d =>
        TableSteps.name? d = some (qualified name schema) := by
    simp [alteredIn, entitiesWith, Bool.and_comm]
  rw [haltered, planItems_eq_flatMap, List.flatMap_assoc]
  induction entitiesWith Model.Table.read? .fields items with
  | nil => rfl
  | cons d ds ih =>
    -- An item on another table makes no alteration of this one.
    by_cases hname : TableSteps.name? d = some (qualified name schema)
    · simp [hname, ih]
    · simp [hname, ih, TableSteps.alterations_of_ne (habout d) hname]

/-- Phases over whole tables make no alteration. -/
theorem alterations_planItems_eq_nil {stepsOf : Changed Model.Table → List Step} {table : String}
    (h : ∀ d, ∀ s ∈ stepsOf d, s.alterations table = []) (items : List Item)
    (change : EntityChange) :
    (planItems Model.Table.read? items change stepsOf).flatMap (Step.alterations table) = [] := by
  rw [List.flatMap_eq_nil_iff]
  intro s hs
  obtain ⟨-, -, d, -, -, hds⟩ := mem_planItems.1 hs
  exact h d s hds

theorem TableSteps.alterations_create (release : Option String) (table : String)
    (d : Changed Model.Table) : ∀ s ∈ create release d, s.alterations table = [] := by
  intro s hs
  obtain ⟨t, -, rfl⟩ := Option.map_eq_some_iff.1 (Option.mem_toList.1 hs)
  exact Step.alterations_createTable table t

theorem TableSteps.alterations_drop (table : String) (d : Changed Model.Table) :
    ∀ s ∈ drop d, s.alterations table = [] := by
  intro s hs
  obtain ⟨name, -, -, hs⟩ := exists_of_mem_named hs
  rw [List.mem_singleton.1 hs]
  exact Step.alterations_dropTable table _

/-- What holds of the items about columns of a table. -/
theorem mem_alteredIn {items : List Item} {table : String} {d : Changed Model.Table}
    (h : d ∈ alteredIn items table) : TableSteps.name? d = some table := by
  simp only [alteredIn, List.mem_filter, decide_eq_true_eq] at h
  exact h.2.2

namespace Category

variable {c : Category} {name : String} {schema : Option String} {old : Finset String}

/-- The script makes the alterations of the section one after another. -/
theorem alterations_eq (h : c.Alters (qualified name schema) old) (release : Option String) :
    c.alterations (qualified name schema) release =
      (c.columnDiff (qualified name schema)).steps := by
  have hadded : ∀ d ∈ alteredIn c.added (qualified name schema),
      (TableSteps.columnAdditions release d).flatMap (Step.alterations (qualified name schema)) =
        d.columns.map .add := by
    intro d hd
    obtain ⟨htable, hfields⟩ := h.active d hd
    exact TableSteps.alterations_columnAdditions (mem_alteredIn hd) htable hfields release
  have hdropped : ∀ d ∈ alteredIn c.deleted (qualified name schema),
      (TableSteps.columnRemovals d).flatMap (Step.alterations (qualified name schema)) =
        d.columns.map .drop :=
    fun d hd => TableSteps.alterations_columnRemovals (mem_alteredIn hd)
  have hchanged : ∀ d ∈ alteredIn c.modified (qualified name schema),
      (TableSteps.columnChanges d).flatMap (Step.alterations (qualified name schema)) =
        d.columnChanges.map .change :=
    fun d hd => TableSteps.alterations_columnChanges (mem_alteredIn hd)
  simp only [alterations, tableSteps, List.flatMap_append]
  rw [alterations_planItems_eq_nil (TableSteps.alterations_create release _),
    alterations_planItems_eq_nil (TableSteps.alterations_drop _),
    alterations_planItems fun d s => TableSteps.about_of_mem_columnAdditions,
    alterations_planItems fun d s => TableSteps.about_of_mem_columnRemovals,
    alterations_planItems fun d s => TableSteps.about_of_mem_columnChanges,
    List.flatMap_congr hadded, List.flatMap_congr hdropped, List.flatMap_congr hchanged]
  simp [columnDiff, ColumnDiff.steps, List.map_flatMap]

end Category

/-! ## Modified columns -/

theorem Model.Field.new_of_renaming? {f : Model.Field} {n : String × String}
    (h : f.renaming? = some n) : ∃ change ∈ f.change, change.new.name = some n.2 := by
  unfold renaming? at h
  split at h
  · next hchange =>
    split_ifs at h
    cases h
    exact ⟨_, hchange, rfl⟩
  · cases h

/-- A modified column is known before, or its own item renames it first. -/
theorem Changed.known_columnChanges {d : Changed Model.Table} {known : Finset String}
    (hkeyed : ∀ e ∈ d.node.fields, ∀ change ∈ e.2.change, change.new.name = some e.1)
    (hknown : ∀ e ∈ d.node.fields, e.2.renaming? = none → e.2.retyping? ≠ none →
      trim e.1 ∈ known) : ColumnChange.Known d.columnChanges known := by
  rw [columnChanges, ColumnChange.known_append]
  constructor
  · refine ColumnChange.known_of_forall fun x hx => ?_
    obtain ⟨e, -, he⟩ := List.mem_filterMap.1 hx
    obtain ⟨n, -, hn⟩ := Option.map_eq_some_iff.1 he
    cases hn
  · refine ColumnChange.known_of_forall fun x hx => ?_
    obtain ⟨e, he, hx⟩ := List.mem_filterMap.1 hx
    obtain ⟨t, ht, hx⟩ := Option.map_eq_some_iff.1 hx
    cases hx
    cases hr : e.2.renaming? with
    | none => exact Finset.mem_union_left _ (hknown e he hr (by simp [ht]))
    | some n =>
      -- The field stands under the name that it is renamed to.
      obtain ⟨change, hchange, hnew⟩ := Model.Field.new_of_renaming? hr
      have hname : n.2 = e.1 := Option.some.inj (hnew.symm.trans (hkeyed e he change hchange))
      refine Finset.mem_union_right _ (List.mem_toFinset.2 (List.mem_map.2 ?_))
      refine ⟨(trim n.1, trim n.2), List.mem_filterMap.2 ⟨.rename (trim n.1) (trim n.2), ?_, rfl⟩,
        congrArg trim hname⟩
      exact List.mem_filterMap.2 ⟨e, he, by rw [hr, Option.map_some]⟩

/-- The columns that are known before all items are known before each of them. -/
theorem known_columnChanges {ds : List (Changed Model.Table)} {kept known : Finset String}
    (hsub : kept ⊆ known) (h : ∀ d ∈ ds, ∀ known, kept ⊆ known →
      ColumnChange.Known d.columnChanges known) :
    ColumnChange.Known (ds.flatMap Changed.columnChanges) known := by
  induction ds generalizing known with
  | nil => trivial
  | cons d ds ih =>
    rw [List.flatMap_cons, ColumnChange.known_append]
    exact ⟨h d List.mem_cons_self known hsub, ih (hsub.trans Finset.subset_union_left)
      fun d hd => h d (List.mem_cons_of_mem _ hd)⟩

namespace Category

variable {c : Category} {name : String} {schema : Option String} {old : Finset String}

/-- Columns that stay are there when they are modified. -/
theorem finds_changes {table : String} (h : c.Alters table old)
    (hkept : ∀ d ∈ alteredIn c.modified table, ∀ e ∈ d.node.fields, e.2.renaming? = none →
      e.2.retyping? ≠ none → trim e.1 ∈ (c.columnDiff table).kept old)
    (horder : InOrder (c.columnDiff table).renames) :
    ColumnChange.Finds (c.columnDiff table).changes
      ((old ∪ (c.columnDiff table).added.toFinset) \ (c.columnDiff table).dropped.toFinset) := by
  have hknown : ColumnChange.Known (c.columnDiff table).changes ((c.columnDiff table).kept old) :=
    known_columnChanges (Finset.Subset.refl _) fun d hd known hsub =>
      Changed.known_columnChanges (h.keyed d hd) fun e he hr ht => hsub (hkept d hd e he hr ht)
  refine hknown.finds horder fun x hx => ?_
  simp only [ColumnDiff.kept, ColumnDiff.gone, ColumnDiff.renames, Finset.mem_sdiff,
    Finset.mem_union, List.mem_toFinset, List.mem_append, not_or] at hx ⊢
  tauto

/-- The script of a section that describes a consistent change of a table carries the old columns to
the new ones, without an error, exactly when its alterations can be made one after another: no
column is added under an old name, none goes twice, no renaming goes to a name that it or a later
one starts from, and each modified column is there at its turn. The last condition is met where the
modified columns that keep their name are columns that stay. -/
theorem execAll_alterations (h : c.Alters (qualified name schema) old) (release : Option String) :
    let d := c.columnDiff (qualified name schema)
    (Alteration.execAll (c.alterations (qualified name schema) release) old =
        some (d.result old) ↔ d.Sequential old) ∧
      ((∀ t ∈ alteredIn c.modified (qualified name schema), ∀ e ∈ t.node.fields,
          e.2.renaming? = none → e.2.retyping? ≠ none → trim e.1 ∈ d.kept old) →
        (d.Sequential old ↔ (∀ x ∈ d.added, x ∉ old) ∧ d.gone.Nodup ∧ InOrder d.renames)) := by
  intro d
  constructor
  · rw [alterations_eq h release]
    exact ColumnDiff.execAll_steps_iff h.consistent
  · intro hkept
    refine ⟨fun hs => ⟨hs.added_new, hs.gone_nodup, hs.order⟩, ?_⟩
    rintro ⟨hnew, hgone, horder⟩
    exact ⟨hnew, hgone, horder, finds_changes h hkept horder⟩

/-- A column gets the name of one that has got another name before, one is dropped, one is added,
and one is retyped. -/
theorem execAll_alterations_chain :
    let c := ofJson (some (.object
      [("added", .object [("items", .array [.object [("1", .object [("name", .string "t"),
        ("properties", .object [("e", .object [("mode", .string "date")])])])]])]),
      ("deleted", .object [("items", .array [.object [("2", .object [("name", .string "t"),
        ("properties", .object [("c", .object [])])])]])]),
      ("modified", .object [("items", .array [.object [("3", .object [("name", .string "t"),
        ("properties", .object
          [("d", .object [("compMod", .object [("oldField", .object [("name", .string "b")]),
            ("newField", .object [("name", .string "d")])])]),
          ("b", .object [("compMod", .object [("oldField", .object [("name", .string "a")]),
            ("newField", .object [("name", .string "b"), ("mode", .string "date")])])]),
          ("k", .object [("compMod", .object [("oldField", .object [("name", .string "k")]),
            ("newField", .object [("name", .string "k"), ("mode", .string "date")])])])])])]])])]))
    Alteration.execAll (c.alterations (qualified "t" none) none) {"a", "b", "c", "k"} =
      some {"b", "d", "e", "k"} := by
  intro c
  have hresult : (c.columnDiff (qualified "t" none)).result {"a", "b", "c", "k"} =
      {"b", "d", "e", "k"} := by decide +kernel
  have halters : c.Alters (qualified "t" none) {"a", "b", "c", "k"} :=
    ⟨⟨by decide +kernel, by decide +kernel, by decide +kernel⟩, by decide +kernel,
      by decide +kernel⟩
  rw [← hresult]
  exact (execAll_alterations halters none).1.2
    ⟨by decide +kernel, by decide +kernel, by decide +kernel, by decide +kernel⟩

/-- A column that is dropped and added again is still there when it is added, and a column that gets
the name of another one is renamed before that name is free. -/
theorem execAll_alterations_reused :
    (let c := ofJson (some (.object
      [("added", .object [("items", .array [.object [("1", .object [("name", .string "t"),
        ("properties", .object [("a", .object [("mode", .string "date")])])])]])]),
      ("deleted", .object [("items", .array [.object [("2", .object [("name", .string "t"),
        ("properties", .object [("a", .object [("mode", .string "number")])])])]])])]))
    c.Alters (qualified "t" none) {"a"} ∧
      Alteration.execAll (c.alterations (qualified "t" none) none) {"a"} = none) ∧
    let c := ofJson (some (.object
      [("modified", .object [("items", .array [.object [("1", .object [("name", .string "t"),
        ("properties", .object
          [("b", .object [("compMod", .object [("oldField", .object [("name", .string "a")]),
            ("newField", .object [("name", .string "b")])])]),
          ("c", .object [("compMod", .object [("oldField", .object [("name", .string "b")]),
            ("newField", .object [("name", .string "c")])])])])])]])])]))
    c.Alters (qualified "t" none) {"a", "b"} ∧
      Alteration.execAll (c.alterations (qualified "t" none) none) {"a", "b"} = none := by
  refine ⟨⟨⟨⟨?_, ?_, ?_⟩, ?_, ?_⟩, ?_⟩, ⟨⟨?_, ?_, ?_⟩, ?_, ?_⟩, ?_⟩ <;> decide +kernel

end Category

end SchemaDelta
