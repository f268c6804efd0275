import SchemaDelta.Script.Plan

/-!
# Changes of tables

Whole tables are created and dropped first. Then columns are added to, dropped from and changed in
the tables that remain; the renamings of a table come before the changes of its column types.
-/

namespace SchemaDelta

open Sql

namespace TableSteps

/-- The qualified name of the table, if it has a name. -/
def name? (d : Changed Model.Table) : Option String :=
  d.node.tableName?.map fun n => qualified n d.schema

/-- The steps on a table that has a name. -/
def named (f : String → List Step) (d : Changed Model.Table) : List Step :=
  match name? d with
  | some table => f table
  | none => []

/-- The steps on a table are made from its qualified name. -/
theorem exists_of_mem_named {f : String → List Step} {d : Changed Model.Table} {s : Step}
    (hs : s ∈ named f d) :
    ∃ name, d.node.tableName? = some name ∧ name? d = some (qualified name d.schema) ∧
      s ∈ f (qualified name d.schema) := by
  unfold named name? at *
  cases hname : d.node.tableName? with
  | none => simp [hname] at hs
  | some name => exact ⟨name, rfl, rfl, by simpa [hname] using hs⟩

/-- The creation of the table. -/
def create (release : Option String) (d : Changed Model.Table) : List Step :=
  ((Table.ofNode? d.node (d.context release)).map .createTable).toList

/-- The removal of the table. -/
def drop (d : Changed Model.Table) : List Step :=
  named (fun table => [.dropTable table]) d

/-- The additions of columns. -/
def columnAdditions (release : Option String) (d : Changed Model.Table) : List Step :=
  named (fun table =>
    (d.node.fields.unchanged.columns d.node.required (d.context release)).map
      (.addColumn table d.node.active)) d

/-- The removals of columns. -/
def columnRemovals (d : Changed Model.Table) : List Step :=
  named (fun table => d.node.fields.unchanged.map fun e => .dropColumn table e.1) d

/-- The changes of columns: renamings first, then types. -/
def columnChanges (d : Changed Model.Table) : List Step :=
  named (fun table =>
    let changed := d.node.fields.changed
    changed.filterMap (fun f => f.change.rename?.map fun n => .renameColumn table n.1 n.2) ++
      changed.filterMap fun f => f.change.retype?.map (.modifyColumn table f.name)) d

end TableSteps

/-- The steps of the tables. -/
def tableSteps (c : Category) (release : Option String) : List Step :=
  let plan := planItems Model.Table.read?
  plan c.added .created (TableSteps.create release) ++
    plan c.deleted .deleted TableSteps.drop ++
    plan c.added .fields (TableSteps.columnAdditions release) ++
    plan c.deleted .fields TableSteps.columnRemovals ++
    plan c.modified .fields TableSteps.columnChanges

end SchemaDelta
