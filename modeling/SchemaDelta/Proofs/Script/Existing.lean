import SchemaDelta.Proofs.Sql.Forms
import SchemaDelta.Script.Tables

/-!
# Steps on existing tables

A section first creates tables. All its other steps are about tables that are there already: they
drop one or change its columns. The statement of such a step begins with its verb and the qualified
name of the table.
-/

namespace SchemaDelta

open Sql

namespace Step

/-- The existing table that a step is about. -/
def existing? : Step → Option String
  | dropTable table => some table
  | addColumn table _ _ => some table
  | dropColumn table _ => some table
  | renameColumn table _ _ => some table
  | modifyColumn table _ _ => some table
  | _ => none

/-- The verbs of the statements on existing tables. -/
def tableVerbs : List String :=
  ["ALTER TABLE ", "DROP TABLE "]

/-- A statement on an existing table begins with its verb and the name of the table. -/
theorem exists_toList_unit {s : Step} {table : String} (h : s.existing? = some table) :
    ∀ u ∈ s.units, ∃ verb ∈ tableVerbs, ∃ r : List Char,
      u.text.toList = verb.toList ++ (table.toList ++ (r ++ [';'])) := by
  intro u hu
  cases s <;> cases h <;> rw [List.mem_singleton.1 hu]
  case dropTable => exact ⟨"DROP TABLE ", by decide, [], by simp [Form.fill_dropTable]⟩
  case addColumn on c =>
    exact ⟨"ALTER TABLE ", by decide, (" ADD (" ++ c.line.text ++ ")").toList,
      by simp [Form.fill_addColumn]⟩
  case dropColumn column =>
    exact ⟨"ALTER TABLE ", by decide, (" DROP COLUMN " ++ quote column).toList,
      by simp [Form.fill_dropColumn]⟩
  case renameColumn old new =>
    exact ⟨"ALTER TABLE ", by decide,
      (" RENAME COLUMN " ++ quote old ++ " TO " ++ quote new).toList,
      by simp [Form.fill_renameColumn]⟩
  case modifyColumn column type =>
    exact ⟨"ALTER TABLE ", by decide,
      (" MODIFY (" ++ quote column ++ framed " " type "" ++ ")").toList,
      by simp [Form.fill_modifyColumn]⟩

end Step

namespace TableSteps

variable {d : Changed Model.Table} {s : Step}

/-- The step is about the existing table that the delta names. -/
def About (d : Changed Model.Table) (s : Step) : Prop :=
  ∃ name, name? d = some (qualified name d.schema) ∧
    s.existing? = some (qualified name d.schema)

theorem about_of_mem_named {f : String → List Step}
    (hf : ∀ table, ∀ s ∈ f table, s.existing? = some table) (hs : s ∈ named f d) : About d s := by
  obtain ⟨name, -, hname, hs⟩ := exists_of_mem_named hs
  exact ⟨name, hname, hf _ s hs⟩

theorem about_of_mem_drop (hs : s ∈ drop d) : About d s := by
  refine about_of_mem_named (fun table s hs => ?_) hs
  rw [List.mem_singleton.1 hs]
  rfl

theorem about_of_mem_columnAdditions {release : Option String}
    (hs : s ∈ columnAdditions release d) : About d s := by
  refine about_of_mem_named (fun table s hs => ?_) hs
  obtain ⟨c, -, rfl⟩ := List.mem_map.1 hs
  rfl

theorem about_of_mem_columnRemovals (hs : s ∈ columnRemovals d) : About d s := by
  refine about_of_mem_named (fun table s hs => ?_) hs
  obtain ⟨e, -, rfl⟩ := List.mem_map.1 hs
  rfl

theorem about_of_mem_columnChanges (hs : s ∈ columnChanges d) : About d s := by
  refine about_of_mem_named (fun table s hs => ?_) hs
  rcases List.mem_append.1 hs with hs | hs
  · obtain ⟨f, -, hf⟩ := List.mem_filterMap.1 hs
    obtain ⟨n, -, rfl⟩ := Option.map_eq_some_iff.1 hf
    rfl
  · obtain ⟨f, -, hf⟩ := List.mem_filterMap.1 hs
    obtain ⟨n, -, rfl⟩ := Option.map_eq_some_iff.1 hf
    rfl

end TableSteps

/-! ## What follows the creations -/

/-- The steps of a section that follow its creations. -/
def laterTableSteps (c : Category) (release : Option String) : List Step :=
  let plan := planItems Model.Table.read?
  plan c.deleted .deleted TableSteps.drop ++
    plan c.added .fields (TableSteps.columnAdditions release) ++
    plan c.deleted .fields TableSteps.columnRemovals ++
    plan c.modified .fields TableSteps.columnChanges

/-- The creations of a section come first. -/
theorem tableSteps_eq (c : Category) (release : Option String) :
    tableSteps c release =
      planItems Model.Table.read? c.added .created (TableSteps.create release) ++
        laterTableSteps c release := by
  simp [tableSteps, laterTableSteps]

/-- A table that an item deletes is dropped. -/
theorem dropTable_mem_laterTableSteps {c : Category} {i : Item} {d : Changed Model.Table}
    {table : String} (hi : i ∈ c.deleted) (hd : i.entity? Model.Table.read? = some d)
    (hchange : d.change = .deleted) (htable : TableSteps.name? d = some table)
    (release : Option String) : .dropTable table ∈ laterTableSteps c release := by
  have hdrop : Step.dropTable table ∈ TableSteps.drop d := by
    simp [TableSteps.drop, TableSteps.named, htable]
  simp only [laterTableSteps, List.mem_append, mem_planItems]
  exact .inl (.inl (.inl ⟨i, hi, d, hd, hchange, hdrop⟩))

/-- All other steps are about existing tables. -/
theorem existing?_laterTableSteps {c : Category} {release : Option String} {s : Step}
    (hs : s ∈ laterTableSteps c release) :
    ∃ name schema, s.existing? = some (qualified name schema) := by
  obtain ⟨d, name, -, h⟩ : ∃ d, TableSteps.About d s := by
    simp only [laterTableSteps, List.mem_append, mem_planItems] at hs
    rcases hs with ((⟨-, -, d, -, -, hs⟩ | ⟨-, -, d, -, -, hs⟩) | ⟨-, -, d, -, -, hs⟩) |
      ⟨-, -, d, -, -, hs⟩
    · exact ⟨d, TableSteps.about_of_mem_drop hs⟩
    · exact ⟨d, TableSteps.about_of_mem_columnAdditions hs⟩
    · exact ⟨d, TableSteps.about_of_mem_columnRemovals hs⟩
    · exact ⟨d, TableSteps.about_of_mem_columnChanges hs⟩
  exact ⟨name, d.schema, h⟩

end SchemaDelta
