import SchemaDelta.Proofs.Sql.Sealed
import SchemaDelta.Script.Step

/-!
# All statements are sealed

Each statement of each step begins with its verb and ends with its end mark, whatever texts stand
between them.
-/

namespace SchemaDelta

open Sql

/-- The creation of a table begins with its verb. -/
theorem Table.capital_createText (t : Table) : Capital t.createText := by
  rw [Table.createText, Form.fill_createTable]
  exact ⟨'C', _, by simp; rfl, by decide⟩

/-- The creation of a view begins with its verb. -/
theorem View.capital_createText (v : View) : Capital v.createText := by
  rw [View.createText, Form.fill_createView]
  exact ⟨'C', _, by simp; rfl, by decide⟩

/-- The statements that create a table are sealed. -/
theorem Table.sealed_createUnits (t : Table) : ∀ u ∈ t.createUnits, Sealed u.text := by
  intro u hu
  simp only [createUnits, List.cons_append, List.mem_cons, List.mem_append, Option.mem_toList,
    List.mem_filterMap] at hu
  rcases hu with rfl | hu | ⟨c, -, hu⟩
  · exact sealed_guarded t.capital_createText _ _
  · obtain ⟨d, -, rfl⟩ := Option.map_eq_some_iff.1 hu
    exact sealed_commentOn _ _ _
  · obtain ⟨d, -, rfl⟩ := Option.map_eq_some_iff.1 hu
    exact sealed_commentOn _ _ _

/-- The creation of an index is sealed. -/
theorem Index.sealed_statement (i : Index) (table : String) (schema : Option String)
    (parentActive : Bool) : Sealed (i.statement table schema parentActive).text := by
  rw [Index.statement, Form.fill_createIndex]
  refine Capital.sealed ?_ (.inl rfl)
  exact ⟨'C', _, by simp; rfl, by decide⟩

/-- The statements that create a view are sealed. -/
theorem View.sealed_createUnits (v : View) : ∀ u ∈ v.createUnits, Sealed u.text := by
  intro u hu
  simp only [createUnits, List.mem_cons, Option.mem_toList] at hu
  rcases hu with rfl | hu
  · exact sealed_guarded v.capital_createText _ _
  · obtain ⟨d, -, rfl⟩ := Option.map_eq_some_iff.1 hu
    exact sealed_commentOn _ _ _

/-- The creation of a type is sealed. -/
theorem UserType.sealed_createUnit (t : UserType) : Sealed t.createUnit.text := by
  unfold createUnit createText
  cases t.body with
  | object attributes =>
    dsimp only
    rw [Form.fill_createObjectType]
    refine Capital.sealed ?_ (.inl (by decide))
    exact ⟨'C', _, by simp; rfl, by decide⟩
  | collection c =>
    dsimp only
    rw [Form.fill_createCollectionType]
    refine Capital.sealed ?_ (.inl rfl)
    exact ⟨'C', _, by simp; rfl, by decide⟩

/-- The creation of a user begins with its verb. -/
theorem capital_createSchema (name : String) :
    Capital (Form.createSchema.fill (.ofList [("schemaName", name)])) := by
  rw [Form.fill_createSchema]
  exact ⟨'C', _, by simp; rfl, by decide⟩

/-- The creation of a schema is sealed. -/
theorem Schema.sealed_createUnit (s : Schema) : Sealed s.createUnit.text :=
  sealed_guarded (capital_createSchema _) _ _

/-- Every statement of a step is sealed. -/
theorem Step.sealed_units (s : Step) : ∀ u ∈ s.units, Sealed u.text := by
  intro u hu
  cases s with
  | createSchema s =>
    rw [List.mem_singleton.1 hu]
    exact s.sealed_createUnit
  | dropSchema s =>
    rw [List.mem_singleton.1 hu, Form.fill_dropUser]
    exact Capital.sealed ⟨'D', _, by simp; rfl, by decide⟩ (.inl (by decide))
  | createTable t =>
    rcases List.mem_append.1 hu with hu | hu
    · exact t.sealed_createUnits u hu
    · obtain ⟨i, -, rfl⟩ := List.mem_map.1 hu
      exact i.sealed_statement _ _ _
  | dropTable table =>
    rw [List.mem_singleton.1 hu, Form.fill_dropTable]
    exact Capital.sealed ⟨'D', _, by simp; rfl, by decide⟩ (.inl (by decide))
  | addColumn table tableActive c =>
    rw [List.mem_singleton.1 hu, Form.fill_addColumn]
    exact Capital.sealed ⟨'A', _, by simp; rfl, by decide⟩ (.inl (by decide))
  | dropColumn table column =>
    rw [List.mem_singleton.1 hu, Form.fill_dropColumn]
    exact Capital.sealed ⟨'A', _, by simp; rfl, by decide⟩ (.inl (by decide))
  | renameColumn table old new =>
    rw [List.mem_singleton.1 hu, Form.fill_renameColumn]
    exact Capital.sealed ⟨'A', _, by simp; rfl, by decide⟩ (.inl (by decide))
  | modifyColumn table column type =>
    rw [List.mem_singleton.1 hu, Form.fill_modifyColumn]
    exact Capital.sealed ⟨'A', _, by simp; rfl, by decide⟩ (.inl (by decide))
  | createView v => exact v.sealed_createUnits u hu
  | dropView v =>
    rw [List.mem_singleton.1 hu, Form.fill_dropView]
    exact Capital.sealed ⟨'D', _, by simp; rfl, by decide⟩ (.inl (by decide))
  | createType t =>
    rw [List.mem_singleton.1 hu]
    exact t.sealed_createUnit
  | dropType t =>
    rw [List.mem_singleton.1 hu, Form.fill_dropType]
    exact Capital.sealed ⟨'D', _, by simp; rfl, by decide⟩ (.inl (by decide))
  | addAttribute type active c =>
    rw [List.mem_singleton.1 hu, Form.fill_addAttribute]
    exact Capital.sealed ⟨'A', _, by simp; rfl, by decide⟩ (.inl (by decide))
  | dropAttribute type name =>
    rw [List.mem_singleton.1 hu, Form.fill_dropAttribute]
    exact Capital.sealed ⟨'A', _, by simp; rfl, by decide⟩ (.inl (by decide))
  | modifyAttribute type name dataType =>
    rw [List.mem_singleton.1 hu, Form.fill_modifyAttribute]
    exact Capital.sealed ⟨'A', _, by simp; rfl, by decide⟩ (.inl (by decide))

end SchemaDelta
