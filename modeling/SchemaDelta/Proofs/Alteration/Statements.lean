import SchemaDelta.Proofs.Alteration.Basic
import SchemaDelta.Proofs.Script.Existing
import SchemaDelta.Proofs.Script.Sealed
import SchemaDelta.Proofs.Sql.Names

/-!
# The alterations of a step

An alteration is read back from the text of a statement: the name of the table, the words of the
clause and the quoted names of the columns. So the alterations of a step are known whatever names
and types stand in its statements, and a step on another table has none.
-/

namespace SchemaDelta

open Sql Text

/-! ## Reading -/

namespace Alteration

/-- The alteration of a clause that begins with the given words and goes on with a column. -/
def columnClause? (words : String) (make : String → Alteration) (s : List Char) :
    Option Alteration :=
  ((after? words s).bind identifier?).map fun column => make column.1

/-- The renaming of a clause. -/
def renameClause? (s : List Char) : Option Alteration :=
  ((after? "RENAME COLUMN " s).bind identifier?).bind fun old =>
    ((after? " TO " old.2).bind identifier?).map fun new => change (.rename old.1 new.1)

/-- The alteration that a clause describes. -/
def clause? (s : List Char) : Option Alteration :=
  columnClause? "ADD (" add s <|> columnClause? "DROP COLUMN " drop s <|>
    columnClause? "MODIFY (" (fun c => change (.modify c)) s <|> renameClause? s

/-- The alteration that a statement makes on the table with the given qualified name. -/
def read? (table statement : String) : Option Alteration :=
  (after? ("ALTER TABLE " ++ table ++ " ") statement.toList).bind clause?

theorem clause?_add (name : String) {rest : List Char} (h : rest.head? ≠ some '"') :
    clause? ("ADD (".toList ++ ((quote name).toList ++ rest)) = some (add (trim name)) := by
  simp only [clause?, columnClause?, after?_append, Option.bind_some, identifier?_quote _ h]
  rfl

theorem clause?_drop (name : String) {rest : List Char} (h : rest.head? ≠ some '"') :
    clause? ("DROP COLUMN ".toList ++ ((quote name).toList ++ rest)) = some (drop (trim name)) := by
  simp only [clause?, columnClause?, after?_append, Option.bind_some, identifier?_quote _ h]
  rfl

theorem clause?_modify (name : String) {rest : List Char} (h : rest.head? ≠ some '"') :
    clause? ("MODIFY (".toList ++ ((quote name).toList ++ rest)) =
      some (change (.modify (trim name))) := by
  simp only [clause?, columnClause?, after?_append, Option.bind_some, identifier?_quote _ h]
  rfl

theorem clause?_rename (old new : String) {rest : List Char} (h : rest.head? ≠ some '"') :
    clause? ("RENAME COLUMN ".toList ++
      ((quote old).toList ++ (" TO ".toList ++ ((quote new).toList ++ rest)))) =
      some (change (.rename (trim old) (trim new))) := by
  have hold : identifier? ((quote old).toList ++ (" TO ".toList ++ ((quote new).toList ++ rest))) =
      some (trim old, " TO ".toList ++ ((quote new).toList ++ rest)) :=
    identifier?_quote old (by simp)
  simp only [clause?, columnClause?, renameClause?, after?_append, Option.bind_some, hold,
    identifier?_quote _ h]
  rfl

/-- A statement on a table is read by its clause, and as none on any other table. -/
theorem read?_alter {statement other : String} {otherSchema : Option String} {clause : List Char}
    (h : statement.toList =
      "ALTER TABLE ".toList ++ ((qualified other otherSchema).toList ++ ' ' :: clause))
    (name : String) (schema : Option String) :
    read? (qualified name schema) statement =
      if qualified other otherSchema = qualified name schema then clause? clause else none := by
  split_ifs with hname
  · have hclause : statement.toList =
        ("ALTER TABLE " ++ qualified name schema ++ " ").toList ++ clause := by
      simp [h, hname]
    rw [read?, hclause, after?_append, Option.bind_some]
  · rw [read?, Option.bind_eq_none_iff]
    intro s hs
    rw [after?_eq_some_iff, h] at hs
    simp only [String.toList_append, List.append_assoc, List.append_cancel_left_eq] at hs
    exact absurd (qualified_eq_of_append hs) hname

/-- A statement that begins with another verb alters no table. -/
theorem read?_eq_none {statement : String} (table : String)
    (h : statement.toList.head? ≠ some 'A') : read? table statement = none := by
  rw [read?, Option.bind_eq_none_iff]
  intro s hs
  rw [after?_eq_some_iff] at hs
  rw [hs] at h
  simp at h

end Alteration

/-! ## Statements that alter no table -/

/-- A guarded statement begins as the statement does, or it is a block. -/
theorem Sql.head?_guarded {s : String} {c : Char} {r : List Char} (hs : s.toList = c :: r)
    (hc : c.isUpper = true) (ifNotExist : Bool) (code : Nat) :
    (guarded s ifNotExist code).toList.head? = some (if ifNotExist then 'D' else c) := by
  unfold guarded
  cases ifNotExist with
  | true => simp [Form.fill_ifNotExists]
  | false =>
    obtain ⟨t, ht⟩ := exists_bareStatement_cons hs hc
    simp [ht]

/-- No statement that comes with a new table alters one. -/
theorem Table.head?_units (t : Table) :
    ∀ u ∈ t.createUnits ++ t.indexUnits, u.text.toList.head? ≠ some 'A' := by
  intro u hu
  simp only [createUnits, indexUnits, List.cons_append, List.mem_cons, List.mem_append,
    Option.mem_toList, List.mem_filterMap, List.mem_map] at hu
  rcases hu with rfl | (hu | ⟨c, -, hu⟩) | ⟨i, -, rfl⟩
  · obtain ⟨r, hr⟩ : ∃ r, t.createText.toList = 'C' :: r := by
      rw [createText, Form.fill_createTable]
      exact ⟨_, by simp; rfl⟩
    rw [head?_guarded hr (by decide)]
    cases t.ifNotExist <;> simp
  · obtain ⟨d, -, rfl⟩ := Option.map_eq_some_iff.1 hu
    simp [commentOn, Form.fill_comment]
  · obtain ⟨d, -, rfl⟩ := Option.map_eq_some_iff.1 hu
    simp [commentOn, Form.fill_comment]
  · simp [Index.statement, Form.fill_createIndex]

/-! ## The alterations of a step -/

namespace Step

/-- The alterations that the live statements of a step make on a table, in order. -/
def alterations (table : String) (s : Step) : List Alteration :=
  (s.units.filter Fragment.active).filterMap fun u => Alteration.read? table u.text

theorem alterations_of_live {table text : String} {s : Step} (h : s.units = [⟨text, true⟩]) :
    s.alterations table = (Alteration.read? table text).toList := by
  rw [alterations, h]
  cases hr : Alteration.read? table text <;> simp [hr]

theorem alterations_createTable (table : String) (t : Table) :
    (createTable t).alterations table = [] := by
  rw [alterations, List.filterMap_eq_nil_iff]
  intro u hu
  exact Alteration.read?_eq_none table (t.head?_units u (List.mem_filter.1 hu).1)

theorem alterations_dropTable (table dropped : String) :
    (dropTable dropped).alterations table = [] := by
  rw [alterations_of_live rfl, Form.fill_dropTable, Alteration.read?_eq_none table (by simp)]
  rfl

/-! A step on an existing table makes one alteration, on this table only. -/

section

theorem alterations_alter {name other : String} {schema otherSchema : Option String} {s : Step}
    {text : String} {clause : List Char} {a : Alteration}
    (ha : Alteration.clause? clause = some a) (hunits : s.units = [⟨text, true⟩])
    (htext : text.toList =
      "ALTER TABLE ".toList ++ ((qualified other otherSchema).toList ++ ' ' :: clause)) :
    s.alterations (qualified name schema) =
      if qualified other otherSchema = qualified name schema then [a] else [] := by
  rw [alterations_of_live hunits, Alteration.read?_alter htext, ha]
  split_ifs <;> rfl

variable (name : String) (schema : Option String) (other : String) (otherSchema : Option String)

/-- What stands after the name in the line of a column does not go on with the name. -/
theorem head?_framed_append {before : String} (hbefore : before.toList.head? = some ' ')
    (value after : String) {r : List Char} (hr : r.head? ≠ some '"') :
    ((framed before value after).toList ++ r).head? ≠ some '"' := by
  unfold framed
  split_ifs
  · exact hr
  · obtain ⟨s, hs⟩ := List.head?_eq_some_iff.1 hbefore
    simp [hs]

/-- A column is added by a live statement only if it and its table are active. -/
theorem alterations_addColumn (tableActive : Bool) (c : Column) :
    (addColumn (qualified other otherSchema) tableActive c).alterations (qualified name schema) =
      if qualified other otherSchema = qualified name schema ∧ (c.active && tableActive) = true then
        [.add (trim c.name)] else [] := by
  have hrest := head?_framed_append (by decide : " ".toList.head? = some ' ') c.type.clause "" <|
    head?_framed_append (by decide : " DEFAULT ".toList.head? = some ' ') (c.default.getD "") "" <|
    head?_framed_append (by decide : " ".toList.head? = some ' ')
      ((c.encryption.map Model.Encryption.clause).getD "") "" <|
    head?_framed_append (by decide : " ".toList.head? = some ' ') c.constraints ""
      (by decide : ");".toList.head? ≠ some '"')
  cases hactive : c.active && tableActive with
  | false => simp [alterations, units, hactive]
  | true =>
    have hunits : (addColumn (qualified other otherSchema) tableActive c).units =
        live Form.addColumn [("name", qualified other otherSchema), ("column", c.line.text)] := by
      simp [units, live, hactive]
    simp only [and_true]
    exact alterations_alter (Alteration.clause?_add c.name hrest) hunits
      (by simp [Form.fill_addColumn, Column.line, Form.fill_columnDefinition])

theorem alterations_dropColumn (column : String) :
    (dropColumn (qualified other otherSchema) column).alterations (qualified name schema) =
      if qualified other otherSchema = qualified name schema then [.drop (trim column)] else [] :=
  alterations_alter
    (Alteration.clause?_drop column (by decide : [';'].head? ≠ some '"')) rfl
    (by simp [Form.fill_dropColumn])

theorem alterations_renameColumn (old new : String) :
    (renameColumn (qualified other otherSchema) old new).alterations (qualified name schema) =
      if qualified other otherSchema = qualified name schema then
        [.change (.rename (trim old) (trim new))] else [] :=
  alterations_alter
    (Alteration.clause?_rename old new (by decide : [';'].head? ≠ some '"')) rfl
    (by simp [Form.fill_renameColumn])

theorem alterations_modifyColumn (column type : String) :
    (modifyColumn (qualified other otherSchema) column type).alterations (qualified name schema) =
      if qualified other otherSchema = qualified name schema then
        [.change (.modify (trim column))] else [] := by
  have hrest := head?_framed_append (by decide : " ".toList.head? = some ' ') type ""
    (by decide : ");".toList.head? ≠ some '"')
  exact alterations_alter (Alteration.clause?_modify column hrest) rfl
    (by simp [Form.fill_modifyColumn])

variable {name other schema otherSchema}

/-- A step on another table makes no alteration. -/
theorem alterations_of_ne {s : Step} (h : s.existing? = some (qualified other otherSchema))
    (hne : qualified other otherSchema ≠ qualified name schema) :
    s.alterations (qualified name schema) = [] := by
  cases s <;> cases h
  case dropTable => exact alterations_dropTable _ _
  case addColumn => rw [alterations_addColumn, if_neg fun hp => hne hp.1]
  case dropColumn => rw [alterations_dropColumn, if_neg hne]
  case renameColumn => rw [alterations_renameColumn, if_neg hne]
  case modifyColumn => rw [alterations_modifyColumn, if_neg hne]

end

end Step

end SchemaDelta
