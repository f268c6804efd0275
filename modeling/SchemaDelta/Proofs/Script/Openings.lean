import SchemaDelta.Proofs.Script.Sealed
import SchemaDelta.Proofs.Sql.Names

/-!
# How creations begin

The text that creates something begins with its verb, goes on with modifiers or with words of a
kind, and then with a noun and a quoted name. A statement is told from others by this beginning,
whatever follows the name.
-/

namespace SchemaDelta

open Sql Text

/-- The keyword, if it is set. -/
def Sql.flagged (on : Bool) (keyword : String) : List Char :=
  if on then keyword.toList else []

/-- The modifiers between the verb and the noun of a view, in their order. -/
def View.modifiers (v : View) : List Char :=
  flagged v.orReplace " OR REPLACE" ++ (flagged v.force " FORCE" ++
    (flagged v.editionable " EDITIONABLE" ++ flagged v.editioning " EDITIONING"))

/-- The text that creates a view, up to the word before its query. -/
theorem View.toList_createText (v : View) :
    v.createText.toList = ("CREATE".toList ++ (v.modifiers ++ (" VIEW ".toList ++
      (v.qualifiedName.toList ++ ['\n', '\t'])))) ++
        'A' :: ("S " ++ v.selectStatement.getD v.keyQuery).toList := by
  have hreplace : (framed " " (if v.orReplace then "OR REPLACE" else "") "").toList =
      flagged v.orReplace " OR REPLACE" := by
    cases v.orReplace <;> rfl
  have hforce : (framed " " (if v.force then "FORCE" else "") "").toList =
      flagged v.force " FORCE" := by
    cases v.force <;> rfl
  have hkind : (framed " " (join " " ((if v.editionable then ["EDITIONABLE"] else []) ++
      if v.editioning then ["EDITIONING"] else [])) "").toList =
      flagged v.editionable " EDITIONABLE" ++ flagged v.editioning " EDITIONING" := by
    cases v.editionable <;> cases v.editioning <;> decide
  rw [createText, Form.fill_createView]
  simp only [String.toList_append, hreplace, hforce, hkind, modifiers, List.append_assoc]
  rfl

/-- The statement that creates a type, up to its name. -/
theorem UserType.exists_toList_createText (t : UserType) :
    ∃ r : List Char, t.createText.toList = "CREATE".toList ++ (" OR REPLACE".toList ++
      (" TYPE ".toList ++ (t.qualifiedName.toList ++ ' ' :: (r ++ [';'])))) := by
  unfold createText
  cases t.body with
  | object attributes =>
    refine ⟨("AS OBJECT\n(\n\t" ++ composite (attributes.map Column.attributeLine) ",\n\t"
      t.active ++ "\n)").toList, ?_⟩
    simp [Form.fill_createObjectType]
  | collection c =>
    refine ⟨("IS " ++ c.kind.keyword ++ framed "(" c.sizeText ")" ++ " OF (" ++ c.elementText ++
      ")" ++ framed " " (if c.notPersistable then "NOT PERSISTABLE" else "") "").toList, ?_⟩
    simp [Form.fill_createCollectionType]

/-- The text that creates a table, up to its name. -/
theorem Table.exists_toList_createText (t : Table) :
    ∃ r : List Char, t.createText.toList = "CREATE".toList ++
      ((framed " " (t.kind.words?.getD "") "").toList ++
        (" TABLE ".toList ++ (t.qualifiedName.toList ++ r))) := by
  rw [createText, Form.fill_createTable]
  exact ⟨_, by simp; rfl⟩

/-- The statement that creates an index, up to its name. -/
theorem Index.exists_toList_statement (i : Index) (table : String) (schema : Option String)
    (parentActive : Bool) :
    ∃ (kind : String) (r : List Char), (i.statement table schema parentActive).text.toList =
      "CREATE".toList ++ ((framed " " kind "").toList ++
        (" INDEX ".toList ++ ((quote i.name).toList ++ (r ++ [';'])))) := by
  refine ⟨((i.indexType.bind trimmed?).map String.toUpper).getD "", (" ON " ++
    qualified table schema ++ i.keyBlock (i.active && parentActive) ++
      framed " " i.options "").toList, ?_⟩
  simp [statement, Form.fill_createIndex]

end SchemaDelta
