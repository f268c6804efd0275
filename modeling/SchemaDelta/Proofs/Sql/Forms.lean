import Mathlib.Tactic.SplitIfs
import SchemaDelta.Sql.Form

/-!
# What the forms spell out

A filled form is its literal texts with the values between them. The text that frames an optional
value goes with it: `framed` is empty when the value is.
-/

namespace SchemaDelta.Sql

/-- The value between its framing texts, and nothing where there is no value. -/
def framed (before value after : String) : String :=
  if value = "" then "" else before ++ value ++ after

@[simp] theorem framed_empty (before after : String) : framed before "" after = "" := rfl

@[simp] theorem framed_plain (value : String) : framed "" value "" = value := by
  by_cases h : value = ""
  · simp [framed, h]
  · simp [framed, h]

theorem framed_of_ne {value : String} (h : value ≠ "") (before after : String) :
    framed before value after = before ++ value ++ after := if_neg h

/-- The value of a slot, and nothing where none was set. -/
def SlotValues.value (v : SlotValues) (name : String) : String :=
  (v.entries.lookup name).getD ""

@[simp] theorem SlotValues.value_ofList (entries : List (String × String)) (name : String) :
    (SlotValues.ofList entries).value name = (entries.reverse.lookup name).getD "" := by
  -- The newest value comes first, so the fold turns the list round.
  have h (v : SlotValues) : (entries.foldl (fun v e => v.set e.1 e.2) v).entries =
      entries.reverse ++ v.entries := by
    induction entries generalizing v with
    | nil => rfl
    | cons e entries ih => simp only [List.foldl_cons, ih]; simp [SlotValues.set]
  have h' : (SlotValues.ofList entries).entries = entries.reverse := by
    simpa [SlotValues.ofList] using h {}
  rw [SlotValues.value, h']

@[simp] theorem Piece.fill_text (v : SlotValues) (t : String) : Piece.fill v (.text t) = t := rfl

/-- A slot has a value unless the value is empty. -/
theorem SlotValues.get?_eq (v : SlotValues) (name : String) :
    v.get? name = if v.value name = "" then none else some (v.value name) := by
  unfold get? value
  cases v.entries.lookup name with
  | none => simp
  | some t => by_cases h : t = "" <;> simp [Option.filter, h]

@[simp] theorem Piece.fill_slot (v : SlotValues) (name before after : String) :
    Piece.fill v (.slot name before after) = framed before (v.value name) after := by
  rw [Piece.fill, v.get?_eq, framed]
  split_ifs <;> rfl

namespace Form

/-! ## The forms

Each equation gives a form with its values in the order of its slots. -/

theorem fill_createSchema (name : String) :
    createSchema.fill (.ofList [("schemaName", name)]) =
      "CREATE USER " ++ name ++ " NO AUTHENTICATION" := by
  simp [Template.fill, createSchema, slot, String.append_assoc]

theorem fill_comment (object name text : String) :
    comment.fill (.ofList [("object", object), ("objectName", name), ("comment", text)]) =
      "COMMENT ON " ++ object ++ " " ++ name ++ " IS " ++ text ++ ";" := by
  simp [Template.fill, comment, slot, List.lookup_cons, String.append_assoc]

theorem fill_createTable (kind name body options : String) :
    createTable.fill (.ofList [("tableType", kind), ("name", name), ("tableProps", body),
      ("options", options)]) =
      "CREATE" ++ framed " " kind "" ++ " TABLE " ++ name ++ framed "\n(\n\t" body "\n)" ++
        framed "\n" options "" := by
  simp [Template.fill, createTable, slot, List.lookup_cons, String.append_assoc]

theorem fill_columnDefinition (name type value encryption constraints : String) :
    columnDefinition.fill (.ofList [("name", name), ("type", type), ("default", value),
      ("encrypt", encryption), ("constraints", constraints)]) =
      name ++ framed " " type "" ++ framed " DEFAULT " value "" ++ framed " " encryption "" ++
        framed " " constraints "" := by
  simp [Template.fill, columnDefinition, slot, List.lookup_cons, String.append_assoc]

theorem fill_attributeDefinition (name type : String) :
    attributeDefinition.fill (.ofList [("name", name), ("type", type)]) =
      name ++ framed " " type "" := by
  simp [Template.fill, attributeDefinition, slot, List.lookup_cons]

theorem fill_keyConstraint (name kind columns options : String) :
    keyConstraint.fill (.ofList [("constraintName", name), ("keyType", kind),
      ("columns", columns), ("options", options)]) =
      framed "CONSTRAINT " name " " ++ kind ++ framed " " columns "" ++ framed " " options "" := by
  simp [Template.fill, keyConstraint, slot, List.lookup_cons, String.append_assoc]

theorem fill_checkConstraint (name text : String) :
    checkConstraint.fill (.ofList [("name", name), ("expression", text)]) =
      framed "CONSTRAINT " name " " ++ "CHECK (" ++ text ++ ")" := by
  simp [Template.fill, checkConstraint, slot, List.lookup_cons, String.append_assoc]

theorem fill_foreignKeyConstraint (name columns table referenced : String) :
    foreignKeyConstraint.fill (.ofList [("name", name), ("foreignKey", columns),
      ("primaryTable", table), ("primaryKey", referenced)]) =
      framed "CONSTRAINT " name " " ++ "FOREIGN KEY (" ++ columns ++ ") REFERENCES " ++ table ++
        " (" ++ referenced ++ ")" := by
  simp [Template.fill, foreignKeyConstraint, slot, List.lookup_cons, String.append_assoc]

theorem fill_createForeignKey (child name columns table referenced : String) :
    createForeignKey.fill (.ofList [("foreignTable", child), ("name", name),
      ("foreignKey", columns), ("primaryTable", table), ("primaryKey", referenced)]) =
      "ALTER TABLE " ++ child ++ " ADD" ++ framed " CONSTRAINT " name "" ++ " FOREIGN KEY (" ++
        columns ++ ") REFERENCES " ++ table ++ " (" ++ referenced ++ ");" := by
  simp [Template.fill, createForeignKey, slot, List.lookup_cons, String.append_assoc]

theorem fill_createIndex (kind name table columns options : String) :
    createIndex.fill (.ofList [("indexType", kind), ("name", name), ("tableName", table),
      ("keys", columns), ("options", options)]) =
      "CREATE" ++ framed " " kind "" ++ " INDEX " ++ name ++ " ON " ++ table ++ columns ++
        framed " " options "" ++ ";" := by
  simp [Template.fill, createIndex, slot, List.lookup_cons, String.append_assoc]

theorem fill_createView (replace force kind name text : String) :
    createView.fill (.ofList [("orReplace", replace), ("force", force), ("viewType", kind),
      ("name", name), ("selectStatement", text)]) =
      "CREATE" ++ framed " " replace "" ++ framed " " force "" ++ framed " " kind "" ++ " VIEW " ++
        name ++ "\n\tAS " ++ text := by
  simp [Template.fill, createView, slot, List.lookup_cons, String.append_assoc]

theorem fill_viewSelect (columns table : String) :
    viewSelect.fill (.ofList [("keys", columns), ("tableName", table)]) =
      "SELECT " ++ columns ++ framed "\n\tFROM " table "" := by
  simp [Template.fill, viewSelect, slot, List.lookup_cons, String.append_assoc]

theorem fill_createObjectType (name body : String) :
    createObjectType.fill (.ofList [("name", name), ("properties", body)]) =
      "CREATE OR REPLACE TYPE " ++ name ++ " AS OBJECT\n(\n\t" ++ body ++ "\n);" := by
  simp [Template.fill, createObjectType, slot, List.lookup_cons, String.append_assoc]

theorem fill_createCollectionType (name kind size type options : String) :
    createCollectionType.fill (.ofList [("name", name), ("collectionType", kind),
      ("size", size), ("datatype", type), ("notPersistable", options)]) =
      "CREATE OR REPLACE TYPE " ++ name ++ " IS " ++ kind ++ framed "(" size ")" ++ " OF (" ++
        type ++ ")" ++ framed " " options "" ++ ";" := by
  simp [Template.fill, createCollectionType, slot, List.lookup_cons, String.append_assoc]

theorem fill_ifNotExists (text code : String) :
    ifNotExists.fill (.ofList [("statement", text), ("errorCode", code)]) =
      "DECLARE\nBEGIN\n\tEXECUTE IMMEDIATE '" ++ text ++
        "';\n\tEXCEPTION WHEN OTHERS THEN\n\t\tIF SQLCODE = -" ++ code ++
        " THEN NULL; ELSE RAISE; END IF;\nEND;\n/" := by
  simp [Template.fill, ifNotExists, slot, List.lookup_cons, String.append_assoc]

theorem fill_dropUser (name : String) :
    dropUser.fill (.ofList [("name", name)]) =
      "DROP USER " ++ name ++ ";" := by
  simp [Template.fill, dropUser, slot, String.append_assoc]

theorem fill_dropTable (name : String) :
    dropTable.fill (.ofList [("name", name)]) =
      "DROP TABLE " ++ name ++ ";" := by
  simp [Template.fill, dropTable, slot, String.append_assoc]

theorem fill_addColumn (name column : String) :
    addColumn.fill (.ofList [("name", name), ("column", column)]) =
      "ALTER TABLE " ++ name ++ " ADD (" ++ column ++ ");" := by
  simp [Template.fill, addColumn, slot, List.lookup_cons, String.append_assoc]

theorem fill_dropColumn (name column : String) :
    dropColumn.fill (.ofList [("name", name), ("column", column)]) =
      "ALTER TABLE " ++ name ++ " DROP COLUMN " ++ column ++ ";" := by
  simp [Template.fill, dropColumn, slot, List.lookup_cons, String.append_assoc]

theorem fill_renameColumn (name old new : String) :
    renameColumn.fill (.ofList [("name", name), ("oldName", old), ("newName", new)]) =
      "ALTER TABLE " ++ name ++ " RENAME COLUMN " ++ old ++ " TO " ++ new ++ ";" := by
  simp [Template.fill, renameColumn, slot, List.lookup_cons, String.append_assoc]

theorem fill_modifyColumn (name column type : String) :
    modifyColumn.fill (.ofList [("name", name), ("column", column), ("type", type)]) =
      "ALTER TABLE " ++ name ++ " MODIFY (" ++ column ++ framed " " type "" ++ ");" := by
  simp [Template.fill, modifyColumn, slot, List.lookup_cons, String.append_assoc]

theorem fill_dropView (name : String) :
    dropView.fill (.ofList [("name", name)]) =
      "DROP VIEW " ++ name ++ ";" := by
  simp [Template.fill, dropView, slot, String.append_assoc]

theorem fill_dropType (name : String) :
    dropType.fill (.ofList [("name", name)]) =
      "DROP TYPE " ++ name ++ ";" := by
  simp [Template.fill, dropType, slot, String.append_assoc]

theorem fill_addAttribute (name column : String) :
    addAttribute.fill (.ofList [("name", name), ("attribute", column)]) =
      "ALTER TYPE " ++ name ++ " ADD ATTRIBUTE " ++ column ++ ";" := by
  simp [Template.fill, addAttribute, slot, List.lookup_cons, String.append_assoc]

theorem fill_dropAttribute (name column : String) :
    dropAttribute.fill (.ofList [("name", name), ("attribute", column)]) =
      "ALTER TYPE " ++ name ++ " DROP ATTRIBUTE " ++ column ++ ";" := by
  simp [Template.fill, dropAttribute, slot, List.lookup_cons, String.append_assoc]

theorem fill_modifyAttribute (name column type : String) :
    modifyAttribute.fill (.ofList [("name", name), ("attribute", column), ("type", type)]) =
      "ALTER TYPE " ++ name ++ " MODIFY ATTRIBUTE " ++ column ++ framed " " type "" ++ ";" := by
  simp [Template.fill, modifyAttribute, slot, List.lookup_cons, String.append_assoc]

end Form

end SchemaDelta.Sql
