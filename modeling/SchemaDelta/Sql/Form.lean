import SchemaDelta.Sql.Template

/-!
# Statement forms

The templates of all clauses and statements that a script can hold, each under its name.
-/

namespace SchemaDelta.Sql.Form

/-- A slot without framing texts. -/
def slot (name : String) : Piece := .slot name "" ""

/-- The creation of a user. -/
def createSchema : Template where
  name := "createSchema"
  segments := [.text "CREATE USER ", slot "schemaName", .text " NO AUTHENTICATION"]

/-- A comment on an object of the database. -/
def comment : Template where
  name := "comment"
  segments := [.text "COMMENT ON ", slot "object", .text " ", slot "objectName", .text " IS ",
    slot "comment", .text ";"]

/-- The creation of a table. -/
def createTable : Template where
  name := "createTable"
  segments := [.text "CREATE", .slot "tableType" " " "", .text " TABLE ", slot "name",
    .slot "tableProps" "\n(\n\t" "\n)", .slot "options" "\n" ""]

/-- A column of a table. -/
def columnDefinition : Template where
  name := "columnDefinition"
  segments := [slot "name", .slot "type" " " "", .slot "default" " DEFAULT " "",
    .slot "encrypt" " " "", .slot "constraints" " " ""]

/-- An attribute of an object type. -/
def attributeDefinition : Template where
  name := "objectTypeColumnDefinition"
  segments := [slot "name", .slot "type" " " ""]

/-- A primary key or unique constraint. -/
def keyConstraint : Template where
  name := "createKeyConstraint"
  segments := [.slot "constraintName" "CONSTRAINT " " ", slot "keyType", .slot "columns" " " "",
    .slot "options" " " ""]

/-- A foreign key constraint inside the body of a table. -/
def foreignKeyConstraint : Template where
  name := "createForeignKeyConstraint"
  segments := [.slot "name" "CONSTRAINT " " ", .text "FOREIGN KEY (", slot "foreignKey",
    .text ") REFERENCES ", slot "primaryTable", .text " (", slot "primaryKey", .text ")"]

/-- A check constraint. -/
def checkConstraint : Template where
  name := "checkConstraint"
  segments := [.slot "name" "CONSTRAINT " " ", .text "CHECK (", slot "expression", .text ")"]

/-- A foreign key as a statement of its own. -/
def createForeignKey : Template where
  name := "createForeignKey"
  segments := [.text "ALTER TABLE ", slot "foreignTable", .text " ADD",
    .slot "name" " CONSTRAINT " "", .text " FOREIGN KEY (", slot "foreignKey",
    .text ") REFERENCES ", slot "primaryTable", .text " (", slot "primaryKey", .text ");"]

/-- The creation of an index. -/
def createIndex : Template where
  name := "createIndex"
  segments := [.text "CREATE", .slot "indexType" " " "", .text " INDEX ", slot "name",
    .text " ON ", slot "tableName", slot "keys", .slot "options" " " "", .text ";"]

/-- The creation of a view. -/
def createView : Template where
  name := "createView"
  segments := [.text "CREATE", .slot "orReplace" " " "", .slot "force" " " "",
    .slot "viewType" " " "", .text " VIEW ", slot "name", .text "\n\tAS ", slot "selectStatement"]

/-- The query of a view that is given by its keys. -/
def viewSelect : Template where
  name := "viewSelectStatement"
  segments := [.text "SELECT ", slot "keys", .slot "tableName" "\n\tFROM " ""]

/-- The creation of an object type. -/
def createObjectType : Template where
  name := "createObjectType"
  segments := [.text "CREATE OR REPLACE TYPE ", slot "name", .text " AS OBJECT\n(\n\t",
    slot "properties", .text "\n);"]

/-- The creation of a collection type. -/
def createCollectionType : Template where
  name := "createCollectionType"
  segments := [.text "CREATE OR REPLACE TYPE ", slot "name", .text " IS ", slot "collectionType",
    .slot "size" "(" ")", .text " OF (", slot "datatype", .text ")",
    .slot "notPersistable" " " "", .text ";"]

/-- A block that runs a statement and lets one error pass. -/
def ifNotExists : Template where
  name := "ifNotExists"
  segments := [.text "DECLARE\nBEGIN\n\tEXECUTE IMMEDIATE '", slot "statement",
    .text "';\n\tEXCEPTION WHEN OTHERS THEN\n\t\tIF SQLCODE = -", slot "errorCode",
    .text " THEN NULL; ELSE RAISE; END IF;\nEND;\n/"]

/-- The removal of a user. -/
def dropUser : Template where
  name := "dropUser"
  segments := [.text "DROP USER ", slot "name", .text ";"]

/-- The removal of a table. -/
def dropTable : Template where
  name := "dropTable"
  segments := [.text "DROP TABLE ", slot "name", .text ";"]

/-- The addition of a column. -/
def addColumn : Template where
  name := "addColumn"
  segments := [.text "ALTER TABLE ", slot "name", .text " ADD (", slot "column", .text ");"]

/-- The removal of a column. -/
def dropColumn : Template where
  name := "dropColumn"
  segments := [.text "ALTER TABLE ", slot "name", .text " DROP COLUMN ", slot "column", .text ";"]

/-- The renaming of a column. -/
def renameColumn : Template where
  name := "renameColumn"
  segments := [.text "ALTER TABLE ", slot "name", .text " RENAME COLUMN ", slot "oldName",
    .text " TO ", slot "newName", .text ";"]

/-- The change of a column's type. -/
def modifyColumn : Template where
  name := "modifyColumn"
  segments := [.text "ALTER TABLE ", slot "name", .text " MODIFY (", slot "column",
    .slot "type" " " "", .text ");"]

/-- The removal of a view. -/
def dropView : Template where
  name := "dropView"
  segments := [.text "DROP VIEW ", slot "name", .text ";"]

/-- The removal of a type. -/
def dropType : Template where
  name := "dropType"
  segments := [.text "DROP TYPE ", slot "name", .text ";"]

/-- The addition of an attribute. -/
def addAttribute : Template where
  name := "addAttribute"
  segments := [.text "ALTER TYPE ", slot "name", .text " ADD ATTRIBUTE ", slot "attribute",
    .text ";"]

/-- The removal of an attribute. -/
def dropAttribute : Template where
  name := "dropAttribute"
  segments := [.text "ALTER TYPE ", slot "name", .text " DROP ATTRIBUTE ", slot "attribute",
    .text ";"]

/-- The change of an attribute's type. -/
def modifyAttribute : Template where
  name := "modifyAttribute"
  segments := [.text "ALTER TYPE ", slot "name", .text " MODIFY ATTRIBUTE ", slot "attribute",
    .slot "type" " " "", .text ";"]

/-- All forms. -/
def all : List Template :=
  [createSchema, comment, createTable, columnDefinition, attributeDefinition, keyConstraint,
    foreignKeyConstraint, checkConstraint, createForeignKey, createIndex, createView, viewSelect,
    createObjectType, createCollectionType, ifNotExists, dropUser, dropTable, addColumn, dropColumn,
    renameColumn, modifyColumn, dropView, dropType, addAttribute, dropAttribute, modifyAttribute]

/-- The form with the given name. -/
def find? (name : String) : Option Template :=
  all.find? fun t => t.name = name

end SchemaDelta.Sql.Form
