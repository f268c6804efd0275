import SchemaDelta.Sql.Form
import SchemaDelta.Sql.Name
import SchemaDelta.Text.Digits

/-!
# Statements of any kind

The end of a statement, the block around a statement that may find its object already there, and the
comment on an object.
-/

namespace SchemaDelta.Sql

open Text

/-- The error for an object whose name is already in use. -/
def nameInUse : Nat := 955

/-- The error for a user whose name is already in use. -/
def userNameInUse : Nat := 1920

/-- The trimmed statement without the semicolons at its end. -/
def bareStatement (s : String) : String :=
  String.ofList (dropEndWhile (· = ';') (trimChars s.toList))

/-- The statement with one semicolon at its end, or in a block that lets the error `code` pass. -/
def guarded (statement : String) (ifNotExist : Bool) (code : Nat) : String :=
  let s := bareStatement statement
  if ifNotExist then
    Form.ifNotExists.fill (.ofList
      [("statement", String.ofList (doubled '\'' s.toList)), ("errorCode", showNat code)])
  else s ++ ";"

/-- A comment on an object of the database. -/
def commentOn (object name text : String) : String :=
  Form.comment.fill (.ofList
    [("object", object), ("objectName", name), ("comment", literal text)])

end SchemaDelta.Sql
