import SchemaDelta.Text.Pieces

/-!
# The statements of a script

A script is cut at its blank lines. A piece is skipped when it is blank, when it is a comment, and
when it creates a user. What remains is run without its semicolons, or, when it is a block that ends
with a slash, without the slash.
-/

namespace SchemaDelta.Run

open Text

/-- The piece is one block comment, or each of its lines is blank or a line comment. -/
def isComment (unit : String) : Bool :=
  (startsWith "/*" unit && endsWith "*/" unit) ||
    (lines unit).all fun l => blank l || startsWith "--" (trim l)

/-- The first two words of the piece are `CREATE USER`. -/
def createsUser (unit : String) : Bool :=
  match words unit with
  | create :: user :: _ => create.toUpper == "CREATE" && user.toUpper == "USER"
  | _ => false

/-- The text without the semicolons at its two ends. -/
def stripSemicolons (s : List Char) : List Char :=
  dropEndWhile (· = ';') (s.dropWhile (· = ';'))

/-- The statement of a trimmed piece: what stands before a final slash, or the piece without its
semicolons. -/
def statementOf (unit : String) : String :=
  let s := unit.toList
  if s.getLast? = some '/' then trimEnd (String.ofList s.dropLast)
  else trim (String.ofList (stripSemicolons s))

/-- The statement of a piece, unless the piece is skipped. -/
def statement? (piece : String) : Option String :=
  let unit := trim piece
  if unit.isEmpty || isComment unit || createsUser unit then none else some (statementOf unit)

/-- The statements of a script, in order. -/
def split (script : String) : List String :=
  (paragraphs script).filterMap statement?

end SchemaDelta.Run
