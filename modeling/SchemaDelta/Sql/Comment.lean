/-!
# Comments

A block comment ends at the first end mark after its start, a line comment at the end of its line.
Comments are written in three styles, and `liveChars` reads a text without them.
-/

namespace SchemaDelta.Sql

/-! ## Writing -/

/-- The text as a comment: a line comment for one line, a block for several. -/
def commented (text : String) : String :=
  if text.toList.contains '\n' then "/*\n" ++ text ++ "\n*/" else "-- " ++ text

/-- The text as a comment that shares its line with live SQL. -/
def commentedInline (text : String) : String :=
  "/* " ++ text ++ " */"

/-! ## Reading -/

/-- Where a reader of SQL stands. -/
inductive CommentState where
  | live
  | line
  | block

/-- The characters that are in no comment. The line feed after a line comment is not part of it. -/
def charsFrom : CommentState → List Char → List Char
  | _, [] => []
  | .live, '-' :: '-' :: r => charsFrom .line r
  | .live, '/' :: '*' :: r => charsFrom .block r
  | .live, c :: r => c :: charsFrom .live r
  | .line, '\n' :: r => '\n' :: charsFrom .live r
  | .line, _ :: r => charsFrom .line r
  | .block, '*' :: '/' :: r => charsFrom .live r
  | .block, _ :: r => charsFrom .block r

/-- The text without its comments. -/
def liveChars (s : List Char) : List Char :=
  charsFrom .live s

end SchemaDelta.Sql
