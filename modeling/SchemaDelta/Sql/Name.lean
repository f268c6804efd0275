import SchemaDelta.Text.Blank

/-!
# Names and literals

Identifiers are trimmed and written in double quotes, string literals in single quotes as they are;
inside, the quote is written twice. Reading takes two quotes for one, and a single one for the end:
`readBody?_doubled` says that what was written is read back, up to the end and no further.
-/

namespace SchemaDelta.Sql

open Text

/-! ## Writing -/

/-- Every `q` is written twice. -/
def doubled (q : Char) (s : List Char) : List Char :=
  s.flatMap fun c => if c = q then [q, q] else [c]

/-- The text between two `q`, with every `q` inside written twice. -/
def enclosed (q : Char) (s : List Char) : String :=
  String.ofList (q :: doubled q s ++ [q])

/-- An identifier in double quotes. -/
def quote (name : String) : String :=
  enclosed '"' (trimChars name.toList)

/-- An identifier with its schema before it, unless the schema is missing or blank. -/
def qualified (name : String) (schema : Option String) : String :=
  match schema.filter fun s => !blank s with
  | some s => quote s ++ "." ++ quote name
  | none => quote name

/-- A string literal. -/
def literal (text : String) : String :=
  enclosed '\'' text.toList

/-! ## Reading -/

/-- What stands before the `q` that ends a text, with two `q` read as one, and what follows it. -/
def readBody? (q : Char) : List Char → Option (List Char × List Char)
  | [] => none
  | [c] => if c = q then some ([], []) else none
  | c :: d :: r =>
    if c = q then
      if d = q then (readBody? q r).map fun p => (q :: p.1, p.2) else some ([], d :: r)
    else (readBody? q (d :: r)).map fun p => (c :: p.1, p.2)

/-- The text between two `q` at the beginning, and what follows it. -/
def readEnclosed? (q : Char) : List Char → Option (List Char × List Char)
  | c :: r => if c = q then readBody? q r else none
  | [] => none

/-- Quoted identifiers with dots between them, and what follows them. At most `n` are read. -/
def readDotted? : Nat → List Char → Option (List (List Char) × List Char)
  | 0, _ => none
  | n + 1, s =>
    match readEnclosed? '"' s with
    | some (name, '.' :: r) => (readDotted? n r).map fun p => (name :: p.1, p.2)
    | some (name, r) => some ([name], r)
    | none => none

/-! ## What is written is read back -/

@[simp] theorem toList_enclosed (q : Char) (s : List Char) :
    (enclosed q s).toList = q :: doubled q s ++ [q] := by
  simp [enclosed]

@[simp] theorem doubled_nil (q : Char) : doubled q [] = [] := rfl

theorem doubled_cons (q c : Char) (s : List Char) :
    doubled q (c :: s) = (if c = q then [q, q] else [c]) ++ doubled q s := rfl

/-- Other characters than the quote at the end stop the reading of a body. -/
theorem readBody?_end {q : Char} {rest : List Char} (h : rest.head? ≠ some q) :
    readBody? q (q :: rest) = some ([], rest) := by
  cases rest with
  | nil => simp [readBody?]
  | cons d r =>
    have hd : d ≠ q := by simpa using h
    simp [readBody?, hd]

/-- A character that is not the quote stands for itself. -/
theorem readBody?_cons {q c : Char} (h : c ≠ q) (s : List Char) :
    readBody? q (c :: s) = (readBody? q s).map fun p => (c :: p.1, p.2) := by
  cases s with
  | nil => simp [readBody?, h]
  | cons d r => simp [readBody?, h]

/-- A body is read back up to the quote after it. -/
theorem readBody?_doubled (q : Char) (s : List Char) {rest : List Char}
    (h : rest.head? ≠ some q) : readBody? q (doubled q s ++ q :: rest) = some (s, rest) := by
  induction s with
  | nil => simpa using readBody?_end h
  | cons c s ih =>
    by_cases hc : c = q
    · subst hc
      simp [doubled_cons, readBody?, ih]
    · simp [doubled_cons, hc, readBody?_cons hc, ih]

end SchemaDelta.Sql
