import SchemaDelta.Text.Blank

/-!
# Pieces of a text

A text is cut into paragraphs at blank lines and into lines at line feeds, and it is searched for a
fixed piece. All functions recurse on the list of characters: each cut is made at the leftmost
place, and cuts never overlap.
-/

namespace SchemaDelta.Text

/-- The character goes in front of the first piece. -/
def consPiece (c : Char) : List (List Char) → List (List Char)
  | [] => [[c]]
  | p :: ps => (c :: p) :: ps

/-- The pieces between pairs of line feeds, which are taken from the left. -/
def paragraphChars : List Char → List (List Char)
  | [] => [[]]
  | '\n' :: '\n' :: r => [] :: paragraphChars r
  | c :: r => consPiece c (paragraphChars r)

/-- The paragraphs of a text: the pieces between pairs of line feeds. -/
def paragraphs (s : String) : List String :=
  (paragraphChars s.toList).map String.ofList

/-- The pieces between line ends, which are a line feed or a carriage return and a line feed. A line
end at the end of the text starts no piece. -/
def lineChars : List Char → List (List Char)
  | [] => []
  | '\r' :: '\n' :: r => [] :: lineChars r
  | '\n' :: r => [] :: lineChars r
  | c :: r => consPiece c (lineChars r)

/-- The lines of a text, without their ends. -/
def lines (s : String) : List String :=
  (lineChars s.toList).map String.ofList

/-- `p` stands somewhere in the list of characters. -/
def containsChars (p : List Char) : List Char → Bool
  | [] => p.isEmpty
  | c :: r => p.isPrefixOf (c :: r) || containsChars p r

/-- `p` stands somewhere in the text. -/
def contains (p s : String) : Bool :=
  containsChars p.toList s.toList

/-- The text begins with `p`. -/
def startsWith (p s : String) : Bool :=
  p.toList.isPrefixOf s.toList

/-- The text ends with `p`. -/
def endsWith (p s : String) : Bool :=
  p.toList.isSuffixOf s.toList

/-- The parts in order, with `sep` between any two neighbours. -/
def join (sep : String) (parts : List String) : String :=
  sep.intercalate parts

@[simp] theorem toList_join (sep : String) (parts : List String) :
    (join sep parts).toList = sep.toList.intercalate (parts.map String.toList) := by
  simp [join, String.toList_intercalate]

theorem join_singleton (sep t : String) : join sep [t] = t :=
  String.intercalate_singleton

theorem join_cons_cons (sep t u : String) (ts : List String) :
    join sep (t :: u :: ts) = t ++ sep ++ join sep (u :: ts) :=
  String.intercalate_cons_cons

/-- A piece without a pair of line feeds is one paragraph. -/
theorem paragraphChars_of_not_contains {s : List Char}
    (h : containsChars ['\n', '\n'] s = false) : paragraphChars s = [s] := by
  fun_induction paragraphChars s with
  | case1 => rfl
  | case2 r => simp [containsChars, List.isPrefixOf] at h
  | case3 c r _ ih =>
    simp only [containsChars, Bool.or_eq_false_iff] at h
    rw [ih h.2, consPiece]

end SchemaDelta.Text
