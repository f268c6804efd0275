import SchemaDelta.Proofs.Sql.Marks

/-!
# The comments of a text

A reader that keeps comments: `parts` gives the characters of a text that are in no comment, and
between them its comments, each with what stands in it. `liveChars` reads the same text and forgets
the comments (`liveChars_eq_filterMap_parts`); `withoutBlocks` deletes those between block marks and
no other.
-/

namespace SchemaDelta.Sql

open Text

/-! ## Reading -/

/-- A character that is in no comment, or a comment with what stands in it. -/
inductive Part where
  | char (c : Char)
  | line (s : List Char)
  | block (s : List Char)
deriving DecidableEq

namespace Part

/-- The character, if it is one. -/
def char? : Part → Option Char
  | char c => some c
  | line _ | block _ => none

/-- What stands in the block comment, if it is one. -/
def block? : Part → Option (List Char)
  | block s => some s
  | char _ | line _ => none

/-- What is left of the part when block comments are deleted. -/
def kept : Part → List Char
  | char c => [c]
  | line s => '-' :: '-' :: s
  | block _ => []

end Part

/-- Where a reader stands that keeps comments. What has been read of one is kept in reverse. -/
inductive PartState where
  | live
  | line (front : List Char)
  | block (front : List Char)

/-- The state of a reader that forgets comments. -/
def PartState.comment : PartState → CommentState
  | live => .live
  | line _ => .line
  | block _ => .block

/-- The parts of the rest of a text. A comment without an end goes on to the end of the text. -/
def partsFrom : PartState → List Char → List Part
  | .live, [] => []
  | .live, '-' :: '-' :: r => partsFrom (.line []) r
  | .live, '/' :: '*' :: r => partsFrom (.block []) r
  | .live, c :: r => .char c :: partsFrom .live r
  | .line front, [] => [.line front.reverse]
  | .line front, '\n' :: r => .line front.reverse :: .char '\n' :: partsFrom .live r
  | .line front, c :: r => partsFrom (.line (c :: front)) r
  | .block front, [] => [.block front.reverse]
  | .block front, '*' :: '/' :: r => .block front.reverse :: partsFrom .live r
  | .block front, c :: r => partsFrom (.block (c :: front)) r

/-- The characters of a text that are in no comment, and its comments. -/
def parts (s : List Char) : List Part :=
  partsFrom .live s

/-- The text without its block comments. -/
def withoutBlocks (text : String) : String :=
  String.ofList ((parts text.toList).flatMap Part.kept)

/-- What stands in each block comment. -/
def blocks (text : String) : List String :=
  ((parts text.toList).filterMap Part.block?).map String.ofList

/-! ## Reading piece by piece -/

variable {x y : List Char} {c : Char}

/-- Both readers go the same way. -/
theorem charsFrom_eq_filterMap_partsFrom (p : PartState) (s : List Char) :
    charsFrom p.comment s = (partsFrom p s).filterMap Part.char? := by
  fun_induction partsFrom p s with
  | case1 | case5 | case8 => rfl
  | case2 r ih | case3 r ih | case9 front r ih => exact ih
  | case6 front r ih => exact congrArg ('\n' :: ·) ih
  -- The character begins no mark, so both readers take it alone.
  | case4 c r hdash hslash ih =>
    rw [PartState.comment, charsFrom]
    · exact congrArg (c :: ·) ih
    · exact hdash
    · exact hslash
  | case7 front c r hline ih =>
    rw [PartState.comment, charsFrom]
    · exact ih
    · exact hline
  | case10 front c r hblock ih =>
    rw [PartState.comment, charsFrom]
    · exact ih
    · exact hblock

/-- What is live is what is left of the parts without the comments. -/
theorem liveChars_eq_filterMap_parts (s : List Char) :
    liveChars s = (parts s).filterMap Part.char? :=
  charsFrom_eq_filterMap_partsFrom .live s

/-- A character that begins no comment is a part of its own. -/
theorem parts_cons {r : List Char} (hslash : c = '/' → r.head? ≠ some '*')
    (hdash : c = '-' → r.head? ≠ some '-') : parts (c :: r) = .char c :: parts r := by
  rw [parts, partsFrom, parts]
  · rintro r' rfl rfl
    exact hdash rfl rfl
  · rintro r' rfl rfl
    exact hslash rfl rfl

/-- A text in which no comment begins, nor at its seam with what follows, is read character by
character. -/
theorem parts_append_of_seam (hslash : ¬['/', '*'] <:+: x) (hdash : ¬['-', '-'] <:+: x)
    (hseam : x.getLast? = some '/' → y.head? ≠ some '*')
    (hseam' : x.getLast? = some '-' → y.head? ≠ some '-') :
    parts (x ++ y) = x.map Part.char ++ parts y := by
  induction x with
  | nil => rfl
  | cons c r ih =>
    rw [List.cons_append, parts_cons (head?_append_ne_of_cons hslash hseam)
      (head?_append_ne_of_cons hdash hseam'), ih (not_pair_infix_tail hslash)
      (not_pair_infix_tail hdash) (fun h => hseam (List.mem_getLast?_cons h))
      fun h => hseam' (List.mem_getLast?_cons h), List.map_cons, List.cons_append]

/-- A text without comment marks is read so, unless a comment begins at its end. -/
theorem parts_append (hx : CommentFree x) (hstar : y.head? ≠ some '*')
    (hdash : y.head? ≠ some '-') : parts (x ++ y) = x.map Part.char ++ parts y :=
  parts_append_of_seam hx.1.1 hx.2 (fun _ => hstar) fun _ => hdash

/-- So is a text without slashes and dashes, whatever follows. -/
theorem parts_append_of_not_mem (hslash : '/' ∉ x) (hdash : '-' ∉ x) :
    parts (x ++ y) = x.map Part.char ++ parts y :=
  parts_append_of_seam (not_pair_infix_of_left hslash) (not_pair_infix_of_left hdash)
    (fun h => absurd (List.mem_of_getLast? h) hslash)
    fun h => absurd (List.mem_of_getLast? h) hdash

/-- Between two characters that are in no mark a text without end marks ends no comment. -/
theorem not_endMark_padded (hstar : c ≠ '*') (hslash : c ≠ '/') (hx : ¬['*', '/'] <:+: x) :
    ¬['*', '/'] <:+: c :: x ++ [c] ∧ (c :: x ++ [c]).getLast? ≠ some '*' := by
  have hstar' : '*' ∉ [c] := by simpa using hstar.symm
  have hslash' : '/' ∉ [c] := by simpa using hslash.symm
  refine ⟨not_pair_infix_after (not_pair_infix_before (x := [c]) hstar' hx) hstar' hslash', ?_⟩
  rw [List.getLast?_append]
  simpa using hstar

/-- A block comment goes on to the first end mark. -/
theorem partsFrom_block (hx : ¬['*', '/'] <:+: x) (hlast : x.getLast? ≠ some '*')
    (front : List Char) :
    partsFrom (.block front) (x ++ '*' :: '/' :: y) = .block (front.reverse ++ x) :: parts y := by
  -- Each step puts a character in front of what has been read in reverse.
  induction x generalizing front with
  | nil => simp [partsFrom, parts]
  | cons c r ih =>
    have hkeep : (c :: front).reverse ++ r = front.reverse ++ c :: r := by simp
    have hr : r.getLast? ≠ some '*' := fun h => hlast (List.mem_getLast?_cons h)
    rw [List.cons_append, partsFrom, ih (not_pair_infix_tail hx) hr, hkeep]
    rintro r' rfl he
    exact head?_append_ne_of_cons hx (fun h => absurd h hlast) rfl (by rw [he]; rfl)

/-- A comment in its line is one part, if its text has no end mark. -/
theorem parts_commentedInline {t : String} (ht : ¬['*', '/'] <:+: t.toList) (y : List Char) :
    parts ((commentedInline t).toList ++ y) = .block (' ' :: t.toList ++ [' ']) :: parts y := by
  obtain ⟨hinner, hlast⟩ := not_endMark_padded (c := ' ') (by decide) (by decide) ht
  calc parts ((commentedInline t).toList ++ y)
      = partsFrom (.block []) (' ' :: t.toList ++ [' '] ++ '*' :: '/' :: y) := by
        simp [commentedInline, parts, partsFrom]
    _ = .block (' ' :: t.toList ++ [' ']) :: parts y := partsFrom_block hinner hlast []

/-! ## Texts without comments -/

@[simp] theorem filterMap_char?_chars (x : List Char) :
    (x.map Part.char).filterMap Part.char? = x := by
  simp [List.filterMap_map, Function.comp_def, Part.char?]

@[simp] theorem filterMap_block?_chars (x : List Char) :
    (x.map Part.char).filterMap Part.block? = [] := by
  simp [List.filterMap_map, Function.comp_def, Part.block?]

@[simp] theorem flatMap_kept_chars (x : List Char) : (x.map Part.char).flatMap Part.kept = x := by
  simp [List.flatMap_map, Part.kept]

end SchemaDelta.Sql
