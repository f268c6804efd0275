import SchemaDelta.Proofs.Sql.Live
import SchemaDelta.View.Clause

/-!
# Texts that are one comment

A reader leaves a block comment at the first end mark and reads the rest as SQL. So a text that is
commented out is one comment from its first character to its last where it has no end mark of its
own, or where it is one line and its comment a line comment (`oneComment_iff`). An end mark in a text
of several lines, such as that of an optimizer hint, lets all that stands behind it become live.
-/

namespace SchemaDelta.Sql

open Text

/-! ## Reading one comment -/

/-- What stands behind the first end mark. -/
def afterBlock? : List Char → Option (List Char)
  | [] => none
  | '*' :: '/' :: r => some r
  | _ :: r => afterBlock? r

/-- What stands behind the comment at the beginning of a text: behind the end mark of a block, or
from the end of the line on. -/
def afterComment? : List Char → Option (List Char)
  | '/' :: '*' :: r => afterBlock? r
  | '-' :: '-' :: r => some (r.dropWhile (· ≠ '\n'))
  | _ => none

/-- The text is one comment and nothing else. -/
def OneComment (s : List Char) : Prop :=
  afterComment? s = some []

instance (s : List Char) : Decidable (OneComment s) :=
  inferInstanceAs (Decidable (_ = _))

variable {s r : List Char} {c : Char}

/-- A character that begins no end mark is passed over. -/
theorem afterBlock?_cons (h : ¬['*', '/'] <+: c :: r) : afterBlock? (c :: r) = afterBlock? r := by
  rw [afterBlock?]
  rintro t rfl rfl
  exact h ⟨t, rfl⟩

/-- There is nothing to leave where no end mark stands. -/
theorem afterBlock?_eq_none_iff : afterBlock? s = none ↔ ¬['*', '/'] <:+: s := by
  fun_induction afterBlock? s with
  | case1 => simp
  | case2 r =>
    have hmark : ['*', '/'] <:+: '*' :: '/' :: r := List.IsPrefix.isInfix ⟨r, rfl⟩
    exact iff_of_false (by simp) fun h => h hmark
  | case3 c r hmark ih =>
    have hpre : ¬['*', '/'] <+: c :: r := by
      rintro ⟨t, ht⟩
      obtain ⟨rfl, rfl⟩ := List.cons.inj ht
      exact hmark t rfl rfl
    rw [ih, List.infix_cons_iff, not_or, and_iff_right hpre]

/-- The first end mark stays the first one when the text goes on. -/
theorem afterBlock?_append (h : afterBlock? s = some r) (t : List Char) :
    afterBlock? (s ++ t) = some (r ++ t) := by
  fun_induction afterBlock? s with
  | case1 => cases h
  | case2 u =>
    obtain rfl := Option.some.inj h
    rfl
  | case3 c u hmark ih =>
    -- What is left of the text is not empty, so a mark that begins with `c` would end in it.
    have hpre : ¬['*', '/'] <+: c :: (u ++ t) := by
      rintro ⟨z, hz⟩
      obtain ⟨rfl, hu⟩ := List.cons.inj hz
      cases u with
      | nil => cases h
      | cons d u =>
        obtain rfl : '/' = d := (List.cons.inj hu).1
        exact hmark u rfl rfl
    rw [List.cons_append, afterBlock?_cons hpre, ih h]

/-- A comment is left behind the first end mark of its text, if there is one there. -/
theorem afterBlock?_enclosed (hstar : c ≠ '*') (hslash : c ≠ '/') (s : List Char) :
    afterBlock? (c :: s ++ [c, '*', '/']) =
      some ((afterBlock? s).elim [] (· ++ [c, '*', '/'])) := by
  have hsplit : c :: s ++ [c, '*', '/'] = c :: s ++ [c] ++ '*' :: '/' :: [] := by simp
  rw [hsplit]
  cases hs : afterBlock? s with
  | some r =>
    have hfirst : ¬['*', '/'] <+: c :: (s ++ [c, '*', '/']) := fun h =>
      hstar (List.cons_prefix_cons.1 h).1.symm
    rw [← hsplit, List.cons_append, afterBlock?_cons hfirst]
    exact afterBlock?_append hs _
  | none =>
    exact skip_comment (fun _ _ => afterBlock?_cons) hstar hslash (afterBlock?_eq_none_iff.1 hs) []

/-! ## What is live behind a comment -/

theorem charsFrom_block_of_afterBlock? (h : afterBlock? s = some r) :
    charsFrom .block s = liveChars r := by
  fun_induction afterBlock? s with
  | case1 => cases h
  | case2 t =>
    obtain rfl := Option.some.inj h
    rfl
  | case3 c t hmark ih =>
    have hpre : ¬['*', '/'] <+: c :: t := by
      rintro ⟨z, hz⟩
      obtain ⟨rfl, htail⟩ := List.cons.inj hz
      exact hmark z rfl htail.symm
    rw [charsFrom_block_cons hpre, ih h]

/-- Behind a line comment the text is read from the end of the line on. -/
theorem charsFrom_line_eq (s : List Char) :
    charsFrom .line s = liveChars (s.dropWhile (· ≠ '\n')) := by
  induction s with
  | nil => rfl
  | cons c s ih =>
    by_cases hc : c = '\n'
    · subst hc
      rfl
    · rw [charsFrom, ih, List.dropWhile_cons_of_pos (by simpa using hc)]
      exact hc

/-- Behind a comment the rest of the text is read. -/
theorem liveChars_of_afterComment? (h : afterComment? s = some r) : liveChars s = liveChars r := by
  unfold afterComment? at h
  split at h
  · exact charsFrom_block_of_afterBlock? h
  · obtain rfl := Option.some.inj h
    exact charsFrom_line_eq _
  · cases h

/-! ## Texts that are commented out -/

/-- A comment in its line is left behind the first end mark of its text. -/
theorem afterComment?_commentedInline (text : String) :
    afterComment? (commentedInline text).toList =
      some ((afterBlock? text.toList).elim [] (· ++ [' ', '*', '/'])) := by
  have hchars : (commentedInline text).toList =
      '/' :: '*' :: (' ' :: text.toList ++ [' ', '*', '/']) := by
    simp [commentedInline]
  rw [hchars, afterComment?, afterBlock?_enclosed (by decide) (by decide)]

/-- So is one of several lines; one of a single line goes up to its end. -/
theorem afterComment?_commented (text : String) :
    afterComment? (commented text).toList =
      some (if '\n' ∈ text.toList then
        (afterBlock? text.toList).elim [] (· ++ ['\n', '*', '/']) else []) := by
  unfold commented
  by_cases hline : '\n' ∈ text.toList
  · have hchars : ("/*\n" ++ text ++ "\n*/").toList =
        '/' :: '*' :: ('\n' :: text.toList ++ ['\n', '*', '/']) := by
      simp
    rw [if_pos (by simpa using hline), if_pos hline, hchars, afterComment?,
      afterBlock?_enclosed (by decide) (by decide)]
  · have hchars : ("-- " ++ text).toList = '-' :: '-' :: (' ' :: text.toList) := by simp
    have hall : ∀ c ∈ ' ' :: text.toList, decide (c ≠ '\n') = true := by
      intro c hc
      rw [decide_eq_true_eq]
      rintro rfl
      exact hline (by simpa using hc)
    rw [if_neg (by simpa using hline), if_neg hline, hchars, afterComment?,
      List.dropWhile_eq_nil_iff.2 hall]

/-- The rest of a comment is empty only where there is nothing to leave. -/
theorem elim_append_eq_nil_iff (text : String) {t : List Char} (ht : t ≠ []) :
    (afterBlock? text.toList).elim [] (· ++ t) = [] ↔ ¬['*', '/'] <:+: text.toList := by
  rw [← afterBlock?_eq_none_iff]
  cases afterBlock? text.toList with
  | none => simp
  | some r => simp [ht]

/-- **Which texts are one comment when they are commented out**: those without an end mark, and in
the style of a line also those of one line. In any other comment all that stands behind the first
end mark of the text is read as SQL, with the end mark of the comment. -/
theorem oneComment_iff (text : String) :
    ((OneComment (commentedInline text).toList ↔ ¬['*', '/'] <:+: text.toList) ∧
      (OneComment (commented text).toList ↔
        '\n' ∉ text.toList ∨ ¬['*', '/'] <:+: text.toList)) ∧
      liveChars (commentedInline text).toList =
        (afterBlock? text.toList).elim [] (fun r => liveChars (r ++ [' ', '*', '/'])) ∧
      liveChars (commented text).toList =
        if '\n' ∈ text.toList then
          (afterBlock? text.toList).elim [] (fun r => liveChars (r ++ ['\n', '*', '/']))
        else [] := by
  have hlive (t : List Char) : liveChars ((afterBlock? text.toList).elim [] (· ++ t)) =
      (afterBlock? text.toList).elim [] fun r => liveChars (r ++ t) := by
    cases afterBlock? text.toList <;> rfl
  refine ⟨⟨?_, ?_⟩, ?_, ?_⟩
  · rw [OneComment, afterComment?_commentedInline, Option.some_inj,
      elim_append_eq_nil_iff text (by simp)]
  · rw [OneComment, afterComment?_commented, Option.some_inj]
    by_cases hline : '\n' ∈ text.toList
    · rw [if_pos hline, elim_append_eq_nil_iff text (by simp), or_iff_right (not_not_intro hline)]
    · rw [if_neg hline]
      exact iff_of_true rfl (.inl hline)
  · rw [liveChars_of_afterComment? (afterComment?_commentedInline text), hlive]
  · rw [liveChars_of_afterComment? (afterComment?_commented text)]
    split_ifs
    · exact hlive _
    · rfl

end SchemaDelta.Sql

namespace SchemaDelta

open Sql

/-- A deactivated view whose query holds an optimizer hint. -/
def View.hinted : View where
  name := "v"
  selectStatement := some "SELECT /*+ FULL(t) */ a FROM t"
  active := false

/-- The statement that creates the view. -/
def View.hintedText : String :=
  "CREATE VIEW \"v\"\n\tAS SELECT /*+ FULL(t) */ a FROM t;"

/-- The comment around a hint ends with the hint, and the rest of the query is live. -/
theorem View.not_oneComment_hinted :
    hinted.createUnits.map Fragment.write = [commented hintedText] ∧
      ¬OneComment (commented hintedText).toList ∧
      String.ofList (liveChars (commented hintedText).toList) = " a FROM t;\n*/" := by
  decide +kernel

end SchemaDelta
