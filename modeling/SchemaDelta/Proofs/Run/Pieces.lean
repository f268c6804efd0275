import SchemaDelta.Proofs.Sql.Sealed
import SchemaDelta.Proofs.Text.Lines
import SchemaDelta.Proofs.Text.Paragraphs
import SchemaDelta.Run.Split

/-!
# The pieces of a script

What the splitter makes of a single piece: a sealed statement is run unless it creates a user, and a
comment without a blank line is skipped. A script whose parts do not end with a line feed is split
part by part.
-/

namespace SchemaDelta.Run

open Text Sql

/-! ## Comments among the pieces -/

theorem startsWith_iff {p s : String} : startsWith p s = true ↔ p.toList <+: s.toList :=
  List.isPrefixOf_iff_prefix

theorem endsWith_iff {p s : String} : endsWith p s = true ↔ p.toList <:+ s.toList :=
  List.isSuffixOf_iff_suffix

/-- A piece with a live line is a comment only as one block. -/
theorem isComment_of_live_line {unit l : String} (hl : l ∈ lines unit) (hb : blank l = false)
    (hd : startsWith "--" (trim l) = false) :
    isComment unit = (startsWith "/*" unit && endsWith "*/" unit) := by
  have hall : ((lines unit).all fun l => blank l || startsWith "--" (trim l)) = false := by
    rw [List.all_eq_false]
    exact ⟨l, hl, by simp [hb, hd]⟩
  rw [isComment, hall, Bool.or_false]

/-- A piece that begins with a capital letter is no comment. -/
theorem isComment_of_capital {unit : String} (h : Capital unit) : isComment unit = false := by
  obtain ⟨c, r, hs, hc⟩ := h
  have hne {d : Char} (hd : d.isUpper = false) : c ≠ d := by
    rintro rfl
    exact absurd hc (by simp [hd])
  -- The first line is live, so only a block could make the piece a comment.
  obtain ⟨l, ls, hl⟩ := lineChars_head (s := r) (hne (by decide : '\n'.isUpper = false))
    (hne (by decide : '\r'.isUpper = false))
  have hmem : String.ofList (c :: l) ∈ lines unit := by simp [lines, hs, hl]
  have hb : isBlank c = false := isBlank_of_isUpper hc
  rw [isComment_of_live_line hmem]
  · have hslash : ¬"/*".toList <+: unit.toList := by
      rw [hs]
      intro hp
      exact hne (by decide : '/'.isUpper = false) (List.cons_prefix_cons.1 hp).1.symm
    rw [← startsWith_iff, Bool.not_eq_true] at hslash
    rw [hslash, Bool.false_and]
  · simp [blank, hb]
  · rw [Bool.eq_false_iff, Ne, startsWith_iff]
    simp only [toList_trim, String.toList_ofList, trimChars_cons _ hb, dropEndWhile_cons _ hb]
    intro hp
    exact hne (by decide : '-'.isUpper = false) (List.cons_prefix_cons.1 hp).1.symm

/-! ## Sealed statements -/

/-- A sealed piece is run unless it creates a user. -/
theorem statement?_of_sealed {t : String} (h : Sealed t) :
    statement? t = if createsUser t then none else some (statementOf t) := by
  have htrim : trim t = t := by rw [trim, h.trimChars_eq, String.ofList_toList]
  have hne : t.isEmpty = false := by
    obtain ⟨c, r, hs, -⟩ := h.capital
    rw [String.isEmpty_eq_false_iff]
    rintro rfl
    simp at hs
  simp [statement?, htrim, hne, isComment_of_capital h.capital]

/-- A statement that does not end with a slash loses semicolons and then blank characters at its
end. -/
theorem toList_statementOf {t : String} (h : Capital t) (hslash : t.toList.getLast? ≠ some '/') :
    (statementOf t).toList = dropEndWhile isBlank (dropEndWhile (· = ';') t.toList) := by
  obtain ⟨c, r, hs, hc⟩ := h
  have hsemi : decide (c = ';') = false := by
    rw [decide_eq_false_iff_not]
    rintro rfl
    exact absurd hc (by decide)
  have hstrip : stripSemicolons t.toList = dropEndWhile (· = ';') t.toList := by
    rw [stripSemicolons, hs, List.dropWhile_cons_of_neg (by simp [hsemi])]
  simp only [statementOf]
  rw [if_neg hslash, toList_trim, String.toList_ofList, hstrip, hs, dropEndWhile_cons _ hsemi,
    trimChars_cons _ (isBlank_of_isUpper hc)]

/-- A statement that ends with a semicolon keeps all up to a character that is neither blank nor a
semicolon. -/
theorem exists_statementOf_cons {t : String} {front r : List Char} {c : Char} (ht : Capital t)
    (h : t.toList = front ++ c :: (r ++ [';'])) (hblank : isBlank c = false) (hc : c ≠ ';') :
    ∃ rest, (statementOf t).toList = front ++ c :: rest := by
  have hslash : t.toList.getLast? ≠ some '/' := by
    rw [h]
    simp [List.getLast?_cons, List.getLast?_append]
  have hsemi : decide (c = ';') = false := decide_eq_false hc
  rw [toList_statementOf ht hslash, h, dropEndWhile_append_cons _ _ hsemi,
    dropEndWhile_cons _ hsemi, dropEndWhile_append_cons _ _ hblank, dropEndWhile_cons _ hblank]
  exact ⟨_, rfl⟩

/-- What is cut off at the end of a statement: blank characters and semicolons, or a last slash with
the blank characters before it. -/
def EndCut (tail : List Char) : Prop :=
  (∀ c ∈ tail, c = ';' ∨ isBlank c = true) ∨
    ∃ gap, tail = gap ++ ['/'] ∧ ∀ c ∈ gap, isBlank c = true

/-- A sealed statement is run whole, up to its end mark. -/
theorem exists_statementOf_append {t : String} (h : Sealed t) :
    ∃ tail, t.toList = (statementOf t).toList ++ tail ∧ EndCut tail := by
  -- The end mark says which way the statement is cut.
  by_cases hslash : t.toList.getLast? = some '/'
  · obtain ⟨body, hbody⟩ := List.getLast?_eq_some_iff.1 hslash
    obtain ⟨gap, hgap, hblank⟩ := exists_append_dropEndWhile isBlank body
    refine ⟨gap ++ ['/'], ?_, .inr ⟨gap, rfl, hblank⟩⟩
    have hst : (statementOf t).toList = dropEndWhile isBlank body := by
      simp [statementOf, hbody]
    rw [hst, hbody, ← List.append_assoc, ← hgap]
  · have hst := toList_statementOf h.capital hslash
    obtain ⟨semis, hsemis, hall⟩ := exists_append_dropEndWhile (· = ';') t.toList
    obtain ⟨gap, hgap, hblank⟩ :=
      exists_append_dropEndWhile isBlank (dropEndWhile (· = ';') t.toList)
    refine ⟨gap ++ semis, ?_, .inl ?_⟩
    · rw [hst, ← List.append_assoc, ← hgap, ← hsemis]
    · intro d hd
      rcases List.mem_append.1 hd with hd | hd
      · exact .inr (hblank d hd)
      · exact .inl (by simpa using hall d hd)

/-! ## Scripts -/

theorem split_empty : split "" = [] := by
  decide

/-- A text without a blank line is a single piece. -/
theorem split_of_no_break {s : String} (h : ¬['\n', '\n'] <:+: s.toList) :
    split s = (statement? s).toList := by
  rw [split, paragraphs, paragraphChars_eq_singleton h]
  simp only [List.map_cons, List.map_nil, String.ofList_toList]
  cases hs : statement? s <;> simp [hs]

/-- Texts that are joined by blank lines are split one by one. -/
theorem split_join {ts : List String} (h : ∀ t ∈ ts, t.toList.getLast? ≠ some '\n') :
    split (join "\n\n" ts) = ts.flatMap split := by
  induction ts with
  | nil => exact split_empty
  | cons t ts ih =>
    have hts : ∀ u ∈ ts, u.toList.getLast? ≠ some '\n' := fun u hu => h u (by simp [hu])
    -- The last text has no blank line after it.
    cases ts with
    | nil => simp [join_singleton]
    | cons u us =>
      have hjoin : (join "\n\n" (t :: u :: us)).toList =
          t.toList ++ '\n' :: '\n' :: (join "\n\n" (u :: us)).toList := by
        simp [join_cons_cons]
      rw [List.flatMap_cons, ← ih hts]
      simp only [split, paragraphs]
      rw [hjoin, paragraphChars_append_break (h t (by simp)), List.map_append,
        List.filterMap_append]

end SchemaDelta.Run
