import SchemaDelta.Proofs.Sql.Lists
import SchemaDelta.Proofs.Sql.Marks
import SchemaDelta.Proofs.Sql.Sealed

/-!
# Statements made of phrases

A statement is a phrase without the semicolons and blank characters at its end, with one semicolon
after it or inside the block that lets an error pass. So it has no blank line where the given texts
have no line feed, and its comments are closed where the given texts have no comment marks.
-/

namespace SchemaDelta.Sql

open Text

/-- The text is a phrase up to semicolons and blank characters that were cut off. -/
def CutPhrase (p : String → Prop) (b : Bool) (x : String) : Prop :=
  ∃ tail : List Char, Phrase p b (String.ofList (x.toList ++ tail)) ∧
    ∀ c ∈ tail, c = ';' ∨ isBlank c = true

/-- The statement is a phrase with a semicolon, or a phrase as a literal in a block. -/
inductive Written (p : String → Prop) (b : Bool) : String → Prop where
  | ended {x : String} (hx : CutPhrase p b x) : Written p b (x ++ ";")
  | block {x : String} (hx : CutPhrase p b x) (code : Nat) :
    Written p b (Form.ifNotExists.fill (.ofList
      [("statement", String.ofList (doubled '\'' x.toList)), ("errorCode", showNat code)]))

variable {p : String → Prop} {b : Bool} {s x : String}

/-- A phrase with a semicolon is a statement. -/
theorem Phrase.written (h : Phrase p b s) : Written p b (s ++ ";") :=
  .ended ⟨[], by rwa [List.append_nil, String.ofList_toList], by simp⟩

/-- A statement may be put together in another order. -/
theorem Written.of_toList (h : Written p b x) (heq : s.toList = x.toList) : Written p b s := by
  rwa [String.toList_inj.1 heq]

/-- What is cut off at the end of a statement. -/
theorem cutPhrase_bareStatement (hc : Capital s) (h : Phrase p b s) :
    CutPhrase p b (bareStatement s) := by
  obtain ⟨c, r, hs, hcap⟩ := hc
  have htrim : trimChars s.toList = dropEndWhile isBlank s.toList := by
    rw [hs, trimChars_cons _ (isBlank_of_isUpper hcap)]
  obtain ⟨gap, hgap, hblank⟩ := exists_append_dropEndWhile isBlank s.toList
  obtain ⟨semis, hsemis, hall⟩ :=
    exists_append_dropEndWhile (· = ';') (dropEndWhile isBlank s.toList)
  -- Blank characters are cut off first, so they stand behind the semicolons.
  refine ⟨semis ++ gap, ?_, ?_⟩
  · rw [bareStatement, htrim, String.toList_ofList, ← List.append_assoc, ← hsemis, ← hgap,
      String.ofList_toList]
    exact h
  · intro d hd
    rcases List.mem_append.1 hd with hd | hd
    · exact .inl (by simpa using hall d hd)
    · exact .inr (hblank d hd)

/-- A guarded phrase is a statement. -/
theorem Phrase.guarded (hc : Capital s) (h : Phrase p b s) (ifNotExist : Bool) (code : Nat) :
    Written p b (guarded s ifNotExist code) := by
  unfold Sql.guarded
  cases ifNotExist with
  | false => exact .ended (cutPhrase_bareStatement hc h)
  | true => exact .block (cutPhrase_bareStatement hc h) code

/-! ## Blank lines -/

/-- The block around a text without a blank line has none either. -/
theorem no_break_ifNotExists (hx : ¬['\n', '\n'] <:+: x.toList) (code : Nat) :
    ¬['\n', '\n'] <:+: (Form.ifNotExists.fill (.ofList
      [("statement", String.ofList (doubled '\'' x.toList)),
        ("errorCode", showNat code)])).toList := by
  -- The block is five texts: three of its own, the statement as a literal, and a number.
  have hbody : ¬['\n', '\n'] <:+: doubled '\'' x.toList := fun hi =>
    hx (pair_infix_doubled (by decide) hi)
  have hcode : Unbroken (showNat code).toList :=
    .of_not_mem (not_mem_of_isWord (isWord_showNat code))
  rw [Form.fill_ifNotExists]
  simp only [String.toList_append, String.toList_ofList]
  refine not_pair_infix_append (not_pair_infix_append (not_pair_infix_append
    (not_pair_infix_append (by decide) hbody ?_) (by decide) ?_) hcode.no_break ?_)
    (by decide) ?_
  · intro e
    exact absurd e (by decide)
  · intro _
    decide
  · intro _
    exact hcode.head_ne
  · intro _
    decide

/-- A statement has no blank line when the given texts have no line feed. -/
theorem Written.no_break (hp : ∀ t, p t → '\n' ∉ t.toList) (h : Written p b s) :
    ¬['\n', '\n'] <:+: s.toList := by
  have hcut {x : String} (hx : CutPhrase p b x) : ¬['\n', '\n'] <:+: x.toList := by
    obtain ⟨tail, hphrase, -⟩ := hx
    have hun := (hphrase.unbroken hp).no_break
    rw [String.toList_ofList] at hun
    exact fun hi => hun (hi.trans (List.prefix_append _ _).isInfix)
  cases h with
  | ended hx =>
    rw [String.toList_append]
    exact not_pair_infix_append (hcut hx) (by decide) fun _ => by decide
  | block hx code => exact no_break_ifNotExists (hcut hx) code

/-! ## Comment marks -/

/-- A text is tame when it is tame with semicolons and blank characters after it. -/
theorem CutPhrase.tame (hp : ∀ t, p t → MarkFree t.toList) (hx : CutPhrase p b x) :
    Tame b x.toList := by
  obtain ⟨tail, hphrase, htail⟩ := hx
  have htame := hphrase.tame hp
  rw [String.toList_ofList] at htame
  have hmarks : '/' ∉ tail ∧ '*' ∉ tail :=
    ⟨fun hm => absurd (htail _ hm) (by decide), fun hm => absurd (htail _ hm) (by decide)⟩
  cases b with
  | false => exact MarkFree.part htame (List.prefix_append _ _).isInfix
  -- What was cut off has no marks, so the reader stands after the text as at the end.
  | true =>
    have hscan : scanComments false (x.toList ++ tail) = some false := htame
    rw [scanComments_append false (.of_right hmarks)] at hscan
    obtain ⟨o, ho, hrest⟩ := Option.bind_eq_some_iff.1 hscan
    rw [scanComments_of_markFree o (.of_not_mem hmarks)] at hrest
    exact ho.trans hrest

/-- The comments of a statement are closed and not nested when the given texts have no marks. -/
theorem Written.tame (hp : ∀ t, p t → MarkFree t.toList) (h : Written p b s) :
    Tame b s.toList := by
  cases h with
  | ended hx =>
    have hsemi : '/' ∉ ";".toList ∧ '*' ∉ ";".toList := by decide
    rw [String.toList_append]
    exact (hx.tame hp).append (MarkFree.of_not_mem hsemi).tame (.of_right hsemi)
  | @block x hx code =>
    have hbody : Tame b (doubled '\'' x.toList) := by
      have htame := hx.tame hp
      cases b with
      | false =>
        exact ⟨fun hi => htame.1 (pair_infix_doubled (by decide) hi),
          fun hi => htame.2 (pair_infix_doubled (by decide) hi)⟩
      | true => exact (scanComments_doubled (by decide) (by decide) false _).trans htame
    have hcode := marks_not_mem_of_isSeparator (isSeparator_of_isWord (isWord_showNat code))
    -- The slash at the end of the block follows a line feed.
    have hend : MarkFree " THEN NULL; ELSE RAISE; END IF;\nEND;\n/".toList :=
      ⟨by decide, by decide⟩
    rw [Form.fill_ifNotExists]
    simp only [String.toList_append, String.toList_ofList]
    refine Tame.append ?_ hend.tame ⟨fun _ => by decide, fun _ => by decide⟩
    refine Tame.append ?_ (MarkFree.of_not_mem hcode).tame (.of_right hcode)
    exact hbody.inside (by decide) (by decide)

end SchemaDelta.Sql
