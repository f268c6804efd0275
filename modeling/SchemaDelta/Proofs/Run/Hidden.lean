import SchemaDelta.Proofs.Run.FirstWords
import SchemaDelta.Proofs.Run.Pieces
import SchemaDelta.Sql.Fragment

/-!
# What a comment hides

A statement that is commented out is one comment, but the splitter cuts it at its blank lines before
it looks for comments. `hidden` says when none of the parts is taken for a statement: always where
there is no blank line, and otherwise only by accident.
-/

namespace SchemaDelta.Run

open Text Sql

/-- None of the parts after the first is run when the end of a comment follows the last one. -/
def restHidden : List String → Bool
  | [] => true
  | [last] => startsWith "/*" (trim last) || createsUser last
  | p :: ps => (statement? p).isNone && restHidden ps

/-- None of the text is run when it is commented out. -/
def hidden (text : String) : Bool :=
  match paragraphs text with
  | first :: second :: rest => endsWith "*/" (trimEnd first) && restHidden (second :: rest)
  | _ => true

/-! ## Pieces that are skipped -/

/-- Why a piece is skipped. -/
theorem isNone_statement? (piece : String) :
    (statement? piece).isNone =
      ((trim piece).isEmpty || isComment (trim piece) || createsUser (trim piece)) := by
  unfold statement?
  cases h : ((trim piece).isEmpty || isComment (trim piece) || createsUser (trim piece)) <;>
    simp [h]

/-- A piece with characters and a live line is skipped as a block or as the creation of a user. -/
theorem isNone_of_live_line {piece l : String} (hne : (trim piece).toList ≠ [])
    (hl : l ∈ lines (trim piece)) (hb : blank l = false)
    (hd : startsWith "--" (trim l) = false) :
    (statement? piece).isNone =
      ((startsWith "/*" (trim piece) && endsWith "*/" (trim piece)) ||
        createsUser (trim piece)) := by
  have hempty : (trim piece).isEmpty = false := by
    rw [String.isEmpty_eq_false_iff, Ne, ← String.toList_inj]
    exact hne
  rw [isNone_statement?, hempty, isComment_of_live_line hl hb hd, Bool.false_or]

/-! ## The front of a comment -/

/-- The front of a comment is trimmed at its end only. -/
theorem toList_trim_front {t : String} (h : Capital t) :
    (trim ("/*\n" ++ t)).toList = ['/', '*', '\n'] ++ (trimEnd t).toList := by
  obtain ⟨c, r, ht, hc⟩ := h
  have hcut := dropEndWhile_append_cons ['/', '*', '\n'] r (isBlank_of_isUpper hc)
  rw [toList_trim, String.toList_append, ht, toList_trimEnd, ht]
  exact (trimChars_cons _ (by decide)).trans hcut

/-- The front of a comment creates no user, because its first word is the mark. -/
theorem createsUser_front (t : String) : createsUser (trim ("/*\n" ++ t)) = false := by
  have hmark : Opening "/*".toList false := .of_verb (by decide) (by decide)
  have hfront : ("/*\n" ++ t).toList = "/*".toList ++ '\n' :: t.toList := by simp
  rw [createsUser_trim, hmark.createsUser_eq hfront (by decide)]

/-- The first part of a comment is skipped only if it ends like one. -/
theorem isNone_comment_first {t : String} (h : Capital t) :
    (statement? ("/*\n" ++ t)).isNone = endsWith "*/" (trimEnd t) := by
  have htrim := toList_trim_front h
  -- The mark on the first line is neither blank nor a line comment.
  have hline : "/*" ∈ lines (trim ("/*\n" ++ t)) := by
    have hlines : lineChars (['/', '*', '\n'] ++ (trimEnd t).toList) =
        "/*".toList :: lineChars (trimEnd t).toList := by simp [lineChars_cons, consPiece]
    simp only [lines, htrim, hlines]
    exact List.mem_cons.2 (.inl (String.ofList_toList).symm)
  have hstart : startsWith "/*" (trim ("/*\n" ++ t)) = true := by
    rw [startsWith_iff, htrim]
    exact ⟨'\n' :: (trimEnd t).toList, rfl⟩
  have hend : endsWith "*/" (trim ("/*\n" ++ t)) = endsWith "*/" (trimEnd t) := by
    have hnil : (trimEnd t).toList ≠ [] := by
      obtain ⟨c, r, ht, hc⟩ := h
      rw [toList_trimEnd, ht, dropEndWhile_cons _ (isBlank_of_isUpper hc)]
      simp
    have hpair : ['*', '/'] <:+ ['/', '*', '\n'] ++ (trimEnd t).toList ↔
        ['*', '/'] <:+ (trimEnd t).toList := pair_suffix_append hnil (by decide)
    rw [Bool.eq_iff_iff, endsWith_iff, endsWith_iff, htrim]
    exact hpair
  rw [isNone_of_live_line (by rw [htrim]; simp) hline (by decide) (by decide), hstart, hend,
    createsUser_front, Bool.true_and, Bool.or_false]

/-! ## The end of a comment -/

/-- The end of a comment is trimmed at its front only. -/
theorem toList_trim_end {t : String} {c : Char} (h : t.toList.getLast? = some c)
    (hc : isBlank c = false) :
    (trim (t ++ "\n*/")).toList = (trim t).toList ++ ['\n', '*', '/'] := by
  have hlive : ¬(t.toList.dropWhile isBlank).isEmpty := by
    rw [List.isEmpty_iff]
    intro hnil
    have hlast := getLast?_dropWhile h hc
    rw [hnil] at hlast
    exact absurd hlast (by simp)
  rw [toList_trim, toList_trim, String.toList_append, trimChars_of_getLast? h hc]
  unfold trimChars
  rw [List.dropWhile_append, if_neg hlive]
  exact dropEndWhile_of_getLast? (c := '/') (by simp) (by decide)

/-- The mark at the end of a comment is not the second word of a creation. -/
theorem createsUser_end (t : String) : createsUser (trim (t ++ "\n*/")) = createsUser t := by
  have hwords : wordChars (t ++ "\n*/").toList = wordChars t.toList ++ ["*/".toList] := by
    have hend : (t ++ "\n*/").toList = t.toList ++ '\n' :: "*/".toList := by simp
    have hmark : wordChars "*/".toList = ["*/".toList] := by decide
    rw [hend, wordChars_append_blank (by decide), hmark]
  rw [createsUser_trim, createsUser_eq, createsUser_eq, hwords]
  rcases wordChars t.toList with - | ⟨w, - | ⟨u, ws⟩⟩
  · rfl
  · exact Bool.and_false _
  · rfl

/-- The last part of a comment is skipped only if it begins like one, or if it creates a user. -/
theorem isNone_comment_last {t : String} {c : Char} (h : t.toList.getLast? = some c)
    (hc : isBlank c = false) :
    (statement? (t ++ "\n*/")).isNone = (startsWith "/*" (trim t) || createsUser t) := by
  have htrim := toList_trim_end h hc
  have hnil : (trim t).toList ≠ [] := by
    have hlast := getLast?_dropWhile h hc
    rw [toList_trim, trimChars_of_getLast? h hc]
    intro hnil
    rw [hnil] at hlast
    exact absurd hlast (by simp)
  -- The end mark has a line to itself, whatever stands before it.
  have hline : "*/" ∈ lines (trim (t ++ "\n*/")) := by
    obtain ⟨l, ls, hl, hmem⟩ := lineChars_end (trim t).toList
    rw [lines, htrim, hl]
    exact List.mem_map.2 ⟨['*', '/'], List.mem_cons_of_mem _ hmem, by decide⟩
  have hend : endsWith "*/" (trim (t ++ "\n*/")) = true := by
    rw [endsWith_iff, htrim]
    exact ⟨(trim t).toList ++ ['\n'], by simp⟩
  have hstart : startsWith "/*" (trim (t ++ "\n*/")) = startsWith "/*" (trim t) := by
    rw [Bool.eq_iff_iff, startsWith_iff, startsWith_iff, htrim]
    exact pair_prefix_append hnil (by decide)
  rw [isNone_of_live_line (by rw [htrim]; simp) hline (by decide) (by decide), hstart, hend,
    createsUser_end, Bool.and_true]

/-! ## The whole comment -/

/-- All parts but the last are skipped on their own. -/
theorem restHidden_append (mid : List String) (last : String) :
    restHidden (mid ++ [last]) =
      ((mid.all fun p => (statement? p).isNone) &&
        (startsWith "/*" (trim last) || createsUser last)) := by
  induction mid with
  | nil => rfl
  | cons p mid ih =>
    -- There is always a part behind `p`, so `p` is not the last one.
    have hcons : restHidden (p :: (mid ++ [last])) =
        ((statement? p).isNone && restHidden (mid ++ [last])) := by
      cases mid <;> rfl
    rw [List.cons_append, hcons, ih, List.all_cons, Bool.and_assoc]

/-- A comment of one line is one piece, which is skipped. -/
theorem split_line_comment {t : String} (h : Sealed t) (hn : '\n' ∉ t.toList) :
    split ("-- " ++ t) = [] := by
  have hs : ("-- " ++ t).toList = ['-', '-', ' '] ++ t.toList := by simp
  have hmem : '\n' ∉ ("-- " ++ t).toList := by simpa using hn
  rw [split_of_no_break (not_pair_infix_of_left hmem)]
  obtain ⟨d, hd, hdb⟩ := h.exists_last
  have htrim : trim ("-- " ++ t) = "-- " ++ t := by
    have hlast : ("-- " ++ t).toList.getLast? = some d := by
      rw [hs, List.getLast?_append, hd, Option.some_or]
    rw [trim, trimChars_eq_self (by rw [hs]; rfl) hlast (by decide) hdb, String.ofList_toList]
  have hlines : lines ("-- " ++ t) = ["-- " ++ t] := by
    rw [lines, lineChars_of_not_mem (by simp) hmem, List.map_singleton, String.ofList_toList]
  have hcomment : isComment ("-- " ++ t) = true := by
    have hstart : startsWith "--" ("-- " ++ t) = true := by
      rw [startsWith_iff, hs]
      exact ⟨' ' :: t.toList, rfl⟩
    simp [isComment, hlines, htrim, hstart]
  simp [statement?, htrim, hcomment]

/-- A comment without a blank line is one piece, which is skipped. -/
theorem split_block_comment {t : String} (h : Sealed t) (hn : ¬['\n', '\n'] <:+: t.toList) :
    split ("/*\n" ++ t ++ "\n*/") = [] := by
  have hs : ("/*\n" ++ t ++ "\n*/").toList = ['/', '*', '\n'] ++ t.toList ++ ['\n', '*', '/'] := by
    simp
  have hbreak : ¬['\n', '\n'] <:+: ("/*\n" ++ t ++ "\n*/").toList := by
    rw [hs]
    refine not_pair_infix_append (not_pair_infix_append (by decide) hn fun _ => h.head_ne)
      (by decide) ?_
    obtain ⟨d, hd, -⟩ := h.exists_last
    intro e
    rw [List.getLast?_append, hd, Option.some_or, ← hd] at e
    exact absurd e h.last_ne
  rw [split_of_no_break hbreak]
  have htrim : trim ("/*\n" ++ t ++ "\n*/") = "/*\n" ++ t ++ "\n*/" := by
    have hlast : ("/*\n" ++ t ++ "\n*/").toList.getLast? = some '/' := by
      rw [hs, List.getLast?_append]
      rfl
    rw [trim, trimChars_eq_self (by rw [hs]; rfl) hlast (by decide) (by decide),
      String.ofList_toList]
  have hcomment : isComment ("/*\n" ++ t ++ "\n*/") = true := by
    have hstart : startsWith "/*" ("/*\n" ++ t ++ "\n*/") = true := by
      rw [startsWith_iff, hs]
      exact ⟨'\n' :: t.toList ++ ['\n', '*', '/'], by simp⟩
    have hend : endsWith "*/" ("/*\n" ++ t ++ "\n*/") = true := by
      rw [endsWith_iff, hs]
      exact ⟨['/', '*', '\n'] ++ t.toList ++ ['\n'], by simp⟩
    rw [isComment, hstart, hend]
    rfl
  simp [statement?, htrim, hcomment]

/-- A text without a blank line is hidden. -/
theorem hidden_of_no_break {t : String} (h : ¬['\n', '\n'] <:+: t.toList) : hidden t = true := by
  unfold hidden paragraphs
  rw [paragraphChars_eq_singleton h]
  rfl

/-- The parts of a sealed statement with a blank line, and those of its comment. -/
theorem exists_parts {t : String} (h : Sealed t) (hn : ['\n', '\n'] <:+: t.toList) :
    ∃ first mid last, Capital first ∧
      (∃ c, last.toList.getLast? = some c ∧ isBlank c = false) ∧
      paragraphs t = first :: (mid ++ [last]) ∧
      paragraphs ("/*\n" ++ t ++ "\n*/") =
        ("/*\n" ++ first) :: (mid ++ [last ++ "\n*/"]) := by
  obtain ⟨c, r, hs, hc⟩ := h.capital
  obtain ⟨d, hd, hdb⟩ := h.exists_last
  have hcn : c ≠ '\n' := by
    rintro rfl
    exact absurd hc (by decide)
  have hdn : d ≠ '\n' := by
    rintro rfl
    exact absurd hdb (by decide)
  obtain ⟨p, ps, hp⟩ := paragraphChars_head hcn r
  obtain ⟨qs, l, hl, hlast⟩ := paragraphChars_last hdn hd
  obtain ⟨p', q, ps', hp'⟩ := paragraphChars_of_break hn
  rw [← hs] at hp
  -- Two paragraphs at least, so the first and the last are not the same one.
  obtain ⟨mid, rfl⟩ : ∃ mid, qs = (c :: p) :: mid := by
    cases qs with
    | nil => simp [hl] at hp'
    | cons q' qs =>
      rw [hl, List.cons_append, List.cons.injEq] at hp
      exact ⟨qs, by rw [hp.1]⟩
  have hright : paragraphChars (t.toList ++ "\n*/".toList) =
      (c :: p) :: mid ++ [l ++ "\n*/".toList] :=
    paragraphChars_append_right (by decide) h.last_ne hl
  have hseam : "/*\n".toList.getLast? = some '\n' →
      (t.toList ++ "\n*/".toList).head? ≠ some '\n' := by
    intro _
    rw [hs]
    simpa using hcn
  have hboth := paragraphChars_append_left (by decide) hseam hright
  refine ⟨String.ofList (c :: p), mid.map String.ofList, String.ofList l,
    ⟨c, p, String.toList_ofList, hc⟩, ⟨d, by rwa [String.toList_ofList], hdb⟩, ?_, ?_⟩
  · rw [paragraphs, hl]
    simp
  · rw [paragraphs, String.toList_append, String.toList_append, List.append_assoc, hboth]
    simp only [List.append_eq, List.map_cons, List.map_append, List.map_nil, String.ofList_append,
      String.ofList_toList]

/-- Exactly the hidden statements leave no trace when they are commented out. -/
theorem split_commented {t : String} (h : Sealed t) :
    split (commented t) = [] ↔ hidden t = true := by
  by_cases hn : ['\n', '\n'] <:+: t.toList
  -- The parts of the comment are those of the text, with the marks at both ends.
  · have hmem : t.toList.contains '\n' = true := by
      simpa using hn.subset (by simp)
    obtain ⟨first, mid, last, hfirst, ⟨c, hlast, hc⟩, ht, hcomment⟩ := exists_parts h hn
    have hhidden : hidden t = (endsWith "*/" (trimEnd first) && restHidden (mid ++ [last])) := by
      rw [hidden, ht]
      cases mid <;> rfl
    rw [commented, if_pos hmem, split, hcomment, hhidden, restHidden_append,
      ← isNone_comment_first hfirst, ← isNone_comment_last hlast hc, List.filterMap_eq_nil_iff]
    simp [Option.isNone_iff_eq_none, or_imp, forall_and]
  -- One piece, which is a comment of either kind.
  · rw [hidden_of_no_break hn, commented]
    split_ifs with hmem
    · simp [split_block_comment h hn]
    · simp [split_line_comment h (by simpa using hmem)]

/-! ## Scripts -/

/-- A sealed statement that is written as a comment still does not end with a line feed. -/
theorem write_last_ne {u : Fragment} (h : Sealed u.text) :
    u.write.toList.getLast? ≠ some '\n' := by
  unfold Fragment.write commented
  split_ifs
  · exact h.last_ne
  · have hend : "\n*/".toList.getLast? = some '/' := by decide
    rw [String.toList_append, List.getLast?_append, hend, Option.some_or]
    decide
  · obtain ⟨d, hd, -⟩ := h.exists_last
    rw [String.toList_append, List.getLast?_append, hd, Option.some_or, ← hd]
    exact h.last_ne

/-- A script of sealed statements is split statement by statement. -/
theorem split_statementsText {units : List Fragment} (h : ∀ u ∈ units, Sealed u.text) :
    split (statementsText units) = units.flatMap fun u => split u.write := by
  rw [statementsText_of_sealed h, split_join, List.flatMap_map]
  intro t ht
  obtain ⟨u, hu, rfl⟩ := List.mem_map.1 ht
  exact write_last_ne (h u hu)

end SchemaDelta.Run
