import SchemaDelta.Proofs.Sql.Live

/-!
# The members of a composite, sifted by its comment

A composite has its active members in their order and the inactive ones in a comment behind them, so
deleting the comment is filtering (`members_sifted`). That holds for members of any text without
comment marks, the empty text included: the comma and the white space of the separator hold no half
of a mark, so none arises where two members meet, and the comment begins where its mark stands.
-/

namespace SchemaDelta.Sql

open Text

/-- Without its block comments the text is the active members, joined, with no more than white space
behind them, between `front` and `back`. What is deleted is one comment with the inactive members,
joined, and nothing where there are none. -/
structure Sifted (members : List Fragment) (sep front back text : String) : Prop where
  live : ∃ gap, blank gap = true ∧
    withoutBlocks text = front ++ join sep (liveTexts members) ++ gap ++ back
  dead : blocks text =
    if deadTexts members = [] then [] else [" " ++ join sep (deadTexts members) ++ " "]

/-! ## Separators -/

section

variable {w sep : String} {x : List Char}

/-- White space has no other characters. -/
theorem not_mem_of_blank (hw : blank w = true) {c : Char} (hc : isBlank c = false) :
    c ∉ w.toList := by
  intro hmem
  rw [List.all_eq_true.1 hw c hmem] at hc
  cases hc

/-- A comma with white space behind it keeps two texts apart. -/
theorem isGap_comma (hw : blank w = true) : isGap ("," ++ w) = true := by
  have hall : ∀ c ∈ w.toList, (c ≠ '/' && c ≠ '*' && c ≠ '-') = true := by
    intro c hmem
    have hne {d : Char} (hd : isBlank d = false) : c ≠ d := fun h =>
      not_mem_of_blank hw hd (h ▸ hmem)
    simp [hne (by decide : isBlank '/' = false), hne (by decide : isBlank '*' = false),
      hne (by decide : isBlank '-' = false)]
  simpa [isGap] using hall

/-- Without its comma the separator is the white space. -/
theorem gapOf_comma (hw : blank w = true) : gapOf ("," ++ w) = w := by
  have hkeep : w.toList.dropWhile (· = ',') = w.toList := by
    cases hchars : w.toList with
    | nil => rfl
    | cons c r =>
      have hc : c ≠ ',' := by
        rintro rfl
        exact not_mem_of_blank hw (by decide) (hchars ▸ List.mem_cons_self)
      exact List.dropWhile_cons_of_neg (by simpa using hc)
  rw [gapOf, String.toList_append, List.dropWhile_append_of_pos (by simp), hkeep,
    String.ofList_toList]

namespace CommentFree

/-- Texts without comment marks are joined to one. -/
theorem join {ts : List String} (hsep : isGap sep = true)
    (h : ∀ t ∈ ts, CommentFree t.toList) : CommentFree (join sep ts).toList := by
  obtain ⟨hslash, hstar, hdash⟩ := not_mem_of_isGap hsep
  have hne := ne_empty_of_isGap hsep
  exact ⟨⟨not_pair_infix_join hne hslash hstar fun t ht => (h t ht).1.1,
    not_pair_infix_join hne hstar hslash fun t ht => (h t ht).1.2⟩,
    not_pair_infix_join hne hdash hdash fun t ht => (h t ht).2⟩

/-- White space may stand behind a text without comment marks. -/
theorem append_blank (hx : CommentFree x) (hw : blank w = true) : CommentFree (x ++ w.toList) := by
  have hslash : '/' ∉ w.toList := not_mem_of_blank hw (by decide)
  have hstar : '*' ∉ w.toList := not_mem_of_blank hw (by decide)
  have hdash : '-' ∉ w.toList := not_mem_of_blank hw (by decide)
  exact ⟨⟨not_pair_infix_after hx.1.1 hslash hstar, not_pair_infix_after hx.1.2 hstar hslash⟩,
    not_pair_infix_after hx.2 hdash hdash⟩

end CommentFree

end

/-! ## Reading a composite -/

/-- The parts are read in the text wherever it stands, unless a mark goes on behind it. -/
def ReadsParts (text : String) (ps : List Part) : Prop :=
  ∀ y : List Char, y.head? ≠ some '*' → y.head? ≠ some '-' →
    parts (text.toList ++ y) = ps ++ parts y

namespace ReadsParts

variable {text : String} {ps : List Part}

/-- They are the parts of the text alone. -/
theorem parts_eq (h : ReadsParts text ps) : parts text.toList = ps := by
  simpa [parts, partsFrom] using h [] (by simp) (by simp)

/-- A text without comment marks has characters only. -/
theorem of_commentFree (h : CommentFree text.toList) :
    ReadsParts text (text.toList.map Part.char) :=
  fun _ hstar hdash => parts_append h hstar hdash

/-- In parentheses the same parts are read. -/
theorem parts_paren (h : ReadsParts text ps) :
    parts ("(" ++ text ++ ")").toList = .char '(' :: ps ++ [.char ')'] := by
  have hchars : ("(" ++ text ++ ")").toList = ['('] ++ (text.toList ++ [')']) := by simp
  rw [hchars, parts_append_of_not_mem (by decide) (by decide), h [')'] (by simp) (by simp)]
  rfl

end ReadsParts

section

variable {members : List Fragment} {w sep front gap back text : String}

/-- A composite is read as its active members, white space, and one comment, wherever it stands. -/
theorem exists_readsParts_composite (hw : blank w = true)
    (h : ∀ m ∈ members, CommentFree m.text.toList) :
    ∃ gap, blank gap = true ∧ ReadsParts (composite members ("," ++ w) true)
      ((join ("," ++ w) (liveTexts members) ++ gap).toList.map Part.char ++
        if deadTexts members = [] then []
        else [.block (" " ++ join ("," ++ w) (deadTexts members) ++ " ").toList]) := by
  have hfree (f : Fragment → Bool) :
      CommentFree (join ("," ++ w) ((members.filter f).map Fragment.text)).toList := by
    refine .join (isGap_comma hw) fun t ht => ?_
    obtain ⟨m, hm, rfl⟩ := List.mem_map.1 ht
    exact h m (List.mem_filter.1 hm).1
  have hlive : CommentFree (join ("," ++ w) (liveTexts members)).toList := hfree _
  have hdead : CommentFree (join ("," ++ w) (deadTexts members)).toList := hfree _
  rw [composite_active, gapOf_comma hw]
  by_cases hnone : deadTexts members = []
  · refine ⟨"", rfl, ?_⟩
    rw [if_pos hnone, if_pos hnone, String.append_empty, List.append_nil]
    exact .of_commentFree hlive
  · rw [if_neg hnone, if_neg hnone]
    -- No gap stands before a comment that is all of the text.
    generalize hgap : (if join ("," ++ w) (liveTexts members) = "" then "" else w) = gap
    have hblank : blank gap = true := by
      rw [← hgap]
      split_ifs
      · rfl
      · exact hw
    refine ⟨gap, hblank, fun y _ _ => ?_⟩
    have hfront : CommentFree (join ("," ++ w) (liveTexts members) ++ gap).toList := by
      rw [String.toList_append]
      exact hlive.append_blank hblank
    calc parts ((join ("," ++ w) (liveTexts members) ++
            (gap ++ commentedInline (join ("," ++ w) (deadTexts members)))).toList ++ y)
        = parts ((join ("," ++ w) (liveTexts members) ++ gap).toList ++
            ((commentedInline (join ("," ++ w) (deadTexts members))).toList ++ y)) := by
          simp only [String.toList_append, List.append_assoc]
      _ = (join ("," ++ w) (liveTexts members) ++ gap).toList.map Part.char ++
            [.block (" " ++ join ("," ++ w) (deadTexts members) ++ " ").toList] ++ parts y := by
          rw [parts_append hfront (by simp [commentedInline]) (by simp [commentedInline]),
            parts_commentedInline hdead.1.2]
          simp [String.toList_append]

/-- What is read as the active members and one comment is sifted. -/
theorem Sifted.of_parts (hgap : blank gap = true)
    (h : parts text.toList =
      (front ++ join sep (liveTexts members) ++ gap).toList.map Part.char ++
        (if deadTexts members = [] then []
          else [.block (" " ++ join sep (deadTexts members) ++ " ").toList]) ++
        back.toList.map Part.char) :
    Sifted members sep front back text where
  live := by
    have hblock :
        (if deadTexts members = [] then []
          else [.block (" " ++ join sep (deadTexts members) ++ " ").toList]).flatMap Part.kept =
            [] := by
      split_ifs <;> rfl
    refine ⟨gap, hgap, String.toList_inj.1 ?_⟩
    rw [withoutBlocks, h, String.toList_ofList, List.flatMap_append, List.flatMap_append,
      flatMap_kept_chars, flatMap_kept_chars, hblock, List.append_nil, ← String.toList_append]
  dead := by
    rw [blocks, h, List.filterMap_append, List.filterMap_append, filterMap_block?_chars,
      filterMap_block?_chars]
    split_ifs
    · rfl
    · simp only [List.nil_append, List.append_nil, List.filterMap_cons, Part.block?,
        List.filterMap_nil, List.map_cons, List.map_nil, String.ofList_toList]

end

/-- **Joining members and deleting the comment is filtering.** For members without comment marks and
a separator that is a comma and white space, deleting the block comments of a composite leaves the
active members and deletes the inactive ones, all in their order. The same holds between the
parentheses of a list of columns of which one is active; otherwise the list has all its columns and
no comment. -/
theorem members_sifted :
    (∀ (members : List Fragment) (w : String), blank w = true →
      (∀ m ∈ members, CommentFree m.text.toList) →
        Sifted members ("," ++ w) "" "" (composite members ("," ++ w) true)) ∧
    ∀ columns : List Fragment, (∀ m ∈ columns, CommentFree m.text.toList) →
      ((∃ m ∈ columns, m.active = true) →
        Sifted columns ", " "(" ")" (columnTuple columns true)) ∧
      ((∀ m ∈ columns, m.active = false) →
        columnTuple columns true = "(" ++ join ", " (columns.map Fragment.text) ++ ")" ∧
          parts (columnTuple columns true).toList =
            (columnTuple columns true).toList.map Part.char) := by
  refine ⟨fun members w hw h => ?_, fun columns h => ⟨fun hsome => ?_, fun hoff => ?_⟩⟩
  · obtain ⟨gap, hgap, hread⟩ := exists_readsParts_composite hw h
    refine .of_parts hgap ?_
    rw [hread.parts_eq]
    simp
  · have hnot : noneActive columns = false := by
      obtain ⟨m, hm, hon⟩ := hsome
      rw [noneActive, Bool.and_eq_false_iff]
      exact .inr (List.all_eq_false.2 ⟨m, hm, by simp [hon]⟩)
    have hsep : "," ++ " " = ", " := rfl
    obtain ⟨gap, hgap, hread⟩ := exists_readsParts_composite (by decide : blank " " = true) h
    rw [hsep] at hread
    refine .of_parts hgap ?_
    rw [columnTuple, hnot, Bool.not_false, Bool.and_true, hread.parts_paren]
    simp
  · have htuple :
        columnTuple columns true = "(" ++ join ", " (columns.map Fragment.text) ++ ")" := by
      rw [columnTuple]
      cases columns with
      | nil => rfl
      | cons m ms =>
        have hnone : noneActive (m :: ms) = true := by simpa [noneActive] using hoff
        rw [hnone, Bool.not_true, Bool.and_false, composite_inactive]
    have hfree : CommentFree (join ", " (columns.map Fragment.text)).toList := by
      refine .join (by decide) fun t ht => ?_
      obtain ⟨m, hm, rfl⟩ := List.mem_map.1 ht
      exact h m hm
    refine ⟨htuple, ?_⟩
    rw [htuple, (ReadsParts.of_commentFree hfree).parts_paren]
    simp

/-- Members that begin and end with halves of comment marks. -/
def halfMarked : List Fragment :=
  [⟨"a/", true⟩, ⟨"*b", false⟩, ⟨"/c -", true⟩, ⟨"", false⟩, ⟨"- d*", false⟩]

/-- Halves of marks do not meet, neither in a composite nor in a list of columns. -/
theorem members_sifted_halfMarked :
    blank "\n\t" = true ∧ (∀ m ∈ halfMarked, CommentFree m.text.toList) ∧
      composite halfMarked ("," ++ "\n\t") true = "a/,\n\t/c -\n\t/* *b,\n\t,\n\t- d* */" ∧
      Sifted halfMarked ("," ++ "\n\t") "" "" (composite halfMarked ("," ++ "\n\t") true) ∧
      (∃ m ∈ halfMarked, m.active = true) ∧
      columnTuple halfMarked true = "(a/, /c - /* *b, , - d* */)" ∧
      Sifted halfMarked ", " "(" ")" (columnTuple halfMarked true) ∧
      (∀ m ∈ halfMarked.filter (!·.active), m.active = false) ∧
      columnTuple (halfMarked.filter (!·.active)) true = "(*b, , - d*)" ∧
      parts "(*b, , - d*)".toList = "(*b, , - d*)".toList.map Part.char := by
  have hfree : ∀ m ∈ halfMarked, CommentFree m.text.toList := by decide
  have hsome : ∃ m ∈ halfMarked, m.active = true := by decide
  have hoff : ∀ m ∈ halfMarked.filter (!·.active), m.active = false := by decide
  have hdead : columnTuple (halfMarked.filter (!·.active)) true = "(*b, , - d*)" := by
    decide +kernel
  obtain ⟨hmembers, hcolumns⟩ := members_sifted
  have hplain := (hcolumns (halfMarked.filter (!·.active)) fun m hm =>
    hfree m (List.mem_filter.1 hm).1).2 hoff
  refine ⟨by decide, hfree, by decide +kernel, hmembers halfMarked "\n\t" (by decide) hfree, hsome,
    by decide +kernel, (hcolumns halfMarked hfree).1 hsome, hoff, hdead, ?_⟩
  rw [← hdead]
  exact hplain.2

end SchemaDelta.Sql
