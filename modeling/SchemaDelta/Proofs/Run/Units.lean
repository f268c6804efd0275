import SchemaDelta.Proofs.Run.FirstWords
import SchemaDelta.Proofs.Run.Pieces
import SchemaDelta.Proofs.Sql.Live

/-!
# What the splitter makes of a unit

A unit is a text without a blank line. It has something to run when something other than blank
characters is left of it without its comments, and then the splitter should take it as it is, up to
the blank characters and semicolons around it or the slash on its last line (`Lawful`). The splitter
looks at the two ends of the unit and at the fronts of its lines instead. `lawful_iff` says where
the two agree.
-/

namespace SchemaDelta.Run

open Text Sql

/-- The unit has nothing but blank characters outside its comments. -/
def CommentsOnly (unit : String) : Prop :=
  ∀ c ∈ liveChars unit.toList, isBlank c = true

/-- Nothing of the unit is to be run. -/
def Idle (unit : String) : Prop :=
  blank unit = true ∨ createsUser unit = true ∨ CommentsOnly unit

/-- The text after its last line feed. -/
def lastLine (s : List Char) : List Char :=
  s.rtakeWhile (· ≠ '\n')

/-- The text up to its last line feed. -/
def frontLines (s : List Char) : List Char :=
  dropEndWhile (· ≠ '\n') s

/-- The last line of the unit is a slash. -/
def SlashLine (unit : String) : Prop :=
  trimChars (lastLine (trim unit).toList) = ['/']

instance decidableSlashLine (unit : String) : Decidable (SlashLine unit) :=
  inferInstanceAs (Decidable (trimChars (lastLine (trim unit).toList) = ['/']))

/-- The statement is the unit without blank characters and semicolons at its ends. -/
def CutFrom (unit stmt : String) : Prop :=
  trim stmt = stmt ∧ CutEnds (fun c => c = ';' ∨ isBlank c = true) unit.toList stmt.toList

/-- The statement is what is to be run of the unit. -/
inductive Runs (unit stmt : String) : Prop
  | slash (hline : SlashLine unit)
      (hstmt : stmt.toList = trimChars (frontLines (trim unit).toList))
  | plain (hline : ¬SlashLine unit) (hstmt : CutFrom unit stmt)

/-- The splitter yields what is to be run of the unit, and nothing else. -/
structure Lawful (unit : String) : Prop where
  skipped : Idle unit → split unit = []
  taken : ¬Idle unit → ∃ stmt, split unit = [stmt] ∧ Runs unit stmt

instance decidableCommentsOnly (unit : String) : Decidable (CommentsOnly unit) :=
  decidable_of_iff ((liveChars unit.toList).all isBlank = true) List.all_eq_true

/-! ## Lines that are blank or comments -/

/-- The line is blank or a line comment. -/
def quiet (l : List Char) : Bool :=
  l.all isBlank || ['-', '-'].isPrefixOf (trimChars l)

/-- A quiet line begins with a blank character or with the mark of a comment. -/
theorem quiet_cons {c : Char} {l : List Char} (h : quiet (c :: l) = true) :
    isBlank c = true ∧ quiet l = true ∨ c = '-' ∧ l.head? = some '-' := by
  cases hc : isBlank c with
  | true =>
    have htrim : trimChars (c :: l) = trimChars l := by simp [trimChars, hc]
    exact .inl ⟨rfl, by simpa [quiet, hc, htrim] using h⟩
  | false =>
    have hmark : ['-', '-'] <+: c :: dropEndWhile isBlank l := by
      rw [← dropEndWhile_cons l hc, ← trimChars_cons l hc]
      simpa [quiet, hc] using h
    obtain ⟨rfl, t, ht⟩ := List.cons_prefix_cons.1 hmark
    obtain ⟨back, hback, -⟩ := exists_append_dropEndWhile isBlank l
    exact .inr ⟨rfl, by rw [hback, ← ht]; rfl⟩

/-- A reader leaves nothing that is not there. -/
theorem mem_of_mem_charsFrom {st : CommentState} {s : List Char} {c : Char}
    (h : c ∈ charsFrom st s) : c ∈ s := by
  fun_induction charsFrom st s with grind

/-- The first line begins as the text does, unless it is empty. -/
theorem head?_of_lineChars {s l : List Char} {ls : List (List Char)} {c : Char}
    (h : lineChars s = l :: ls) (hc : l.head? = some c) : s.head? = some c := by
  cases s with
  | nil => simp [lineChars] at h
  | cons d s =>
    rw [lineChars_cons] at h
    split_ifs at h with hn hr
    · obtain ⟨rfl, -⟩ := List.cons.inj h
      simp at hc
    · obtain ⟨r, rfl⟩ := List.head?_eq_some_iff.1 hr.2
      rw [lineChars_cons, if_pos rfl] at h
      obtain ⟨rfl, -⟩ := List.cons.inj h
      simp at hc
    · cases hs : lineChars s <;> rw [hs, consPiece] at h <;> obtain ⟨rfl, -⟩ := List.cons.inj h <;>
        exact hc

/-- A character in front of the first line leaves the others as they are. -/
theorem tail_consPiece (c : Char) (ps : List (List Char)) : (consPiece c ps).tail = ps.tail := by
  cases ps <;> rfl

/-- A character in front of the first line is blank there, or it begins a comment. -/
theorem quiet_consPiece {c : Char} {s : List Char}
    (h : ∀ l ∈ consPiece c (lineChars s), quiet l = true) :
    isBlank c = true ∧ (∀ l ∈ lineChars s, quiet l = true) ∨
      c = '-' ∧ s.head? = some '-' ∧ ∀ l ∈ (lineChars s).tail, quiet l = true := by
  cases hs : lineChars s with
  | nil =>
    rw [hs] at h
    rcases quiet_cons (h [c] List.mem_cons_self) with ⟨hc, -⟩ | ⟨-, hhead⟩
    · exact .inl ⟨hc, by simp⟩
    · simp at hhead
  | cons l ls =>
    rw [hs] at h
    obtain ⟨hfirst, hrest⟩ := List.forall_mem_cons.1 h
    rcases quiet_cons hfirst with ⟨hc, hl⟩ | ⟨hc, hhead⟩
    · exact .inl ⟨hc, List.forall_mem_cons.2 ⟨hl, hrest⟩⟩
    · exact .inr ⟨hc, head?_of_lineChars hs hhead, hrest⟩

/-- Where the lines of a text are quiet, only blank characters are live; within a line comment the
rest of the first line need not be quiet. -/
theorem charsFrom_quiet {back : List Char} (hback : ∀ c ∈ back, isBlank c = true) (s : List Char) :
    ((∀ l ∈ lineChars s, quiet l = true) →
      ∀ c ∈ charsFrom .live (s ++ back), isBlank c = true) ∧
    ((∀ l ∈ (lineChars s).tail, quiet l = true) →
      ∀ c ∈ charsFrom .line (s ++ back), isBlank c = true) := by
  have hfeed : isBlank '\n' = true := by decide
  induction s with
  | nil =>
    exact ⟨fun _ c hc => hback c (mem_of_mem_charsFrom hc),
      fun _ c hc => hback c (mem_of_mem_charsFrom hc)⟩
  | cons c s ih =>
    obtain ⟨hlive, hline⟩ := ih
    have hblank (hc : isBlank c = true) :
        charsFrom .live (c :: s ++ back) = c :: charsFrom .live (s ++ back) :=
      liveChars_cons (by rintro rfl; exact absurd hc (by decide))
        (by rintro rfl; exact absurd hc (by decide))
    have hskip (hc : c ≠ '\n') :
        charsFrom .line (c :: s ++ back) = charsFrom .line (s ++ back) := by
      rw [List.cons_append, charsFrom]
      exact hc
    rw [lineChars_cons]
    by_cases hn : c = '\n'
    · subst hn
      rw [if_pos rfl, hblank hfeed, List.cons_append, charsFrom, List.tail_cons]
      have hrest (h : ∀ l ∈ lineChars s, quiet l = true) :
          ∀ d ∈ '\n' :: charsFrom .live (s ++ back), isBlank d = true :=
        List.forall_mem_cons.2 ⟨hfeed, hlive h⟩
      exact ⟨fun h => hrest (List.forall_mem_cons.1 h).2, hrest⟩
    rw [if_neg hn, hskip hn]
    by_cases hr : c = '\r' ∧ s.head? = some '\n'
    · have hc : isBlank c = true := by rw [hr.1]; decide
      rw [if_pos hr, hblank hc]
      exact ⟨fun h => List.forall_mem_cons.2 ⟨hc, hlive h⟩, hline⟩
    -- The character stands at the front of the first line.
    rw [if_neg hr, tail_consPiece]
    refine ⟨fun h => ?_, hline⟩
    rcases quiet_consPiece h with ⟨hc, hall⟩ | ⟨rfl, hs, hrest⟩
    · rw [hblank hc]
      exact List.forall_mem_cons.2 ⟨hc, hlive hall⟩
    · obtain ⟨r, rfl⟩ := List.head?_eq_some_iff.1 hs
      have hmark : charsFrom .live ('-' :: '-' :: r ++ back) =
          charsFrom .line ('-' :: r ++ back) := by
        rw [List.cons_append, List.cons_append, charsFrom, charsFrom]
        decide
      rw [hmark]
      exact hline hrest

/-- Blank characters around a text stay around what is live of it. -/
theorem commentsOnly_of_quiet {unit : String}
    (h : ∀ l ∈ lineChars (trim unit).toList, quiet l = true) : CommentsOnly unit := by
  obtain ⟨front, back, hsplit, hends⟩ := cutEnds_trimChars unit.toList
  have hfront : ∀ c ∈ front, isBlank c = true := fun c hc => hends c (List.mem_append_left _ hc)
  have hback : ∀ c ∈ back, isBlank c = true := fun c hc => hends c (List.mem_append_right _ hc)
  have hno {d : Char} (hd : isBlank d = false) : d ∉ front := fun hmem => by
    have := hfront d hmem
    rw [hd] at this
    exact Bool.false_ne_true this
  rw [toList_trim] at h
  rw [CommentsOnly, hsplit, List.append_assoc,
    liveChars_append_of_not_mem (hno (by decide)) (hno (by decide))]
  exact fun c hc => (List.mem_append.1 hc).elim (hfront c) ((charsFrom_quiet hback _).1 h c)

/-! ## Units that are skipped -/

/-- A unit is taken for a comment by its ends or by its lines. -/
theorem isComment_iff {unit : String} :
    isComment unit = true ↔
      (startsWith "/*" unit = true ∧ endsWith "*/" unit = true) ∨
        ∀ l ∈ lineChars unit.toList, quiet l = true := by
  have hline (l : List Char) :
      (blank (String.ofList l) || startsWith "--" (trim (String.ofList l))) = quiet l := by
    simp [blank, startsWith, quiet]
  simp [isComment, lines, hline]

/-- A blank unit has no live characters other than blank ones. -/
theorem idle_iff {unit : String} :
    Idle unit ↔ createsUser unit = true ∨ CommentsOnly unit := by
  have hblank (h : blank unit = true) : CommentsOnly unit := fun c hc =>
    List.all_eq_true.1 h c (mem_of_mem_charsFrom hc)
  exact ⟨fun h => h.elim (fun hb => .inr (hblank hb)) id, .inr⟩

instance decidableIdle (unit : String) : Decidable (Idle unit) :=
  decidable_of_iff (namesUser (wordChars unit.toList) = true ∨ CommentsOnly unit)
    (by rw [idle_iff, createsUser_eq])

/-- A unit is one piece, which is skipped as a comment or as the creation of a user. -/
theorem split_unit {unit : String} (h : ¬['\n', '\n'] <:+: unit.toList) :
    split unit = if isComment (trim unit) = true ∨ createsUser unit = true then []
      else [statementOf (trim unit)] := by
  have hempty (he : (trim unit).isEmpty = true) : isComment (trim unit) = true := by
    rw [String.isEmpty_iff.1 he]
    decide
  rw [split_of_no_break h]
  simp only [statement?, createsUser_trim, Bool.or_eq_true]
  split_ifs with hskip hskip' hskip'
  · rfl
  · exact absurd (hskip.imp_left fun hl => hl.elim hempty id) hskip'
  · exact absurd (hskip'.imp_left .inr) hskip
  · rfl

/-! ## Statements that are cut out -/

/-- Blank characters and semicolons are cut off in turns. -/
theorem cutFrom_statementOf {unit : String} (h : (trim unit).toList.getLast? ≠ some '/') :
    CutFrom unit (statementOf (trim unit)) := by
  have hst : (statementOf (trim unit)).toList =
      trimChars (stripSemicolons (trimChars unit.toList)) := by
    simp only [statementOf]
    rw [if_neg h, toList_trim, String.toList_ofList, toList_trim]
  have hsemis : CutEnds (· = ';') (trimChars unit.toList)
      (stripSemicolons (trimChars unit.toList)) :=
    (cutEnds_dropWhile (· = ';') _).imp fun c hc => of_decide_eq_true hc
  refine ⟨by rw [← String.toList_inj, toList_trim, hst, trimChars_trimChars], ?_⟩
  rw [hst]
  exact ((cutEnds_trimChars _).imp fun c => .inr).trans
    ((hsemis.imp fun c => .inl).trans ((cutEnds_trimChars _).imp fun c => .inr))

/-- A unit that ends with a slash loses this slash, which is neither blank nor a semicolon. -/
theorem not_cutFrom_statementOf {unit : String} (h : (trim unit).toList.getLast? = some '/') :
    ¬CutFrom unit (statementOf (trim unit)) := by
  rintro ⟨-, hcut⟩
  obtain ⟨body, hbody⟩ := List.getLast?_eq_some_iff.1 h
  have hst : (statementOf (trim unit)).toList = dropEndWhile isBlank body := by
    simp [statementOf, hbody]
  have hone : unit.toList.count '/' = body.count '/' := by
    rw [hcut.count_eq (by decide), hst,
      (cutEnds_dropEndWhile isBlank body).count_eq (by decide)]
  have htwo : unit.toList.count '/' = body.count '/' + 1 := by
    rw [(cutEnds_trimChars _).count_eq (by decide), ← toList_trim, hbody, List.count_append]
    rfl
  omega

/-- The slash on the last line is the last character, and blank characters stand before it. -/
theorem exists_gap_of_slashLine {unit : String} (h : SlashLine unit) :
    ∃ gap, (trim unit).toList = frontLines (trim unit).toList ++ gap ++ ['/'] ∧
      ∀ c ∈ gap, isBlank c = true := by
  obtain ⟨gap, back, hlast, hblank⟩ := cutEnds_trimChars (lastLine (trim unit).toList)
  have hsplit : (trim unit).toList = frontLines (trim unit).toList ++ (gap ++ ['/'] ++ back) := by
    have hslash : gap ++ ['/'] ++ back = lastLine (trim unit).toList := by
      rw [← h]
      exact hlast.symm
    rw [hslash]
    exact (List.rdropWhile_append_rtakeWhile).symm
  -- A trimmed text has no blank character behind the slash.
  obtain rfl : back = [] := by
    refine List.eq_nil_iff_forall_not_mem.2 fun c hc => ?_
    obtain ⟨d, hd⟩ : ∃ d, back.getLast? = some d :=
      ⟨_, List.getLast?_eq_some_getLast (List.ne_nil_of_mem hc)⟩
    have hend : (trimChars unit.toList).getLast? = some d := by
      rw [← toList_trim, hsplit, List.getLast?_append, List.getLast?_append, hd]
      rfl
    have hdb : isBlank d = true := hblank d (List.mem_append_right _ (List.mem_of_getLast? hd))
    rw [getLast?_dropEndWhile hend] at hdb
    exact Bool.false_ne_true hdb
  exact ⟨gap, by simpa using hsplit, fun c hc => hblank c (List.mem_append_left _ hc)⟩

/-- A unit with a slash on its last line is run without this line. -/
theorem statementOf_of_slashLine {unit : String} (h : SlashLine unit) :
    (statementOf (trim unit)).toList = trimChars (frontLines (trim unit).toList) := by
  obtain ⟨gap, hunit, hblank⟩ := exists_gap_of_slashLine h
  have hst : (statementOf (trim unit)).toList =
      dropEndWhile isBlank (frontLines (trim unit).toList ++ gap) := by
    have hlast : (trim unit).toList.getLast? = some '/' := by rw [hunit]; simp
    have hfront : (trim unit).toList.dropLast = frontLines (trim unit).toList ++ gap := by
      conv_lhs => rw [hunit]
      exact List.dropLast_concat
    simp only [statementOf]
    rw [if_pos hlast, hfront, toList_trimEnd, String.toList_ofList]
  -- The unit is trimmed, so nothing is cut off before its first line.
  have hfront : (frontLines (trim unit).toList).dropWhile isBlank =
      frontLines (trim unit).toList := by
    cases hf : frontLines (trim unit).toList with
    | nil => rfl
    | cons c r =>
      rw [hf] at hunit
      have hhead : (trimChars unit.toList).head? = some c := by
        rw [← toList_trim, hunit]
        rfl
      rw [List.dropWhile_cons_of_neg (by simp [isBlank_of_head?_trimChars hhead])]
  rw [hst, trimChars, hfront]
  unfold dropEndWhile
  rw [List.reverse_append, List.dropWhile_append_of_pos fun c hc => hblank c (by simpa using hc)]

/-- The splitter hands over what is to be run, unless a slash stands at the end of another line. -/
theorem runs_statementOf_iff {unit : String} :
    Runs unit (statementOf (trim unit)) ↔
      ((trim unit).toList.getLast? = some '/' → SlashLine unit) := by
  by_cases hline : SlashLine unit
  · exact iff_of_true (.slash hline (statementOf_of_slashLine hline)) fun _ => hline
  by_cases hlast : (trim unit).toList.getLast? = some '/'
  · refine iff_of_false (fun h => ?_) fun h => hline (h hlast)
    cases h with
    | slash h' _ => exact hline h'
    | plain _ hcut => exact not_cutFrom_statementOf hlast hcut
  · exact iff_of_true (.plain hline (cutFrom_statementOf hlast)) fun h => absurd h hlast

/-! ## Units that are taken as they should -/

/-- A block comment does not end with a slash on a line of its own. -/
theorem not_slashLine_of_endsWith {unit : String} (h : endsWith "*/" (trim unit) = true) :
    (trim unit).toList.getLast? = some '/' ∧ ¬SlashLine unit := by
  obtain ⟨r, hr⟩ := endsWith_iff.1 h
  have hend : (trim unit).toList = r ++ ['*'] ++ ['/'] := by simp [← hr]
  refine ⟨by rw [hend]; simp, fun hline => ?_⟩
  obtain ⟨gap, hunit, hblank⟩ := exists_gap_of_slashLine hline
  have hbody : r ++ ['*'] = frontLines (trim unit).toList ++ gap :=
    List.append_cancel_right (hend.symm.trans hunit)
  have hstar : (frontLines (trim unit).toList ++ gap).getLast? = some '*' := by
    rw [← hbody]
    simp
  rw [List.getLast?_append] at hstar
  cases hgap : gap.getLast? with
  | some c =>
    have hc : c = '*' := by simpa [hgap] using hstar
    exact absurd (hblank c (List.mem_of_getLast? hgap)) (by rw [hc]; decide)
  | none =>
    rw [hgap, Option.none_or] at hstar
    exact absurd (getLast?_dropEndWhile hstar) (by decide)

/-- **The splitter takes a unit as it should** if the unit creates a user, or if a unit of comments
is one block or has only lines that are blank or line comments, and any other ends with a slash
only on a line of its own. In no other case does it. -/
theorem lawful_iff {unit : String} (h : ¬['\n', '\n'] <:+: unit.toList) :
    Lawful unit ↔ createsUser unit = true ∨
      (CommentsOnly unit → isComment (trim unit) = true) ∧
        (¬CommentsOnly unit → (trim unit).toList.getLast? = some '/' → SlashLine unit) := by
  constructor
  · intro hlaw
    by_cases huser : createsUser unit = true
    · exact .inl huser
    refine .inr ⟨fun hcomments => ?_, fun hlive hlast => ?_⟩
    · by_contra hno
      have hnone := hlaw.skipped (idle_iff.2 (.inr hcomments))
      rw [split_unit h, if_neg (not_or.2 ⟨hno, huser⟩)] at hnone
      exact List.cons_ne_nil _ _ hnone
    · obtain ⟨stmt, hsplit, hruns⟩ := hlaw.taken fun hidle =>
        (idle_iff.1 hidle).elim huser hlive
      rw [split_unit h] at hsplit
      split_ifs at hsplit
      obtain rfl : statementOf (trim unit) = stmt := (List.cons.inj hsplit).1
      exact runs_statementOf_iff.1 hruns hlast
  · intro hcases
    constructor
    · intro hidle
      rw [split_unit h, if_pos]
      by_cases huser : createsUser unit = true
      · exact .inr huser
      · exact .inl ((hcases.resolve_left huser).1 ((idle_iff.1 hidle).resolve_left huser))
    · intro hbusy
      obtain ⟨huser, hlive⟩ := not_or.1 fun hidle => hbusy (idle_iff.2 hidle)
      obtain ⟨-, hslash⟩ := hcases.resolve_left huser
      have hno : ¬isComment (trim unit) = true := by
        rw [isComment_iff]
        rintro (⟨-, hend⟩ | hquiet)
        · obtain ⟨hlast, hline⟩ := not_slashLine_of_endsWith hend
          exact hline (hslash hlive hlast)
        · exact hlive (commentsOnly_of_quiet hquiet)
      exact ⟨statementOf (trim unit), by rw [split_unit h, if_neg (not_or.2 ⟨hno, huser⟩)],
        runs_statementOf_iff.2 (hslash hlive)⟩

/-- A block with comments around its first line and a slash on its last. -/
theorem lawful_block :
    ¬['\n', '\n'] <:+: "/* a */ BEGIN -- b\nNULL;\nEND;\n/\n".toList ∧
      Lawful "/* a */ BEGIN -- b\nNULL;\nEND;\n/\n" :=
  ⟨by decide, (lawful_iff (by decide)).2
    (.inr ⟨fun h => absurd h (by decide), fun _ _ => by decide⟩)⟩

/-- A statement between two comments is skipped, one with a comment behind it loses a character, and
comments of both styles are run. -/
theorem not_lawful_mixed :
    ¬Lawful "/* a */ SELECT 1 FROM dual /* b */" ∧ ¬Lawful "SELECT 1 FROM dual /* b */" ∧
      ¬Lawful "/* a */\n-- b" := by
  refine ⟨fun h => ?_, fun h => ?_, fun h => ?_⟩
  · obtain ⟨stmt, hsplit, -⟩ := h.taken (by decide)
    rw [split_unit (by decide), if_pos (.inl (by decide))] at hsplit
    exact List.cons_ne_nil _ _ hsplit.symm
  · obtain ⟨stmt, hsplit, hruns⟩ := h.taken (by decide)
    rw [split_unit (by decide), createsUser_eq, if_neg (by decide)] at hsplit
    have hcut : statementOf (trim "SELECT 1 FROM dual /* b */") = "SELECT 1 FROM dual /* b *" := by
      decide
    obtain rfl : "SELECT 1 FROM dual /* b *" = stmt := hcut.symm.trans (List.cons.inj hsplit).1
    cases hruns with
    | slash hline _ => exact absurd hline (by decide)
    | plain _ hstmt => exact absurd (hstmt.2.count_eq (c := '/') (by decide)) (by decide)
  · have hnone := h.skipped (by decide)
    rw [split_unit (by decide), createsUser_eq, if_neg (by decide)] at hnone
    exact List.cons_ne_nil _ _ hnone

end SchemaDelta.Run
