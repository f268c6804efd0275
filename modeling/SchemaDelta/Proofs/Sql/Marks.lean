import SchemaDelta.Proofs.Sql.Unbroken

/-!
# Comment marks in a phrase

A text is read from left to right for the marks of block comments. Marks are pairs, so they can
arise at a seam; in a phrase they do not, because no separator begins or ends with half of a mark.
An inline comment opens and closes around a phrase without marks, and so no comment is nested.
-/

namespace SchemaDelta.Sql

open Text

/-! ## Reading marks -/

/-- The marks of block comments, read from the left: `some open` says whether a comment is open at
the end, and `none` that a comment was opened inside a comment or closed outside. -/
def scanComments : Bool → List Char → Option Bool
  | isOpen, [] => some isOpen
  | isOpen, '/' :: '*' :: r => if isOpen then none else scanComments true r
  | isOpen, '*' :: '/' :: r => if isOpen then scanComments false r else none
  | isOpen, _ :: r => scanComments isOpen r

/-- The text has no mark of a block comment. -/
def MarkFree (s : List Char) : Prop :=
  ¬['/', '*'] <:+: s ∧ ¬['*', '/'] <:+: s

instance (s : List Char) : Decidable (MarkFree s) :=
  inferInstanceAs (Decidable (_ ∧ _))

/-- A comment mark neither begins in the first text and ends in the second. -/
def MarkSeam (x y : List Char) : Prop :=
  (x.getLast? = some '/' → y.head? ≠ some '*') ∧ (x.getLast? = some '*' → y.head? ≠ some '/')

variable {x y : List Char}

/-- The seam of a longer text is the seam of its tail. -/
theorem MarkSeam.tail {c : Char} (h : MarkSeam (c :: x) y) : MarkSeam x y := by
  cases x with
  | nil => exact ⟨by simp, by simp⟩
  | cons d x => simpa [MarkSeam] using h

/-- No mark begins in a text without slashes and stars. -/
theorem MarkSeam.of_left (h : '/' ∉ x ∧ '*' ∉ x) : MarkSeam x y :=
  ⟨fun e => absurd (List.mem_of_getLast? e) h.1, fun e => absurd (List.mem_of_getLast? e) h.2⟩

/-- No mark ends in a text without slashes and stars. -/
theorem MarkSeam.of_right (h : '/' ∉ y ∧ '*' ∉ y) : MarkSeam x y :=
  ⟨fun _ e => h.2 (List.mem_of_head? e), fun _ e => h.1 (List.mem_of_head? e)⟩

/-- A character that begins no mark is passed over. -/
theorem scanComments_cons {c : Char} {r : List Char} (isOpen : Bool)
    (h₁ : c = '/' → r.head? ≠ some '*') (h₂ : c = '*' → r.head? ≠ some '/') :
    scanComments isOpen (c :: r) = scanComments isOpen r := by
  rw [scanComments]
  · rintro r' rfl rfl
    exact h₁ rfl rfl
  · rintro r' rfl rfl
    exact h₂ rfl rfl

/-- Where no mark arises at the seam, the second text is read after the first. -/
theorem scanComments_append (isOpen : Bool) (h : MarkSeam x y) :
    scanComments isOpen (x ++ y) = (scanComments isOpen x).bind fun o => scanComments o y := by
  fun_induction scanComments isOpen x with
  | case1 isOpen => rfl
  | case2 r => rfl
  | case3 isOpen r ho ih =>
    rw [← ih h.tail.tail]
    simp [scanComments, ho]
  | case4 r ih => exact ih h.tail.tail
  | case5 isOpen r ho => simp [scanComments, ho]
  -- The character begins no mark in the first text; at its end the seam takes over.
  | case6 isOpen c r hopen hclose ih =>
    have hnext {d : Char} (hd : ∀ r', r = d :: r' → False) (hseam : r = [] → y.head? ≠ some d) :
        (r ++ y).head? ≠ some d := by
      cases r with
      | nil => exact hseam rfl
      | cons e r =>
        intro he
        have he' : e = d := by simpa using he
        exact hd r (by rw [he'])
    have hslash : c = '/' → (r ++ y).head? ≠ some '*' := by
      rintro rfl
      exact hnext (fun r' => hopen r' rfl) fun hr => h.1 (by rw [hr]; rfl)
    have hstar : c = '*' → (r ++ y).head? ≠ some '/' := by
      rintro rfl
      exact hnext (fun r' => hclose r' rfl) fun hr => h.2 (by rw [hr]; rfl)
    rw [List.cons_append, scanComments_cons isOpen hslash hstar]
    exact ih h.tail

/-- A text without marks is passed over. -/
theorem scanComments_of_markFree (isOpen : Bool) (h : MarkFree x) :
    scanComments isOpen x = some isOpen := by
  induction x with
  | nil => rfl
  | cons c r ih =>
    have hr : MarkFree r := ⟨not_pair_infix_tail h.1, not_pair_infix_tail h.2⟩
    have hhead {a d : Char} (hfree : ¬[a, d] <:+: c :: r) : c = a → r.head? ≠ some d := by
      simpa using head?_append_ne_of_cons (y := []) hfree (by simp)
    rw [scanComments_cons isOpen (hhead h.1) (hhead h.2), ih hr]

/-! ## Texts without marks -/

namespace MarkFree

/-- A text without slashes and stars has no marks. -/
theorem of_not_mem (h : '/' ∉ x ∧ '*' ∉ x) : MarkFree x :=
  ⟨not_pair_infix_of_left h.1, not_pair_infix_of_left h.2⟩

/-- Texts without marks may meet where no mark arises. -/
theorem append (hx : MarkFree x) (hy : MarkFree y) (h : MarkSeam x y) : MarkFree (x ++ y) :=
  ⟨not_pair_infix_append hx.1 hy.1 h.1, not_pair_infix_append hx.2 hy.2 h.2⟩

/-- A part of a text without marks has none. -/
theorem part (hy : MarkFree y) (h : x <:+: y) : MarkFree x :=
  ⟨fun hi => hy.1 (hi.trans h), fun hi => hy.2 (hi.trans h)⟩

end MarkFree

/-- The text has no mark of a comment, neither of a block nor of a line. -/
def CommentFree (s : List Char) : Prop :=
  MarkFree s ∧ ¬['-', '-'] <:+: s

instance (s : List Char) : Decidable (CommentFree s) :=
  inferInstanceAs (Decidable (_ ∧ _))

/-- A part of a text without comment marks has none. -/
theorem CommentFree.part (hy : CommentFree y) (h : x <:+: y) : CommentFree x :=
  ⟨hy.1.part h, fun hi => hy.2 (hi.trans h)⟩

/-- Doubled quotes leave the first character as it is. -/
theorem head?_doubled (q : Char) (s : List Char) : (doubled q s).head? = s.head? := by
  cases s with
  | nil => rfl
  | cons c s =>
    rw [doubled_cons]
    split_ifs with hc
    · simp [hc]
    · rfl

/-- Doubled quotes make no pair of other characters. -/
theorem pair_infix_doubled {q a d : Char} (ha : a ≠ q) {s : List Char}
    (h : [a, d] <:+: doubled q s) : [a, d] <:+: s := by
  induction s with
  | nil => simp at h
  | cons c s ih =>
    rw [List.infix_cons_iff]
    rw [doubled_cons] at h
    by_cases hc : c = q
    · rw [if_pos hc] at h
      rcases pair_infix_append.1 h with h | h | h
      · have hmem : a ∈ [q, q] := h.subset (by simp)
        exact absurd (by simpa using hmem) ha
      · exact .inr (ih h)
      · exact absurd h.1 (by simpa using ha.symm)
    -- A pair at the seam begins with `c`, and doubling keeps the character that comes next.
    · rw [if_neg hc] at h
      rcases pair_infix_append.1 h with h | h | h
      · exact absurd h (not_pair_infix_singleton c)
      · exact .inr (ih h)
      · obtain ⟨h₁, h₂⟩ := h
        rw [head?_doubled] at h₂
        obtain ⟨r, rfl⟩ := List.head?_eq_some_iff.1 h₂
        obtain rfl : c = a := by simpa using h₁
        exact .inl ⟨r, rfl⟩

/-- A pair of other characters in a quoted text stands in the text. -/
theorem not_pair_infix_enclosed {q a d : Char} (ha : a ≠ q) (hd : d ≠ q) {s : List Char}
    (h : ¬[a, d] <:+: s) : ¬[a, d] <:+: (enclosed q s).toList := by
  have hquote : a ∉ [q] ∧ d ∉ [q] := by simp [ha, hd]
  have hbody : ¬[a, d] <:+: doubled q s := fun hi => h (pair_infix_doubled ha hi)
  rw [toList_enclosed]
  exact not_pair_infix_after (not_pair_infix_before (x := [q]) hquote.1 hbody) hquote.1 hquote.2

/-- Doubled quotes are not seen by a reader of comment marks. -/
theorem scanComments_doubled {q : Char} (hslash : q ≠ '/') (hstar : q ≠ '*') (isOpen : Bool)
    (s : List Char) : scanComments isOpen (doubled q s) = scanComments isOpen s := by
  have hq (o : Bool) (r : List Char) : scanComments o (q :: r) = scanComments o r :=
    scanComments_cons o (fun e => absurd e hslash) fun e => absurd e hstar
  fun_induction scanComments isOpen s with
  | case1 isOpen => rfl
  | case2 r => simp [doubled_cons, hslash.symm, hstar.symm, scanComments]
  | case3 isOpen r ho ih => simp [doubled_cons, hslash.symm, hstar.symm, scanComments, ho, ih]
  | case4 r ih => simp [doubled_cons, hslash.symm, hstar.symm, scanComments, ih]
  | case5 isOpen r ho => simp [doubled_cons, hslash.symm, hstar.symm, scanComments, ho]
  | case6 isOpen c r hopen hclose ih =>
    rw [doubled_cons]
    split_ifs with hc
    -- Quotes are passed over, once or twice.
    · rw [List.cons_append, List.singleton_append, hq, hq, ih]
    · rw [List.singleton_append, scanComments_cons, ih]
      · intro hcs hr
        rw [head?_doubled] at hr
        obtain ⟨r', hr'⟩ := List.head?_eq_some_iff.1 hr
        exact hopen r' hcs hr'
      · intro hcs hr
        rw [head?_doubled] at hr
        obtain ⟨r', hr'⟩ := List.head?_eq_some_iff.1 hr
        exact hclose r' hcs hr'

/-! ## Phrases -/

/-- The comments of the text are closed and none of them is nested; a text that stands in a comment
itself has no marks at all. -/
def Tame : Bool → List Char → Prop
  | false, x => MarkFree x
  | true, x => scanComments false x = some false

variable {b : Bool}

/-- A text without marks is tame. -/
theorem MarkFree.tame (h : MarkFree x) : Tame b x := by
  cases b with
  | false => exact h
  | true => exact scanComments_of_markFree false h

/-- Tame texts may meet where no mark arises. -/
theorem Tame.append (hx : Tame b x) (hy : Tame b y) (h : MarkSeam x y) : Tame b (x ++ y) := by
  cases b with
  | false => exact MarkFree.append hx hy h
  | true =>
    have hx' : scanComments false x = some false := hx
    show scanComments false (x ++ y) = some false
    rw [scanComments_append false h, hx']
    exact hy

/-- A text without slashes and stars may stand between two tame texts. -/
theorem Tame.between {sep : List Char} (hx : Tame b x) (hy : Tame b y)
    (hsep : '/' ∉ sep ∧ '*' ∉ sep) (hne : sep ≠ []) : Tame b (x ++ sep ++ y) := by
  have hright : Tame b (sep ++ y) := (MarkFree.of_not_mem hsep).tame.append hy (.of_left hsep)
  have hseam : MarkSeam x (sep ++ y) := by
    obtain ⟨c, r, rfl⟩ := List.exists_cons_of_ne_nil hne
    have h : MarkSeam x (c :: r) := .of_right hsep
    simpa [MarkSeam] using h
  rw [List.append_assoc]
  exact hx.append hright hseam

/-- Texts without slashes and stars may stand around a tame text. -/
theorem Tame.inside {l r : List Char} (hx : Tame b x) (hl : '/' ∉ l ∧ '*' ∉ l)
    (hr : '/' ∉ r ∧ '*' ∉ r) : Tame b (l ++ x ++ r) :=
  ((MarkFree.of_not_mem hl).tame.append hx (.of_left hl)).append (MarkFree.of_not_mem hr).tame
    (.of_right hr)

/-- Slashes and stars are not inert. -/
theorem marks_not_mem_of_isSeparator {w : String} (h : isSeparator w = true) :
    '/' ∉ w.toList ∧ '*' ∉ w.toList := by
  simp only [isSeparator, Bool.and_eq_true, List.all_eq_true] at h
  constructor
  · intro hmem
    exact absurd (h.1.2 _ hmem) (by decide)
  · intro hmem
    exact absurd (h.1.2 _ hmem) (by decide)

/-- A quoted text has the marks that stand in it. -/
theorem markFree_enclosed {q : Char} {s : List Char} (hq : q = '"' ∨ q = '\'')
    (h : MarkFree s) : MarkFree (enclosed q s).toList := by
  have hslash : '/' ≠ q := by rcases hq with rfl | rfl <;> decide
  have hstar : '*' ≠ q := by rcases hq with rfl | rfl <;> decide
  exact ⟨not_pair_infix_enclosed hslash hstar h.1, not_pair_infix_enclosed hstar hslash h.2⟩

/-- A comment around a text without marks is closed and not nested. -/
theorem tame_comment {c : Char} (hslash : c ≠ '/') (hstar : c ≠ '*') (h : MarkFree x) :
    Tame true (['/', '*', c] ++ x ++ [c, '*', '/']) := by
  have hright : MarkSeam x [c, '*', '/'] := ⟨by simp [hstar], by simp [hslash]⟩
  -- The reader goes in at the front, over the text, and out at the end.
  have hopen : scanComments false ['/', '*', c] = some true := by simp [scanComments]
  have hclose : scanComments true [c, '*', '/'] = some false := by
    rw [scanComments_cons true (by simp [hslash]) (by simp [hstar])]
    rfl
  show scanComments false _ = some false
  rw [List.append_assoc, scanComments_append false ⟨by simp [hslash], by simp [hstar]⟩, hopen,
    Option.bind_some, scanComments_append true hright, scanComments_of_markFree true h,
    Option.bind_some, hclose]

/-- A text that is commented out has no open comment. -/
theorem tame_commented {s : String} (h : MarkFree s.toList) : Tame true (commented s).toList := by
  unfold commented
  split_ifs
  · have hblock := tame_comment (by decide : '\n' ≠ '/') (by decide) h
    have heq : ("/*\n" ++ s ++ "\n*/").toList =
        ['/', '*', '\n'] ++ s.toList ++ ['\n', '*', '/'] := by simp
    rwa [heq]
  · have hline : '/' ∉ "-- ".toList ∧ '*' ∉ "-- ".toList := by decide
    rw [String.toList_append]
    exact ((MarkFree.of_not_mem hline).append h (.of_left hline)).tame

theorem tame_commentedInline {s : String} (h : MarkFree s.toList) :
    Tame true (commentedInline s).toList := by
  have hinline := tame_comment (by decide : ' ' ≠ '/') (by decide) h
  have heq : (commentedInline s).toList = ['/', '*', ' '] ++ s.toList ++ [' ', '*', '/'] := by
    simp [commentedInline]
  rwa [heq]

variable {p : String → Prop} {s : String}

/-- The comments of a phrase are closed and not nested when the given texts have no marks. -/
theorem Phrase.tame (hp : ∀ t, p t → MarkFree t.toList) (h : Phrase p b s) : Tame b s.toList := by
  induction h with
  | word hw =>
    exact (MarkFree.of_not_mem (marks_not_mem_of_isSeparator (isSeparator_of_isWord hw))).tame
  | star => exact MarkFree.tame ⟨by decide, by decide⟩
  | given hs => exact (hp _ hs).tame
  | quoted hq hs => exact (markFree_enclosed hq (hp _ hs)).tame
  | lead hw _ ih =>
    have hmarks := marks_not_mem_of_isSeparator (isSeparator_of_isWord hw)
    rw [String.toList_append]
    exact (MarkFree.of_not_mem hmarks).tame.append ih (.of_left hmarks)
  | trail _ hw ih =>
    have hmarks := marks_not_mem_of_isSeparator (isSeparator_of_isWord hw)
    rw [String.toList_append]
    exact ih.append (MarkFree.of_not_mem hmarks).tame (.of_right hmarks)
  -- A separator keeps the marks of both sides apart, which needs that it is not empty.
  | @glue _ x sep y _ hsep _ ihx ihy =>
    have hne : sep.toList ≠ [] := by
      rw [Ne, String.toList_eq_nil_iff]
      rintro rfl
      exact absurd hsep (by decide)
    rw [String.toList_append, String.toList_append]
    exact ihx.between ihy (marks_not_mem_of_isSeparator hsep) hne
  | paren _ ih =>
    rw [String.toList_append, String.toList_append]
    exact ih.inside (by decide) (by decide)
  | block _ ih =>
    rw [String.toList_append, String.toList_append]
    exact ih.inside (by decide) (by decide)
  | hollow => exact MarkFree.tame ⟨by decide, by decide⟩
  | hollowBlock => exact MarkFree.tame ⟨by decide, by decide⟩
  | call _ _ ihx ihy =>
    have hclose : '/' ∉ ")".toList ∧ '*' ∉ ")".toList := by decide
    simp only [String.toList_append]
    exact (ihx.between ihy (by decide) (by decide)).append (MarkFree.of_not_mem hclose).tame
      (.of_right hclose)
  | comment _ ih => exact tame_commentedInline ih

end SchemaDelta.Sql
