import SchemaDelta.Proofs.Sql.Live

/-!
# The names in a text

A reader that minds quotes: in a quoted name there is no comment and no parenthesis, and in a
comment there is no name. `columnLists` gives the names between each two parentheses.
`ReadsNames x names` says that the names are read in `x` wherever it stands, and it is closed under
the ways to write a list of names with a comment at its end.
-/

namespace SchemaDelta.Sql

open Text

/-! ## Reading -/

/-- What stands outside of the comments: a quoted name, or another character. -/
inductive Lexeme where
  | name (s : String)
  | char (c : Char)
deriving DecidableEq

/-- The name, if it is one. -/
def Lexeme.name? : Lexeme → Option String
  | .name s => some s
  | .char _ => none

/-- Where a reader stands that minds quotes. What has been read of a name is kept in reverse. -/
inductive LexState where
  | live
  | quoted (front : List Char)
  | line
  | block

/-- The names and the other characters that are in no comment. -/
def lexemesFrom : LexState → List Char → List Lexeme
  | _, [] => []
  | .live, '-' :: '-' :: r => lexemesFrom .line r
  | .live, '/' :: '*' :: r => lexemesFrom .block r
  | .live, '"' :: r => lexemesFrom (.quoted []) r
  | .live, c :: r => .char c :: lexemesFrom .live r
  | .quoted front, '"' :: '"' :: r => lexemesFrom (.quoted ('"' :: front)) r
  | .quoted front, '"' :: r => .name (String.ofList front.reverse) :: lexemesFrom .live r
  | .quoted front, c :: r => lexemesFrom (.quoted (c :: front)) r
  | .line, '\n' :: r => .char '\n' :: lexemesFrom .live r
  | .line, _ :: r => lexemesFrom .line r
  | .block, '*' :: '/' :: r => lexemesFrom .live r
  | .block, _ :: r => lexemesFrom .block r

/-- The names and the other characters of a text without its comments. -/
def lexemes (s : List Char) : List Lexeme :=
  lexemesFrom .live s

/-- What stands between each opening parenthesis and the next closing one. -/
def groups : List Lexeme → List (List Lexeme)
  | [] => []
  | l :: r => if l = .char '(' then r.takeWhile (· ≠ .char ')') :: groups r else groups r

/-- The names in each pair of parentheses, without those in comments. -/
def columnLists (text : String) : List (List String) :=
  (groups (lexemes text.toList)).map fun g => g.filterMap Lexeme.name?

/-! ## Names, comments and what stands between them -/

section

variable {x y : List Char}

/-- Characters that begin no name and no comment stand for themselves. -/
theorem lexemes_append_of_not_mem (hquote : '"' ∉ x) (hslash : '/' ∉ x) (hdash : '-' ∉ x) :
    lexemes (x ++ y) = x.map Lexeme.char ++ lexemes y := by
  induction x with
  | nil => rfl
  | cons c r ih =>
    simp only [List.mem_cons, not_or] at hquote hslash hdash
    have hstep : lexemes (c :: (r ++ y)) = .char c :: lexemes (r ++ y) := by
      rw [lexemes, lexemesFrom, lexemes]
      · exact fun _ e _ => hdash.1 e.symm
      · exact fun _ e _ => hslash.1 e.symm
      · exact fun e => hquote.1 e.symm
    rw [List.cons_append, hstep, ih hquote.2 hslash.2 hdash.2, List.map_cons, List.cons_append]

/-- A name goes on to the first quote that is not doubled. -/
theorem lexemesFrom_doubled (hy : y.head? ≠ some '"') (front : List Char) :
    lexemesFrom (.quoted front) (doubled '"' x ++ '"' :: y) =
      .name (String.ofList (front.reverse ++ x)) :: lexemes y := by
  induction x generalizing front with
  | nil =>
    rw [doubled_nil, List.nil_append, lexemesFrom, List.append_nil, lexemes]
    rintro r rfl
    exact hy rfl
  | cons c r ih =>
    have hkeep : (c :: front).reverse ++ r = front.reverse ++ c :: r := by simp
    rw [doubled_cons]
    split_ifs with hc
    -- Two quotes are read in one step and stand for one.
    · subst hc
      rw [← hkeep, ← ih]
      rfl
    · rw [List.cons_append, List.nil_append, List.cons_append, lexemesFrom, ih, hkeep]
      · exact fun _ e _ => hc e
      · exact hc

/-- A quoted name is read, if no other quote follows. -/
theorem lexemes_quote (name : String) (hy : y.head? ≠ some '"') :
    lexemes ((quote name).toList ++ y) = .name (trim name) :: lexemes y := by
  rw [quote, toList_enclosed, List.cons_append, List.cons_append, List.append_assoc,
    List.singleton_append, lexemes, lexemesFrom]
  exact lexemesFrom_doubled hy []

/-- Nothing is read in a comment around a text without an end mark. -/
theorem lexemes_commentedInline {s : String} (hs : ¬['*', '/'] <:+: s.toList) (y : List Char) :
    lexemes ((commentedInline s).toList ++ y) = lexemes y := by
  have hstep (c : Char) (r : List Char) (hmark : ¬['*', '/'] <+: c :: r) :
      lexemesFrom .block (c :: r) = lexemesFrom .block r := by
    rw [lexemesFrom]
    rintro r' rfl rfl
    exact hmark ⟨r', rfl⟩
  calc lexemes ((commentedInline s).toList ++ y)
      = lexemesFrom .block (' ' :: s.toList ++ [' '] ++ '*' :: '/' :: y) := by
        simp [commentedInline, lexemes, lexemesFrom]
    _ = lexemesFrom .block ('*' :: '/' :: y) :=
        skip_comment hstep (by decide) (by decide) hs y
    _ = lexemes y := rfl

end

/-! ## Texts with names -/

/-- The text is not empty, and no name, no comment and no list begins or ends in it. -/
def isFiller (w : String) : Bool :=
  w ≠ "" && w.toList.all fun c => c ≠ '"' && c ≠ '/' && c ≠ '-' && c ≠ '(' && c ≠ ')'

/-- The names are read in `x` wherever it stands, unless a quote follows, which would go on with the
last one. There is no parenthesis between them. -/
def ReadsNames (x : String) (names : List String) : Prop :=
  ∃ l : List Lexeme, .char '(' ∉ l ∧ .char ')' ∉ l ∧ l.filterMap Lexeme.name? = names ∧
    ∀ y : List Char, y.head? ≠ some '"' → lexemes (x.toList ++ y) = l ++ lexemes y

namespace ReadsNames

variable {x y g s : String} {xs ys : List String}

theorem empty : ReadsNames "" [] :=
  ⟨[], by simp, by simp, rfl, fun _ _ => rfl⟩

/-- A name is read without the blank characters around it. -/
theorem quote (name : String) : ReadsNames (quote name) [trim name] :=
  ⟨[.name (trim name)], by simp, by simp, rfl, fun _ hy => lexemes_quote name hy⟩

/-- In a comment no names are read. -/
theorem comment (hs : ¬['*', '/'] <:+: s.toList) : ReadsNames (commentedInline s) [] :=
  ⟨[], by simp, by simp, rfl, fun y _ => lexemes_commentedInline hs y⟩

/-- Two texts with something between them have the names of both. -/
theorem glue (hx : ReadsNames x xs) (hg : isFiller g = true) (hy : ReadsNames y ys) :
    ReadsNames (x ++ g ++ y) (xs ++ ys) := by
  obtain ⟨l, hlopen, hlclose, rfl, hl⟩ := hx
  obtain ⟨m, hmopen, hmclose, rfl, hm⟩ := hy
  simp only [isFiller, Bool.and_eq_true, List.all_eq_true, decide_eq_true_eq] at hg
  obtain ⟨hne, hall⟩ := hg
  have hmark {c : Char} (hc : c = '"' ∨ c = '/' ∨ c = '-' ∨ c = '(' ∨ c = ')') :
      c ∉ g.toList := by
    intro hmem
    have hother := hall c hmem
    rcases hc with rfl | rfl | rfl | rfl | rfl <;> exact absurd hother (by decide)
  have hquote : '"' ∉ g.toList := hmark (by decide)
  refine ⟨l ++ g.toList.map Lexeme.char ++ m, ?_, ?_, ?_, fun z hz => ?_⟩
  · simpa [hlopen, hmopen] using hmark (c := '(') (by decide)
  · simpa [hlclose, hmclose] using hmark (c := ')') (by decide)
  · have hchars : (g.toList.map Lexeme.char).filterMap Lexeme.name? = [] := by
      simp [List.filterMap_map, Function.comp_def, Lexeme.name?]
    rw [List.filterMap_append, List.filterMap_append, hchars, List.append_nil]
  · -- The name at the end of the first text ends where the filler begins.
    have hhead : (g.toList ++ (y.toList ++ z)).head? ≠ some '"' := by
      obtain ⟨c, r, hcr⟩ := List.exists_cons_of_ne_nil (l := g.toList) (by simpa using hne)
      rw [hcr] at hquote ⊢
      intro e
      obtain rfl : c = '"' := by simpa using e
      exact hquote List.mem_cons_self
    calc lexemes ((x ++ g ++ y).toList ++ z)
        = lexemes (x.toList ++ (g.toList ++ (y.toList ++ z))) := by
          simp only [String.toList_append, List.append_assoc]
      _ = l ++ (g.toList.map Lexeme.char ++ (m ++ lexemes z)) := by
          rw [hl _ hhead,
            lexemes_append_of_not_mem hquote (hmark (by decide)) (hmark (by decide)), hm z hz]
      _ = l ++ g.toList.map Lexeme.char ++ m ++ lexemes z := by simp only [List.append_assoc]

theorem lead (hg : isFiller g = true) (hx : ReadsNames x xs) : ReadsNames (g ++ x) xs := by
  simpa using empty.glue hg hx

theorem trail (hx : ReadsNames x xs) (hg : isFiller g = true) : ReadsNames (x ++ g) xs := by
  simpa using hx.glue hg empty

/-- A text of its own without names. -/
theorem filler (hg : isFiller g = true) : ReadsNames g [] := by
  simpa using empty.trail hg

/-- A list of names is read name by name. -/
theorem join_quote (hg : isFiller g = true) (names : List String) :
    ReadsNames (join g (names.map Sql.quote)) (names.map trim) := by
  induction names with
  | nil => exact empty
  | cons n names ih =>
    cases names with
    | nil => exact quote n
    | cons m names =>
      rw [List.map_cons, List.map_cons, join_cons_cons]
      exact (quote n).glue hg ih

end ReadsNames

/-! ## Lists -/

section

variable {l m r : List Lexeme}

/-- No list begins without an opening parenthesis. -/
theorem groups_append (h : .char '(' ∉ l) : groups (l ++ m) = groups m := by
  induction l with
  | nil => rfl
  | cons e l ih =>
    simp only [List.mem_cons, not_or] at h
    rw [List.cons_append, groups, if_neg (Ne.symm h.1), ih h.2]

/-- A list goes from its parenthesis to the next closing one. -/
theorem groups_paren (hopen : .char '(' ∉ m) (hclose : .char ')' ∉ m) :
    groups (.char '(' :: (m ++ .char ')' :: r)) = m :: groups r := by
  have hinside : ∀ e ∈ m, decide (e ≠ .char ')') = true := fun e he =>
    decide_eq_true fun h => hclose (h ▸ he)
  have hlist : (m ++ .char ')' :: r).takeWhile (· ≠ .char ')') = m := by
    rw [List.takeWhile_append_of_pos hinside]
    simp
  -- The search goes on inside of the list, where nothing opens, and over its end.
  have hrest : groups (.char ')' :: r) = groups r := groups_append (l := [.char ')']) (by simp)
  rw [groups, if_pos rfl, hlist, groups_append hopen, hrest]

end

variable {x h : String} {xs hs : List String}

/-- A text without parentheses has no list. -/
theorem columnLists_of_readsNames (hx : ReadsNames x xs) : columnLists x = [] := by
  obtain ⟨l, hopen, -, -, hl⟩ := hx
  have hread : lexemes x.toList = l ++ [] := by simpa [lexemes, lexemesFrom] using hl [] (by simp)
  rw [columnLists, hread, groups_append hopen]
  rfl

/-- The first list of a text stands between its first parentheses. -/
theorem columnLists_paren (hh : ReadsNames h hs) (hx : ReadsNames x xs) (r : String) :
    columnLists (h ++ "(" ++ x ++ ")" ++ r) = xs :: columnLists r := by
  obtain ⟨l, hlopen, -, -, hl⟩ := hh
  obtain ⟨m, hmopen, hmclose, rfl, hm⟩ := hx
  have hread : lexemes (h ++ "(" ++ x ++ ")" ++ r).toList =
      l ++ .char '(' :: (m ++ .char ')' :: lexemes r.toList) := by
    calc lexemes (h ++ "(" ++ x ++ ")" ++ r).toList
        = lexemes (h.toList ++ '(' :: (x.toList ++ ')' :: r.toList)) := by simp
      _ = l ++ .char '(' :: lexemes (x.toList ++ ')' :: r.toList) := hl _ (by simp)
      _ = l ++ .char '(' :: (m ++ .char ')' :: lexemes r.toList) := by
        rw [hm _ (by simp)]
        rfl
  rw [columnLists, hread, groups_append hlopen, groups_paren hmopen hmclose]
  rfl

end SchemaDelta.Sql
