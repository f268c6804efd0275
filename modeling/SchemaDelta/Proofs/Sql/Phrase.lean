import Mathlib.Tactic.SplitIfs
import SchemaDelta.Proofs.Sql.Forms
import SchemaDelta.Proofs.Text.Pairs
import SchemaDelta.Sql.Fragment
import SchemaDelta.Sql.Name
import SchemaDelta.Text.Digits

/-!
# Phrases

The clauses of a statement are built in few ways: fixed words, texts from outside, quoted names and
literals, and larger clauses that are put together by separators and parentheses. A `Phrase` is a
text that is built so, and what is said of the texts from outside carries over to all of it by
induction. Nothing in a phrase is empty, so no two separators meet.
-/

namespace SchemaDelta.Sql

open Text

/-! ## Fixed texts -/

/-- The character is no line feed and no part of a comment mark or a parenthesis. -/
def inert (c : Char) : Bool :=
  c ≠ '\n' && c ≠ '/' && c ≠ '*' && c ≠ '-' && c ≠ '(' && c ≠ ')'

/-- The text is a line of inert characters. -/
def isWord (w : String) : Bool :=
  w ≠ "" && w.toList.all inert

/-- The text is made of inert characters and line feeds, without a blank line. -/
def isSeparator (w : String) : Bool :=
  w ≠ "" && (w.toList.all fun c => c = '\n' || inert c) && !containsChars ['\n', '\n'] w.toList

/-- A word separates as well. -/
theorem isSeparator_of_isWord {w : String} (h : isWord w = true) : isSeparator w = true := by
  simp only [isWord, Bool.and_eq_true, List.all_eq_true, decide_eq_true_eq] at h
  obtain ⟨hne, hall⟩ := h
  -- Inert characters are no line feeds, so there is not even one of the two.
  have hbreak : containsChars ['\n', '\n'] w.toList = false := by
    rw [Bool.eq_false_iff, Ne, containsChars_iff]
    refine not_pair_infix_of_left fun hmem => ?_
    exact absurd (hall _ hmem) (by decide)
  have hchars : (w.toList.all fun c => c = '\n' || inert c) = true := by
    rw [List.all_eq_true]
    intro c hc
    rw [hall c hc, Bool.or_true]
  simp [isSeparator, hne, hchars, hbreak]

/-- Decimal digits are inert. -/
theorem inert_of_isDigit {c : Char} (hc : c.isDigit = true) : inert c = true := by
  have h {d : Char} (hd : d.isDigit = false) : c ≠ d := by
    rintro rfl
    simp [hc] at hd
  simp [inert, h (by decide : '\n'.isDigit = false), h (by decide : '/'.isDigit = false),
    h (by decide : '*'.isDigit = false), h (by decide : '-'.isDigit = false),
    h (by decide : '('.isDigit = false), h (by decide : ')'.isDigit = false)]

/-- A natural number is written as a word. -/
theorem isWord_showNat (n : Nat) : isWord (showNat n) = true := by
  have hne : showNat n ≠ "" := Nat.repr_ne_empty
  have hall : (showNat n).toList.all inert = true := by
    rw [List.all_eq_true, showNat, Nat.toList_repr]
    intro c hc
    exact inert_of_isDigit (Nat.isDigit_of_mem_toDigits (by decide : 0 < 10) (by decide) hc)
  simp [isWord, hne, hall]

/-! ## Phrases -/

/-- The texts that are built from given texts with the property `p`. The flag allows inline
comments, which hold phrases without comments of their own. -/
inductive Phrase (p : String → Prop) : Bool → String → Prop where
  | word {b : Bool} {w : String} (hw : isWord w = true) : Phrase p b w
  | star {b : Bool} : Phrase p b "*"
  | given {b : Bool} {s : String} (hs : p s) (hne : s ≠ "") : Phrase p b s
  | quoted {b : Bool} {q : Char} {s : String} (hq : q = '"' ∨ q = '\'') (hs : p s) :
    Phrase p b (enclosed q s.toList)
  | lead {b : Bool} {w x : String} (hw : isWord w = true) (hx : Phrase p b x) :
    Phrase p b (w ++ x)
  | trail {b : Bool} {x w : String} (hx : Phrase p b x) (hw : isWord w = true) :
    Phrase p b (x ++ w)
  | glue {b : Bool} {x sep y : String} (hx : Phrase p b x) (hsep : isSeparator sep = true)
    (hy : Phrase p b y) : Phrase p b (x ++ sep ++ y)
  | paren {b : Bool} {x : String} (hx : Phrase p b x) : Phrase p b ("(" ++ x ++ ")")
  | block {b : Bool} {x : String} (hx : Phrase p b x) : Phrase p b ("(\n\t" ++ x ++ "\n)")
  | hollow {b : Bool} : Phrase p b "()"
  | hollowBlock {b : Bool} : Phrase p b "(\n\t\n)"
  | call {b : Bool} {x y : String} (hx : Phrase p b x) (hy : Phrase p b y) :
    Phrase p b (x ++ "(" ++ y ++ ")")
  | comment {x : String} (hx : Phrase p false x) : Phrase p true (commentedInline x)

/-- The text is a phrase or empty. -/
def OptPhrase (p : String → Prop) (b : Bool) (s : String) : Prop :=
  s = "" ∨ Phrase p b s

variable {p : String → Prop} {b : Bool} {s x y sep : String}

/-- A phrase may be put together in another order. -/
theorem Phrase.of_toList (h : Phrase p b x) (heq : s.toList = x.toList) : Phrase p b s := by
  rwa [String.toList_inj.1 heq]

/-- A phrase without comments may stand where comments are allowed. -/
theorem Phrase.mono {b c : Bool} {s : String} (h : Phrase p b s) (hbc : b = true → c = true) :
    Phrase p c s := by
  induction h with
  | word hw => exact .word hw
  | star => exact .star
  | given hs hne => exact .given hs hne
  | quoted hq hs => exact .quoted hq hs
  | lead hw _ ih => exact .lead hw (ih hbc)
  | trail _ hw ih => exact .trail (ih hbc) hw
  | glue _ hsep _ ihx ihy => exact .glue (ihx hbc) hsep (ihy hbc)
  | paren _ ih => exact .paren (ih hbc)
  | block _ ih => exact .block (ih hbc)
  | hollow => exact .hollow
  | hollowBlock => exact .hollowBlock
  | call _ _ ihx ihy => exact .call (ihx hbc) (ihy hbc)
  -- Only this case has the flag set.
  | comment hx _ =>
    obtain rfl := hbc rfl
    exact .comment hx

/-- A phrase without comments is a phrase. -/
theorem Phrase.of_false (h : Phrase p false s) : Phrase p b s :=
  h.mono (by simp)

/-- No phrase is empty. -/
theorem Phrase.ne_empty (h : Phrase p b s) : s ≠ "" := by
  induction h with
  | word hw =>
    rintro rfl
    exact absurd hw (by decide)
  | star => decide
  | given _ hne => exact hne
  | quoted => simp [enclosed]
  | lead _ _ ih => simp [ih]
  | trail _ _ ih => simp [ih]
  | glue _ _ _ ih _ => simp [ih]
  | paren => simp
  | block => simp
  | hollow => decide
  | hollowBlock => decide
  | call => simp
  | comment => simp [commentedInline]

namespace OptPhrase

theorem empty : OptPhrase p b "" := .inl rfl

theorem of_phrase (h : Phrase p b s) : OptPhrase p b s := .inr h

theorem mono {b c : Bool} (h : OptPhrase p b s) (hbc : b = true → c = true) :
    OptPhrase p c s :=
  h.imp id fun h => h.mono hbc

/-- A text that may be missing is a phrase unless it is. -/
theorem given (h : p s) : OptPhrase p b s := by
  by_cases hs : s = ""
  · exact .inl hs
  · exact .inr (.given h hs)

/-- The value that is absent is empty. -/
theorem getD {o : Option String} (h : ∀ t ∈ o, OptPhrase p b t) :
    OptPhrase p b (o.getD "") := by
  cases o with
  | none => exact empty
  | some t => exact h t rfl

/-- A word before a text that may be missing. -/
theorem lead (hy : isWord y = true) (h : OptPhrase p b s) : Phrase p b (y ++ s) := by
  rcases h with rfl | h
  · rw [String.append_empty]
    exact .word hy
  · exact .lead hy h

/-- A word after a text that may be missing. -/
theorem trail (h : OptPhrase p b s) (hy : isWord y = true) : Phrase p b (s ++ y) := by
  rcases h with rfl | h
  · rw [String.empty_append]
    exact .word hy
  · exact .trail h hy

/-- A keyword that stands only where a condition holds. -/
theorem flag (on : Bool) (hy : isWord y = true) : OptPhrase p b (if on then y else "") := by
  cases on with
  | false => exact empty
  | true => exact of_phrase (.word hy)

/-- The parentheses of a list stay where the list is empty. -/
theorem paren (h : OptPhrase p b s) : Phrase p b ("(" ++ s ++ ")") := by
  rcases h with rfl | h
  · exact .hollow
  · exact .paren h

/-- The block of a body stays where the body is empty. -/
theorem block (h : OptPhrase p b s) : Phrase p b ("(\n\t" ++ s ++ "\n)") := by
  rcases h with rfl | h
  · exact .hollowBlock
  · exact .block h

end OptPhrase

/-! ## Optional clauses -/

/-- An optional clause in front brings its separator along. -/
theorem Phrase.framed_left (hw : isWord y = true) (hsep : isSeparator sep = true)
    (hs : OptPhrase p b s) (hx : Phrase p b x) : Phrase p b (framed y s sep ++ x) := by
  rcases hs with rfl | hs
  · rw [framed_empty, String.empty_append]
    exact hx
  · rw [framed_of_ne hs.ne_empty]
    exact .glue (.lead hw hs) hsep hx

/-- An optional clause at the end brings its separator along. -/
theorem Phrase.framed_right (hx : Phrase p b x) (hsep : isSeparator sep = true)
    (hs : OptPhrase p b s) : Phrase p b (x ++ framed sep s "") := by
  rcases hs with rfl | hs
  · rw [framed_empty, String.append_empty]
    exact hx
  · rw [framed_of_ne hs.ne_empty, String.append_empty, ← String.append_assoc]
    exact .glue hx hsep hs

/-- An optional body at the end brings its block along. -/
theorem Phrase.framed_block (hx : Phrase p b x) (hs : OptPhrase p b s) :
    Phrase p b (x ++ framed "\n(\n\t" s "\n)") := by
  rcases hs with rfl | hs
  · rw [framed_empty, String.append_empty]
    exact hx
  · have h := Phrase.glue hx (by decide : isSeparator "\n" = true) (.block hs)
    rw [framed_of_ne hs.ne_empty]
    exact h.of_toList (by simp)

/-- An optional argument at the end brings its parentheses along. -/
theorem Phrase.framed_call (hx : Phrase p b x) (hs : OptPhrase p b s) :
    Phrase p b (x ++ framed "(" s ")") := by
  rcases hs with rfl | hs
  · rw [framed_empty, String.append_empty]
    exact hx
  · have h := Phrase.call hx hs
    rwa [framed_of_ne hs.ne_empty, ← String.append_assoc, ← String.append_assoc]

end SchemaDelta.Sql
