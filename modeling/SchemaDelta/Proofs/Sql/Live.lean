import Mathlib.Data.List.Forall2
import SchemaDelta.Proofs.Sql.Lists
import SchemaDelta.Proofs.Sql.Parts

/-!
# What is left of a text without its comments

A reader drops the comments of a text from left to right. `Reads x l` says that `l` is left of `x`
wherever `x` stands, and it is closed under the ways to build clauses: a phrase without comments is
left as it is, of a comment nothing is left, and the separators between two texts keep the marks of
one from meeting those of the other.
-/

namespace SchemaDelta.Sql

open Text

/-! ## Texts without comments -/

/-- The text is not empty and has no half of a comment mark. -/
def isGap (w : String) : Bool :=
  w ≠ "" && w.toList.all fun c => c ≠ '/' && c ≠ '*' && c ≠ '-'

/-- Separators have no half of a comment mark. -/
theorem isGap_of_isSeparator {w : String} (h : isSeparator w = true) : isGap w = true := by
  simp only [isSeparator, Bool.and_eq_true, List.all_eq_true] at h
  have hall : (w.toList.all fun c => c ≠ '/' && c ≠ '*' && c ≠ '-') = true := by
    rw [List.all_eq_true]
    intro c hc
    have hinert : c = '\n' ∨ inert c = true := by simpa using h.1.2 c hc
    rcases hinert with rfl | hinert
    · decide
    · simp only [inert, Bool.and_eq_true] at hinert
      simp [hinert.1.1.1.1.2, hinert.1.1.1.2, hinert.1.1.2]
  rw [isGap, hall, Bool.and_true]
  exact h.1.1

theorem ne_empty_of_isGap {w : String} (h : isGap w = true) : w ≠ "" := by
  simpa using (Bool.and_eq_true_iff.1 h).1

theorem not_mem_of_isGap {w : String} (h : isGap w = true) :
    '/' ∉ w.toList ∧ '*' ∉ w.toList ∧ '-' ∉ w.toList := by
  simp only [isGap, Bool.and_eq_true, List.all_eq_true] at h
  refine ⟨fun hmem => ?_, fun hmem => ?_, fun hmem => ?_⟩ <;>
    exact absurd (h.2 _ hmem) (by decide)

variable {p : String → Prop} {b : Bool} {s : String}

/-- The dashes of a quoted text are those that stand in it. -/
theorem no_dashes_enclosed {q : Char} {s : List Char} (hq : q = '"' ∨ q = '\'')
    (h : ¬['-', '-'] <:+: s) : ¬['-', '-'] <:+: (enclosed q s).toList := by
  have hdash : '-' ≠ q := by rcases hq with rfl | rfl <;> decide
  exact not_pair_infix_enclosed hdash hdash h

/-- A phrase has no two dashes when the given texts have none. -/
theorem Phrase.no_dashes (hp : ∀ t, p t → ¬['-', '-'] <:+: t.toList) (h : Phrase p b s) :
    ¬['-', '-'] <:+: s.toList := by
  have hword {w : String} (hw : isWord w = true) : '-' ∉ w.toList :=
    (not_mem_of_isGap (isGap_of_isSeparator (isSeparator_of_isWord hw))).2.2
  induction h with
  | word hw => exact not_pair_infix_of_left (hword hw)
  | star => decide
  | given hs => exact hp _ hs
  | quoted hq hs => exact no_dashes_enclosed hq (hp _ hs)
  | lead hw _ ih =>
    rw [String.toList_append]
    exact not_pair_infix_before (hword hw) ih
  | trail _ hw ih =>
    rw [String.toList_append]
    exact not_pair_infix_after ih (hword hw) (hword hw)
  | glue _ hsep _ ihx ihy =>
    have hgap := isGap_of_isSeparator hsep
    have hne := ne_empty_of_isGap hgap
    have hdash := (not_mem_of_isGap hgap).2.2
    rw [String.toList_append, String.toList_append]
    exact not_pair_infix_between ihx hdash hdash (by simpa using hne) ihy
  | paren _ ih =>
    rw [String.toList_append, String.toList_append]
    exact not_pair_infix_after (not_pair_infix_before (by decide) ih) (by decide) (by decide)
  | block _ ih =>
    rw [String.toList_append, String.toList_append]
    exact not_pair_infix_after (not_pair_infix_before (by decide) ih) (by decide) (by decide)
  | hollow => decide
  | hollowBlock => decide
  | call _ _ ihx ihy =>
    simp only [String.toList_append]
    have hopen := not_pair_infix_between ihx (by decide : '-' ∉ "(".toList) (by decide)
      (by decide) ihy
    exact not_pair_infix_after hopen (by decide) (by decide)
  | comment _ ih =>
    simp only [commentedInline, String.toList_append]
    exact not_pair_infix_after (not_pair_infix_before (by decide) ih) (by decide) (by decide)

/-- A phrase without comments is free of comment marks when the given texts are. -/
theorem Phrase.commentFree (hp : ∀ t, p t → CommentFree t.toList) (h : Phrase p false s) :
    CommentFree s.toList :=
  ⟨h.tame fun t ht => (hp t ht).1, h.no_dashes fun t ht => (hp t ht).2⟩

/-! ## Reading piece by piece -/

section

variable {x y : List Char}

/-- A character that begins no comment is live. -/
theorem liveChars_cons {c : Char} {r : List Char} (hslash : c = '/' → r.head? ≠ some '*')
    (hdash : c = '-' → r.head? ≠ some '-') : liveChars (c :: r) = c :: liveChars r := by
  rw [liveChars_eq_filterMap_parts, parts_cons hslash hdash, liveChars_eq_filterMap_parts]
  rfl

/-- A text without comment marks is live, unless a comment begins at its end. -/
theorem liveChars_append (hx : CommentFree x) (hstar : y.head? ≠ some '*')
    (hdash : y.head? ≠ some '-') : liveChars (x ++ y) = x ++ liveChars y := by
  rw [liveChars_eq_filterMap_parts, parts_append hx hstar hdash, List.filterMap_append,
    filterMap_char?_chars, liveChars_eq_filterMap_parts]

/-- No comment begins in a text without slashes and dashes. -/
theorem liveChars_append_of_not_mem (hslash : '/' ∉ x) (hdash : '-' ∉ x) :
    liveChars (x ++ y) = x ++ liveChars y := by
  rw [liveChars_eq_filterMap_parts, parts_append_of_not_mem hslash hdash, List.filterMap_append,
    filterMap_char?_chars, liveChars_eq_filterMap_parts]

/-- A reader that passes over every character in front of an end mark comes to that of a comment,
whose text stands between two characters that are in no mark. -/
theorem skip_comment {β : Type} {f : List Char → β}
    (hstep : ∀ c r, ¬['*', '/'] <+: c :: r → f (c :: r) = f r) {d : Char} (hstar : d ≠ '*')
    (hslash : d ≠ '/') (hx : ¬['*', '/'] <:+: x) (y : List Char) :
    f (d :: x ++ [d] ++ '*' :: '/' :: y) = f ('*' :: '/' :: y) := by
  obtain ⟨hinner, hlast⟩ := not_endMark_padded hstar hslash hx
  exact skip_of_not_pair_infix hstep hinner hlast

/-- In a block a character that begins no end mark is passed over. -/
theorem charsFrom_block_cons {c : Char} {r : List Char} (h : ¬['*', '/'] <+: c :: r) :
    charsFrom .block (c :: r) = charsFrom .block r := by
  rw [charsFrom]
  rintro r' rfl rfl
  exact h ⟨r', rfl⟩

/-- Of a comment around a text without marks nothing is left. -/
theorem liveChars_commentedInline (hs : MarkFree s.toList) (y : List Char) :
    liveChars ((commentedInline s).toList ++ y) = liveChars y := by
  rw [liveChars_eq_filterMap_parts, parts_commentedInline hs.2, liveChars_eq_filterMap_parts]
  rfl

end

/-! ## Reading a clause -/

/-- Without its comments, `l` is left of `x`, whatever follows that begins no comment mark. -/
def Reads (x l : String) : Prop :=
  ∀ y : List Char, y.head? ≠ some '*' → y.head? ≠ some '-' →
    liveChars (x.toList ++ y) = l.toList ++ liveChars y

/-- Of a clause a clause is left. -/
def ReadsClause (x l : String) : Prop :=
  Reads x l ∧ x ≠ "" ∧ l ≠ ""

namespace Reads

variable {x y l m g : String}

/-- What is left of the text alone. -/
theorem liveChars_eq (h : Reads x l) : liveChars x.toList = l.toList := by
  simpa [liveChars, charsFrom] using h [] (by simp) (by simp)

theorem empty : Reads "" "" := fun _ _ _ => rfl

theorem of_commentFree (h : CommentFree x.toList) : Reads x x :=
  fun _ hstar hdash => liveChars_append h hstar hdash

/-- A phrase without comments is left as it is. -/
theorem of_phrase (hp : ∀ t, p t → CommentFree t.toList) (h : Phrase p false x) : Reads x x :=
  of_commentFree (h.commentFree hp)

/-- Of a comment nothing is left. -/
theorem comment (h : MarkFree x.toList) : Reads (commentedInline x) "" :=
  fun y _ _ => liveChars_commentedInline h y

/-- Two texts are read one after the other where a gap keeps them apart. -/
theorem glue (hx : Reads x l) (hg : isGap g = true) (hy : Reads y m) :
    Reads (x ++ g ++ y) (l ++ g ++ m) := by
  obtain ⟨hslash, hstar, hdash⟩ := not_mem_of_isGap hg
  obtain ⟨c, r, hcr⟩ : ∃ c r, g.toList = c :: r :=
    List.exists_cons_of_ne_nil (by simpa using ne_empty_of_isGap hg)
  -- What follows the first text begins with the gap.
  have hhead {d : Char} (hd : d ∉ g.toList) (z : List Char) :
      (g.toList ++ z).head? ≠ some d := by
    rw [hcr] at hd ⊢
    rintro e
    obtain rfl : c = d := by simpa using e
    exact hd List.mem_cons_self
  intro z hz hz'
  calc liveChars ((x ++ g ++ y).toList ++ z)
      = liveChars (x.toList ++ (g.toList ++ (y.toList ++ z))) := by
        simp only [String.toList_append, List.append_assoc]
    _ = l.toList ++ (g.toList ++ (m.toList ++ liveChars z)) := by
        rw [hx _ (hhead hstar _) (hhead hdash _), liveChars_append_of_not_mem hslash hdash,
          hy z hz hz']
    _ = (l ++ g ++ m).toList ++ liveChars z := by
        simp only [String.toList_append, List.append_assoc]

/-- A gap may stand before a text. -/
theorem lead (hg : isGap g = true) (hx : Reads x l) : Reads (g ++ x) (g ++ l) := by
  simpa using empty.glue hg hx

/-- A gap may stand after a text. -/
theorem trail (hx : Reads x l) (hg : isGap g = true) : Reads (x ++ g) (l ++ g) := by
  simpa using hx.glue hg empty

/-- A text that may be missing brings its separator along. -/
theorem framed_right (hx : Reads x l) (hg : isGap g = true) (hy : Reads y m)
    (hempty : y = "" ↔ m = "") : Reads (x ++ framed g y "") (l ++ framed g m "") := by
  by_cases h : y = ""
  · rw [h, hempty.1 h, framed_empty, String.append_empty, String.append_empty]
    exact hx
  · rw [framed_of_ne h, framed_of_ne fun hm => h (hempty.2 hm), String.append_empty,
      String.append_empty, ← String.append_assoc, ← String.append_assoc]
    exact hx.glue hg hy

/-- A clause without comments that may be missing brings its separator along. -/
theorem append_optPhrase (hp : ∀ t, p t → CommentFree t.toList) (hx : Reads x l)
    (hg : isGap g = true) (hy : OptPhrase p false y) :
    Reads (x ++ framed g y "") (l ++ framed g y "") := by
  rcases hy with rfl | hy
  · simpa using hx
  · exact hx.framed_right hg (of_phrase hp hy) Iff.rfl

/-- A clause without comments may follow. -/
theorem append_tail (hp : ∀ t, p t → CommentFree t.toList) (hx : Reads x l) (ht : Tail p false y) :
    Reads (x ++ y) (l ++ y) := by
  rcases ht with rfl | ⟨sep, z, hsep, hz, rfl⟩
  · rwa [String.append_empty, String.append_empty]
  · rw [← String.append_assoc, ← String.append_assoc]
    exact hx.glue (isGap_of_isSeparator hsep) (of_phrase hp hz)

/-- Texts that are joined are read one by one. -/
theorem join {xs ls : List String} (hg : isGap g = true) (h : List.Forall₂ Reads xs ls) :
    Reads (join g xs) (join g ls) := by
  induction h with
  | nil => exact empty
  | @cons x l xs ls hx h ih =>
    cases h with
    | nil =>
      rw [join_singleton, join_singleton]
      exact hx
    | cons hy h =>
      rw [join_cons_cons, join_cons_cons]
      exact hx.glue hg ih

/-- Clauses that are joined may follow, if there are any. -/
theorem framed_join {sep : String} {xs ls : List String} (hx : Reads x l) (hg : isGap g = true)
    (hsep : isGap sep = true) (h : List.Forall₂ ReadsClause xs ls) :
    Reads (x ++ framed g (Text.join sep xs) "") (l ++ framed g (Text.join sep ls) "") := by
  refine hx.framed_right hg (join hsep (h.imp fun _ _ hc => hc.1)) ?_
  cases h with
  | nil => exact Iff.rfl
  | cons hc h => exact iff_of_false (join_cons_ne_empty hc.2.1 _) (join_cons_ne_empty hc.2.2 _)

/-- Of a composite its live members are left, and the gap before its comment. -/
theorem composite {members : List Fragment} {ls : List String} (hsep : isSeparator g = true)
    (hgap : isGap (gapOf g) = true) (hne : ∀ n ∈ members, n.text ≠ "")
    (hlive : List.Forall₂ Reads ((members.filter Fragment.active).map Fragment.text) ls)
    (hdead : ∀ n ∈ members, n.active = false → Phrase p false n.text)
    (hp : ∀ t, p t → CommentFree t.toList) :
    Reads (composite members g true)
      (Text.join g ls ++ if members.any Fragment.active && members.any (!·.active) then gapOf g
        else "") := by
  have hjoin := Reads.join (isGap_of_isSeparator hsep) hlive
  have hactive : members.any Fragment.active = true ↔
      (members.filter Fragment.active).map Fragment.text ≠ [] := by
    simp [List.filter_eq_nil_iff]
  have hinactive : members.any (!·.active) = true ↔
      (members.filter fun n => !n.active).map Fragment.text ≠ [] := by
    simp [List.filter_eq_nil_iff]
  rw [composite_eq hne]
  by_cases hnone : (members.filter fun n => !n.active).map Fragment.text = []
  · have hoff : members.any (!·.active) = false := by
      rw [Bool.eq_false_iff, Ne, hinactive]
      exact fun h => h hnone
    rw [if_pos hnone, hoff, Bool.and_false, String.append_empty]
    simpa using hjoin
  -- No dead member has an end mark that would close the comment before its end.
  have hcomment : Reads (commentedInline
      (Text.join g ((members.filter fun n => !n.active).map Fragment.text))) "" := by
    have hphrase : OptPhrase p false
        (Text.join g ((members.filter fun n => !n.active).map Fragment.text)) := by
      refine .join hsep fun t ht => ?_
      obtain ⟨n, hn, rfl⟩ := List.mem_map.1 ht
      obtain ⟨hmem, hoff⟩ := List.mem_filter.1 hn
      exact hdead n hmem (by simpa using hoff)
    rcases hphrase with he | hphrase
    · rw [he]
      exact comment (by decide)
    · exact comment (hphrase.commentFree hp).1
  rw [if_neg hnone, hinactive.2 hnone, Bool.and_true]
  -- There is no gap where the comment is all of the text.
  by_cases hall : (members.filter Fragment.active).map Fragment.text = []
  · have hon : members.any Fragment.active = false := by
      rw [Bool.eq_false_iff, Ne, hactive]
      exact fun h => h hall
    rw [hall] at hlive ⊢
    cases hlive
    rw [hon]
    simpa [Text.join] using hcomment
  · rw [if_neg hall, hactive.2 hall, if_pos rfl, ← String.append_assoc]
    simpa using hjoin.glue hgap hcomment

end Reads

end SchemaDelta.Sql
