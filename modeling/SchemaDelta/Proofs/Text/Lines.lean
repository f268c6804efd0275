import Mathlib.Tactic.SplitIfs
import SchemaDelta.Text.Pieces

/-!
# Lines

The lines of a text, from its first character to its last line.
-/

namespace SchemaDelta.Text

/-- The line that a character begins or belongs to. -/
theorem lineChars_cons (c : Char) (s : List Char) :
    lineChars (c :: s) =
      if c = '\n' then [] :: lineChars s
      else if c = '\r' ∧ s.head? = some '\n' then lineChars s
      else consPiece c (lineChars s) := by
  by_cases hn : c = '\n'
  · subst hn
    rw [if_pos rfl]
    cases s <;> rfl
  · by_cases hr : c = '\r' ∧ s.head? = some '\n'
    · obtain ⟨rfl, hs⟩ := hr
      obtain ⟨r, rfl⟩ := List.head?_eq_some_iff.1 hs
      simp [lineChars]
    -- The last equation of the reader holds where the other patterns do not fit.
    · rw [if_neg hn, if_neg hr, lineChars]
      · rintro r rfl rfl
        exact hr ⟨rfl, rfl⟩
      · rintro rfl
        exact hn rfl

/-- A text of one line is its only line. -/
theorem lineChars_of_not_mem {s : List Char} (hs : s ≠ []) (h : '\n' ∉ s) : lineChars s = [s] := by
  induction s with
  | nil => exact absurd rfl hs
  | cons c s ih =>
    simp only [List.mem_cons, not_or] at h
    have hhead : s.head? ≠ some '\n' := fun e => h.2 (List.mem_of_head? e)
    rw [lineChars_cons, if_neg (Ne.symm h.1), if_neg (fun e => hhead e.2)]
    cases s with
    | nil => rfl
    | cons d s => rw [ih (by simp) h.2]; rfl

/-- The first line begins as the text does. -/
theorem lineChars_head {c : Char} {s : List Char} (hn : c ≠ '\n') (hr : c ≠ '\r') :
    ∃ l ls, lineChars (c :: s) = (c :: l) :: ls := by
  rw [lineChars_cons, if_neg hn, if_neg (fun e => hr e.1)]
  cases lineChars s with
  | nil => exact ⟨[], [], rfl⟩
  | cons l ls => exact ⟨l, ls, rfl⟩

/-- The end mark of a block comment on the last line is a line of its own. -/
theorem lineChars_end (s : List Char) :
    ∃ l ls, lineChars (s ++ ['\n', '*', '/']) = l :: ls ∧ ['*', '/'] ∈ ls := by
  induction s with
  | nil => exact ⟨[], [['*', '/']], by decide, by simp⟩
  | cons c s ih =>
    obtain ⟨l, ls, hl, hmem⟩ := ih
    rw [List.cons_append, lineChars_cons, hl]
    split_ifs
    · exact ⟨[], l :: ls, rfl, List.mem_cons_of_mem _ hmem⟩
    · exact ⟨l, ls, rfl, hmem⟩
    · exact ⟨c :: l, ls, rfl, hmem⟩

end SchemaDelta.Text
