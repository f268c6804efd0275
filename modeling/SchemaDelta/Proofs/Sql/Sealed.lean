import SchemaDelta.Proofs.Sql.Forms
import SchemaDelta.Proofs.Text.Ends
import SchemaDelta.Sql.Fragment
import SchemaDelta.Sql.Statement

/-!
# Sealed statements

Every statement of a script begins with a capital letter and ends with a semicolon or a slash. So
trimming leaves it alone, and neither end of it can be taken for a part of a comment.
-/

namespace SchemaDelta.Sql

open Text

/-- The text begins with a capital letter. -/
def Capital (s : String) : Prop :=
  ∃ c r, s.toList = c :: r ∧ c.isUpper = true

/-- The text begins with a capital letter and ends with the end mark of a statement. -/
structure Sealed (s : String) : Prop where
  capital : Capital s
  last : s.toList.getLast? = some ';' ∨ s.toList.getLast? = some '/'

/-- A text begins as its first part does. -/
theorem Capital.append {s : String} (h : Capital s) (t : String) : Capital (s ++ t) := by
  obtain ⟨c, r, hs, hc⟩ := h
  exact ⟨c, r ++ t.toList, by simp [hs], hc⟩

/-- A text ends as its last part does. -/
theorem Capital.sealed {s t : String} (h : Capital s)
    (ht : t.toList.getLast? = some ';' ∨ t.toList.getLast? = some '/') : Sealed (s ++ t) := by
  refine ⟨h.append t, ?_⟩
  rw [String.toList_append, List.getLast?_append]
  rcases ht with ht | ht
  · exact .inl (by rw [ht, Option.some_or])
  · exact .inr (by rw [ht, Option.some_or])

namespace Sealed

variable {s : String}

/-- The end marks are not blank. -/
theorem exists_last (h : Sealed s) : ∃ c, s.toList.getLast? = some c ∧ isBlank c = false := by
  rcases h.last with h | h
  · exact ⟨';', h, by decide⟩
  · exact ⟨'/', h, by decide⟩

/-- A sealed statement is trimmed. -/
theorem trimChars_eq (h : Sealed s) : trimChars s.toList = s.toList := by
  obtain ⟨c, r, hs, hc⟩ := h.capital
  obtain ⟨d, hd, hdb⟩ := h.exists_last
  exact trimChars_eq_self (by rw [hs]; rfl) hd (isBlank_of_isUpper hc) hdb

/-- A sealed statement is not blank. -/
theorem blank_eq_false (h : Sealed s) : blank s = false := by
  obtain ⟨c, r, hs, hc⟩ := h.capital
  simp [blank, hs, isBlank_of_isUpper hc]

/-- A sealed statement does not end with a line feed. -/
theorem last_ne (h : Sealed s) : s.toList.getLast? ≠ some '\n' := by
  rcases h.last with h | h <;> rw [h] <;> decide

/-- A sealed statement does not begin with a line feed. -/
theorem head_ne (h : Sealed s) : s.toList.head? ≠ some '\n' := by
  obtain ⟨c, r, hs, hc⟩ := h.capital
  rw [hs]
  rintro ⟨⟩
  exact absurd hc (by decide)

end Sealed

/-! ## The end of a statement -/

/-- Without its semicolons, a statement begins as before. -/
theorem exists_bareStatement_cons {s : String} {c : Char} {r : List Char} (hs : s.toList = c :: r)
    (hc : c.isUpper = true) : ∃ t, (bareStatement s).toList = c :: t := by
  have hsemi : (decide (c = ';')) = false := by
    rw [decide_eq_false_iff_not]
    rintro rfl
    exact absurd hc (by decide)
  refine ⟨dropEndWhile (· = ';') (dropEndWhile isBlank r), ?_⟩
  rw [bareStatement, hs, trimChars_cons _ (isBlank_of_isUpper hc),
    dropEndWhile_cons _ (isBlank_of_isUpper hc), String.toList_ofList, dropEndWhile_cons _ hsemi]

theorem capital_bareStatement {s : String} (h : Capital s) : Capital (bareStatement s) := by
  obtain ⟨c, r, hs, hc⟩ := h
  obtain ⟨t, ht⟩ := exists_bareStatement_cons hs hc
  exact ⟨c, t, ht, hc⟩

/-- A guarded statement is sealed: the block ends with a slash. -/
theorem sealed_guarded {s : String} (h : Capital s) (ifNotExist : Bool) (code : Nat) :
    Sealed (guarded s ifNotExist code) := by
  unfold guarded
  cases ifNotExist with
  | false => exact (capital_bareStatement h).sealed (.inl rfl)
  | true =>
    rw [if_pos rfl, Form.fill_ifNotExists]
    refine Capital.sealed ?_ (.inr (by decide))
    exact ⟨'D', _, by simp; rfl, by decide⟩

/-- A comment on an object is a sealed statement. -/
theorem sealed_commentOn (object name text : String) : Sealed (commentOn object name text) := by
  rw [commentOn, Form.fill_comment]
  refine Capital.sealed ?_ (.inl rfl)
  exact ⟨'C', _, by simp; rfl, by decide⟩

/-- No sealed statement is blank, so all of them stand in the text. -/
theorem statementsText_of_sealed {units : List Fragment} (h : ∀ u ∈ units, Sealed u.text) :
    statementsText units = join "\n\n" (units.map Fragment.write) := by
  have hall : (units.filter fun u => !u.isBlank) = units := by
    rw [List.filter_eq_self]
    intro u hu
    simp [Fragment.isBlank, (h u hu).blank_eq_false]
  rw [statementsText, hall]

end SchemaDelta.Sql
