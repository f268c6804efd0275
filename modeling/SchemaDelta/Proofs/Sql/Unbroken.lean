import SchemaDelta.Proofs.Sql.Phrase

/-!
# No blank line in a phrase

Line feeds in a phrase come from separators and blocks alone when the given texts have none. Each of
them stands between two texts that are not empty, so no two line feeds meet.
-/

namespace SchemaDelta.Sql

open Text

/-- The text has no blank line and no line feed at either end. -/
structure Unbroken (s : List Char) : Prop where
  head_ne : s.head? ≠ some '\n'
  last_ne : s.getLast? ≠ some '\n'
  no_break : ¬['\n', '\n'] <:+: s

namespace Unbroken

variable {x y sep : List Char}

/-- A text of one line is unbroken. -/
theorem of_not_mem (h : '\n' ∉ x) : Unbroken x where
  head_ne e := h (List.mem_of_head? e)
  last_ne e := h (List.mem_of_getLast? e)
  no_break := not_pair_infix_of_left h

/-- Unbroken texts may be put side by side. -/
theorem append (hx : Unbroken x) (hy : Unbroken y) : Unbroken (x ++ y) where
  head_ne e := by
    rw [List.head?_append, Option.or_eq_some_iff] at e
    rcases e with e | e
    · exact hx.head_ne e
    · exact hy.head_ne e.2
  last_ne e := by
    rw [List.getLast?_append, Option.or_eq_some_iff] at e
    rcases e with e | e
    · exact hy.last_ne e
    · exact hx.last_ne e.2
  no_break := not_pair_infix_append hx.no_break hy.no_break fun e => absurd e hx.last_ne

/-- Unbroken texts stay unbroken with a separator between them, if neither is empty. -/
theorem glue (hx : Unbroken x) (hxne : x ≠ []) (hsep : ¬['\n', '\n'] <:+: sep)
    (hy : Unbroken y) (hyne : y ≠ []) : Unbroken (x ++ sep ++ y) where
  head_ne e := by
    obtain ⟨c, r, rfl⟩ := List.exists_cons_of_ne_nil hxne
    exact hx.head_ne (by simpa using e)
  last_ne e := by
    rw [List.getLast?_append, Option.or_eq_some_iff] at e
    rcases e with e | e
    · exact hy.last_ne e
    · exact hyne (List.getLast?_eq_none_iff.1 e.1)
  -- Neither text has a line feed where it meets the separator.
  no_break := by
    have hleft : ¬['\n', '\n'] <:+: x ++ sep :=
      not_pair_infix_append hx.no_break hsep fun e => absurd e hx.last_ne
    exact not_pair_infix_append hleft hy.no_break fun _ => hy.head_ne

end Unbroken

/-- Doubled quotes add no other character. -/
theorem mem_doubled {q c : Char} {s : List Char} : c ∈ doubled q s ↔ c ∈ s := by
  unfold doubled
  rw [List.mem_flatMap]
  constructor
  · rintro ⟨d, hd, hc⟩
    split_ifs at hc with hq
    · subst hq
      have : c = d := by simpa using hc
      rwa [this]
    · have : c = d := by simpa using hc
      rwa [this]
  · intro hc
    refine ⟨c, hc, ?_⟩
    split_ifs with hq <;> simp [hq]

/-- No line feed is inert. -/
theorem not_mem_of_isWord {w : String} (h : isWord w = true) : '\n' ∉ w.toList := by
  simp only [isWord, Bool.and_eq_true, List.all_eq_true] at h
  intro hmem
  exact absurd (h.2 _ hmem) (by decide)

/-- No separator holds a blank line. -/
theorem no_break_of_isSeparator {w : String} (h : isSeparator w = true) :
    ¬['\n', '\n'] <:+: w.toList := by
  simp only [isSeparator, Bool.and_eq_true, Bool.not_eq_true'] at h
  rw [← containsChars_iff, h.2]
  decide

variable {p : String → Prop} {b : Bool} {s : String}

theorem Phrase.toList_ne_nil (h : Phrase p b s) : s.toList ≠ [] := by
  rw [Ne, String.toList_eq_nil_iff]
  exact h.ne_empty

/-- A phrase is unbroken when the given texts have no line feed. -/
theorem Phrase.unbroken (hp : ∀ t, p t → '\n' ∉ t.toList) (h : Phrase p b s) :
    Unbroken s.toList := by
  induction h with
  | word hw => exact .of_not_mem (not_mem_of_isWord hw)
  | star => exact .of_not_mem (by decide)
  | given hs => exact .of_not_mem (hp _ hs)
  | @quoted _ q s hq hs =>
    refine .of_not_mem ?_
    rw [toList_enclosed, List.mem_append, List.mem_cons, mem_doubled]
    have hn := hp s hs
    rcases hq with rfl | rfl <;> simpa using hn
  | lead hw _ ih =>
    rw [String.toList_append]
    exact (Unbroken.of_not_mem (not_mem_of_isWord hw)).append ih
  | trail _ hw ih =>
    rw [String.toList_append]
    exact ih.append (.of_not_mem (not_mem_of_isWord hw))
  | glue hx hsep hy ihx ihy =>
    rw [String.toList_append, String.toList_append]
    exact ihx.glue hx.toList_ne_nil (no_break_of_isSeparator hsep) ihy hy.toList_ne_nil
  | paren _ ih =>
    rw [String.toList_append, String.toList_append]
    exact ((Unbroken.of_not_mem (by decide)).append ih).append (.of_not_mem (by decide))
  | @block _ x hx ih =>
    have heq : ("(\n\t" ++ x ++ "\n)").toList =
        ['('] ++ ['\n', '\t'] ++ x.toList ++ ['\n'] ++ [')'] := by simp
    have hne : ['('] ++ ['\n', '\t'] ++ x.toList ≠ [] := by simp
    rw [heq]
    exact ((Unbroken.of_not_mem (by decide)).glue (by simp) (by decide) ih hx.toList_ne_nil).glue
      hne (by decide) (.of_not_mem (by decide)) (by simp)
  | hollow => exact .of_not_mem (by decide)
  -- The line feeds of an empty block are apart because of its tab.
  | hollowBlock => exact ⟨by decide, by decide, by decide⟩
  | call _ _ ihx ihy =>
    simp only [String.toList_append]
    exact ((ihx.append (.of_not_mem (by decide))).append ihy).append (.of_not_mem (by decide))
  | comment _ ih =>
    simp only [commentedInline, String.toList_append]
    exact ((Unbroken.of_not_mem (by decide)).append ih).append (.of_not_mem (by decide))

end SchemaDelta.Sql
