import SchemaDelta.Proofs.Text.Pairs

/-!
# Paragraphs of joined texts

A text that does not end with a line feed keeps its paragraphs when a blank line and more text
follow. What stands before the first line of a text goes to its first paragraph, and what follows
its last line goes to its last.
-/

namespace SchemaDelta.Text

/-- Every text has a paragraph. -/
theorem paragraphChars_ne_nil (s : List Char) : paragraphChars s ≠ [] := by
  fun_induction paragraphChars s with
  | case1 => simp
  | case2 r ih => simp
  | case3 c r h ih => cases hp : paragraphChars r <;> simp [consPiece]

/-- A text without a blank line is one paragraph. -/
theorem paragraphChars_eq_singleton {s : List Char} (h : ¬['\n', '\n'] <:+: s) :
    paragraphChars s = [s] := by
  refine paragraphChars_of_not_contains ?_
  rw [Bool.eq_false_iff, Ne, containsChars_iff]
  exact h

/-- A character that begins no blank line goes to the first paragraph. -/
theorem paragraphChars_cons {c : Char} {r : List Char} (h : c = '\n' → r.head? ≠ some '\n') :
    paragraphChars (c :: r) = consPiece c (paragraphChars r) := by
  rw [paragraphChars]
  rintro r' rfl rfl
  exact h rfl rfl

/-- The first paragraph begins as the text does. -/
theorem paragraphChars_head {c : Char} (hc : c ≠ '\n') (r : List Char) :
    ∃ p ps, paragraphChars (c :: r) = (c :: p) :: ps := by
  rw [paragraphChars_cons (fun e => absurd e hc)]
  cases h : paragraphChars r with
  | nil => exact ⟨[], [], rfl⟩
  | cons p ps => exact ⟨p, ps, rfl⟩

/-- A text with a blank line has two paragraphs at least. -/
theorem paragraphChars_of_break {s : List Char} (h : ['\n', '\n'] <:+: s) :
    ∃ p q ps, paragraphChars s = p :: q :: ps := by
  fun_induction paragraphChars s with
  | case1 => simp at h
  | case2 r ih =>
    obtain ⟨q, ps, hq⟩ := List.exists_cons_of_ne_nil (paragraphChars_ne_nil r)
    exact ⟨[], q, ps, by rw [hq]⟩
  | case3 c r hcr ih =>
    rcases List.infix_cons_iff.1 h with h | h
    -- A blank line at the front would be the second case of the recursion.
    · obtain ⟨t, ht⟩ := h
      simp only [List.cons_append, List.nil_append, List.cons.injEq] at ht
      exact absurd ht.2.symm (hcr t ht.1.symm)
    · obtain ⟨p, q, ps, hp⟩ := ih h
      exact ⟨c :: p, q, ps, by rw [hp]; rfl⟩

/-- A character goes in front of the first of several pieces. -/
theorem consPiece_append {c : Char} {ps qs : List (List Char)} (h : ps ≠ []) :
    consPiece c (ps ++ qs) = consPiece c ps ++ qs := by
  cases ps with
  | nil => exact absurd rfl h
  | cons p ps => rfl

/-- The end of a longer text is the end of its tail. -/
theorem getLast?_tail_ne {c d : Char} {r : List Char} (hr : r ≠ [])
    (h : (c :: r).getLast? ≠ some d) : r.getLast? ≠ some d := by
  cases r with
  | nil => exact absurd rfl hr
  | cons e r => simpa using h

/-- The last paragraph ends as the text does. -/
theorem paragraphChars_last {c : Char} (hc : c ≠ '\n') {s : List Char} (h : s.getLast? = some c) :
    ∃ ps l, paragraphChars s = ps ++ [l] ∧ l.getLast? = some c := by
  fun_induction paragraphChars s with
  | case1 => simp at h
  | case2 r ih =>
    cases r with
    | nil => exact absurd (by simpa using h.symm) hc
    | cons d r =>
      obtain ⟨ps, l, hl, hlast⟩ := ih (by simpa using h)
      exact ⟨[] :: ps, l, by rw [hl]; rfl, hlast⟩
  | case3 d r hdr ih =>
    cases r with
    | nil => exact ⟨[], [d], rfl, h⟩
    | cons e r =>
      obtain ⟨ps, l, hl, hlast⟩ := ih (by simpa using h)
      rw [hl]
      -- The character goes to the last paragraph only if that is the first one too.
      cases ps with
      | nil =>
        refine ⟨[], d :: l, rfl, ?_⟩
        cases l with
        | nil => simp at hlast
        | cons f l => simpa using hlast
      | cons p ps => exact ⟨(d :: p) :: ps, l, rfl, hlast⟩

/-- The rest of a text that begins no blank line begins with another character, also when more text
follows it. -/
theorem head?_append_ne_of_not_cons {c : Char} {r : List Char} (hr : r ≠ [])
    (h : ∀ r', c = '\n' → r = '\n' :: r' → False) (y : List Char) :
    c = '\n' → (r ++ y).head? ≠ some '\n' := by
  rintro hc hd
  obtain ⟨d, r', rfl⟩ := List.exists_cons_of_ne_nil hr
  have hd' : d = '\n' := by simpa using hd
  exact h r' hc (by rw [hd'])

/-- A blank line separates the paragraphs before it from those after it. -/
theorem paragraphChars_append_break {x : List Char} (h : x.getLast? ≠ some '\n')
    (y : List Char) :
    paragraphChars (x ++ '\n' :: '\n' :: y) = paragraphChars x ++ paragraphChars y := by
  fun_induction paragraphChars x with
  | case1 => rfl
  | case2 r ih =>
    -- Two line feeds alone would end with one.
    have hr : r ≠ [] := by rintro rfl; exact h rfl
    have hlast := getLast?_tail_ne hr (getLast?_tail_ne (by simp) h)
    simp only [List.cons_append, paragraphChars]
    rw [ih hlast]
  | case3 c r hcr ih =>
    by_cases hr : r = []
    · subst hr
      have hc : c ≠ '\n' := by simpa using h
      rw [List.singleton_append, paragraphChars_cons (fun e => absurd e hc)]
      rfl
    · rw [List.cons_append, paragraphChars_cons (head?_append_ne_of_not_cons hr hcr _),
        ih (getLast?_tail_ne hr h), consPiece_append (paragraphChars_ne_nil r)]

/-- A text without a blank line goes to the first paragraph of what follows it. -/
theorem paragraphChars_append_left {w x p : List Char} {ps : List (List Char)}
    (hw : ¬['\n', '\n'] <:+: w) (hseam : w.getLast? = some '\n' → x.head? ≠ some '\n')
    (h : paragraphChars x = p :: ps) : paragraphChars (w ++ x) = (w ++ p) :: ps := by
  induction w with
  | nil => exact h
  | cons c w ih =>
    have hw' : ¬['\n', '\n'] <:+: w := not_pair_infix_tail hw
    -- The last character of the first text is the one that meets the second text.
    cases w with
    | nil =>
      have hc : c = '\n' → x.head? ≠ some '\n' := fun e => hseam (by rw [e]; rfl)
      rw [List.singleton_append, paragraphChars_cons hc, h]
      rfl
    | cons d w =>
      have hd : c = '\n' → d ≠ '\n' := by
        rintro rfl rfl
        exact hw (List.IsPrefix.isInfix ⟨w, rfl⟩)
      have hne : c = '\n' → (d :: w ++ x).head? ≠ some '\n' := by
        intro e
        simpa using hd e
      rw [List.cons_append, paragraphChars_cons hne, ih hw' (by simpa using hseam)]
      rfl

/-- A text without a blank line goes to the last paragraph of what stands before it. -/
theorem paragraphChars_append_right {x y l : List Char} {ps : List (List Char)}
    (hy : ¬['\n', '\n'] <:+: y) (hx : x.getLast? ≠ some '\n')
    (h : paragraphChars x = ps ++ [l]) : paragraphChars (x ++ y) = ps ++ [l ++ y] := by
  fun_induction paragraphChars x generalizing ps l with
  | case1 =>
    obtain ⟨rfl, rfl⟩ : ps = [] ∧ l = [] := by
      cases ps with
      | nil => simpa using h.symm
      | cons p ps => simp at h
    exact paragraphChars_eq_singleton hy
  | case2 r ih =>
    have hr : r ≠ [] := by rintro rfl; exact hx rfl
    have hlast := getLast?_tail_ne hr (getLast?_tail_ne (by simp) hx)
    cases ps with
    | nil =>
      have := paragraphChars_ne_nil r
      simp_all
    | cons p ps =>
      simp only [List.cons_append, List.cons.injEq] at h
      obtain ⟨rfl, h⟩ := h
      simp only [List.cons_append, paragraphChars, ih hlast h]
  | case3 c r hcr ih =>
    by_cases hr : r = []
    · subst hr
      have hc : c ≠ '\n' := by simpa using hx
      obtain ⟨rfl, rfl⟩ : ps = [] ∧ l = [c] := by
        cases ps with
        | nil => simpa [paragraphChars, consPiece] using h.symm
        | cons p ps => simp [paragraphChars, consPiece] at h
      rw [List.singleton_append, paragraphChars_cons (fun e => absurd e hc),
        paragraphChars_eq_singleton hy]
      rfl
    · obtain ⟨qs, m, hqs⟩ : ∃ qs m, paragraphChars r = qs ++ [m] :=
        ⟨_, _, (List.dropLast_append_getLast (paragraphChars_ne_nil r)).symm⟩
      have hm := ih (getLast?_tail_ne hr hx) hqs
      rw [List.cons_append, paragraphChars_cons (head?_append_ne_of_not_cons hr hcr y), hm]
      rw [hqs] at h
      -- With one paragraph the character goes to the last one, else it stays in front.
      cases qs with
      | nil =>
        obtain ⟨rfl, rfl⟩ : ps = [] ∧ l = c :: m := by
          cases ps with
          | nil => simpa [consPiece] using h.symm
          | cons p ps => simp [consPiece] at h
        rfl
      | cons q qs =>
        have h' : ((c :: q) :: qs) ++ [m] = ps ++ [l] := h
        obtain ⟨rfl, hl⟩ := List.append_inj' h' rfl
        obtain rfl : m = l := by simpa using hl
        rfl

end SchemaDelta.Text
