import Mathlib.Data.List.Infix
import SchemaDelta.Proofs.Text.Ends
import SchemaDelta.Text.Pieces

/-!
# Pairs of neighbours

Blank lines and comment marks are pairs of characters. When two texts are put together, a pair
stands in one of them or at the seam.
-/

namespace SchemaDelta.Text

/-- The search finds exactly the contiguous parts of a text. -/
theorem containsChars_iff {p s : List Char} : containsChars p s = true ↔ p <:+: s := by
  induction s with
  | nil => simp [containsChars]
  | cons c s ih =>
    rw [containsChars, Bool.or_eq_true, ih, List.isPrefixOf_iff_prefix, List.infix_cons_iff]

section

variable {α : Type} {a b : α} {x y : List α}

/-- A pair is new at a seam only if its halves meet there. -/
theorem pair_infix_append :
    [a, b] <:+: x ++ y ↔
      [a, b] <:+: x ∨ [a, b] <:+: y ∨ x.getLast? = some a ∧ y.head? = some b := by
  induction x with
  | nil => simp
  | cons c x ih =>
    rw [List.cons_append, List.infix_cons_iff, ih, List.infix_cons_iff]
    cases x with
    -- Only behind a single character is the seam the next place to look.
    | nil =>
      cases y with
      | nil => simp
      | cons d y =>
        have ha : a = c ↔ c = a := eq_comm
        have hb : b = d ↔ d = b := eq_comm
        simp [List.cons_prefix_cons]
        tauto
    | cons d x =>
      simp [List.cons_prefix_cons]
      tauto

/-- No pair stands in two texts and at their seam. -/
theorem not_pair_infix_append (hx : ¬[a, b] <:+: x) (hy : ¬[a, b] <:+: y)
    (h : x.getLast? = some a → y.head? ≠ some b) : ¬[a, b] <:+: x ++ y := by
  rw [pair_infix_append]
  rintro (hi | hi | ⟨ha, hb⟩)
  · exact hx hi
  · exact hy hi
  · exact h ha hb

/-- What stands behind the first character of a text without pairs has none. -/
theorem not_pair_infix_tail {c : α} (h : ¬[a, b] <:+: c :: x) : ¬[a, b] <:+: x :=
  fun hi => h (hi.trans (List.suffix_cons c x).isInfix)

/-- No pair begins at a character of a text without pairs, unless at the last one the seam makes
it. -/
theorem head?_append_ne_of_cons {c : α} (h : ¬[a, b] <:+: c :: x)
    (hseam : (c :: x).getLast? = some a → y.head? ≠ some b) (hc : c = a) :
    (x ++ y).head? ≠ some b := by
  subst hc
  intro he
  cases x with
  | nil => exact hseam rfl he
  | cons d x =>
    obtain rfl : d = b := by simpa using he
    exact h (List.IsPrefix.isInfix ⟨x, rfl⟩)

/-- A single character is no pair. -/
theorem not_pair_infix_singleton (c : α) : ¬[a, b] <:+: [c] :=
  fun h => absurd h.length_le (by simp)

/-- A text without one half of a pair is free of the pair. -/
theorem not_pair_infix_of_left (h : a ∉ x) : ¬[a, b] <:+: x :=
  fun hi => h (hi.subset (by simp))

/-- No pair begins in a text without its first half. -/
theorem not_pair_infix_before (hx : a ∉ x) (hy : ¬[a, b] <:+: y) : ¬[a, b] <:+: x ++ y :=
  not_pair_infix_append (not_pair_infix_of_left hx) hy fun e => absurd (List.mem_of_getLast? e) hx

/-- No pair ends in a text without its halves. -/
theorem not_pair_infix_after (hx : ¬[a, b] <:+: x) (ha : a ∉ y) (hb : b ∉ y) :
    ¬[a, b] <:+: x ++ y :=
  not_pair_infix_append hx (not_pair_infix_of_left ha) fun _ e => hb (List.mem_of_head? e)

/-- A text without the halves of a pair keeps two others apart. -/
theorem not_pair_infix_between {z : List α} (hx : ¬[a, b] <:+: x) (ha : a ∉ y) (hb : b ∉ y)
    (hne : y ≠ []) (hz : ¬[a, b] <:+: z) : ¬[a, b] <:+: x ++ y ++ z := by
  refine not_pair_infix_append (not_pair_infix_after hx ha hb) hz fun e => ?_
  rw [List.getLast?_append_of_ne_nil _ hne] at e
  exact absurd (List.mem_of_getLast? e) ha

/-- A pair at the front does not reach into a second text that begins otherwise. -/
theorem pair_prefix_append (hx : x ≠ []) (hy : y.head? ≠ some b) :
    [a, b] <+: x ++ y ↔ [a, b] <+: x := by
  obtain ⟨c, x, rfl⟩ := List.exists_cons_of_ne_nil hx
  cases x with
  | nil =>
    cases y with
    | nil => simp
    | cons d y =>
      have hd : ¬b = d := by
        rintro rfl
        exact hy rfl
      simp [List.cons_prefix_cons, hd]
  | cons d x => simp [List.cons_prefix_cons]

/-- A pair at the end does not reach into a first text that ends otherwise. -/
theorem pair_suffix_append (hy : y ≠ []) (hx : x.getLast? ≠ some a) :
    [a, b] <:+ x ++ y ↔ [a, b] <:+ y := by
  -- The pair at the front, read backwards.
  have hy' : y.reverse ≠ [] := by simpa using hy
  have hx' : x.reverse.head? ≠ some a := by simpa using hx
  have h := pair_prefix_append (a := b) hy' hx'
  rw [← List.reverse_prefix, ← List.reverse_prefix]
  simpa using h

/-- What passes over each character that begins no pair passes over a text without pairs. -/
theorem skip_of_not_pair_infix {β : Type} {f : List α → β}
    (hstep : ∀ c r, ¬[a, b] <+: c :: r → f (c :: r) = f r) (hx : ¬[a, b] <:+: x)
    (hlast : x.getLast? ≠ some a) : f (x ++ y) = f y := by
  induction x with
  | nil => rfl
  | cons c r ih =>
    have hr : r.getLast? ≠ some a := fun h => hlast (List.mem_getLast?_cons h)
    rw [List.cons_append, hstep, ih (not_pair_infix_tail hx) hr]
    intro hpre
    obtain ⟨hc, z, hz⟩ := List.cons_prefix_cons.1 hpre
    exact head?_append_ne_of_cons hx (fun h => absurd h hlast) hc.symm (by rw [← hz]; rfl)

end

/-- A pair of other characters is not cut off at the ends of a text. -/
theorem CutEnds.isInfix_pair {p : Char → Prop} {s t : List Char} {a b : Char} (ha : ¬p a)
    (hb : ¬p b) (h : CutEnds p s t) (hi : [a, b] <:+: s) : [a, b] <:+: t := by
  obtain ⟨front, back, rfl, hends⟩ := h
  have hfront : a ∉ front := fun hmem => ha (hends a (List.mem_append_left _ hmem))
  have hback : a ∉ back ∧ b ∉ back :=
    ⟨fun hmem => ha (hends a (List.mem_append_right _ hmem)),
      fun hmem => hb (hends b (List.mem_append_right _ hmem))⟩
  by_contra hno
  exact not_pair_infix_after (not_pair_infix_before hfront hno) hback.1 hback.2 hi

end SchemaDelta.Text
