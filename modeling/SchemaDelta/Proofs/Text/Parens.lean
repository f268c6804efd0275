import Mathlib.Data.List.Infix
import SchemaDelta.Proofs.Text.Ends

/-!
# Balanced parentheses

A text is balanced when no front of it closes more parentheses than it opens, and all of it closes
as many as it opens. Nothing but the parentheses of a text counts (`balanced_parens`), so a text
stays as balanced as it was whatever is added to it or cut off between them.
-/

namespace SchemaDelta.Text

/-- The character is a parenthesis. -/
def isParen (c : Char) : Bool :=
  c = '(' || c = ')'

/-- The parentheses of a text, in order. -/
def parens (s : List Char) : List Char :=
  s.filter isParen

/-- Every parenthesis of the text is closed, and none is closed before it is opened. -/
structure Balanced (s : List Char) : Prop where
  /-- No front of the text closes more than it opens. -/
  front : ∀ t, t <+: s → t.count ')' ≤ t.count '('
  total : s.count ')' = s.count '('

/-! ## The parentheses of a text -/

@[simp] theorem parens_append (x y : List Char) : parens (x ++ y) = parens x ++ parens y :=
  List.filter_append ..

theorem parens_eq_nil {s : List Char} (h : ∀ c ∈ s, isParen c = false) : parens s = [] := by
  rw [parens, List.filter_eq_nil_iff]
  intro c hc
  rw [h c hc]
  exact Bool.false_ne_true

theorem parens_eq_nil_iff {s : List Char} : parens s = [] ↔ '(' ∉ s ∧ ')' ∉ s := by
  simp only [parens, List.filter_eq_nil_iff, isParen, Bool.or_eq_true, decide_eq_true_eq, not_or]
  constructor
  · intro h
    exact ⟨fun hopen => (h _ hopen).1 rfl, fun hclose => (h _ hclose).2 rfl⟩
  · rintro ⟨hopen, hclose⟩ c hc
    exact ⟨ne_of_mem_of_not_mem hc hopen, ne_of_mem_of_not_mem hc hclose⟩

/-- What is cut off at the end has no parentheses if the test holds of none. -/
theorem parens_dropEndWhile {p : Char → Bool} (hp : ∀ c, p c = true → isParen c = false)
    (s : List Char) : parens (dropEndWhile p s) = parens s := by
  obtain ⟨t, ht, hall⟩ := exists_append_dropEndWhile p s
  have hnone : parens t = [] := parens_eq_nil fun c hc => hp c (hall c hc)
  calc parens (dropEndWhile p s) = parens (dropEndWhile p s) ++ parens t := by
        rw [hnone, List.append_nil]
    _ = parens s := by rw [← parens_append, ← ht]

/-- Parentheses are not blank. -/
theorem isParen_of_isBlank {c : Char} (h : isBlank c = true) : isParen c = false := by
  have hne {d : Char} (hd : isBlank d = false) : c ≠ d := by
    rintro rfl
    rw [h] at hd
    exact absurd hd (by decide)
  simp [isParen, hne (by decide : isBlank '(' = false), hne (by decide : isBlank ')' = false)]

/-- Trimming keeps the parentheses. -/
theorem parens_trimChars (s : List Char) : parens (trimChars s) = parens s := by
  have hfront : parens (s.takeWhile isBlank) = [] :=
    parens_eq_nil fun c hc => isParen_of_isBlank (List.mem_takeWhile_imp hc)
  calc parens (trimChars s) = parens (s.dropWhile isBlank) :=
        parens_dropEndWhile (fun _ => isParen_of_isBlank) _
    _ = parens (s.takeWhile isBlank) ++ parens (s.dropWhile isBlank) := by
        rw [hfront, List.nil_append]
    _ = parens s := by rw [← parens_append, List.takeWhile_append_dropWhile]

/-- A map that makes no parentheses and loses none keeps them. -/
theorem parens_map {f : Char → Char} (hf : ∀ c, isParen (f c) = isParen c)
    (hfix : ∀ c, isParen c = true → f c = c) (s : List Char) : parens (s.map f) = parens s := by
  induction s with
  | nil => rfl
  | cons c s ih =>
    simp only [parens, List.map_cons, List.filter_cons, hf] at ih ⊢
    rw [ih]
    split_ifs with hc
    · rw [hfix c hc]
    · rfl

/-! ## Balance -/

/-- Only the parentheses of a text count. -/
theorem balanced_parens {s : List Char} : Balanced (parens s) ↔ Balanced s := by
  have hopen (t : List Char) : (parens t).count '(' = t.count '(' := List.count_filter (by decide)
  have hclose (t : List Char) : (parens t).count ')' = t.count ')' := List.count_filter (by decide)
  constructor
  · intro h
    refine ⟨fun t ht => ?_, ?_⟩
    · have hfront := h.front (parens t) (ht.filter _)
      rwa [hopen, hclose] at hfront
    · rw [← hopen, ← hclose]
      exact h.total
  · intro h
    refine ⟨fun u hu => ?_, ?_⟩
    · obtain ⟨t, ht, rfl⟩ := List.prefix_filter_iff.1 hu
      exact (hclose t).trans_le ((h.front t ht).trans_eq (hopen t).symm)
    · rw [hopen, hclose]
      exact h.total

namespace Balanced

variable {x y : List Char}

/-- A text with the parentheses of a balanced one is balanced. -/
theorem congr (hx : Balanced x) (h : parens y = parens x) : Balanced y := by
  rw [← balanced_parens, h]
  exact balanced_parens.2 hx

theorem nil : Balanced [] where
  front t ht := by rw [List.prefix_nil.1 ht]; rfl
  total := rfl

/-- A text without parentheses is balanced. -/
theorem of_parens_eq_nil (h : parens x = []) : Balanced x :=
  nil.congr h

/-- Balanced texts may be put side by side. -/
theorem append (hx : Balanced x) (hy : Balanced y) : Balanced (x ++ y) where
  front t ht := by
    -- A front of both ends in the first text, or takes all of it and a front of the second.
    rcases List.prefix_or_prefix_of_prefix ht (List.prefix_append x y) with h | ⟨u, rfl⟩
    · exact hx.front t h
    · have hu := hy.front u ((List.prefix_append_right_inj x).1 ht)
      have hall := hx.total
      rw [List.count_append, List.count_append]
      omega
  total := by
    rw [List.count_append, List.count_append, hx.total, hy.total]

/-- A pair of parentheses may stand around a balanced text. -/
theorem enclose (hx : Balanced x) : Balanced ('(' :: x ++ [')']) := by
  have hopen (t : List Char) : ('(' :: t).count '(' = t.count '(' + 1 := List.count_cons_self
  have hclose (t : List Char) : ('(' :: t).count ')' = t.count ')' :=
    List.count_cons_of_ne (by decide)
  have htotal : ('(' :: x ++ [')']).count ')' = ('(' :: x ++ [')']).count '(' := by
    rw [List.count_append, List.count_append, hopen, hclose, hx.total]
    rfl
  refine ⟨fun t ht => ?_, htotal⟩
  -- A front is all of it, or it is empty or a front of the text behind the opening parenthesis.
  rcases List.prefix_concat_iff.1 ht with rfl | h
  · exact htotal.le
  · rcases List.prefix_cons_iff.1 h with rfl | ⟨u, rfl, hu⟩
    · exact Nat.zero_le _
    · rw [hopen, hclose]
      exact (hx.front u hu).trans (Nat.le_succ _)

end Balanced

end SchemaDelta.Text
