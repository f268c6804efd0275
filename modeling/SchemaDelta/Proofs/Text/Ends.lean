import Mathlib.Data.List.DropRight
import Mathlib.Tactic.SplitIfs
import Mathlib.Tactic.Tauto
import SchemaDelta.Text.Blank

/-!
# What is cut off at the ends of a text

Trimming takes blank characters away at both ends and nothing else. A text that begins and ends with
other characters is not changed.
-/

namespace SchemaDelta.Text

/-! ## One end -/

variable {p : Char → Bool}

/-- What is cut off at the end satisfies the test. -/
theorem exists_append_dropEndWhile (p : Char → Bool) (s : List Char) :
    ∃ t, s = dropEndWhile p s ++ t ∧ ∀ c ∈ t, p c = true := by
  refine ⟨s.rtakeWhile p, (List.rdropWhile_append_rtakeWhile (p := p) (l := s)).symm, ?_⟩
  intro c hc
  exact List.mem_rtakeWhile_imp hc

/-- What is left does not end with a character that satisfies the test. -/
theorem getLast?_dropEndWhile {s : List Char} {c : Char}
    (h : (dropEndWhile p s).getLast? = some c) : p c = false := by
  have hhead := List.head?_dropWhile_not p s.reverse
  rw [dropEndWhile, List.getLast?_reverse] at h
  rwa [h] at hhead

/-- A last character that fails the test stops the cut. -/
theorem dropEndWhile_of_getLast? {s : List Char} {c : Char} (h : s.getLast? = some c)
    (hc : p c = false) : dropEndWhile p s = s := by
  obtain ⟨r, rfl⟩ := List.getLast?_eq_some_iff.1 h
  simp [dropEndWhile, hc]

/-- A character that fails the test keeps all that stands before it. -/
theorem dropEndWhile_append_cons {c : Char} (s t : List Char) (hc : p c = false) :
    dropEndWhile p (s ++ c :: t) = s ++ dropEndWhile p (c :: t) := by
  have hne : ((c :: t).reverse.dropWhile p).isEmpty = false := by
    rw [List.isEmpty_eq_false_iff, Ne, List.dropWhile_eq_nil_iff]
    intro h
    have := h c (by simp)
    rw [hc] at this
    exact Bool.false_ne_true this
  -- The cut runs from the right, so it stops before the first text is reached.
  unfold dropEndWhile
  rw [List.reverse_append, List.dropWhile_append, hne]
  simp

/-- A first character that fails the test stays. -/
theorem dropEndWhile_cons {c : Char} (s : List Char) (hc : p c = false) :
    dropEndWhile p (c :: s) = c :: dropEndWhile p s := by
  unfold dropEndWhile
  rw [List.reverse_cons, List.dropWhile_append]
  by_cases h : (s.reverse.dropWhile p).isEmpty
  · have hs : s.reverse.dropWhile p = [] := List.isEmpty_iff.1 h
    simp [hs, hc]
  · simp [h]

/-! ## Runs from the front -/

/-- A run ends where what follows does not go on with it. -/
theorem span_append {p : Char → Bool} (s : List Char) {rest : List Char}
    (hrest : ∀ c ∈ rest.head?, p c = false) :
    (s ++ rest).takeWhile p = s.takeWhile p ∧ (s ++ rest).dropWhile p = s.dropWhile p ++ rest := by
  induction s with
  | nil =>
    cases rest with
    | nil => exact ⟨rfl, rfl⟩
    | cons c t =>
      have hc : p c = false := hrest c rfl
      simp [hc]
  | cons c s ih =>
    cases hc : p c with
    | false => simp [hc]
    | true => simp [hc, ih]

/-! ## Both ends -/

/-- The second text is the first one without characters of one kind at its two ends. -/
def CutEnds (p : Char → Prop) (s t : List Char) : Prop :=
  ∃ front back, s = front ++ t ++ back ∧ ∀ c ∈ front ++ back, p c

namespace CutEnds

variable {p q : Char → Prop} {s t u : List Char}

theorem imp (hpq : ∀ c, p c → q c) (h : CutEnds p s t) : CutEnds q s t := by
  obtain ⟨front, back, hs, hends⟩ := h
  exact ⟨front, back, hs, fun c hc => hpq c (hends c hc)⟩

/-- What is cut off in turns is cut off. -/
theorem trans (hst : CutEnds p s t) (htu : CutEnds p t u) : CutEnds p s u := by
  obtain ⟨front, back, rfl, hends⟩ := hst
  obtain ⟨front', back', rfl, hends'⟩ := htu
  refine ⟨front ++ front', back' ++ back, by simp, fun c hc => ?_⟩
  have hmem : c ∈ front ++ back ∨ c ∈ front' ++ back' := by
    simp only [List.mem_append] at hc ⊢
    tauto
  exact hmem.elim (hends c) (hends' c)

/-- Other characters are not cut off. -/
theorem count_eq {c : Char} (hc : ¬p c) (h : CutEnds p s t) : s.count c = t.count c := by
  obtain ⟨front, back, rfl, hends⟩ := h
  have hnone : c ∉ front ++ back := fun hmem => hc (hends c hmem)
  simp only [List.mem_append, not_or] at hnone
  simp [List.count_append, List.count_eq_zero_of_not_mem hnone.1,
    List.count_eq_zero_of_not_mem hnone.2]

end CutEnds

/-- What is cut off at one end satisfies the test. -/
theorem cutEnds_dropEndWhile (p : Char → Bool) (s : List Char) :
    CutEnds (p · = true) s (dropEndWhile p s) := by
  obtain ⟨back, hback, hall⟩ := exists_append_dropEndWhile p s
  exact ⟨[], back, hback, hall⟩

/-- What is cut off at both ends satisfies the test. -/
theorem cutEnds_dropWhile (p : Char → Bool) (s : List Char) :
    CutEnds (p · = true) s (dropEndWhile p (s.dropWhile p)) := by
  have hfront : CutEnds (p · = true) s (s.dropWhile p) := by
    refine ⟨s.takeWhile p, [], ?_, fun c hc => ?_⟩
    · rw [List.append_nil, List.takeWhile_append_dropWhile]
    · rw [List.append_nil] at hc
      exact List.mem_takeWhile_imp hc
  exact hfront.trans (cutEnds_dropEndWhile p _)

/-- Trimming cuts off blank characters. -/
theorem cutEnds_trimChars (s : List Char) : CutEnds (isBlank · = true) s (trimChars s) :=
  cutEnds_dropWhile isBlank s

/-- A trimmed text does not begin with a blank character. -/
theorem isBlank_of_head?_trimChars {s : List Char} {c : Char} (h : (trimChars s).head? = some c) :
    isBlank c = false := by
  obtain ⟨r, hr⟩ := List.head?_eq_some_iff.1 h
  obtain ⟨t, ht⟩ : trimChars s <+: s.dropWhile isBlank := List.rdropWhile_prefix _ _
  have hhead := List.head?_dropWhile_not isBlank s
  rwa [← ht, hr] at hhead

/-- A text is cut at its end only when it begins with a character that is not blank. -/
theorem trimChars_cons {c : Char} (s : List Char) (h : isBlank c = false) :
    trimChars (c :: s) = dropEndWhile isBlank (c :: s) := by
  simp [trimChars, h]

/-- The capital letters by their numbers. -/
theorem isUpper_iff {c : Char} : c.isUpper = true ↔ 65 ≤ c.toNat ∧ c.toNat ≤ 90 := by
  show decide ('A'.val ≤ c.val ∧ c.val ≤ 'Z'.val) = true ↔ _
  rw [decide_eq_true_eq, UInt32.le_iff_toNat_le, UInt32.le_iff_toNat_le]
  rfl

/-- Capital letters are not blank. -/
theorem isBlank_of_isUpper {c : Char} (h : c.isUpper = true) : isBlank c = false := by
  have hc := isUpper_iff.1 h
  simp [isBlank, blankRanges]
  omega

/-- A text that begins and ends with characters that are not blank is trimmed. -/
theorem trimChars_eq_self {s : List Char} {c d : Char} (hc : s.head? = some c)
    (hd : s.getLast? = some d) (hcb : isBlank c = false) (hdb : isBlank d = false) :
    trimChars s = s := by
  obtain ⟨r, rfl⟩ := List.head?_eq_some_iff.1 hc
  rw [trimChars_cons r hcb, dropEndWhile_of_getLast? hd hdb]

/-- A last character that is not blank stays the last one when the front is cut. -/
theorem getLast?_dropWhile {s : List Char} {c : Char} (h : s.getLast? = some c)
    (hc : isBlank c = false) : (s.dropWhile isBlank).getLast? = some c := by
  obtain ⟨r, rfl⟩ := List.getLast?_eq_some_iff.1 h
  rw [List.dropWhile_append]
  split_ifs
  · simp [hc]
  · rw [List.getLast?_append]
    rfl

/-- A text is cut at its front only when it ends with a character that is not blank. -/
theorem trimChars_of_getLast? {s : List Char} {c : Char} (h : s.getLast? = some c)
    (hc : isBlank c = false) : trimChars s = s.dropWhile isBlank :=
  dropEndWhile_of_getLast? (getLast?_dropWhile h hc) hc

/-- The trimmed text is a part of the text. -/
theorem trimChars_isInfix (s : List Char) : trimChars s <:+: s := by
  have h : trimChars s <+: s.dropWhile isBlank := List.rdropWhile_prefix _ _
  exact h.isInfix.trans (List.dropWhile_suffix _).isInfix

/-- Trimming at both ends leaves no more than trimming at the second one. -/
theorem length_trimChars_le (s : List Char) :
    (trimChars s).length ≤ (dropEndWhile isBlank s).length := by
  obtain ⟨front, hfront⟩ := List.dropWhile_suffix (l := s) isBlank
  cases hs : s.dropWhile isBlank with
  | nil =>
    have htrim : trimChars s = [] := by rw [trimChars, hs]; rfl
    rw [htrim]
    exact Nat.zero_le _
  | cons c r =>
    have hc : isBlank c = false := by
      have hhead := List.head?_dropWhile_not isBlank s
      rw [hs] at hhead
      exact hhead
    rw [trimChars, hs, ← hfront, hs, dropEndWhile_append_cons front r hc, List.length_append]
    exact Nat.le_add_left _ _

/-- Around a character that is not blank, each side is cut at its own end. -/
theorem trimChars_append_cons {c : Char} (front s : List Char) (hc : isBlank c = false) :
    trimChars (front ++ c :: s) = front.dropWhile isBlank ++ c :: dropEndWhile isBlank s := by
  have hhead : ∀ d ∈ (c :: s).head?, isBlank d = false := by
    intro d hd
    rw [← Option.some.inj hd]
    exact hc
  rw [trimChars, (span_append front hhead).2, dropEndWhile_append_cons _ _ hc,
    dropEndWhile_cons _ hc]

/-- What stands behind a character that is not blank is trimmed to less than the whole. -/
theorem length_trimChars_lt {c : Char} (front s : List Char) (hc : isBlank c = false) :
    (trimChars s).length < (trimChars (front ++ c :: s)).length := by
  calc (trimChars s).length ≤ (dropEndWhile isBlank s).length := length_trimChars_le s
    _ < (trimChars (front ++ c :: s)).length := by
      rw [trimChars_append_cons front s hc, List.length_append, List.length_cons]
      omega

/-- A trimmed text is not trimmed again. -/
theorem trimChars_trimChars (s : List Char) : trimChars (trimChars s) = trimChars s := by
  cases hs : s.dropWhile isBlank with
  | nil =>
    have htrim : trimChars s = [] := by rw [trimChars, hs]; rfl
    rw [htrim]
    rfl
  | cons c r =>
    have hc : isBlank c = false := by
      have hhead := List.head?_dropWhile_not isBlank s
      rw [hs] at hhead
      exact hhead
    have htrim : trimChars s = c :: dropEndWhile isBlank r := by
      rw [trimChars, hs, dropEndWhile_cons r hc]
    rw [htrim, trimChars_cons _ hc, dropEndWhile_cons _ hc]
    exact congrArg (c :: ·) (List.rdropWhile_idempotent isBlank r)

/-- Capital letters and small letters are not blank, so the upper case of a text is trimmed where
the text is. -/
theorem isBlank_toUpper (c : Char) : isBlank c.toUpper = isBlank c := by
  unfold Char.toUpper
  split
  · next hlow =>
    have hc : 97 ≤ c.toNat ∧ c.toNat ≤ 122 := by
      simpa [UInt32.le_iff_toNat_le] using hlow
    have hblank : isBlank c = false := by
      simp [isBlank, blankRanges]
      omega
    rw [hblank]
    refine isBlank_of_isUpper (isUpper_iff.2 ?_)
    simp [UInt32.toNat_add]
    omega
  · rfl

theorem trimChars_map_toUpper (s : List Char) :
    trimChars (s.map Char.toUpper) = (trimChars s).map Char.toUpper := by
  have hblank : isBlank ∘ Char.toUpper = isBlank := funext isBlank_toUpper
  simp only [trimChars, dropEndWhile, List.dropWhile_map, ← List.map_reverse, hblank]

end SchemaDelta.Text
