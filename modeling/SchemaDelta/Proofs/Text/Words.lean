import SchemaDelta.Proofs.Text.Ends

/-!
# Words

Blank characters separate words and belong to none, so the words of a text are those of its parts
between blank characters.
-/

namespace SchemaDelta.Text

/-- The words of a list of characters. -/
def wordChars (s : List Char) : List (List Char) :=
  (s.splitOnP isBlank).filter (· ≠ [])

theorem words_eq_map (s : String) : words s = (wordChars s.toList).map String.ofList := rfl

/-- A blank character separates the words before it from those after it. -/
theorem wordChars_append_blank {c : Char} (hc : isBlank c = true) (before after : List Char) :
    wordChars (before ++ c :: after) = wordChars before ++ wordChars after := by
  have hsplit := List.splitOnP_append_cons before after hc
  rw [wordChars, hsplit, List.filter_append]
  rfl

/-- Blank characters at the front belong to no word. -/
theorem wordChars_dropWhile (s : List Char) : wordChars (s.dropWhile isBlank) = wordChars s := by
  induction s with
  | nil => rfl
  | cons c s ih =>
    by_cases hc : isBlank c = true
    · have hcons : wordChars (c :: s) = wordChars [] ++ wordChars s :=
        wordChars_append_blank hc [] s
      rw [List.dropWhile_cons_of_pos hc, ih, hcons]
      rfl
    · rw [List.dropWhile_cons_of_neg hc]

/-- Blank characters make no words. -/
theorem wordChars_eq_nil {s : List Char} (h : ∀ c ∈ s, isBlank c = true) : wordChars s = [] := by
  rw [← wordChars_dropWhile, List.dropWhile_eq_nil_iff.2 h]
  rfl

/-- Blank characters at the end belong to no word. -/
theorem wordChars_append_of_blank {t : List Char} (s : List Char)
    (h : ∀ c ∈ t, isBlank c = true) : wordChars (s ++ t) = wordChars s := by
  cases t with
  | nil => rw [List.append_nil]
  | cons c t =>
    rw [wordChars_append_blank (h c (by simp)),
      wordChars_eq_nil fun d hd => h d (List.mem_cons_of_mem _ hd), List.append_nil]

/-- The words have all characters that are not blank. -/
theorem flatten_wordChars (s : List Char) :
    (wordChars s).flatten = s.filter fun c => !isBlank c := by
  rw [wordChars, List.flatten_filter_ne_nil]
  induction s with
  | nil => rfl
  | cons c s ih =>
    rw [List.splitOnP_cons_eq_if_modifyHead, List.filter_cons]
    cases hc : isBlank c with
    | true => simpa using ih
    | false =>
      obtain ⟨w, ws, hws⟩ := List.exists_cons_of_ne_nil (List.splitOnP_ne_nil isBlank s)
      rw [hws] at ih ⊢
      simpa using ih

/-- Texts have the same words if their characters do. -/
theorem words_eq_words_iff {s t : String} :
    words s = words t ↔ wordChars s.toList = wordChars t.toList := by
  rw [words_eq_map, words_eq_map]
  exact (List.map_injective_iff.2 fun _ _ h => String.ofList_injective h).eq_iff

/-- Texts with the same words have the same characters that are not blank, as often. -/
theorem count_eq_of_words_eq {s t : String} (h : words s = words t) {c : Char}
    (hc : isBlank c = false) : s.toList.count c = t.toList.count c := by
  have hcount (u : List Char) : (wordChars u).flatten.count c = u.count c := by
    rw [flatten_wordChars]
    exact List.count_filter (by simp [hc])
  rw [← hcount, ← hcount t.toList, words_eq_words_iff.1 h]

/-- Trimming keeps the words. -/
theorem words_trim (s : String) : words (trim s) = words s := by
  obtain ⟨t, ht, hblank⟩ := exists_append_dropEndWhile isBlank (s.toList.dropWhile isBlank)
  have h : wordChars (trimChars s.toList) = wordChars s.toList := by
    rw [← wordChars_dropWhile s.toList, ht, trimChars, wordChars_append_of_blank _ hblank]
  rw [words_eq_map, words_eq_map, toList_trim, h]

end SchemaDelta.Text
