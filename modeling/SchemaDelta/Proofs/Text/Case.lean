import Mathlib
import SchemaDelta.Proofs.Text.Ends

/-!
# Case and padding

The case maps change the ASCII letters and leave the class of blank characters alone, so a text may
be trimmed before or after its case is changed. Of two maps in a row the last one decides.
-/

namespace SchemaDelta.Text

/-- A small letter is no more blank than its capital. -/
theorem isBlank_toLower (c : Char) : isBlank c.toLower = isBlank c := by
  rw [← isBlank_toUpper c.toLower, Char.toUpper_toLower_eq_toUpper, isBlank_toUpper]

theorem trimChars_map_toLower (s : List Char) :
    trimChars (s.map Char.toLower) = (trimChars s).map Char.toLower := by
  have hblank : isBlank ∘ Char.toLower = isBlank := funext isBlank_toLower
  simp only [trimChars, dropEndWhile, List.dropWhile_map, ← List.map_reverse, hblank]

/-! ## Texts -/

variable (s : String)

theorem trim_toUpper : trim s.toUpper = (trim s).toUpper := by
  refine String.toList_inj.1 ?_
  simp only [String.toUpper, toList_trim, String.toList_map, trimChars_map_toUpper]

theorem trim_toLower : trim s.toLower = (trim s).toLower := by
  refine String.toList_inj.1 ?_
  simp only [String.toLower, toList_trim, String.toList_map, trimChars_map_toLower]

theorem toLower_toUpper : s.toUpper.toLower = s.toLower := by
  refine String.toList_inj.1 ?_
  simp [String.toUpper, String.toLower]

theorem toLower_toLower : s.toLower.toLower = s.toLower := by
  refine String.toList_inj.1 ?_
  simp [String.toLower]

theorem toUpper_toLower : s.toLower.toUpper = s.toUpper := by
  refine String.toList_inj.1 ?_
  simp [String.toUpper, String.toLower]

theorem toUpper_toUpper : s.toUpper.toUpper = s.toUpper := by
  refine String.toList_inj.1 ?_
  simp [String.toUpper]

theorem trim_trim : trim (trim s) = trim s := by
  refine String.toList_inj.1 ?_
  rw [toList_trim, toList_trim, trimChars_trimChars]

/-- Blank characters around a text are cut off. -/
theorem trimChars_padded {front back : List Char} (hfront : ∀ c ∈ front, isBlank c = true)
    (hback : ∀ c ∈ back, isBlank c = true) (t : List Char) :
    trimChars (front ++ t ++ back) = trimChars t := by
  have hend (u : List Char) : dropEndWhile isBlank (u ++ back) = dropEndWhile isBlank u := by
    have hdrop : (back.reverse ++ u.reverse).dropWhile isBlank = u.reverse.dropWhile isBlank :=
      List.dropWhile_append_of_pos fun c hc => hback c (List.mem_reverse.1 hc)
    rw [dropEndWhile, List.reverse_append, hdrop, dropEndWhile]
  rw [List.append_assoc, trimChars, List.dropWhile_append_of_pos hfront, List.dropWhile_append]
  -- Where the text itself is blank, the cut at the front reaches into what follows it.
  split_ifs with hblank
  · have hnil : back.dropWhile isBlank = [] := List.dropWhile_eq_nil_iff.2 hback
    rw [hnil, trimChars, List.isEmpty_iff.1 hblank]
  · rw [hend, trimChars]

theorem trim_padded {front back : String} (hfront : blank front = true)
    (hback : blank back = true) : trim (front ++ s ++ back) = trim s := by
  refine String.toList_inj.1 ?_
  simp only [toList_trim, String.toList_append]
  exact trimChars_padded (List.all_eq_true.1 hfront) (List.all_eq_true.1 hback) _

end SchemaDelta.Text
