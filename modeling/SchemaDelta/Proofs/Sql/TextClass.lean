import SchemaDelta.Proofs.Sql.Marks
import SchemaDelta.Proofs.Text.Ends
import SchemaDelta.Table.Clause

/-!
# Classes of texts

Texts of a document are trimmed, put in upper case and freed of parentheses before they are written.
A class of texts is closed under these changes and contains the plain texts that the program has of
its own.
-/

namespace SchemaDelta

open Sql Text

/-- Letters, digits and the few other characters of numbers and type names. -/
def isPlain (c : Char) : Bool :=
  c.isAlphanum || c = ' ' || c = '.' || c = '+' || c = '-'

/-- The text is made of plain characters, and no two dashes in it begin a comment. -/
def isPlainText (s : String) : Bool :=
  s.toList.all isPlain && !containsChars ['-', '-'] s.toList

/-- A class of texts that is closed under the changes before writing. -/
structure TextClass (p : String → Prop) : Prop where
  plain : ∀ {s : String}, isPlainText s = true → p s
  trim : ∀ {s : String}, p s → p (trim s)
  upper : ∀ {s : String}, p s → p s.toUpper
  unwrap : ∀ {s : String}, p s → p (stripParens s)

/-- What is left without parentheses is a part of the text. -/
theorem stripParens_isInfix (s : String) : (stripParens s).toList <:+: s.toList := by
  unfold stripParens
  simp only
  split_ifs
  · rw [String.toList_ofList]
    exact ((trimChars_isInfix _).trans (List.dropLast_prefix _).isInfix).trans
      ((List.drop_suffix _ _).isInfix.trans (trimChars_isInfix _))
  · rw [String.toList_ofList]
    exact trimChars_isInfix _

/-- A class that contains the parts of its texts is closed under trimming and unwrapping. -/
theorem TextClass.of_parts {p : String → Prop}
    (plain : ∀ {s : String}, isPlainText s = true → p s)
    (part : ∀ {s t : String}, p s → t.toList <:+: s.toList → p t)
    (upper : ∀ {s : String}, p s → p s.toUpper) : TextClass p where
  plain := plain
  trim h := part h (by rw [toList_trim]; exact trimChars_isInfix _)
  upper := upper
  unwrap h := part h (stripParens_isInfix _)

/-! ## Upper case -/

theorem toList_toUpper (s : String) : s.toUpper.toList = s.toList.map Char.toUpper := by
  rw [String.toUpper, String.toList_map]

/-- Only a capital letter is the upper case of another character. -/
theorem eq_of_toUpper {c d : Char} (h : c.toUpper = d) (hd : d.isUpper = false) : c = d := by
  unfold Char.toUpper at h
  split at h
  -- A small letter would give a capital letter.
  · next hlow =>
    have hc : 97 ≤ c.toNat ∧ c.toNat ≤ 122 := by
      simpa [UInt32.le_iff_toNat_le] using hlow
    have hval : d.toNat = c.toNat - 32 := by
      rw [← h]
      simp [UInt32.toNat_add]
      omega
    have hup : d.isUpper = true := isUpper_iff.2 (by omega)
    rw [hup] at hd
    exact absurd hd (by decide)
  · exact h

/-- A character that is no capital letter stands in the upper case of a text where it stood. -/
theorem mem_toUpper {d : Char} {s : String} (hd : d.isUpper = false) (h : d ∈ s.toUpper.toList) :
    d ∈ s.toList := by
  rw [toList_toUpper] at h
  obtain ⟨c, hc, hcd⟩ := List.mem_map.1 h
  rwa [← eq_of_toUpper hcd hd]

/-- A pair without capital letters stands in the upper case of a text where it stood. -/
theorem pair_infix_toUpper {a d : Char} {s : String} (ha : a.isUpper = false)
    (hd : d.isUpper = false) (h : [a, d] <:+: s.toUpper.toList) : [a, d] <:+: s.toList := by
  rw [toList_toUpper, List.infix_map_iff] at h
  obtain ⟨l, hl, hmap⟩ := h
  obtain ⟨c, m, rfl, hc, hm⟩ := List.map_eq_cons_iff.1 hmap.symm
  obtain ⟨e, rfl, he⟩ := List.map_eq_singleton_iff.1 hm
  rwa [eq_of_toUpper hc ha, eq_of_toUpper he hd] at hl

/-! ## The classes of three properties -/

/-- The characters of a plain text are plain. -/
theorem isPlain_of_mem {s : String} (h : isPlainText s = true) {c : Char} (hc : c ∈ s.toList) :
    isPlain c = true :=
  List.all_eq_true.1 (Bool.and_eq_true_iff.1 h).1 c hc

/-- The texts without a line feed are a class. -/
theorem textClass_of_one_line : TextClass fun s => '\n' ∉ s.toList := by
  refine .of_parts ?_ ?_ ?_
  · intro s hs hmem
    exact absurd (isPlain_of_mem hs hmem) (by decide)
  · intro s t hs ht hmem
    exact hs (ht.subset hmem)
  · intro s hs hmem
    exact hs (mem_toUpper (by decide) hmem)

/-- The texts without marks of block comments are a class. -/
theorem textClass_of_markFree : TextClass fun s => MarkFree s.toList := by
  refine .of_parts ?_ ?_ ?_
  · intro s hs
    refine .of_not_mem ⟨fun hmem => ?_, fun hmem => ?_⟩
    · exact absurd (isPlain_of_mem hs hmem) (by decide)
    · exact absurd (isPlain_of_mem hs hmem) (by decide)
  · intro s t hs ht
    exact hs.part ht
  · intro s hs
    exact ⟨fun hi => hs.1 (pair_infix_toUpper (by decide) (by decide) hi),
      fun hi => hs.2 (pair_infix_toUpper (by decide) (by decide) hi)⟩

/-- The texts without any comment marks are a class. -/
theorem textClass_of_commentFree : TextClass fun s => CommentFree s.toList := by
  have hmarks := textClass_of_markFree
  refine .of_parts ?_ ?_ ?_
  · intro s hs
    have hdashes : containsChars ['-', '-'] s.toList = false := by
      simpa using (Bool.and_eq_true_iff.1 hs).2
    refine ⟨hmarks.plain hs, ?_⟩
    rw [← containsChars_iff, hdashes]
    exact Bool.false_ne_true
  · intro s t hs ht
    exact hs.part ht
  · intro s hs
    exact ⟨hmarks.upper hs.1, fun hi => hs.2 (pair_infix_toUpper (by decide) (by decide) hi)⟩

end SchemaDelta
