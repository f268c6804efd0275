import SchemaDelta.Proofs.Clause.Table
import SchemaDelta.Proofs.Clause.UserType
import SchemaDelta.Proofs.Clause.View

/-!
# The statements of a step are made of phrases

`Step.Texts` says which texts a step writes. When they are of a class, every statement of the step
is built of them, with comments in it only if it is live.
-/

namespace SchemaDelta

open Sql

variable {p : String → Prop} {b : Bool}

/-- The texts of a step are of the class. The qualified name of an existing table or type is a
phrase already. -/
def Step.Texts (p : String → Prop) : Step → Prop
  | createSchema s => p s.name
  | dropSchema s => p s.name
  | createTable t => t.Texts p
  | dropTable table => Phrase p false table
  | addColumn table _ c => Phrase p false table ∧ c.Texts p
  | dropColumn table column => Phrase p false table ∧ p column
  | renameColumn table old new => Phrase p false table ∧ p old ∧ p new
  | modifyColumn table column type => Phrase p false table ∧ p column ∧ p type
  | createView v => v.Texts p
  | dropView v => v.Texts p
  | createType t => t.Texts p
  | dropType t => t.Texts p
  | addAttribute type _ c => Phrase p false type ∧ c.Texts p
  | dropAttribute type name => Phrase p false type ∧ p name
  | modifyAttribute type name dataType => Phrase p false type ∧ p name ∧ p dataType

/-- The verb, the name of an existing table or type, another word and what it is about. -/
theorem written_change {verb name word x : String} (hverb : isWord verb = true)
    (hname : Phrase p false name) (hword : isSeparator word = true) (hx : Phrase p b x) :
    Written p b (verb ++ name ++ word ++ x ++ ";") :=
  ((Phrase.lead hverb hname.of_false).glue hword hx).written

/-- A quoted name with its type, which may be missing. -/
theorem phrase_retyped (hc : TextClass p) {name type : String} (hname : p name) (htype : p type) :
    Phrase p b (quote name ++ framed " " type "") :=
  (phrase_quote hc hname).framed_right (by decide) (.given htype)

/-- The statements of a step have comments in them only if they are live. -/
theorem Step.written_units (hc : TextClass p) {s : Step} (h : s.Texts p) :
    ∀ u ∈ s.units, Written p u.active u.text := by
  intro u hu
  cases s with
  | createSchema s =>
    rw [List.mem_singleton.1 hu]
    exact s.written_createUnit hc h
  | dropSchema s =>
    rw [List.mem_singleton.1 hu, Form.fill_dropUser]
    exact (Phrase.lead (by decide) (phrase_quote hc h)).written
  | createTable t => exact t.written_units hc h u hu
  | dropTable table =>
    rw [List.mem_singleton.1 hu, Form.fill_dropTable]
    exact (Phrase.lead (by decide) h.of_false).written
  | addColumn table tableActive c =>
    rw [List.mem_singleton.1 hu, Form.fill_addColumn]
    have hchange := written_change (b := c.active && tableActive)
      (by decide : isWord "ALTER TABLE " = true) h.1 (by decide : isSeparator " ADD " = true)
      (.paren (c.phrase_line hc h.2.strings))
    exact hchange.of_toList (by simp)
  | dropColumn table column =>
    rw [List.mem_singleton.1 hu, Form.fill_dropColumn]
    exact written_change (by decide) h.1 (by decide) (phrase_quote hc h.2)
  | renameColumn table old new =>
    rw [List.mem_singleton.1 hu, Form.fill_renameColumn]
    have hnames : Phrase p true (quote old ++ " TO " ++ quote new) :=
      .glue (phrase_quote hc h.2.1) (by decide) (phrase_quote hc h.2.2)
    have hchange := written_change (by decide : isWord "ALTER TABLE " = true) h.1
      (by decide : isSeparator " RENAME COLUMN " = true) hnames
    exact hchange.of_toList (by simp)
  | modifyColumn table column type =>
    rw [List.mem_singleton.1 hu, Form.fill_modifyColumn]
    have hchange := written_change (b := true) (by decide : isWord "ALTER TABLE " = true) h.1
      (by decide : isSeparator " MODIFY " = true) (.paren (phrase_retyped hc h.2.1 h.2.2))
    exact hchange.of_toList (by simp)
  | createView v => exact v.written_units hc h u hu
  | dropView v =>
    rw [List.mem_singleton.1 hu, Form.fill_dropView]
    exact (Phrase.lead (by decide) (v.phrase_qualifiedName hc h)).written
  | createType t =>
    rw [List.mem_singleton.1 hu]
    exact t.written_createUnit hc h
  | dropType t =>
    rw [List.mem_singleton.1 hu, Form.fill_dropType]
    exact (Phrase.lead (by decide) (t.phrase_qualifiedName hc h)).written
  | addAttribute type active c =>
    rw [List.mem_singleton.1 hu, Form.fill_addAttribute]
    exact written_change (by decide) h.1 (by decide) (c.phrase_attributeLine hc h.2)
  | dropAttribute type name =>
    rw [List.mem_singleton.1 hu, Form.fill_dropAttribute]
    exact written_change (by decide) h.1 (by decide) (phrase_quote hc h.2)
  | modifyAttribute type name dataType =>
    rw [List.mem_singleton.1 hu, Form.fill_modifyAttribute]
    have hchange := written_change (b := true) (by decide : isWord "ALTER TYPE " = true) h.1
      (by decide : isSeparator " MODIFY ATTRIBUTE " = true) (phrase_retyped hc h.2.1 h.2.2)
    exact hchange.of_toList (by simp)

end SchemaDelta
