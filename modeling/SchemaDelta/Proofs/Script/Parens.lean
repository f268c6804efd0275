import SchemaDelta.Proofs.Json.References
import SchemaDelta.Proofs.Script.Plan
import SchemaDelta.Proofs.Sql.Parens

/-!
# Parentheses in a script

Lists of columns, type qualifiers, partitions, files and check expressions stand in parentheses that
are written in many places. Where the strings of the document are balanced, each of them is closed,
in every statement and in the script.
-/

namespace SchemaDelta

open Sql Text

/-- A document whose strings are balanced and whose references have no parentheses. -/
theorem Json.grants_balanced :
    Grants (fun v => (∀ s ∈ v.strings, Balanced s.toList) ∧
      ∀ s ∈ v.references, '(' ∉ s.toList ∧ ')' ∉ s.toList) fun s => Balanced s.toList := by
  refine grants_references textClass_of_balanced
    (fun hs => parens_eq_nil_iff.1 (parens_of_isPlainText hs)) ?_
  -- A part of a path has no parentheses either, though a part of a balanced text may have one.
  intro path hpath
  have hpart := (lastSegment_isInfix path).subset
  exact .of_parens_eq_nil
    (parens_eq_nil_iff.2 ⟨fun h => hpath.1 (hpart h), fun h => hpath.2 (hpart h)⟩)

namespace Script

/-- Where the strings and the keys of a document are balanced and its references have no
parentheses, every statement of the script is balanced for every release, and so is the script. -/
theorem balanced_text (r : Json.Entries) (release : Option String)
    (h : ∀ s ∈ (Json.object r).strings, Balanced s.toList)
    (href : ∀ s ∈ (Json.object r).references, '(' ∉ s.toList ∧ ')' ∉ s.toList) :
    ∃ s, ofJson (.object r) release = .ok s ∧ Balanced s.text.toList ∧
      ∀ u ∈ s.units, Balanced u.text.toList := by
  obtain ⟨s, hs⟩ := exists_ofJson r release
  have hunits : ∀ u ∈ s.units, Balanced u.text.toList := fun u hu =>
    (written_units Json.grants_balanced ⟨h, href⟩ hs u hu).balanced fun _ ht => ht
  exact ⟨s, hs, balanced_statementsText hunits, hunits⟩

/-- The pair around a check expression is taken away only where it encloses all of it. -/
theorem balanced_text_of_table :
    ∃ s, ofJson (.object [("entities", .object [("added", .object [("items", .array
        [.object [("t", .object [("name", .string "t"), ("properties", .object
          [("a", .object [("mode", .string "number"), ("scale", .number (.integer 2))]),
          ("b", .object [("$ref", .string "#/definitions/address")])]),
          ("chkConstr", .array
            [.object [("constrExpression", .string "((a > 0) OR (b IS NULL))")],
            .object [("constrExpression", .string "(a > 0) OR (b IS NULL)")]]),
          ("compMod", .object [("created", .bool true)])])]])])])]) none = .ok s ∧
      s.text = "CREATE TABLE \"t\"\n(\n\t\"a\" NUMBER(*,2),\n\t\"b\" address,\n" ++
        "\tCHECK ((a > 0) OR (b IS NULL)),\n\tCHECK ((a > 0) OR (b IS NULL))\n);" ∧
      Balanced s.text.toList := by
  refine (balanced_text _ none ?_ ?_).imp fun s h => ⟨h.1, ?_, h.2.1⟩
  · decide +kernel
  · decide +kernel
  · cases h.1
    decide +kernel

end Script

end SchemaDelta
