import SchemaDelta.Proofs.Json.Strings
import SchemaDelta.Proofs.Script.Plan

/-!
# Comments in a script

Comments are written inside a list of columns, at the end of a body and around a whole statement.
Where no string of the document has a mark of a block comment, every comment of the script is closed
before the next one opens.
-/

namespace SchemaDelta

open Sql Text

/-- Texts whose comments are closed may be joined. -/
theorem Sql.tame_join {sep : String} (hsep : '/' ∉ sep.toList ∧ '*' ∉ sep.toList)
    (hne : sep.toList ≠ []) {ts : List String} (h : ∀ t ∈ ts, Tame true t.toList) :
    Tame true (join sep ts).toList := by
  induction ts with
  | nil => rfl
  | cons t ts ih =>
    have ht := h t List.mem_cons_self
    have htail := ih fun u hu => h u (List.mem_cons_of_mem _ hu)
    -- The last text has no separator after it.
    cases ts with
    | nil =>
      rw [join_singleton]
      exact ht
    | cons u ts =>
      rw [join_cons_cons, String.toList_append, String.toList_append]
      exact ht.between htail hsep hne

/-- A live statement keeps its comments, and one that is commented out has none of its own. -/
theorem Sql.tame_write {u : Fragment} (h : Tame u.active u.text.toList) :
    Tame true u.write.toList := by
  unfold Fragment.write
  cases hu : u.active with
  | false =>
    rw [hu] at h
    exact tame_commented h
  | true =>
    rw [hu] at h
    exact h

namespace Script

/-- Where no string of a document has a mark of a block comment, the comments of the script are
closed and not nested: read from the left, each opening mark meets its end before the next one, and
no end stands alone. A statement that is commented out has no comment of its own. -/
theorem scanComments_text (r : Json.Entries) (release : Option String)
    (h : ∀ s ∈ (Json.object r).strings, MarkFree s.toList) :
    ∃ s, ofJson (.object r) release = .ok s ∧ scanComments false s.text.toList = some false ∧
      ∀ u ∈ s.units, u.active = false → MarkFree u.text.toList := by
  obtain ⟨s, hs⟩ := exists_ofJson r release
  have hwritten := written_units Json.grants_markFree h hs
  have htame : ∀ u ∈ s.units, Tame u.active u.text.toList :=
    fun u hu => (hwritten u hu).tame fun _ ht => ht
  refine ⟨s, hs, ?_, ?_⟩
  · show Tame true s.text.toList
    refine tame_join (by decide) (by decide) fun t ht => ?_
    obtain ⟨u, hu, rfl⟩ := List.mem_map.1 ht
    exact tame_write (htame u (List.mem_filter.1 hu).1)
  · intro u hu hoff
    have hfree := htame u hu
    rw [hoff] at hfree
    exact hfree

/-- The comment in the body of a live table is closed, and in the body of a table that is switched
off there is none. -/
theorem scanComments_text_of_tables :
    ∃ s, ofJson (.object [("entities", .object [("added", .object [("items", .array
        [.object [("t", .object [("name", .string "t"), ("properties", .object
          [("a", .object [("mode", .string "number"), ("scale", .number (.integer 2))]),
          ("b", .object [("mode", .string "date"), ("isActivated", .bool false)])]),
          ("compMod", .object [("created", .bool true)])])],
        .object [("u", .object [("name", .string "u"), ("isActivated", .bool false),
          ("properties", .object [("a", .object [("mode", .string "date")]),
          ("b", .object [("mode", .string "date"), ("isActivated", .bool false)])]),
          ("compMod", .object [("created", .bool true)])])]])])])]) none = .ok s ∧
      s.text = "CREATE TABLE \"t\"\n(\n\t\"a\" NUMBER(*,2)\n\t/* \"b\" DATE */\n);\n\n" ++
        "/*\nCREATE TABLE \"u\"\n(\n\t\"a\" DATE,\n\t\"b\" DATE\n);\n*/" ∧
      scanComments false s.text.toList = some false := by
  refine (scanComments_text _ none ?_).imp fun s h => ⟨h.1, ?_, h.2.1⟩
  · decide +kernel
  · cases h.1
    decide +kernel

end Script

end SchemaDelta
