import SchemaDelta.Proofs.Json.Strings
import SchemaDelta.Proofs.Run.Hidden
import SchemaDelta.Proofs.Script.Plan

/-!
# The boundaries of statements

A script is written as text and cut to statements again. Where no string of the document has a line
feed, no statement has a blank line, so the pieces of the text are the statements of the script, and
those that are run are those that are live.
-/

namespace SchemaDelta

open Sql Text Run

/-- A live statement without a blank line is run, unless it creates a user, and a commented one is
not. -/
theorem Run.split_write {u : Fragment} (hs : Sealed u.text)
    (hn : ¬['\n', '\n'] <:+: u.text.toList) :
    split u.write =
      if u.active && !createsUser u.text then [statementOf u.text] else [] := by
  cases hu : u.active with
  | false =>
    have hwrite : u.write = commented u.text := by simp [Fragment.write, hu]
    rw [hwrite, (split_commented hs).2 (hidden_of_no_break hn)]
    rfl
  | true =>
    have hwrite : u.write = u.text := by simp [Fragment.write, hu]
    rw [hwrite, split_of_no_break hn, statement?_of_sealed hs]
    cases createsUser u.text <;> rfl

/-- Statements without blank lines are run one by one, in their order. -/
theorem Run.split_statements {units : List Fragment} (hs : ∀ u ∈ units, Sealed u.text)
    (hn : ∀ u ∈ units, ¬['\n', '\n'] <:+: u.text.toList) :
    split (statementsText units) =
      (units.filter fun u => u.active && !createsUser u.text).map fun u => statementOf u.text := by
  rw [split_statementsText hs]
  -- Each statement gives one piece or none, as the filter keeps it or not.
  induction units with
  | nil => rfl
  | cons u units ih =>
    have htail := ih (fun v hv => hs v (List.mem_cons_of_mem _ hv))
      fun v hv => hn v (List.mem_cons_of_mem _ hv)
    have hhead := split_write (hs u List.mem_cons_self) (hn u List.mem_cons_self)
    rw [List.flatMap_cons, htail, hhead]
    cases hu : u.active && !createsUser u.text <;> simp [hu]

namespace Script

/-- Where no string of a document has a line feed, the statements that are run are the live
statements of the script, each once and in order, apart from those that create a user. Each is run
whole, up to the end mark that is cut off, and nothing of a commented statement is run. -/
theorem split_text (r : Json.Entries) (release : Option String)
    (h : ∀ s ∈ (Json.object r).strings, '\n' ∉ s.toList) :
    ∃ s, ofJson (.object r) release = .ok s ∧
      split s.text =
        (s.units.filter fun u => u.active && !createsUser u.text).map
          (fun u => statementOf u.text) ∧
      (∀ u ∈ s.units, u.active = true →
        ∃ tail, u.text.toList = (statementOf u.text).toList ++ tail ∧ EndCut tail) ∧
      ∀ u ∈ s.units, u.active = false → split u.write = [] := by
  obtain ⟨s, hs⟩ := exists_ofJson r release
  have hwritten := written_units Json.grants_one_line h hs
  have hbreak : ∀ u ∈ s.units, ¬['\n', '\n'] <:+: u.text.toList :=
    fun u hu => (hwritten u hu).no_break fun _ ht => ht
  refine ⟨s, hs, split_statements s.sealed_units hbreak, ?_, ?_⟩
  · intro u hu _
    exact exists_statementOf_append (s.sealed_units u hu)
  · intro u hu hoff
    rw [split_write (s.sealed_units u hu) (hbreak u hu), hoff]
    rfl

/-- A user is not created, a live view is, and the view that is switched off leaves nothing. -/
theorem split_text_of_views :
    ∃ s, ofJson (.object
      [("containers", .object [("added", .object [("items", .array
        [.object [("u", .object [("compMod", .object [("created", .bool true)])])]])])]),
      ("views", .object [("added", .object [("items", .array
        [.object [("v", .object [("name", .string "v"), ("selectStatement", .string "SELECT 1"),
          ("compMod", .object [("created", .bool true)])])],
        .object [("w", .object [("name", .string "w"), ("selectStatement", .string "SELECT 2"),
          ("isActivated", .bool false),
          ("compMod", .object [("created", .bool true)])])]])])])]) none = .ok s ∧
      s.units.length = 3 ∧ split s.text = ["CREATE VIEW \"v\"\n\tAS SELECT 1"] := by
  refine (split_text _ none ?_).imp fun s h => ⟨h.1, ?_, ?_⟩
  · decide +kernel
  · cases h.1
    decide +kernel
  · rw [h.2.1]
    cases h.1
    decide +kernel

end Script

end SchemaDelta
