import SchemaDelta.Proofs.Run.Hidden
import SchemaDelta.Proofs.Script.Sealed
import SchemaDelta.Script.Basic

/-!
# What is switched off and what is run

An entity that is not active is written as comments. The splitter cuts a comment at its blank lines,
so parts of it may be run after all: `Definition.split_eq_nil_iff` says exactly when none is.
-/

namespace SchemaDelta

open Sql Text Run

/-- An entity that is ready to be written. -/
inductive Definition where
  | table (t : Table)
  /-- An index with the name, the schema and the activation of its table. -/
  | index (i : Index) (name : String) (owner : Option String) (parentActive : Bool)
  | view (v : View)
  | type (t : UserType)
  | schema (s : Schema)

namespace Definition

/-- The entity is switched on, and so is the table of an index. -/
def active : Definition → Bool
  | table t => t.active
  | index i _ _ parentActive => i.active && parentActive
  | view v => v.active
  | type t => t.active
  | schema s => s.active

/-- The statements that create the entity. -/
def units : Definition → List Fragment
  | table t => t.createUnits
  | index i name owner parentActive => [i.statement name owner parentActive]
  | view v => v.createUnits
  | type t => [t.createUnit]
  | schema s => [s.createUnit]

/-- All statements of an entity are sealed. -/
theorem sealed_units (d : Definition) : ∀ u ∈ d.units, Sealed u.text := by
  intro u hu
  cases d with
  | table t => exact t.sealed_createUnits u hu
  | index i name owner parentActive =>
    rw [List.mem_singleton.1 hu]
    exact i.sealed_statement name owner parentActive
  | view v => exact v.sealed_createUnits u hu
  | type t =>
    rw [List.mem_singleton.1 hu]
    exact t.sealed_createUnit
  | schema s =>
    rw [List.mem_singleton.1 hu]
    exact s.sealed_createUnit

/-- No statement of an inactive entity is live. -/
theorem inactive_units {d : Definition} (h : d.active = false) :
    ∀ u ∈ d.units, u.active = false := by
  intro u hu
  cases d with
  | table t =>
    have ht : t.active = false := h
    simp only [units, Table.createUnits, List.cons_append, List.mem_cons, List.mem_append,
      Option.mem_toList, List.mem_filterMap] at hu
    rcases hu with rfl | hu | ⟨c, -, hu⟩
    · exact ht
    · obtain ⟨e, -, rfl⟩ := Option.map_eq_some_iff.1 hu
      exact ht
    · obtain ⟨e, -, rfl⟩ := Option.map_eq_some_iff.1 hu
      simp [ht]
  | index i name owner parentActive =>
    rw [List.mem_singleton.1 hu]
    exact h
  | view v =>
    have hv : v.active = false := h
    simp only [units, View.createUnits, List.mem_cons, Option.mem_toList] at hu
    rcases hu with rfl | hu
    · exact hv
    · obtain ⟨e, -, rfl⟩ := Option.map_eq_some_iff.1 hu
      exact hv
  | type t =>
    rw [List.mem_singleton.1 hu]
    exact h
  | schema s =>
    rw [List.mem_singleton.1 hu]
    exact h

/-- Nothing of a list of inactive statements is run exactly when all of them are hidden. -/
theorem flatMap_split_eq_nil_iff {units : List Fragment} (hs : ∀ u ∈ units, Sealed u.text)
    (hi : ∀ u ∈ units, u.active = false) :
    (units.flatMap fun u => split u.write) = [] ↔ ∀ u ∈ units, hidden u.text = true := by
  rw [List.flatMap_eq_nil_iff]
  refine forall₂_congr fun u hu => ?_
  have hwrite : u.write = commented u.text := by simp [Fragment.write, hi u hu]
  rw [hwrite, split_commented (hs u hu)]

/-- Nothing of an inactive entity is run exactly when all its statements are hidden. The same holds
of the entity among the steps of a script: the other steps are run as if it were not there. A
statement without a blank line is hidden. -/
theorem split_eq_nil_iff (d : Definition) (h : d.active = false) (before after : List Step) :
    (split (statementsText d.units) = [] ↔ ∀ u ∈ d.units, hidden u.text = true) ∧
      (split (statementsText
          (before.flatMap Step.units ++ d.units ++ after.flatMap Step.units)) =
        split (statementsText (before.flatMap Step.units)) ++
          split (statementsText (after.flatMap Step.units)) ↔
        ∀ u ∈ d.units, hidden u.text = true) ∧
      ∀ u ∈ d.units, ¬['\n', '\n'] <:+: u.text.toList → hidden u.text = true := by
  -- Sealed statements are split one by one, so the other steps do not change what is run here.
  have hsteps (steps : List Step) : ∀ u ∈ steps.flatMap Step.units, Sealed u.text := by
    intro u hu
    obtain ⟨s, -, hu⟩ := List.mem_flatMap.1 hu
    exact s.sealed_units u hu
  have hnil := flatMap_split_eq_nil_iff d.sealed_units (inactive_units h)
  refine ⟨by rw [split_statementsText d.sealed_units, hnil], ?_, fun _ _ => hidden_of_no_break⟩
  have hall : ∀ u ∈ before.flatMap Step.units ++ d.units ++ after.flatMap Step.units,
      Sealed u.text := by
    intro u hu
    rcases List.mem_append.1 hu with hu | hu
    · rcases List.mem_append.1 hu with hu | hu
      · exact hsteps before u hu
      · exact d.sealed_units u hu
    · exact hsteps after u hu
  rw [split_statementsText hall, split_statementsText (hsteps before),
    split_statementsText (hsteps after), List.flatMap_append, List.flatMap_append, ← hnil]
  simp

/-- A view that is switched off and whose query has several lines leaves nothing to run. -/
theorem split_lines_of_view :
    split (statementsText (view
      { name := "v", active := false, selectStatement := some "SELECT a\nFROM t" }).units) = [] :=
  (split_eq_nil_iff _ rfl [] []).1.2 (by decide +kernel)

/-- A blank line in the query of a view that is switched off opens its comment: what follows the
blank line is run. -/
theorem split_blank_line_of_view :
    split (statementsText (view
      { name := "v", active := false, selectStatement := some "SELECT 1\n\nFROM dual" }).units) =
      ["/*\nCREATE VIEW \"v\"\n\tAS SELECT 1", "FROM dual;\n*"] := by
  decide +kernel

end Definition

end SchemaDelta
