import Mathlib.Data.Finset.Basic
import SchemaDelta.Proofs.Run.Boundaries
import SchemaDelta.Proofs.Run.Cancellation
import SchemaDelta.Proofs.Script.Existing
import SchemaDelta.Proofs.Sql.Names

/-!
# Tables that are dropped and created again

A script creates all its new tables before it drops any. So where a section deletes a table and also
creates one of the same name, the creation finds the old table, which is tolerated, and the removal
takes it: at the end of the run there is no table of that name (`not_mem_state_of_deleted`).

After the last creation all statements are about existing tables. Each of them begins with its verb
and the name of the table (`Step.exists_toList_unit`), so it creates none.
-/

namespace SchemaDelta

open Sql Text Run

/-! ## A database that knows its tables -/

namespace Run

/-- The qualified name of the table that a statement drops. -/
def droppedTable? (statement : String) : Option String :=
  (after? "DROP TABLE " statement.toList).map String.ofList

/-- A database with the given tables, each under its qualified name. It is left open how it reads
the statements that create a table. -/
def catalogue (created? : String → Option String) : Executor (Finset String) where
  execute tables statement :=
    match created? statement, droppedTable? statement with
    | some t, _ =>
      if t ∈ tables then
        (⟨some ⟨nameInUse, "name is already used by an existing object"⟩, false⟩, tables)
      else (⟨none, false⟩, insert t tables)
    | none, some t =>
      if t ∈ tables then (⟨none, false⟩, tables.erase t)
      else (⟨some ⟨942, "table or view does not exist"⟩, false⟩, tables)
    | none, none => (⟨none, false⟩, tables)

/-- The qualified name of the table that a statement creates, where the creation is a plain one and
the name ends its line. -/
def createdTable? (statement : String) : Option String :=
  (after? "CREATE TABLE " statement.toList).map fun r => String.ofList (r.takeWhile (· ≠ '\n'))

variable {created? : String → Option String} {tables : Finset String}

theorem catalogue_never_cancels (tables : Finset String) (statement : String) :
    ((catalogue created?).execute tables statement).1.cancels = false := by
  simp only [catalogue]
  cases created? statement with
  | some t =>
    dsimp only
    split_ifs <;> rfl
  | none =>
    cases droppedTable? statement with
    | some t =>
      dsimp only
      split_ifs <;> rfl
    | none => rfl

/-- Only a creation brings a table. -/
theorem catalogue_not_mem {statement t : String} (h : created? statement = none)
    (ht : t ∉ tables) : t ∉ ((catalogue created?).execute tables statement).2 := by
  simp only [catalogue, h]
  cases droppedTable? statement with
  | none => exact ht
  | some x =>
    dsimp only
    split_ifs
    · exact fun hm => ht (Finset.mem_of_mem_erase hm)
    · exact ht

/-- A removal takes its table. -/
theorem catalogue_drop {statement t : String} (h : created? statement = none)
    (hdrop : droppedTable? statement = some t) :
    t ∉ ((catalogue created?).execute tables statement).2 := by
  simp only [catalogue, h, hdrop]
  split_ifs with ht
  · exact Finset.notMem_erase t tables
  · exact ht

/-- Without a creation, a table that is not there does not come. -/
theorem catalogue_after_not_mem {statements : List String} {t : String}
    (h : ∀ s ∈ statements, created? s = none) (ht : t ∉ tables) :
    t ∉ (catalogue created?).after tables statements := by
  unfold Executor.after
  induction statements generalizing tables with
  | nil => exact ht
  | cons s statements ih =>
    obtain ⟨hs, hrest⟩ := List.forall_mem_cons.1 h
    exact ih hrest (catalogue_not_mem hs ht)

/-- A table that is dropped does not come back without a creation. -/
theorem catalogue_after_drop (front : List String) {statement : String} {back : List String}
    {t : String} (hdrop : droppedTable? statement = some t)
    (h : ∀ s ∈ statement :: back, created? s = none) :
    t ∉ (catalogue created?).after tables (front ++ statement :: back) := by
  obtain ⟨hstatement, hback⟩ := List.forall_mem_cons.1 h
  have hafter : (catalogue created?).after tables (front ++ statement :: back) =
      (catalogue created?).after ((catalogue created?).execute
        ((catalogue created?).after tables front) statement).2 back := by
    simp [Executor.after]
  rw [hafter]
  exact catalogue_after_not_mem hback (catalogue_drop hstatement hdrop)

end Run

/-! ## Statements on existing tables -/

namespace Run

variable {t : String} {front r : List Char}

/-- A statement that ends with a quoted name is run without its semicolon. -/
theorem toList_statementOf_quoted (hc : Capital t) (h : t.toList = front ++ '"' :: [';']) :
    (statementOf t).toList = front ++ ['"'] := by
  have hslash : t.toList.getLast? ≠ some '/' := by
    rw [h]
    simp
  have hsemi : dropEndWhile (· = ';') ['"', ';'] = ['"'] := by decide
  have hquote : dropEndWhile isBlank ['"'] = ['"'] := by decide
  rw [toList_statementOf hc hslash, h, dropEndWhile_append_cons _ _ (by decide), hsemi,
    dropEndWhile_append_cons _ _ (by decide), hquote]

/-- The live statements of a list of steps, as they are run. -/
def statementsOf (steps : List Step) : List String :=
  ((steps.flatMap Step.units).filter fun u => u.active && !createsUser u.text).map
    fun u => statementOf u.text

theorem statementsOf_append (l r : List Step) :
    statementsOf (l ++ r) = statementsOf l ++ statementsOf r := by
  simp [statementsOf]

theorem mem_statementsOf {steps : List Step} {t : String} (h : t ∈ statementsOf steps) :
    ∃ s ∈ steps, ∃ u ∈ s.units, statementOf u.text = t := by
  obtain ⟨u, hu, rfl⟩ := List.mem_map.1 h
  obtain ⟨s, hs, hus⟩ := List.mem_flatMap.1 (List.mem_filter.1 hu).1
  exact ⟨s, hs, u, hus, rfl⟩

end Run

/-- The statements of a step on an existing table are run with their verbs. -/
theorem Step.exists_statementOf {s : Step} {name : String} {schema : Option String}
    (h : s.existing? = some (qualified name schema)) :
    ∀ u ∈ s.units, ∃ verb ∈ Step.tableVerbs, ∃ rest, statementOf u.text = verb ++ rest := by
  intro u hu
  obtain ⟨verb, hverb, r, hr⟩ := Step.exists_toList_unit h u hu
  obtain ⟨n, hn⟩ := exists_toList_qualified name schema
  rw [hn, List.cons_append, ← List.append_assoc] at hr
  obtain ⟨rest, hrest⟩ :=
    exists_statementOf_cons (s.sealed_units u hu).capital hr (by decide) (by decide)
  refine ⟨verb, hverb, String.ofList ('"' :: rest), String.toList_inj.1 ?_⟩
  rw [hrest, String.toList_append, String.toList_ofList]

/-- The statement that drops a table is run, and it is read as the removal of this table. -/
theorem Run.statementsOf_dropTable (name : String) (schema : Option String) :
    ∃ t, droppedTable? t = some (qualified name schema) ∧ ∀ later,
      statementsOf (.dropTable (qualified name schema) :: later) = t :: statementsOf later := by
  obtain ⟨n, hn⟩ := exists_toList_qualified name schema
  have htext : (Form.dropTable.fill (.ofList [("name", qualified name schema)])).toList =
      ("DROP TABLE ".toList ++ '"' :: n) ++ '"' :: [';'] := by
    simp [Form.fill_dropTable, hn]
  have hst := toList_statementOf_quoted ⟨'D', _, htext, by decide⟩ htext
  have hname : ("DROP TABLE ".toList ++ '"' :: n) ++ ['"'] =
      "DROP TABLE ".toList ++ (qualified name schema).toList := by
    simp [hn]
  refine ⟨statementOf (Form.dropTable.fill (.ofList [("name", qualified name schema)])), ?_,
    fun later => ?_⟩
  · rw [droppedTable?, hst, hname, after?_append, Option.map_some, String.ofList_toList]
  · simp [statementsOf, Step.units, Step.live, opening_drop.createsUser_eq htext (by decide)]

/-- The statements of steps on existing tables are run with their verbs. -/
theorem Run.exists_verb {steps : List Step}
    (h : ∀ s ∈ steps, ∃ name schema, s.existing? = some (qualified name schema)) :
    ∀ t ∈ statementsOf steps, ∃ verb ∈ Step.tableVerbs, ∃ rest, t = verb ++ rest := by
  intro t ht
  obtain ⟨s, hs, u, hu, rfl⟩ := mem_statementsOf ht
  obtain ⟨name, schema, hname⟩ := h s hs
  exact Step.exists_statementOf hname u hu

/-! ## The end of a run -/

/-- The document with the given section of tables. -/
theorem Delta.ofJson?_entities (entities : Json) :
    Delta.ofJson? (.object [("entities", entities)]) =
      some { entities := Category.ofJson (some entities) } := by
  rfl

namespace Script

/-- A section whose strings have no line feed is run statement by statement. -/
theorem split_entities {entities : Json} (hlines : ∀ t ∈ entities.strings, '\n' ∉ t.toList)
    (release : Option String) :
    ∃ s, ofJson (.object [("entities", entities)]) release = .ok s ∧
      s.steps = tableSteps (Category.ofJson (some entities)) release ∧
      split s.text = statementsOf s.steps := by
  have hs : ofJson (.object [("entities", entities)]) release =
      .ok (ofDelta { entities := Category.ofJson (some entities) } release) := by
    rw [ofJson, Delta.ofJson?_entities]
  have hstrings : ∀ t ∈ (Json.object [("entities", entities)]).strings, '\n' ∉ t.toList := by
    intro t ht
    simp only [Json.strings, Json.entryStrings, List.append_nil, List.mem_cons] at ht
    rcases ht with rfl | ht
    · decide
    · exact hlines t ht
  have hwritten := written_units Json.grants_one_line hstrings hs
  refine ⟨_, hs, ?_, split_statements (sealed_units _) ?_⟩
  · simp [steps, ofDelta, schemaSteps, viewSteps, typeSteps, planItems]
  · exact fun u hu => (hwritten u hu).no_break fun _ ht => ht

/-- All tables of a section are created before anything else is done. So at the end of a run there
is no table that an item deletes, also when another item creates it: whatever tables there were
before, and however the database reads the creation of a table, as long as statements that alter or
drop a table create none. -/
theorem not_mem_state_of_deleted {entities : Json}
    (hlines : ∀ t ∈ entities.strings, '\n' ∉ t.toList) {created? : String → Option String}
    (hcreated : ∀ verb ∈ Step.tableVerbs, ∀ rest, created? (verb ++ rest) = none)
    (existing : Finset String) (release : Option String) :
    ∃ s creations others, ofJson (.object [("entities", entities)]) release = .ok s ∧
      s.steps = creations ++ others ∧ (∀ a ∈ creations, ∃ t, a = .createTable t) ∧
      (∀ b ∈ others, ∀ t, b ≠ .createTable t) ∧
      ∀ i ∈ (Category.ofJson (some entities)).deleted, ∀ d,
        i.entity? Model.Table.read? = some d → d.change = .deleted →
        ∀ table, TableSteps.name? d = some table →
          table ∉ (apply (catalogue created?) existing false s.text).progress.state := by
  obtain ⟨s, hs, hsteps, hsplit⟩ := split_entities hlines release
  rw [tableSteps_eq] at hsteps
  refine ⟨s, _, _, hs, hsteps, ?_, ?_, ?_⟩
  · intro a ha
    obtain ⟨-, -, d, -, -, ha⟩ := mem_planItems.1 ha
    obtain ⟨t, -, rfl⟩ := Option.map_eq_some_iff.1 (Option.mem_toList.1 ha)
    exact ⟨t, rfl⟩
  · rintro b hb t rfl
    obtain ⟨name, schema, h⟩ := existing?_laterTableSteps hb
    cases h
  · intro i hi d hd hchange table htable
    obtain ⟨name, -, rfl⟩ := Option.map_eq_some_iff.1 htable
    obtain ⟨front, back, hlater⟩ := List.append_of_mem
      (dropTable_mem_laterTableSteps hi hd hchange htable release)
    obtain ⟨t, hdropped, ht⟩ := statementsOf_dropTable name d.schema
    have hsplit' : split s.text = statementsOf (planItems Model.Table.read?
        (Category.ofJson (some entities)).added .created (TableSteps.create release) ++ front) ++
          t :: statementsOf back := by
      rw [hsplit, hsteps, hlater, ← List.append_assoc, statementsOf_append, ht]
    -- The statement that drops the table and those after it are about existing tables.
    have hverbs := exists_verb fun step hstep => existing?_laterTableSteps
      (hlater ▸ List.mem_append_right front hstep)
    rw [ht] at hverbs
    rw [state_apply _ _ _ catalogue_never_cancels, hsplit']
    refine catalogue_after_drop _ hdropped fun x hx => ?_
    obtain ⟨verb, hverb, rest, rfl⟩ := hverbs x hx
    exact hcreated verb hverb rest

/-- A table that is created and then dropped, where there was none. -/
theorem not_mem_state_of_deleted_new :
    ∃ s, ofJson (.object [("entities", .object
      [("deleted", .object [("items", .array [.object [("1", .object [("name", .string "t"),
        ("compMod", .object [("deleted", .bool true)])])]])]),
      ("added", .object [("items", .array [.object [("2", .object [("name", .string "t"),
        ("properties", .object [("a", .object [("mode", .string "number")])]),
        ("compMod", .object [("created", .bool true)])])]])])])]) none = .ok s ∧
      "\"t\"" ∉ (apply (catalogue createdTable?) ∅ false s.text).progress.state := by
  have hverbs : ∀ verb ∈ Step.tableVerbs, ∀ rest, createdTable? (verb ++ rest) = none := by
    intro verb hverb rest
    rw [createdTable?, Option.map_eq_none_iff, Option.eq_none_iff_forall_ne_some]
    intro r hr
    rw [after?_eq_some_iff] at hr
    rcases List.mem_pair.1 hverb with rfl | rfl <;> simp at hr
  obtain ⟨s, -, -, hs, -, -, -, h⟩ := @not_mem_state_of_deleted (.object
    [("deleted", .object [("items", .array [.object [("1", .object [("name", .string "t"),
      ("compMod", .object [("deleted", .bool true)])])]])]),
    ("added", .object [("items", .array [.object [("2", .object [("name", .string "t"),
      ("properties", .object [("a", .object [("mode", .string "number")])]),
      ("compMod", .object [("created", .bool true)])])]])])]) (by decide +kernel) createdTable?
    hverbs ∅ none
  exact ⟨s, hs, h _ List.mem_cons_self _ rfl (by decide +kernel) _ (by decide +kernel)⟩

/-- A table that is replaced is lost, and the run is reported as a success: the creation finds the
old table, and the removal takes it. -/
theorem replaced_table_lost :
    ∃ s, ofJson (.object [("entities", .object
      [("deleted", .object [("items", .array [.object [("1", .object [("name", .string "t"),
        ("compMod", .object [("deleted", .bool true)])])]])]),
      ("added", .object [("items", .array [.object [("2", .object [("name", .string "t"),
        ("properties", .object [("a", .object [("mode", .string "number")])]),
        ("compMod", .object [("created", .bool true)])])]])])])]) none = .ok s ∧
      split s.text = ["CREATE TABLE \"t\"\n(\n\t\"a\" NUMBER\n)", "DROP TABLE \"t\""] ∧
      (apply (catalogue createdTable?) {"\"t\""} false s.text).progress.state = ∅ ∧
      ∃ report, (apply (catalogue createdTable?) {"\"t\""} false s.text).result = .ok report ∧
        report.executed = 1 ∧ report.alreadyExisting = 1 := by
  refine ⟨_, rfl, ?_⟩
  -- The script is written and split once; the run is followed on its two statements.
  refine (fun h => ⟨h, ?_⟩) (by decide +kernel)
  unfold apply
  rw [h]
  exact ⟨by decide +kernel, _, rfl, by decide +kernel, by decide +kernel⟩

end Script

end SchemaDelta
