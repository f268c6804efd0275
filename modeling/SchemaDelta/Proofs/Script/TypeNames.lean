import SchemaDelta.Proofs.Activation.Body
import SchemaDelta.Proofs.Alteration.Types
import SchemaDelta.Proofs.Script.Openings
import SchemaDelta.Proofs.Sql.Identifiers

/-!
# Names of types in columns

A type is created under its name in quotes, with its schema. A column that refers to the type names
it by the end of its path, without quotes and without a schema, so the column finds the type only
where the name means the same without them: `Script.reference_denotes_iff`.
-/

namespace SchemaDelta

open Sql Text

/-! ## The clause of a type -/

namespace DataType

/-- The names of the types that have qualifiers. -/
def qualifiable : List String :=
  lengthTypes ++ ["NUMBER", "FLOAT", "TIMESTAMP", "INTERVAL YEAR", "INTERVAL DAY"]

/-- Other types are written as their name. -/
theorem clause_eq_trim {typeName : String} (h : trim typeName ∉ qualifiable) (q : Qualifiers) :
    clause typeName q = trim typeName := by
  simp only [qualifiable, List.mem_append, List.mem_cons, List.not_mem_nil, or_false, not_or] at h
  obtain ⟨hlength, hnumber, hfloat, hstamp, hyear, hday⟩ := h
  unfold clause
  dsimp only
  rw [if_neg hlength, numericClause, if_neg hnumber, if_neg hfloat]
  unfold temporalClause
  split
  · next h => exact absurd h hstamp
  · next h => exact absurd h hyear
  · next h => exact absurd h hday
  · rfl

/-- A type clause names what the name of its type does. -/
theorem object?_clause (C : Charset) (home : List Char) (typeName : String) (q : Qualifiers) :
    C.object? home (clause typeName q).toList = C.object? home (trim typeName).toList := by
  by_cases h : trim typeName ∈ qualifiable
  · obtain ⟨x, hx, hclause⟩ := decorated_clause typeName q
    have hall : ∀ t ∈ qualifiable, '"' ∉ t.toList ∧ '.' ∉ t.toList := by decide
    obtain ⟨hquote, hdot⟩ := hall _ h
    rw [hclause, String.toList_append]
    exact C.object?_append hquote hdot hx
  · rw [clause_eq_trim h]

/-! ## The end of a path -/

/-- The name at the end of a path stands after the last slash. -/
theorem toList_lastSegment {path : String} {front s : List Char}
    (hpath : path.toList = front ++ '/' :: s) (hs : '/' ∉ s) : (lastSegment path).toList = s := by
  have hstop : ∀ c ∈ ('/' :: front.reverse).head?, decide (c ≠ '/') = false := by
    intro c hc
    rw [← Option.some.inj hc]
    decide
  have hrun : s.reverse.takeWhile (· ≠ '/') = s.reverse := by
    rw [List.takeWhile_eq_self_iff]
    intro c hc
    exact decide_eq_true (ne_of_mem_of_not_mem (List.mem_reverse.1 hc) hs)
  have hreverse : path.toList.reverse = s.reverse ++ '/' :: front.reverse := by
    rw [hpath]
    simp
  rw [lastSegment, String.toList_ofList, hreverse, (span_append _ hstop).1, hrun,
    List.reverse_reverse]

/-- What stands after a slash is the name at the end of the path, or has that name behind a slash of
its own. -/
theorem lastSegment_of_suffix {path : String} {n : List Char} (h : '/' :: n <:+ path.toList) :
    (lastSegment path).toList = n ∨
      ∃ front, n = front ++ '/' :: (lastSegment path).toList := by
  obtain ⟨front, hfront⟩ := h
  by_cases hn : '/' ∈ n
  · -- The last slash of the name is the first one from its end.
    obtain ⟨l, m, hlm, hl⟩ := List.eq_append_cons_of_mem (List.mem_reverse.2 hn)
    have hnlm : n = m.reverse ++ '/' :: l.reverse := by
      rw [← List.reverse_reverse n, hlm]
      simp
    have hpath : path.toList = (front ++ '/' :: m.reverse) ++ '/' :: l.reverse := by
      rw [← hfront, hnlm]
      simp
    refine .inr ⟨m.reverse, ?_⟩
    rw [toList_lastSegment hpath (fun h => hl (List.mem_reverse.1 h))]
    exact hnlm
  · exact .inl (toList_lastSegment hfront.symm hn)

/-- Trimmed, the name at the end of a path is what stands after a slash, unless that has a slash of
its own and is longer. -/
theorem trim_lastSegment_of_suffix {path : String} {n : List Char}
    (h : '/' :: n <:+ path.toList) :
    trimChars (lastSegment path).toList = trimChars n ∨
      (trimChars (lastSegment path).toList).length < (trimChars n).length ∧ '/' ∈ trimChars n := by
  have hslash : isBlank '/' = false := by decide
  rcases lastSegment_of_suffix h with hn | ⟨front, hn⟩
  · exact .inl (by rw [hn])
  · refine .inr ⟨?_, ?_⟩
    · rw [hn]
      exact length_trimChars_lt front _ hslash
    · rw [hn, trimChars_append_cons front _ hslash]
      simp

end DataType

/-! ## Where the clause stands -/

/-- The line of a column stands in the statement that creates its table. -/
theorem Table.isInfix_line {n : Model.Table} {ctx : Context} {t : Table}
    (h : ofNode? n ctx = some t) {c : Column} (hc : c ∈ t.columns) :
    c.line.text.toList <:+: t.createText.toList := by
  have hmem : c.line ∈ t.members := by
    simp only [members, List.mem_append]
    exact .inl (.inl (.inl (List.mem_map_of_mem hc)))
  exact (isInfix_composite (members_ne_empty h) hmem ",\n\t" t.active).trans t.isInfix_body

/-- The clause of a type follows the name of its column, if it is not empty. -/
theorem Column.exists_line_eq (c : Column) :
    ∃ rest, c.line.text = quote c.name ++ framed " " c.type.clause "" ++ rest := by
  rw [line, Form.fill_columnDefinition]
  simp only [String.append_assoc]
  exact ⟨_, rfl⟩

/-! ## Declarations -/

/-- The schema of an object: the one before its name, else the current one. -/
def Sql.schemaIn (home : List Char) (schema : Option String) : List Char :=
  ((schema.filter fun s => !blank s).map fun s => trimChars s.toList).getD home

/-- The object that a statement creates as a type. -/
def Sql.Charset.declared? (C : Charset) (home : List Char) (statement : String) :
    Option ObjectName :=
  (after? "CREATE OR REPLACE TYPE " statement.toList).bind (C.object? home)

/-- A type is created under its trimmed name in its schema. -/
theorem UserType.declared?_createText (C : Charset) (home : List Char) (t : UserType) :
    C.declared? home t.createText = some ⟨schemaIn home t.schema, trimChars t.name.toList⟩ := by
  obtain ⟨r, hr⟩ := t.exists_toList_createText
  have hstatement : t.createText.toList =
      "CREATE OR REPLACE TYPE ".toList ++ (t.qualifiedName.toList ++ ' ' :: (r ++ [';'])) := hr
  rw [Charset.declared?, hstatement, after?_append, Option.bind_some, qualifiedName,
    C.object?_qualified t.name t.schema (by simp) (by simp)]
  rfl

/-! ## References -/

/-- The delta creates a type of this name and, in the same schema, a table with a field that refers
to it. -/
structure Delta.Refers (d : Delta) (type : Changed Model.UserType) (table : Changed Model.Table)
    (field : String × Model.Field) (name : String) : Prop where
  typeAdded : ∃ i ∈ d.modelDefinitions.added, i.entity? Model.UserType.read? = some type
  typeCreated : type.change = .created
  typeName : type.node.typeName? = some name
  tableAdded : ∃ i ∈ d.entities.added, i.entity? Model.Table.read? = some table
  tableCreated : table.change = .created
  tableName : ∃ n, table.node.tableName? = some n
  schema : table.schema = type.schema
  fieldAdded : field ∈ table.node.fields
  reference : ∃ path, field.2.typing.reference = some path ∧ '/' :: name.toList <:+ path.toList

namespace Script

/-- What a delta creates is created by its script. -/
theorem createType_mem_steps {d : Delta} {type : Changed Model.UserType} {t : UserType}
    {release : Option String}
    (hadded : ∃ i ∈ d.modelDefinitions.added, i.entity? Model.UserType.read? = some type)
    (hcreated : type.change = .created)
    (ht : UserType.ofNode? type.node (type.context release) = some t) :
    .createType t ∈ (ofDelta d release).steps := by
  obtain ⟨i, hi, htype⟩ := hadded
  have hplanned : .createType t ∈ typeSteps d.modelDefinitions release := by
    simp only [typeSteps, List.mem_append]
    refine .inl (.inl (.inl (.inr (mem_planItems.2 ⟨i, hi, type, htype, hcreated, ?_⟩))))
    rw [TypeSteps.create, TypeSteps.type?, ht]
    exact List.mem_singleton_self _
  exact List.mem_append_right _ hplanned

theorem createTable_mem_steps {d : Delta} {table : Changed Model.Table} {t : Table}
    {release : Option String}
    (hadded : ∃ i ∈ d.entities.added, i.entity? Model.Table.read? = some table)
    (hcreated : table.change = .created)
    (ht : Table.ofNode? table.node (table.context release) = some t) :
    .createTable t ∈ (ofDelta d release).steps := by
  obtain ⟨i, hi, htable⟩ := hadded
  have hplanned : .createTable t ∈ tableSteps d.entities release := by
    simp only [tableSteps, List.mem_append]
    refine .inl (.inl (.inl (.inl (mem_planItems.2 ⟨i, hi, table, htable, hcreated, ?_⟩))))
    rw [TableSteps.create, ht]
    exact List.mem_singleton_self _
  simp only [steps, List.mem_append]
  exact .inl (.inl (.inr hplanned))

/-- Where a delta creates a type and, in the same schema, a table with a column that refers to it,
the script has both statements, and the line of the column with its type clause stands in the one of
the table. The clause denotes the type that is declared if and only if the name of the type denotes
itself without quotes and its schema is the current one. -/
theorem reference_denotes_iff (C : Charset) (home : List Char) (r : Json.Entries)
    (release : Option String) :
    ∃ d s, Delta.ofJson? (.object r) = some d ∧ ofJson (.object r) release = .ok s ∧
      ∀ type table field name, d.Refers type table field name →
        ∃ t u c, .createType t ∈ s.steps ∧ .createTable u ∈ s.steps ∧ c ∈ u.columns ∧
          c.line.text.toList <:+: u.createText.toList ∧
          (∃ rest, c.line.text = quote field.1 ++ framed " " c.type.clause "" ++ rest) ∧
          C.declared? home t.createText =
            some ⟨schemaIn home type.schema, trimChars name.toList⟩ ∧
          (C.object? home c.type.clause.toList = C.declared? home t.createText ↔
            C.Bare (trimChars name.toList) ∧ home = schemaIn home type.schema) := by
  obtain ⟨d, hd⟩ : ∃ d, Delta.ofJson? (.object r) = some d := ⟨_, rfl⟩
  have hs : ofJson (.object r) release = .ok (ofDelta d release) := by rw [ofJson, hd]
  refine ⟨d, _, hd, hs, fun type table field name h => ?_⟩
  obtain ⟨tableName, htableName⟩ := h.tableName
  obtain ⟨path, hreference, hsuffix⟩ := h.reference
  obtain ⟨t, ht, hname, hschema⟩ : ∃ t, UserType.ofNode? type.node (type.context release) = some t ∧
      t.name = name ∧ t.schema = type.schema := by
    rw [UserType.ofNode?, h.typeName]
    exact ⟨_, rfl, rfl, rfl⟩
  obtain ⟨u, hu, hcolumns⟩ : ∃ u, Table.ofNode? table.node (table.context release) = some u ∧
      u.columns = table.node.fields.columns table.node.required (table.context release) := by
    rw [Table.ofNode?, htableName]
    exact ⟨_, rfl, rfl⟩
  set c := Column.ofNode field.1 field.2 table.node.required (table.context release) with hc
  have hcolumn : c ∈ u.columns := by
    rw [hcolumns]
    exact List.mem_map.2 ⟨field, h.fieldAdded, rfl⟩
  have hdeclared := t.declared?_createText C home
  rw [hname, hschema] at hdeclared
  refine ⟨t, u, c, createType_mem_steps h.typeAdded h.typeCreated ht,
    createTable_mem_steps h.tableAdded h.tableCreated hu, hcolumn, Table.isInfix_line hu hcolumn,
    c.exists_line_eq, hdeclared, ?_⟩
  have hclause : C.object? home c.type.clause.toList =
      C.object? home (trimChars (DataType.lastSegment path).toList) := by
    have hname : c.type.typeName = DataType.lastSegment path := by
      rw [hc, Column.ofNode, DataType.resolve, hreference]
    rw [DataType.Native.clause, DataType.object?_clause, hname, toList_trim]
  have hsegment := DataType.trim_lastSegment_of_suffix hsuffix
  rw [hdeclared, hclause, C.object?_eq_some_iff (hsegment.imp_right And.left)]
  refine and_congr_left' ⟨And.right, fun hbare => ⟨?_, hbare⟩⟩
  -- A name with a slash needs its quotes.
  rcases hsegment with heq | ⟨-, hslash⟩
  · exact heq
  · exact absurd (hbare.continues _ hslash) (by rw [C.stops _ (by simp)]; decide)

/-- A delta that creates an object type with this name and a table with a column of that type, both
in the schema HR. -/
def addressDelta (name : String) : Json.Entries :=
  let mark := ("compMod", .object [("created", .bool true), ("keyspaceName", .string "HR")])
  let added (node : Json) : Json :=
    .object [("added", .object [("items", .array [.object [("id", node)]])])]
  [("entities", added (.object [("name", .string "t"), ("properties", .object
      [("addr", .object [("$ref", .string ("#/definitions/" ++ name))])]), mark])),
    ("modelDefinitions", added (.object [("name", .string name), ("properties", .object
      [("zip", .object [("mode", .string "number")])]), mark]))]

/-- A column finds a type with a name in capitals, in the current schema. -/
theorem reference_denotes_of_capitals :
    ∃ s t u c, ofJson (.object (addressDelta "ADDRESS_T")) none = .ok s ∧
      s.text = "CREATE TABLE \"HR\".\"t\"\n(\n\t\"addr\" ADDRESS_T\n);\n\n" ++
        "CREATE OR REPLACE TYPE \"HR\".\"ADDRESS_T\" AS OBJECT\n(\n\t\"zip\" NUMBER\n);" ∧
      .createType t ∈ s.steps ∧ .createTable u ∈ s.steps ∧ c ∈ u.columns ∧
      Charset.ascii.object? "HR".toList c.type.clause.toList =
        Charset.ascii.declared? "HR".toList t.createText := by
  obtain ⟨d, s, hd, hs, h⟩ :=
    reference_denotes_iff .ascii "HR".toList (addressDelta "ADDRESS_T") none
  cases hd
  cases hs
  obtain ⟨t, u, c, ht, hu, hc, -, -, -, hiff⟩ := h _ _ _ "ADDRESS_T"
    ⟨⟨_, List.mem_singleton_self _, rfl⟩, rfl, rfl, ⟨_, List.mem_singleton_self _, rfl⟩, rfl,
      ⟨_, rfl⟩, rfl, List.mem_singleton_self _, _, rfl, by decide⟩
  refine ⟨_, t, u, c, rfl, ?_, ht, hu, hc, hiff.2 ?_⟩
  · decide +kernel
  · decide +kernel

/-- In small letters the type is declared under one name, and the column asks for another. -/
theorem small_reference_denotes_another :
    ∃ s t u c, ofJson (.object (addressDelta "address_t")) none = .ok s ∧
      s.text = "CREATE TABLE \"HR\".\"t\"\n(\n\t\"addr\" address_t\n);\n\n" ++
        "CREATE OR REPLACE TYPE \"HR\".\"address_t\" AS OBJECT\n(\n\t\"zip\" NUMBER\n);" ∧
      s.steps = [.createTable u, .createType t] ∧ u.columns = [c] ∧
      Charset.ascii.declared? "HR".toList t.createText =
        some ⟨"HR".toList, "address_t".toList⟩ ∧
      Charset.ascii.object? "HR".toList c.type.clause.toList =
        some ⟨"HR".toList, "ADDRESS_T".toList⟩ := by
  refine ⟨_, _, _, _, rfl, ?_, rfl, rfl, ?_, ?_⟩
  · decide +kernel
  · decide +kernel
  · decide +kernel

end Script

end SchemaDelta
