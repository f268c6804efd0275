import SchemaDelta.Proofs.Script.Blocks
import SchemaDelta.Proofs.Sql.Forms
import SchemaDelta.Proofs.Sql.TextClass

/-!
# The types of changed fields

The type of a field is resolved twice: for a column or attribute that is created or added from all
that its node says, and for one that is changed from the mode and the kind of its new state alone.
The second way does not look at the release. `Script.retyped_eq_created_iff` says when the two give
the same name: always, apart from JSON before there is a type for it.
-/

namespace SchemaDelta

open Sql Text

/-! ## The names of types -/

namespace DataType

/-- What may follow the name of a type: nothing, or a part that begins with a parenthesis or a
blank. -/
def Decoration (s : String) : Prop :=
  ∀ c ∈ s.toList.head?, c = '(' ∨ c = ' '

/-- The text is the name of a type with a decoration. -/
def Decorated (name s : String) : Prop :=
  ∃ x, Decoration x ∧ s = name ++ x

theorem decoration_empty : Decoration "" := by
  intro c hc
  cases hc

theorem decoration_of_open (y : String) : Decoration ("(" ++ y) := by
  intro c hc
  rw [String.toList_append] at hc
  exact .inl (Option.some.inj hc).symm

theorem decoration_of_blank (y : String) : Decoration (" " ++ y) := by
  intro c hc
  rw [String.toList_append] at hc
  exact .inr (Option.some.inj hc).symm

/-- The first decoration that is not empty decides how both begin. -/
theorem Decoration.append {s t : String} (hs : Decoration s) (ht : Decoration t) :
    Decoration (s ++ t) := by
  intro c hc
  rw [String.toList_append, List.head?_append] at hc
  cases hhead : s.toList.head? with
  | none =>
    rw [hhead] at hc
    exact ht c hc
  | some d =>
    rw [hhead] at hc
    obtain rfl := Option.some.inj hc
    exact hs d hhead

theorem decoration_parenthesized (n : Option Nat) : Decoration (parenthesized n) := by
  cases n with
  | none => exact decoration_empty
  | some n =>
    rw [parenthesized, String.append_assoc]
    exact decoration_of_open _

theorem decoration_timeZone (q : Qualifiers) : Decoration (timeZone q) := by
  unfold timeZone
  split_ifs
  · exact decoration_of_blank "WITH LOCAL TIME ZONE"
  · exact decoration_of_blank "WITH TIME ZONE"
  · exact decoration_empty

/-- A part of a line that begins with a blank, if it is there. -/
theorem decoration_framed (word value : String) : Decoration (framed (" " ++ word) value "") := by
  unfold framed
  split_ifs
  · exact decoration_empty
  · rw [String.append_empty, String.append_assoc]
    exact decoration_of_blank _

theorem decorated_self (t : String) : Decorated t t :=
  ⟨"", decoration_empty, String.append_empty.symm⟩

theorem decorated_open {t y : String} : Decorated t (t ++ ("(" ++ y)) :=
  ⟨_, decoration_of_open y, rfl⟩

/-- The clause of a type without length is its name with a decoration. -/
theorem decorated_temporalClause (t : String) (q : Qualifiers) :
    Decorated t (temporalClause t q) := by
  unfold temporalClause
  split
  · exact ⟨_, (decoration_parenthesized _).append (decoration_timeZone q), String.append_assoc ..⟩
  · exact ⟨_, (decoration_parenthesized _).append (decoration_of_blank "TO MONTH"),
      String.append_assoc ..⟩
  · have hsecond : Decoration (" TO SECOND" ++ parenthesized q.fractSecPrecision) :=
      (decoration_of_blank "TO SECOND").append (decoration_parenthesized _)
    refine ⟨_, (decoration_parenthesized q.dayPrecision).append hsecond, ?_⟩
    simp only [String.append_assoc]
  · exact decorated_self t

/-- The clause of a number is its name with a decoration. -/
theorem decorated_numericClause (t : String) (q : Qualifiers) :
    Decorated t (numericClause t q) := by
  unfold numericClause
  split_ifs
  · split
    · exact decorated_self t
    · simp only [String.append_assoc]
      exact decorated_open
    · simp only [String.append_assoc]
      exact decorated_open
  · exact ⟨_, decoration_parenthesized _, rfl⟩
  · exact decorated_temporalClause t q

/-- The clause of a type is its name with a decoration. -/
theorem decorated_clause (typeName : String) (q : Qualifiers) :
    Decorated (trim typeName) (clause typeName q) := by
  unfold clause
  dsimp only
  split
  · split
    · exact decorated_self _
    · split
      · simp only [String.append_assoc]
        exact decorated_open
      · simp only [String.append_assoc]
        exact decorated_open
    · simp only [String.append_assoc]
      exact decorated_open
  · exact decorated_numericClause _ q

/-- The native name of a type is trimmed. -/
theorem trim_ofColumn (mode kind : Option String) :
    trim (ofColumn mode kind).typeName = (ofColumn mode kind).typeName := by
  unfold ofColumn
  split
  · next candidate _ =>
    refine String.toList_inj.1 ?_
    rw [toList_trim, toList_toUpper, toList_trim, trimChars_map_toUpper, trimChars_trimChars]
  · rfl

/-- The name in a release is another one only for JSON, where the release has no type for it. -/
theorem eq_inRelease_iff (typeName : String) (release : Option String) :
    typeName = inRelease typeName release ↔ typeName ≠ "JSON" ∨ hasJson release = true := by
  unfold inRelease
  split_ifs with h
  · refine iff_of_false ?_ ?_
    · rw [h.1]
      decide
    · rintro (hne | hjson)
      · exact hne h.1
      · rw [h.2] at hjson
        exact Bool.false_ne_true hjson
  · refine iff_of_true rfl ?_
    rw [not_and_or, Bool.not_eq_false] at h
    exact h

theorem trim_inRelease {typeName : String} (h : trim typeName = typeName)
    (release : Option String) : trim (inRelease typeName release) = inRelease typeName release := by
  unfold inRelease
  split_ifs
  · decide
  · exact h

end DataType

/-! ## Fields with the type of a state -/

/-- The field has the type of a state: the same mode and kind, and nothing else that names a type.
The type of a field without a mode is not taken from its role as a child either. -/
structure Model.Field.TypedAs (f : Model.Field) (s : Model.FieldState) : Prop where
  mode : f.typing.mode = s.mode
  kind : f.typing.kind = s.kind
  reference : f.typing.reference = none
  childType : s.mode = none → f.typing.childType = none

/-- The name of the type of a column or attribute that is created from a field. -/
def Model.Field.createdType (f : Model.Field) (release : Option String) : String :=
  (DataType.resolve f.typing release).typeName

/-- The column is written with the type of this name, in the body of a table, when it is added, and
as an attribute. Qualifiers and other parts of its line may follow. -/
def Column.WrittenAs (c : Column) (type : String) : Prop :=
  ∃ x y, DataType.Decoration x ∧ DataType.Decoration y ∧
    c.attributeLine.text = quote c.name ++ " " ++ type ++ x ∧
    c.line.text = quote c.name ++ " " ++ type ++ x ++ y

namespace Model.Field.TypedAs

variable {f : Model.Field} {s : Model.FieldState}

/-- A field with the type of a state is created with the native name in the release. -/
theorem createdType_eq (h : f.TypedAs s) (release : Option String) :
    f.createdType release =
      DataType.inRelease (DataType.ofColumn s.mode s.kind).typeName release := by
  have hmode : (f.typing.mode <|> f.typing.childType) = s.mode := by
    cases hs : s.mode with
    | none => rw [h.mode, hs, h.childType hs]; rfl
    | some m => rw [h.mode, hs]; rfl
  rw [createdType, DataType.resolve, h.reference]
  dsimp only
  rw [hmode, h.kind]

/-- A column with a type is written with the name of its type. -/
theorem writtenAs (h : f.TypedAs s) {release : Option String}
    (hne : f.createdType release ≠ "") (name : String) (required : List String) {ctx : Context}
    (hctx : ctx.release = release) :
    (Column.ofNode name f required ctx).WrittenAs (f.createdType release) := by
  subst hctx
  have htrim : trim (f.createdType ctx.release) = f.createdType ctx.release := by
    rw [h.createdType_eq]
    exact DataType.trim_inRelease (DataType.trim_ofColumn _ _) _
  obtain ⟨x, hx, hclause⟩ := DataType.decorated_clause (f.createdType ctx.release)
    (DataType.resolve f.typing ctx.release).qualifiers
  rw [htrim] at hclause
  have htype : (Column.ofNode name f required ctx).type.clause = f.createdType ctx.release ++ x :=
    hclause
  have hframed : framed " " (f.createdType ctx.release ++ x) "" =
      " " ++ f.createdType ctx.release ++ x := by
    have happend : f.createdType ctx.release ++ x ≠ "" := fun he =>
      hne (String.append_eq_empty_iff.1 he).1
    rw [framed_of_ne happend, String.append_empty, String.append_assoc]
  have hrest (value encryption constraints : String) : DataType.Decoration
      (framed " DEFAULT " value "" ++ framed " " encryption "" ++ framed " " constraints "") :=
    ((DataType.decoration_framed "DEFAULT " value).append
      (DataType.decoration_framed "" encryption)).append (DataType.decoration_framed "" constraints)
  set c := Column.ofNode name f required ctx
  refine ⟨x, _, hx, hrest (c.default.getD "") ((c.encryption.map Model.Encryption.clause).getD "")
    c.constraints, ?_, ?_⟩
  · rw [Column.attributeLine, Form.fill_attributeDefinition, htype, hframed]
    simp only [String.append_assoc]
  · rw [Column.line, Form.fill_columnDefinition, htype, hframed]
    simp only [String.append_assoc]

end Model.Field.TypedAs

/-! ## The steps that change a type -/

/-- The name and the new type of the column or attribute that a step gives another type. -/
def Step.retyped? : Step → Option (String × String)
  | modifyColumn _ column type => some (column, type)
  | modifyAttribute _ name type => some (name, type)
  | _ => none

/-- The changes of fields, each under the name of its field. -/
def Model.Fields.changes (fields : Model.Fields) : List (String × Model.FieldChange) :=
  fields.filterMap fun e => e.2.change.map (e.1, ·)

/-- The changes of the fields of an item. -/
def Item.fieldChanges (kind : EntityKind) (i : Item) : List (String × Model.FieldChange) :=
  match kind with
  | .table => (i.entity? Model.Table.read?).elim [] fun d => d.node.fields.changes
  | .type => (i.entity? Model.UserType.read?).elim [] fun d => d.node.fields.changes
  | _ => []

/-- The statement of a step that changes a type has the name of the type as it is. -/
theorem Step.units_of_retyped? {a : Step} {name type : String}
    (h : a.retyped? = some (name, type)) (hne : type ≠ "") :
    ∃ entity, a.units =
        [⟨"ALTER TABLE " ++ entity ++ " MODIFY (" ++ quote name ++ " " ++ type ++ ");", true⟩] ∨
      a.units =
        [⟨"ALTER TYPE " ++ entity ++ " MODIFY ATTRIBUTE " ++ quote name ++ " " ++ type ++ ";",
          true⟩] := by
  cases a <;> simp only [retyped?, reduceCtorEq] at h
  case modifyColumn table column t =>
    obtain ⟨rfl, rfl⟩ := Prod.mk.inj (Option.some.inj h)
    refine ⟨table, .inl ?_⟩
    rw [units, live, Form.fill_modifyColumn, framed_of_ne hne]
    simp only [String.append_assoc, String.append_empty]
  case modifyAttribute entity member t =>
    obtain ⟨rfl, rfl⟩ := Prod.mk.inj (Option.some.inj h)
    refine ⟨entity, .inr ?_⟩
    rw [units, live, Form.fill_modifyAttribute, framed_of_ne hne]
    simp only [String.append_assoc, String.append_empty]

/-- A change that is known stands among the changes of its fields. -/
theorem Model.Fields.mem_changes {fields : Model.Fields} {f : ChangedField}
    (h : f ∈ fields.changed) : (f.name, f.change) ∈ fields.changes := by
  obtain ⟨e, he, hf⟩ := List.mem_filterMap.1 h
  obtain ⟨c, hc, rfl⟩ := Option.map_eq_some_iff.1 hf
  exact List.mem_filterMap.2 ⟨e, he, by rw [hc]; rfl⟩

/-- A table gets a type for the change of one of its fields only. -/
theorem ItemList.exists_change_of_tableBlock {list : ItemList} {release : Option String}
    {d : Changed Model.Table} {a : Step} (ha : a ∈ list.tableBlock release d) {name type : String}
    (h : a.retyped? = some (name, type)) :
    ∃ c, (name, c) ∈ d.node.fields.changes ∧ c.retype? = some type := by
  rw [tableBlock_eq] at ha
  split at ha
  · obtain ⟨t, -, rfl⟩ := Option.map_eq_some_iff.1 (Option.mem_toList.1 ha)
    cases h
  · obtain ⟨_, -, -, ha⟩ := TableSteps.exists_of_mem_named ha
    rw [List.mem_singleton.1 ha] at h
    cases h
  · obtain ⟨_, -, -, ha⟩ := TableSteps.exists_of_mem_named ha
    obtain ⟨c, -, rfl⟩ := List.mem_map.1 ha
    cases h
  · obtain ⟨_, -, -, ha⟩ := TableSteps.exists_of_mem_named ha
    obtain ⟨e, -, rfl⟩ := List.mem_map.1 ha
    cases h
  · obtain ⟨_, -, -, ha⟩ := TableSteps.exists_of_mem_named ha
    rcases List.mem_append.1 ha with ha | ha
    · obtain ⟨f, -, hf⟩ := List.mem_filterMap.1 ha
      obtain ⟨n, -, rfl⟩ := Option.map_eq_some_iff.1 hf
      cases h
    · obtain ⟨f, hmem, hf⟩ := List.mem_filterMap.1 ha
      obtain ⟨t, ht, rfl⟩ := Option.map_eq_some_iff.1 hf
      obtain ⟨rfl, rfl⟩ := Prod.mk.inj (Option.some.inj h)
      exact ⟨f.change, Model.Fields.mem_changes hmem, ht⟩
  · cases ha

/-- A type gets another type for an attribute for the change of one of its fields only. -/
theorem ItemList.exists_change_of_typeBlock {list : ItemList} {release : Option String}
    {d : Changed Model.UserType} {a : Step} (ha : a ∈ list.typeBlock release d)
    {name type : String} (h : a.retyped? = some (name, type)) :
    ∃ c, (name, c) ∈ d.node.fields.changes ∧ c.retype? = some type := by
  rw [typeBlock_eq] at ha
  split at ha
  · obtain ⟨t, -, rfl⟩ := Option.map_eq_some_iff.1 (Option.mem_toList.1 ha)
    cases h
  · obtain ⟨t, -, rfl⟩ := Option.map_eq_some_iff.1 (Option.mem_toList.1 ha)
    cases h
  · obtain ⟨_, -, -, ha⟩ := TypeSteps.exists_of_mem_named ha
    obtain ⟨e, -, rfl⟩ := List.mem_map.1 ha
    cases h
  · obtain ⟨_, -, -, ha⟩ := TypeSteps.exists_of_mem_named ha
    obtain ⟨e, -, rfl⟩ := List.mem_map.1 ha
    cases h
  · obtain ⟨_, -, -, ha⟩ := TypeSteps.exists_of_mem_named ha
    rcases List.mem_append.1 ha with ha | ha
    · obtain ⟨f, -, hf⟩ := List.mem_flatMap.1 ha
      cases hrename : f.change.rename? with
      | none => simp [hrename] at hf
      | some names =>
        rw [hrename] at hf
        rcases List.mem_pair.1 hf with rfl | rfl <;> cases h
    · obtain ⟨f, hmem, hf⟩ := List.mem_filterMap.1 ha
      obtain ⟨t, ht, rfl⟩ := Option.map_eq_some_iff.1 hf
      obtain ⟨rfl, rfl⟩ := Prod.mk.inj (Option.some.inj h)
      exact ⟨f.change, Model.Fields.mem_changes hmem, ht⟩
  · cases ha

/-- An item gives a column or attribute another type for the change of its field only. -/
theorem Item.exists_change_of_block {p : Place} {release : Option String} {i : Item} {a : Step}
    (ha : a ∈ i.block p release) {name type : String} (h : a.retyped? = some (name, type)) :
    ∃ c, (name, c) ∈ i.fieldChanges p.kind ∧ c.retype? = some type := by
  obtain ⟨kind, list⟩ := p
  unfold block at ha
  unfold fieldChanges
  cases kind with
  | schema =>
    dsimp only at ha
    split at ha
    · rw [List.mem_singleton.1 ha] at h
      cases h
    · rw [List.mem_singleton.1 ha] at h
      cases h
    · cases ha
  | table =>
    dsimp only at ha ⊢
    cases hd : i.entity? Model.Table.read? with
    | none =>
      rw [hd] at ha
      cases ha
    | some d =>
      rw [hd] at ha
      exact ItemList.exists_change_of_tableBlock ha h
  | view =>
    dsimp only at ha
    cases hd : i.entity? Model.View.read? with
    | none =>
      rw [hd] at ha
      cases ha
    | some d =>
      rw [hd, Option.elim_some, ItemList.viewBlock_eq] at ha
      split at ha
      · obtain ⟨v, -, rfl⟩ := Option.map_eq_some_iff.1 (Option.mem_toList.1 ha)
        cases h
      · obtain ⟨v, -, rfl⟩ := Option.map_eq_some_iff.1 (Option.mem_toList.1 ha)
        cases h
      · cases ha
  | type =>
    dsimp only at ha ⊢
    cases hd : i.entity? Model.UserType.read? with
    | none =>
      rw [hd] at ha
      cases ha
    | some d =>
      rw [hd] at ha
      exact ItemList.exists_change_of_typeBlock ha h

/-! ## The two types -/

/-- The type that a change leads to is the native type of its new state, which has a name. -/
theorem Model.FieldChange.retype?_eq_some {c : Model.FieldChange} {type : String}
    (h : c.retype? = some type) :
    type = (DataType.ofColumn c.new.mode c.new.kind).typeName ∧ type ≠ "" := by
  unfold retype? at h
  split_ifs at h
  unfold FieldState.type? at h
  dsimp only at h
  split_ifs at h with hempty
  obtain rfl := Option.some.inj h
  exact ⟨rfl, fun he => hempty (by rw [he]; rfl)⟩

namespace Script

/-- A statement that changes a type names the native type of the new state of the field. It is the
type that a column or attribute with the same mode and kind is created and added with, apart from
one case: before there is a type for JSON, such a column is created as `CLOB` and changed to
`JSON`. -/
theorem retyped_eq_created_iff (r : Json.Entries) (release : Option String) :
    ∃ d s, Delta.ofJson? (.object r) = some d ∧ ofJson (.object r) release = .ok s ∧
      ∀ a ∈ s.steps, ∀ name type, a.retyped? = some (name, type) →
        (∃ entity, a.units = [⟨"ALTER TABLE " ++ entity ++ " MODIFY (" ++ quote name ++ " " ++
              type ++ ");", true⟩] ∨
            a.units = [⟨"ALTER TYPE " ++ entity ++ " MODIFY ATTRIBUTE " ++ quote name ++ " " ++
              type ++ ";", true⟩]) ∧
          ∃ p, ∃ i ∈ d.items p, ∃ c, (name, c) ∈ i.fieldChanges p.kind ∧
            ∀ f : Model.Field, f.TypedAs c.new →
              (∀ column required ctx, ctx.release = release →
                (Column.ofNode column f required ctx).WrittenAs (f.createdType release)) ∧
              (type = f.createdType release ↔ type ≠ "JSON" ∨ DataType.hasJson release = true) ∧
              (type ≠ f.createdType release → type = "JSON" ∧ f.createdType release = "CLOB") := by
  obtain ⟨d, hd⟩ : ∃ d, Delta.ofJson? (.object r) = some d := ⟨_, rfl⟩
  have hs : ofJson (.object r) release = .ok (ofDelta d release) := by rw [ofJson, hd]
  refine ⟨d, _, hd, hs, fun a ha name type hretyped => ?_⟩
  obtain ⟨p, i, hi, hblock⟩ := mem_steps_ofDelta.1 ha
  obtain ⟨c, hc, hretype⟩ := Item.exists_change_of_block hblock hretyped
  obtain ⟨htype, hne⟩ := Model.FieldChange.retype?_eq_some hretype
  refine ⟨Step.units_of_retyped? hretyped hne, p, i, hi, c, hc, fun f hf => ?_⟩
  have hcreated : f.createdType release = DataType.inRelease type release := by
    rw [htype]
    exact hf.createdType_eq release
  have hcreatedNe : f.createdType release ≠ "" := by
    rw [hcreated]
    unfold DataType.inRelease
    split_ifs
    · decide
    · exact hne
  refine ⟨fun column required ctx hctx => hf.writtenAs hcreatedNe column required hctx, ?_, ?_⟩
  · rw [hcreated]
    exact DataType.eq_inRelease_iff type release
  · rw [hcreated]
    unfold DataType.inRelease
    split_ifs with hjson
    · exact fun _ => ⟨hjson.1, rfl⟩
    · exact fun h => absurd rfl h

/-- A column that becomes JSON in release 19c is changed to `JSON`; created with the same mode it is
a `CLOB`. -/
theorem json_column_retyped :
    ∃ s f, ofJson (.object [("entities", .object [("modified", .object [("items", .array
        [.object [("1", .object [("name", .string "t"), ("properties", .object
          [("b", .object [("compMod", .object
            [("oldField", .object [("name", .string "b"), ("mode", .string "number")]),
              ("newField", .object [("name", .string "b"), ("mode", .string "json")])])])])])]])])])])
        (some "19c") = .ok s ∧
      s.text = "ALTER TABLE \"t\" MODIFY (\"b\" JSON);" ∧
      Model.Field.read? (.object [("mode", .string "json")]) = some f ∧
      f.TypedAs { name := some "b", mode := some "json" } ∧
      (Column.ofNode "b" f [] { release := some "19c" }).line.text = "\"b\" CLOB" := by
  refine ⟨_, _, rfl, ?_, rfl, ⟨rfl, rfl, rfl, fun _ => rfl⟩, ?_⟩
  · decide +kernel
  · decide +kernel

end Script

end SchemaDelta
