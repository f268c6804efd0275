import Mathlib.Data.List.Basic
import SchemaDelta.Proofs.Delta.Places
import SchemaDelta.Script.Basic

/-!
# The release of the database

The release is handed to every table and every type that is planned, but only the data types of
columns, attributes and collection elements are made with it, and among them only the type JSON.
So two releases that agree on JSON have the same script, and a document that names no JSON type has
the same script for all releases (`Script.ofJson_release`).

Each step is made from the data types of its item, so the proof is about one data type
(`DataType.resolve_congr`), then about each phase that is given the release, and then about the two
categories that have such phases.
-/

namespace SchemaDelta

/-! ## One data type -/

/-- The node declares a type of its own that resolves to the type JSON. -/
def Model.Typing.IsJson (t : Model.Typing) : Prop :=
  t.reference = none ∧ (DataType.ofColumn (t.mode <|> t.childType) t.kind).typeName = "JSON"

instance Model.Typing.IsJson.decidable (t : Model.Typing) : Decidable t.IsJson :=
  inferInstanceAs (Decidable (_ ∧ _))

namespace DataType

variable {r₁ r₂ : Option String}

/-- A release has a type for JSON when its leading number is at least 21. -/
theorem hasJson_iff {release : Option String} :
    hasJson release = true ↔ ∃ v ∈ release.bind major?, 21 ≤ v := by
  unfold hasJson
  cases release.bind major? <;> simp

/-- Type names other than JSON are the same in all releases. -/
theorem inRelease_congr {typeName : String}
    (h : hasJson r₁ = hasJson r₂ ∨ typeName ≠ "JSON") :
    inRelease typeName r₁ = inRelease typeName r₂ := by
  rcases h with h | h
  · rw [inRelease, inRelease, h]
  · rw [inRelease_of_ne h, inRelease_of_ne h]

/-- Data types other than JSON are the same in all releases. -/
theorem resolve_congr {t : Model.Typing} (h : hasJson r₁ = hasJson r₂ ∨ ¬t.IsJson) :
    resolve t r₁ = resolve t r₂ := by
  unfold resolve
  cases hreference : t.reference with
  | some path => rfl
  | none =>
    have hname : hasJson r₁ = hasJson r₂ ∨
        (ofColumn (t.mode <|> t.childType) t.kind).typeName ≠ "JSON" :=
      h.imp_right fun hjson hname => hjson ⟨hreference, hname⟩
    simp only [inRelease_congr hname]

end DataType

/-! ## The data types of an item -/

/-- What the fields of an entity say about their types. -/
def Model.Fields.typings (fields : Model.Fields) : List Model.Typing :=
  fields.map fun e => e.2.typing

/-- What a collection says about the type of its elements. -/
def Model.UserType.element (t : Model.UserType) : Model.Typing :=
  { t.typing with mode := t.ofType, kind := none, childType := none, reference := none }

/-- What a type says about the types of its attributes or of its elements. -/
def Model.UserType.typings (t : Model.UserType) : List Model.Typing :=
  if t.isObject then t.fields.typings else [t.element]

/-- What an item says about the types of its columns, attributes or elements. -/
def Item.typings (kind : EntityKind) (i : Item) : List Model.Typing :=
  match kind with
  | .table => (i.entity? Model.Table.read?).elim [] fun d => d.node.fields.typings
  | .type => (i.entity? Model.UserType.read?).elim [] fun d => d.node.typings
  | _ => []

/-- A column, an attribute or an element of a collection is of the type JSON. -/
def Delta.HasJson (d : Delta) : Prop :=
  ∃ p, ∃ i ∈ d.items p, ∃ t ∈ i.typings p.kind, t.IsJson

section

variable (r₁ r₂ : Option String)

/-- The data types are the same in both releases. -/
def SameTypes (ts : List Model.Typing) : Prop :=
  ∀ t ∈ ts, DataType.resolve t r₁ = DataType.resolve t r₂

end

variable {r₁ r₂ : Option String}

namespace SameTypes

theorem column {name : String} {f : Model.Field} {required : List String} {schema : Option String}
    (h : DataType.resolve f.typing r₁ = DataType.resolve f.typing r₂) :
    Column.ofNode name f required ⟨schema, r₁⟩ = Column.ofNode name f required ⟨schema, r₂⟩ := by
  simp only [Column.ofNode, h]

theorem columns {fields : Model.Fields} (h : SameTypes r₁ r₂ fields.typings)
    (required : List String) (schema : Option String) :
    fields.columns required ⟨schema, r₁⟩ = fields.columns required ⟨schema, r₂⟩ :=
  List.map_congr_left fun e he => column (h e.2.typing (List.mem_map_of_mem he))

theorem unchanged {fields : Model.Fields} (h : SameTypes r₁ r₂ fields.typings) :
    SameTypes r₁ r₂ fields.unchanged.typings := by
  intro t ht
  obtain ⟨e, he, rfl⟩ := List.mem_map.1 ht
  exact h e.2.typing (List.mem_map_of_mem (List.mem_filter.1 he).1)

end SameTypes

/-! ## The phases that are given the release -/

namespace TableSteps

variable {d : Changed Model.Table} (h : SameTypes r₁ r₂ d.node.fields.typings)

include h

theorem create_congr : create r₁ d = create r₂ d := by
  have htable : Table.ofNode? d.node (d.context r₁) = Table.ofNode? d.node (d.context r₂) := by
    simp only [Table.ofNode?, Changed.context, h.columns]
  rw [create, create, htable]

theorem columnAdditions_congr : columnAdditions r₁ d = columnAdditions r₂ d := by
  simp only [columnAdditions, Changed.context, h.unchanged.columns]

end TableSteps

namespace TypeSteps

variable {d : Changed Model.UserType} (h : SameTypes r₁ r₂ d.node.typings)

/-- On an object type the data types are those of its attributes. -/
theorem named_congr {f g : String → List Step}
    (hfg : d.node.isObject = true → ∀ type, f type = g type) : named f d = named g d := by
  unfold named
  cases d.node.typeName? with
  | none => rfl
  | some name =>
    cases hobject : d.node.isObject with
    | false => rfl
    | true => simp only [if_true, hfg hobject]

include h

theorem fields_of_isObject (hobject : d.node.isObject = true) :
    SameTypes r₁ r₂ d.node.fields.typings := by
  rwa [Model.UserType.typings, if_pos hobject] at h

theorem type?_congr : type? r₁ d = type? r₂ d := by
  unfold type? UserType.ofNode? Changed.context
  cases hobject : d.node.isObject with
  | true => simp only [if_true, (fields_of_isObject h hobject).columns]
  | false =>
    have helement : DataType.resolve d.node.element r₁ = DataType.resolve d.node.element r₂ :=
      h _ (by simp [Model.UserType.typings, hobject])
    have hcollection : Collection.ofNode d.node ⟨d.schema, r₁⟩ =
        Collection.ofNode d.node ⟨d.schema, r₂⟩ := by
      unfold Model.UserType.element at helement
      simp only [Collection.ofNode, helement]
    simp only [Bool.false_eq_true, if_false, hcollection]

theorem drop_congr : drop r₁ d = drop r₂ d := by
  rw [drop, drop, type?_congr h]

theorem create_congr : create r₁ d = create r₂ d := by
  rw [create, create, type?_congr h]

theorem attributeAdditions_congr : attributeAdditions r₁ d = attributeAdditions r₂ d := by
  refine named_congr fun hobject type => List.map_congr_left fun e he => ?_
  have hcolumn := (fields_of_isObject h hobject).unchanged e.2.typing (List.mem_map_of_mem he)
  simp only [attributeOf, Changed.context, SameTypes.column hcolumn]

theorem attributeChanges_congr : attributeChanges r₁ d = attributeChanges r₂ d := by
  refine named_congr fun hobject type => congrArg (· ++ _) (List.flatMap_congr fun f hf => ?_)
  obtain ⟨e, he, hchange⟩ := List.mem_filterMap.1 hf
  obtain ⟨c, -, rfl⟩ := Option.map_eq_some_iff.1 hchange
  have hcolumn := fields_of_isObject h hobject e.2.typing (List.mem_map_of_mem he)
  simp only [attributeOf, Changed.context, SameTypes.column hcolumn]

end TypeSteps

/-! ## Categories -/

/-- Plans with the same steps for each entity are the same. -/
theorem planItems_congr {α : Type} {read? : Json → Option α} {items : List Item}
    {change : EntityChange} {f g : Changed α → List Step}
    (h : ∀ i ∈ items, ∀ d, i.entity? read? = some d → f d = g d) :
    planItems read? items change f = planItems read? items change g := by
  refine List.flatMap_congr fun i hi => ?_
  unfold Item.steps
  cases hd : i.entity? read? with
  | none => rfl
  | some d => simp only [h i hi d hd]

/-- The data types of a category are the same in both releases. -/
def Category.SameTypes (kind : EntityKind) (r₁ r₂ : Option String) (c : Category) : Prop :=
  ∀ k, ∀ i ∈ c.items k, SchemaDelta.SameTypes r₁ r₂ (i.typings kind)

namespace Category.SameTypes

variable {c : Category}

theorem tableSteps_eq (h : c.SameTypes .table r₁ r₂) : tableSteps c r₁ = tableSteps c r₂ := by
  have htypes (k : ItemList) : ∀ i ∈ c.items k, ∀ d, i.entity? Model.Table.read? = some d →
      SchemaDelta.SameTypes r₁ r₂ d.node.fields.typings := by
    intro i hi d hd
    simpa [Item.typings, hd] using h k i hi
  have hcreate : planItems Model.Table.read? c.added .created (TableSteps.create r₁) =
      planItems Model.Table.read? c.added .created (TableSteps.create r₂) :=
    planItems_congr fun i hi d hd => TableSteps.create_congr (htypes .added i hi d hd)
  have hadd : planItems Model.Table.read? c.added .fields (TableSteps.columnAdditions r₁) =
      planItems Model.Table.read? c.added .fields (TableSteps.columnAdditions r₂) :=
    planItems_congr fun i hi d hd => TableSteps.columnAdditions_congr (htypes .added i hi d hd)
  simp only [tableSteps, hcreate, hadd]

theorem typeSteps_eq (h : c.SameTypes .type r₁ r₂) : typeSteps c r₁ = typeSteps c r₂ := by
  have htypes (k : ItemList) : ∀ i ∈ c.items k, ∀ d, i.entity? Model.UserType.read? = some d →
      SchemaDelta.SameTypes r₁ r₂ d.node.typings := by
    intro i hi d hd
    simpa [Item.typings, hd] using h k i hi
  have hdrop : planItems Model.UserType.read? c.deleted .deleted (TypeSteps.drop r₁) =
      planItems Model.UserType.read? c.deleted .deleted (TypeSteps.drop r₂) :=
    planItems_congr fun i hi d hd => TypeSteps.drop_congr (htypes .deleted i hi d hd)
  have hcreate : planItems Model.UserType.read? c.added .created (TypeSteps.create r₁) =
      planItems Model.UserType.read? c.added .created (TypeSteps.create r₂) :=
    planItems_congr fun i hi d hd => TypeSteps.create_congr (htypes .added i hi d hd)
  have hadd : planItems Model.UserType.read? c.added .fields (TypeSteps.attributeAdditions r₁) =
      planItems Model.UserType.read? c.added .fields (TypeSteps.attributeAdditions r₂) :=
    planItems_congr fun i hi d hd => TypeSteps.attributeAdditions_congr (htypes .added i hi d hd)
  have hchange : planItems Model.UserType.read? c.modified .fields
      (TypeSteps.attributeChanges r₁) =
        planItems Model.UserType.read? c.modified .fields (TypeSteps.attributeChanges r₂) :=
    planItems_congr fun i hi d hd => TypeSteps.attributeChanges_congr (htypes .modified i hi d hd)
  simp only [typeSteps, hdrop, hcreate, hadd, hchange]

end Category.SameTypes

/-! ## Scripts -/

namespace Script

/-- Deltas whose data types are the same in both releases have the same script. -/
theorem ofDelta_congr {d : Delta}
    (h : ∀ p, ∀ i ∈ d.items p, SameTypes r₁ r₂ (i.typings p.kind)) :
    ofDelta d r₁ = ofDelta d r₂ := by
  have htables : d.entities.SameTypes .table r₁ r₂ := fun k => h ⟨.table, k⟩
  have htypes : d.modelDefinitions.SameTypes .type r₁ r₂ := fun k => h ⟨.type, k⟩
  rw [ofDelta, ofDelta, htables.tableSteps_eq, htypes.typeSteps_eq]

/-- Releases whose leading numbers are both at least 21, or both not, have the same script, where a
release that is absent or has no leading number counts as not. A document that names no JSON type
has the same script for all releases. -/
theorem ofJson_release (doc : Json) (r₁ r₂ : Option String)
    (h : ((∃ v ∈ r₁.bind DataType.major?, 21 ≤ v) ↔ ∃ v ∈ r₂.bind DataType.major?, 21 ≤ v) ∨
      ∀ d, Delta.ofJson? doc = some d → ¬d.HasJson) :
    ofJson doc r₁ = ofJson doc r₂ := by
  unfold ofJson
  cases hd : Delta.ofJson? doc with
  | none => rfl
  | some d =>
    have hsame : ∀ p, ∀ i ∈ d.items p, SameTypes r₁ r₂ (i.typings p.kind) := by
      intro p i hi t ht
      refine DataType.resolve_congr (h.imp (fun hr => ?_) fun hjson ht' => ?_)
      · rwa [← DataType.hasJson_iff, ← DataType.hasJson_iff, ← Bool.eq_iff_iff] at hr
      · exact hjson d hd ⟨p, i, hi, t, ht, ht'⟩
    simp only [ofDelta_congr hsame]

/-- A JSON column is the same in releases 21 and 23, and the same in release 12 and where no release
is known, but not in both. A type of the model that is called JSON is the same in all releases. -/
theorem ofJson_release_of_json :
    let doc (column : Json) := Json.object [("entities", .object [("added", .object
      [("items", .array [.object [("1", .object [("name", .string "t"),
        ("properties", .object [("a", column)]),
        ("compMod", .object [("created", .bool true)])])]])])])]
    let native := doc (.object [("mode", .string "json")])
    let reference := doc (.object [("$ref", .string "#/definitions/JSON")])
    ofJson native (some "21c") = ofJson native (some "23ai") ∧
      ofJson native (some "12cR2") = ofJson native none ∧
      (ofJson native (some "21c")).toOption.map text ≠ (ofJson native none).toOption.map text ∧
      ofJson reference (some "21c") = ofJson reference none := by
  refine ⟨ofJson_release _ _ _ (.inl ?_), ofJson_release _ _ _ (.inl ?_), ?_,
    ofJson_release _ _ _ (.inr ?_)⟩
  · decide +kernel
  · decide +kernel
  · decide +kernel
  · rintro d ⟨⟩ ⟨⟨kind, list⟩, hjson⟩
    revert hjson
    cases kind <;> cases list <;> decide +kernel

end Script

end SchemaDelta
