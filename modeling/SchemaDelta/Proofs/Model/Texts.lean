import SchemaDelta.Model.Field
import SchemaDelta.Proofs.Json.Grants

/-!
# The texts of a model

For each record of the model, what it means that its texts belong to a class, and that the texts of
a record are read from the document. Only the texts that are written into a script are named.
-/

namespace SchemaDelta

/-- A text that is missing belongs to every class. -/
theorem given_none (p : String → Prop) : Given p none := by
  intro s hs
  cases hs

/-- Of two texts the first that is there is taken. -/
theorem Given.orElse {p : String → Prop} {a b : Option String} (ha : Given p a) (hb : Given p b) :
    Given p (a <|> b) := by
  cases a with
  | none => exact hb
  | some s => exact ha

namespace Model

open Json

variable {P : Json → Prop} {p : String → Prop} {v : Json} {r : Json.Entries}

/-! ## Types and keys -/

structure Typing.Texts (p : String → Prop) (t : Typing) : Prop where
  segment : ∀ path ∈ t.reference, p (DataType.lastSegment path)
  kind : Given p t.kind
  mode : Given p t.mode
  childType : Given p t.childType

theorem Typing.texts_ofEntries (g : Grants P p) (h : P (.object r)) : (ofEntries r).Texts p where
  segment _ hpath := g.segment h hpath
  kind := g.fieldText (g.entries h) "type"
  mode := g.fieldText (g.entries h) "mode"
  childType := g.fieldText (g.entries h) "childType"

structure KeyOptions.Texts (p : String → Prop) (o : KeyOptions) : Prop where
  constraintName : Given p o.constraintName
  name : Given p o.name
  deferClause : Given p o.deferClause
  rely : Given p o.rely
  indexClause : Given p o.indexClause
  validate : Given p o.validate
  exceptionClause : Given p o.exceptionClause

theorem KeyOptions.texts_ofEntries (g : Grants P p) (h : r.Granted P) : (ofEntries r).Texts p where
  constraintName := g.fieldText h "constraintName"
  name := g.fieldText h "name"
  deferClause := g.fieldText h "deferClause"
  rely := g.fieldText h "rely"
  indexClause := g.fieldText h "indexClause"
  validate := g.fieldText h "validate"
  exceptionClause := g.fieldText h "exceptionClause"

theorem KeyOptions.texts_read? (g : Grants P p) {o : KeyOptions} (h : P v)
    (ho : KeyOptions.read? v = some o) : o.Texts p := by
  obtain ⟨r, hr, rfl⟩ := Option.map_eq_some_iff.1 ho
  exact texts_ofEntries g (g.record h hr)

theorem KeyOptions.texts_empty : KeyOptions.Texts p {} :=
  ⟨given_none p, given_none p, given_none p, given_none p, given_none p, given_none p,
    given_none p⟩

structure ColumnRef.Texts (p : String → Prop) (c : ColumnRef) : Prop where
  name : Given p c.name
  order : Given p c.order

theorem ColumnRef.texts_read? (g : Grants P p) {c : ColumnRef} (h : P v)
    (hc : ColumnRef.read? v = some c) : c.Texts p := by
  obtain ⟨r, hr, rfl⟩ := Option.map_eq_some_iff.1 hc
  have hg := g.record h hr
  exact ⟨g.fieldText hg "name", g.fieldText hg "type"⟩

theorem CompositeKey.texts_read? (g : Grants P p) {k : CompositeKey} (h : P v)
    (hk : CompositeKey.read? v = some k) : k.options.Texts p := by
  obtain ⟨r, hr, rfl⟩ := Option.map_eq_some_iff.1 hk
  exact KeyOptions.texts_ofEntries g (g.entries (Grants.object h hr))

/-! ## Fields -/

structure FieldState.Texts (p : String → Prop) (s : FieldState) : Prop where
  name : Given p s.name
  kind : Given p s.kind
  mode : Given p s.mode

theorem FieldState.texts_read? (g : Grants P p) {s : FieldState} (h : P v)
    (hs : FieldState.read? v = some s) : s.Texts p := by
  obtain ⟨r, hr, rfl⟩ := Option.map_eq_some_iff.1 hs
  have hg := g.record h hr
  exact ⟨g.fieldText hg "name", g.fieldText hg "type", g.fieldText hg "mode"⟩

theorem FieldState.texts_empty : FieldState.Texts p {} :=
  ⟨given_none p, given_none p, given_none p⟩

structure FieldChange.Texts (p : String → Prop) (c : FieldChange) : Prop where
  old : c.old.Texts p
  new : c.new.Texts p

theorem FieldChange.texts_read? (g : Grants P p) {c : FieldChange} (h : P v)
    (hc : FieldChange.read? v = some c) : c.Texts p := by
  obtain ⟨r, hr, rfl⟩ := Option.map_eq_some_iff.1 hc
  have hg := g.record h hr
  exact ⟨g.nested (g.field hg "oldField") (FieldState.texts_read? g) FieldState.texts_empty,
    g.nested (g.field hg "newField") (FieldState.texts_read? g) FieldState.texts_empty⟩

theorem FieldChange.texts_empty : FieldChange.Texts p {} :=
  ⟨FieldState.texts_empty, FieldState.texts_empty⟩

structure Encryption.Texts (p : String → Prop) (e : Encryption) : Prop where
  algorithm : Given p e.algorithm
  integrity : Given p e.integrity

theorem Encryption.texts_read? (g : Grants P p) {e : Encryption} (h : P v)
    (he : Encryption.read? v = some e) : e.Texts p := by
  obtain ⟨r, hr, rfl⟩ := Option.map_eq_some_iff.1 he
  have hg := g.record h hr
  exact ⟨g.fieldText hg "ENCRYPTION_ALGORITHM", g.fieldText hg "INTEGRITY_ALGORITHM"⟩

theorem Encryption.texts_empty : Encryption.Texts p {} := ⟨given_none p, given_none p⟩

structure Field.Texts (p : String → Prop) (f : Field) : Prop where
  typing : f.typing.Texts p
  primaryKeyOptions : f.primaryKeyOptions.Texts p
  uniqueKeyOptions : f.uniqueKeyOptions.Texts p
  default : Given p f.default
  description : Given p f.description
  refDescription : Given p f.refDescription
  encryption : ∀ e ∈ f.encryption, e.Texts p
  change : ∀ c ∈ f.change, c.Texts p

theorem Field.texts_read? (g : Grants P p) {f : Field} (h : P v) (hf : Field.read? v = some f) :
    f.Texts p := by
  obtain ⟨r, hr, rfl⟩ := Option.map_eq_some_iff.1 hf
  have hobject := Grants.object h hr
  have hg := g.entries hobject
  exact
    { typing := Typing.texts_ofEntries g hobject
      primaryKeyOptions :=
        g.nested (g.field hg "primaryKeyOptions") (KeyOptions.texts_read? g) KeyOptions.texts_empty
      uniqueKeyOptions :=
        g.nested (g.field hg "uniqueKeyOptions") (KeyOptions.texts_read? g) KeyOptions.texts_empty
      default := g.fieldText hg "default"
      description := g.fieldText hg "description"
      refDescription := g.fieldText hg "refDescription"
      encryption :=
        g.nested? (g.field hg "encryption") (Encryption.texts_read? g) Encryption.texts_empty
      change :=
        g.nested? (g.field hg "compMod") (FieldChange.texts_read? g) FieldChange.texts_empty }

/-- The names and the texts of all fields. -/
def Fields.Texts (p : String → Prop) (fields : Fields) : Prop :=
  ∀ e ∈ fields, p e.1 ∧ e.2.Texts p

theorem Fields.texts_table (g : Grants P p) (h : P v) :
    Fields.Texts p (v.table Field.read?) :=
  g.table h (Field.texts_read? g)

end Model

end SchemaDelta
