import SchemaDelta.Model.Table
import SchemaDelta.Sql.Fragment
import SchemaDelta.Sql.Name

/-!
# Keys

A reference to a column means the first column with its identifier, or else the column with its
name; a reference to neither is dropped. Composite keys are made of resolved references, and a key
is active as long as one of its columns is.
-/

namespace SchemaDelta

/-- A column as a member of a key. -/
structure KeyMember where
  name : String
  active : Bool
deriving DecidableEq

/-- The quoted name of the column. -/
def KeyMember.quoted (c : KeyMember) : Sql.Fragment :=
  ⟨Sql.quote c.name, c.active⟩

/-- No quoted name is empty. -/
theorem KeyMember.quoted_ne_empty (columns : List KeyMember) :
    ∀ f ∈ columns.map quoted, f.text ≠ "" := by
  intro f hf
  obtain ⟨c, -, rfl⟩ := List.mem_map.1 hf
  intro h
  simpa [quoted, Sql.quote, Sql.enclosed] using congrArg String.toList h

/-- To choose among quoted names is to choose among the columns. -/
theorem KeyMember.filter_text_quoted (p : Sql.Fragment → Bool) (columns : List KeyMember) :
    ((columns.map quoted).filter p).map Sql.Fragment.text =
      (columns.filter (p ∘ quoted)).map fun c => Sql.quote c.name := by
  rw [List.filter_map, List.map_map]
  rfl

/-- There are columns, and none is active. -/
def KeyMember.noneActive (columns : List KeyMember) : Bool :=
  !columns.isEmpty && columns.all fun c => !c.active

theorem KeyMember.noneActive_eq_true {columns : List KeyMember} :
    noneActive columns = true ↔ columns ≠ [] ∧ ∀ c ∈ columns, c.active = false := by
  simp [noneActive]

/-- The quoted names are as active as the columns. -/
@[simp] theorem KeyMember.noneActive_quoted (columns : List KeyMember) :
    Sql.noneActive (columns.map quoted) = noneActive columns := by
  simp [Sql.noneActive, noneActive, quoted, Function.comp_def]

/-- The first field with the identifier. -/
def Model.Fields.withGuid? (fields : Model.Fields) (guid : String) :
    Option (String × Model.Field) :=
  fields.find? fun e => e.2.guid == some guid

/-- The field with the name. -/
def Model.Fields.named? (fields : Model.Fields) (name : String) : Option (String × Model.Field) :=
  fields.find? fun e => e.1 == name

/-- The column that a reference means: by identifier first, by name otherwise. -/
def Model.ColumnRef.resolve? (fields : Model.Fields) (ref : Model.ColumnRef) : Option KeyMember :=
  (ref.keyId.bind fields.withGuid? <|> ref.name.bind fields.named?).map fun e =>
    ⟨e.1, e.2.active⟩

/-- Where the fields keep their names and identifiers, a reference finds the same one. -/
theorem Model.ColumnRef.resolve?_map {g : Model.Field → Model.Field}
    (hguid : ∀ f, (g f).guid = f.guid) (fields : Model.Fields) (ref : Model.ColumnRef) :
    ref.resolve? (fields.map fun e => (e.1, g e.2)) =
      (ref.keyId.bind fields.withGuid? <|> ref.name.bind fields.named?).map fun e =>
        ⟨e.1, (g e.2).active⟩ := by
  let changed : String × Model.Field → String × Model.Field := fun e => (e.1, g e.2)
  have hkey : ref.keyId.bind (Model.Fields.withGuid? (fields.map changed)) =
      (ref.keyId.bind fields.withGuid?).map changed := by
    cases ref.keyId with
    | none => rfl
    | some guid =>
      have htest : (fun e => (changed e).2.guid == some guid) = fun e => e.2.guid == some guid :=
        funext fun e => by rw [hguid]
      exact (List.find?_map ..).trans (congrArg (fun p => (fields.find? p).map changed) htest)
  have hname : ref.name.bind (Model.Fields.named? (fields.map changed)) =
      (ref.name.bind fields.named?).map changed := by
    cases ref.name with
    | none => rfl
    | some name => exact List.find?_map ..
  rw [resolve?, hkey, hname]
  -- The identifier of a column comes before its name.
  cases ref.keyId.bind fields.withGuid? with
  | some e => rfl
  | none => exact Option.map_map _ _ _

/-- The columns that the references mean, in their order. -/
def resolveKeys (refs : List Model.ColumnRef) (fields : Model.Fields) : List KeyMember :=
  refs.filterMap (Model.ColumnRef.resolve? fields)

/-- The two kinds of keys of a table. -/
inductive TableKey.Kind where
  | primary
  | unique

/-- The keyword of a kind. -/
def TableKey.Kind.keyword : TableKey.Kind → String
  | primary => "PRIMARY KEY"
  | unique => "UNIQUE"

/-- A composite key of a table. -/
structure TableKey where
  kind : TableKey.Kind
  columns : List KeyMember
  options : Model.KeyOptions

/-- A key is active unless all its columns are inactive. -/
def TableKey.active (k : TableKey) : Bool :=
  !KeyMember.noneActive k.columns

/-- The composite keys of a table: the primary keys and then the unique ones, each with at least one
column. -/
def Model.Table.keyConstraints (t : Model.Table) : List TableKey :=
  let primary := t.primaryKeys.map fun k =>
    TableKey.mk .primary (resolveKeys k.primary t.fields) k.options
  let unique := t.uniqueKeys.map fun k =>
    TableKey.mk .unique (resolveKeys k.unique t.fields) k.options
  (primary ++ unique).filter fun k => !k.columns.isEmpty

/-- No key is empty. -/
theorem Model.Table.columns_ne_nil_of_mem {t : Model.Table} {k : TableKey}
    (h : k ∈ t.keyConstraints) : k.columns ≠ [] := by
  simpa [List.isEmpty_iff] using (List.mem_filter.1 h).2

/-- A foreign key. -/
structure ForeignKey where
  name : Option String := none
  foreignTable : String
  foreignSchema : Option String := none
  foreignColumns : List KeyMember
  primaryTable : String
  primarySchema : Option String := none
  primaryColumns : List KeyMember
  foreignTableActive : Bool := true
  primaryTableActive : Bool := true

/-- A foreign key is active when both tables are and neither list of columns is all inactive. -/
def ForeignKey.active (k : ForeignKey) : Bool :=
  k.foreignTableActive && k.primaryTableActive && !KeyMember.noneActive k.foreignColumns &&
    !KeyMember.noneActive k.primaryColumns

end SchemaDelta
